import TypedQuery.Json.Reader
import TypedQuery.Schema.Registry
import TypedQuery.Session.Duration
import TypedQuery.Settings.UrlReader

/-!
# Connection settings

Settings come from a URL, from the environment, or from a document, which is the only source that
may name any scheme.  Every other setting has a default.
-/

namespace TypedQuery

inductive SettingsFault where
  | url (fault : UrlFault)
  | scheme (name : String)
  | noHost
  | noVariable
  | document
  /-- A part of the URL means nothing to the server. -/
  | login
deriving DecidableEq

def urlVariable : String := "DATABASE_URL"

def schemaVariable : String := "DATABASE_SCHEMA"

namespace SettingsFault

def text (words : Wording) : SettingsFault -> String
  | url fault => "invalid DSN: " ++ fault.text
  | scheme name => s!"unsupported scheme `{name}`; expected `postgres`"
  | noHost => "DSN has no host"
  | noVariable => s!"{urlVariable} is not set"
  | document => words.document
  | login => words.plain

def message (words : Wording) (f : SettingsFault) : String :=
  "configuration error: " ++ f.text words

end SettingsFault

structure ConnectionSettings where
  url : Url
  /-- The schema of models that do not name one. -/
  schema : String := publicSchema
  maxConnections : Nat := 10
  /-- How many milliseconds the server gives a statement. -/
  statementTimeout : Option Nat := none

namespace ConnectionSettings

def ofUrl (url : Url) : Except SettingsFault ConnectionSettings :=
  if url.scheme ≠ "postgres" ∧ url.scheme ≠ "postgresql" then .error (.scheme url.scheme)
  else if url.host?.isNone then .error .noHost
  else .ok { url }

def ofText (dsn : String) : Except SettingsFault ConnectionSettings := do
  ofUrl (<- (Url.ofText dsn).mapError .url)

/-- Settings from the environment, in which a variable may be missing. -/
def ofEnvironment (lookup : String -> Option String) :
    Except SettingsFault ConnectionSettings := do
  match lookup urlVariable with
  | none => throw .noVariable
  | some dsn =>
      let settings <- ofText dsn
      return { settings with schema := (lookup schemaVariable).getD settings.schema }

def withSchema (s : ConnectionSettings) (schema : String) : ConnectionSettings := { s with schema }

def withMaxConnections (s : ConnectionSettings) (count : Nat) : ConnectionSettings :=
  { s with maxConnections := count }

/-- Limits statements to whole milliseconds, as many as 64 bits can count. -/
def withStatementTimeout (s : ConnectionSettings) (limit : Duration) : ConnectionSettings :=
  { s with statementTimeout := some (min limit.milliseconds (Number.twoPow 64 - 1)) }

def database? (s : ConnectionSettings) : Option String := s.url.firstSegment?

def redacted (s : ConnectionSettings) : String := (s.url.withPassword "***").toText

/-!
## Documents

A document is an object with the settings by name, or an array of them in order.  Only the URL
must be there.
-/

def fieldNames : List String := ["url", "schema", "max_connections", "statement_timeout_ms"]

def toText (s : ConnectionSettings) : String :=
  let values := [.string s.url.toText, .string s.schema, .ofNat s.maxConnections,
    Json.ofOption Json.ofNat s.statementTimeout]
  "\x7b" ++ Json.membersText (fieldNames.zip values) ++ "\x7d"

/-- A whole number of so many bits. -/
def count? (bits : Nat) (j : Json) : Option Nat := do
  let n <- j.integer?
  if 0 ≤ n ∧ n < Number.twoPow bits then some n.toNat else none

/-- Settings whose values are given by name. -/
def ofFields? (field? : String -> Option Json) : Option ConnectionSettings := do
  let field {α : Type} (name : String) (read : Json -> Option α) (otherwise : Option α) :
      Option α :=
    match field? name with
    | some j => read j
    | none => otherwise
  return {
    url := <- field "url" (fun j => do (Url.ofText (<- j.text?)).toOption) none
    schema := <- field "schema" Json.text? (some publicSchema)
    maxConnections := <- field "max_connections" (count? 32) (some 10)
    statementTimeout :=
      <- field "statement_timeout_ms" (Json.optionOf? (count? 64)) (some none) }

/-- Reads a document; a setting may not be given twice. -/
def ofDocument? (text : String) : Option ConnectionSettings :=
  match Json.membersOfText? text with
  | some members =>
      let known := (members.map (·.1)).filter fieldNames.contains
      if known.eraseDups.length ≠ known.length then none
      else ofFields? fun name => (members.find? (·.1 == name)).map (·.2)
  | none => do
      let values <- (<- Json.ofText? text).items?
      if values.length > fieldNames.length then none
      else ofFields? fun name => ((fieldNames.zip values).find? (·.1 == name)).map (·.2)

def ofDocument (text : String) : Except SettingsFault ConnectionSettings :=
  match ofDocument? text with
  | some settings => .ok settings
  | none => .error .document

end ConnectionSettings

end TypedQuery
