import TypedQuery.Settings.Connection

/-!
# Logins

What a connection tells the server about itself at its start, and the directory of its socket where
it goes through one.  It is read from the parts of the URL and from its query, which wins;
parameters of a query that mean nothing are passed over.
-/

namespace TypedQuery

structure Login where
  user : String := ""
  database : Option String := none
  /-- Options of the session, as they are written on a command line. -/
  options : Option String := none
  /-- The directory of a socket, which is not told to the server. -/
  socket : Option String := none
deriving Inhabited

namespace Login

/-- A host that is a directory: the server is asked through a socket in it. -/
def socket? (host : String) : Option String :=
  if host.toList.head? = some '/' then some host else none

def addOptions (l : Login) (text : String) : Login :=
  { l with options := some (match l.options with
    | some before => if before.isEmpty then text else before ++ " " ++ text
    | none => text) }

/-- Sets a parameter of the server; blanks and backslashes in it are marked. -/
def setParameter (l : Login) (name value : String) : Login :=
  let marked := (name ++ "=" ++ value).toList.flatMap fun c =>
    if c = ' ' ∨ c = '\\' then ['\\', c] else [c]
  l.addOptions ("-c " ++ String.ofList marked)

/-!
## Parameters in queries
-/

/-- The text of a name or of a value in a query, where a plus sign stands for a blank. -/
def formText (cs : List Char) : String :=
  (Percent.decode? (String.ofList (cs.map fun c => if c = '+' then ' ' else c))).getD "\uFFFD"

/-- The pairs of a query. -/
def formPairs (query : String) : List (String × String) :=
  ((Text.splitOnChar '&' query.toList).filter (!·.isEmpty)).map fun pair =>
    (formText (pair.takeWhile (· != '=')), formText ((pair.dropWhile (· != '=')).drop 1))

/-- Digits after an optional plus sign, below a bound. -/
def isCount (bound : Nat) (text : String) : Bool :=
  let digits := match text.toList with
    | '+' :: rest => rest
    | cs => cs
  match Number.readNat? digits with
  | some n => n < bound
  | none => false

def isAddress (text : String) : Bool :=
  (Ipv6.quad? text.toList).isSome || (Ipv6.ofText? text.toList).isSome

/-- The ways to use an encrypted connection. -/
def sslModes : List String := ["disable", "allow", "prefer", "require", "verify-ca", "verify-full"]

/-- The name between the brackets of `options[…]`. -/
def optionName? (key : String) : Option String :=
  let opening := "options[".toList
  if opening.isPrefixOf key.toList then
    match (key.toList.drop opening.length).reverse with
    | ']' :: name => some (String.ofList name.reverse)
    | _ => none
  else none

/-- Whether the value of a parameter can be read at all. -/
def isReadable (key value : String) : Bool :=
  match key with
  | "sslmode" | "ssl-mode" => sslModes.contains value.toLower
  | "statement-cache-capacity" => isCount (Number.twoPow 64) value
  | "hostaddr" => isAddress value
  | "port" => isCount (Number.twoPow 16) value
  | _ => true

def withParameter (l : Login) (key value : String) : Login :=
  match key with
  | "user" => { l with user := value }
  | "dbname" => { l with database := some value }
  | "host" => { l with socket := (socket? value).or l.socket }
  | "options" => match l.options with
      | some before => { l with options := some (before ++ " " ++ value) }
      | none => { l with options := some value }
  | _ => match optionName? key with
      | some name => l.setParameter name value
      | none => l

/-!
## From settings
-/

def ofParts? (url : Url) : Option Login := do
  let authority := url.authority.getD { host := "" }
  let user <- Percent.decode? authority.username
  let _ <- Percent.decode? (authority.password.getD "")
  let path := String.ofList (url.path.toText.toList.dropWhile (· == '/'))
  let database <- Percent.decode? path
  let socket := (Percent.decode? authority.host).bind socket?
  return { user, database := if path.isEmpty then none else some database, socket }

def ofUrl? (url : Url) : Option Login := do
  let pairs := formPairs (url.query.getD "")
  let l <- ofParts? url
  if pairs.all fun (key, value) => isReadable key value then
    return pairs.foldl (fun l (key, value) => l.withParameter key value) l
  else none

def ofSettings (s : ConnectionSettings) : Except SettingsFault Login :=
  match ofUrl? s.url with
  | some l =>
      .ok (match s.statementTimeout with
        | some limit => l.setParameter "statement_timeout" (toString limit)
        | none => l)
  | none => .error .login

end Login

end TypedQuery
