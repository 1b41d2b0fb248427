import TypedQuery.Exchange.Value
import TypedQuery.Session.Fault
import TypedQuery.Settings.Connection

/-!
# Errors as documents

A document of an error has its kind and its message; faults of a session show instead what a
caller can ask them.
-/

namespace TypedQuery

def errorDocument (kind message : String) : Json :=
  .ofMembers [("error", .string kind), ("message", .string message)]

namespace Error

def kind : Error -> String
  | mapping _ => "ModelMapping"
  | compile _ => "Compile"
  | conversion _ => "Conversion"
  | emptyMutation _ => "EmptyMutation"

/-- A number out of range is worded like every other value that cannot be read. -/
def toJson (words : Wording) (e : Error) : Json :=
  errorDocument e.kind (match e with
    | .conversion .tooLarge | .conversion .tooSmall => ConversionFault.heading ++ words.plain
    | e => e.message words)

end Error

namespace ServerFault

def kind : ServerFault -> String
  | rowNotFound => "RowNotFound"
  | protocol => "Protocol"
  | database _ => "Database"
  | other => "Other"

end ServerFault

namespace Fault

def toJson (words : Wording) (f : Fault) : Json :=
  let sqlstate := ("sqlstate", Json.ofOption .string f.sqlstate?)
  let message := f.message words
  match f with
  | query error => error.toJson words
  | server fault =>
      .ofMembers [("error", .string "Server"), ("class", .string fault.kind), sqlstate]
  | timeout _ => errorDocument "Timeout" message
  | batch inner =>
      .ofMembers [("error", .string "BatchFault"), ("inner", inner.toJson words),
        ("server", .bool f.server?.isSome), sqlstate]
  | abandoned => errorDocument "Abandoned" message
  | missingResult expected received =>
      .ofMembers [("error", .string "MissingResult"), ("expected", .ofNat expected),
        ("received", .ofNat received), ("message", .string message)]

end Fault

namespace SettingsFault

def toJson (words : Wording) (f : SettingsFault) : Json := errorDocument "Config" (f.message words)

end SettingsFault

namespace ConnectionSettings

def toJson (s : ConnectionSettings) : Json :=
  .ofMembers [("url", .string s.url.toText), ("schema", .string s.schema),
    ("max_connections", .ofNat s.maxConnections),
    ("statement_timeout_ms", .ofOption .ofNat s.statementTimeout),
    ("database", .ofOption .string s.database?), ("redacted", .string s.redacted),
    ("serialized", .string s.toText)]

end ConnectionSettings

end TypedQuery
