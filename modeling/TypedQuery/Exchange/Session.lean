import TypedQuery.Exchange.Host
import TypedQuery.Exchange.Rendered
import TypedQuery.Session.Recording
import TypedQuery.Wire.Scripted

/-!
# Sessions as documents

Prepared replies are read from documents, and what was asked and sent is written as documents: a
tag with what belongs to it.
-/

namespace TypedQuery

namespace IsolationLevel

def ofName? : String -> Option IsolationLevel
  | "read_uncommitted" => some readUncommitted
  | "read_committed" => some readCommitted
  | "repeatable_read" => some repeatableRead
  | "serializable" => some serializable
  | "default" => some default
  | _ => none

end IsolationLevel

namespace Command

def members (c : Command) : List (String × Json) :=
  RenderMode.members c.render ++ [("len", .ofNat c.size), ("empty", .bool c.isEmpty)]

def toJson (c : Command) : Json := .ofMembers c.members

end Command

def tagged (tag : String) (arguments : List Json) : Json := .array (.string tag :: arguments)

namespace Recorded

def toJson : Recorded -> Json
  | connected => tagged "connect" []
  | began isolation => tagged "begin" [.string isolation.sql]
  | ran command =>
      let rendered := command.render (.bound .atSign)
      tagged "run" [.ofNat command.size, .string rendered.sql, rendered.params.toJson]
  | committed => tagged "commit" []
  | rolledBack => tagged "rollback" []
  | cancelled session => tagged "cancel" [.ofInt session.toInt]

end Recorded

namespace Fault

def ofJson? (j : Json) : Option Fault := do
  match <- (j.entry "kind").text? with
  | "protocol" => some (.server .protocol)
  | "database" => do return .server (.database (<- Json.optionOf? Json.text? (j.entry "code")))
  | "core" => some (.query (.emptyMutation "scripted"))
  | "missing" => some (.missingResult 2 1)
  | _ => none

end Fault

namespace Wire

/-- A cell is null, text, or bytes in hexadecimal digits. -/
def cellOfJson? : Json -> Option (Option (List UInt8))
  | .null => some none
  | .string text => some (some (utf8 text))
  | j => do return some (<- Hex.decode? (<- (j.entry "x").text?).toList)

def RawSet.ofJson? (j : Json) : Option RawSet := do
  let columns <- Json.optionOf? (Json.listOf? Json.natural?) (j.entry "cols")
  let rows <- Json.optionOf? (Json.listOf? (Json.listOf? cellOfJson?)) (j.entry "rows")
  let tag <- Json.optionOf? Json.text? (j.entry "tag")
  return ⟨columns.getD [], rows.getD [], Script.affectedOfTag (tag.getD "")⟩

def Bound.toJson (b : Bound) : Json :=
  .ofOption (fun bytes => .string (String.ofList (Hex.encode bytes))) b.bytes

end Wire

namespace Login

def toJson (l : Login) : Json :=
  .ofMembers ([("user", .string l.user), ("database", .ofOption .string l.database)] ++
    match l.options with
    | some options => [("options", .string options)]
    | none => [])

end Login

namespace Wire

/-- The types of users by their numbers, with the types of elements. -/
def typesOfJson? : Json -> Option (List (Oid × Oid))
  | .object members =>
      members.mapM fun (type, element) => do return (<- type.toNat?, <- element.natural?)
  | _ => some []

def Traffic.toJson : Traffic -> Json
  | startup login => tagged "startup" [login.toJson]
  | query sql => tagged "query" [.string sql]
  | prepared sql parameters =>
      tagged "prepared" [.string sql, .array (parameters.map fun b => .ofNat b.type),
        .array (parameters.map Bound.toJson)]
  | lookup types => tagged "lookup" [.array (types.map Json.ofNat)]
  | processId => tagged "pid" []
  | cancel session => tagged "cancel" [.ofInt session.toInt]

end Wire

end TypedQuery
