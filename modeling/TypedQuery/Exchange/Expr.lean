import TypedQuery.Exchange.Value
import TypedQuery.Expr.Function
import TypedQuery.Expr.Path

/-!
# Parts of expressions as documents

Slots, the steps of paths and the names of operators, and what a type tells about itself.
-/

namespace TypedQuery

/-- A slot is named, or given by its position. -/
def Slot.ofJson? : Json -> Option Slot
  | .string name => some ⟨name⟩
  | j => j.natural?.map .ofPosition

namespace PathStep

def ofJson? : Json -> Option PathStep
  | .array [.string "table", slot] => (Slot.ofJson? slot).map table
  | .array [.string "column", .string name] => some (column name)
  | .array [.string "key", .string k, .bool asText] => some (key k asText)
  | .array [.string "index", .number (.integer n), .bool asText] => some (index (.ofInt n) asText)
  | .array [.string "derived", .string name] => some (derived name)
  | _ => none

end PathStep

namespace BinaryOp

def ofName? : String -> Option BinaryOp
  | "eq" => some .eq
  | "ne" => some .ne
  | "lt" => some .lt
  | "lte" => some .lte
  | "gt" => some .gt
  | "gte" => some .gte
  | "and" => some .and
  | "or" => some .or
  | "add" => some .add
  | "sub" => some .sub
  | "mul" => some .mul
  | "div" => some .div
  | _ => none

end BinaryOp

namespace Expr

/-- The expressions that a name makes of one operand. -/
def unary? (name : String) : Option (Expr -> Expr) :=
  match name with
  | "not" => some .not
  | "is_null" => some .isNull
  | "is_not_null" => some .isNotNull
  | "array_length" => some (.unary .arrayLength)
  | _ =>
      if ["year", "month", "day", "hour", "minute", "second", "date", "length", "to_upper",
          "to_lower"].contains name then some (.derived · name)
      else none

/-- The expressions that a name makes of two operands: operators, and methods with one argument. -/
def binary? (name : String) : Option (Expr -> Expr -> Expr) :=
  match BinaryOp.ofName? name with
  | some op => some (.binary op)
  | none =>
      if ["starts_with", "ends_with", "contains", "starts_with_ignore_case", "substring", "index",
          "pg_in", "pg_not_in", "pg_contains_any"].contains name then
        some fun receiver argument => receiver.call name [argument]
      else none

/-- The step into a document that a name and its argument stand for. -/
def jsonStep? (name : String) (argument : Json) : Option PathStep :=
  match name, argument with
  | "json", .string k => some (.key k false)
  | "json_text", .string k => some (.key k true)
  | "json_at", .number (.integer n) => some (.index (.ofInt n) false)
  | "json_at_text", .number (.integer n) => some (.index (.ofInt n) true)
  | _, _ => none

end Expr

namespace SqlFunction

def summary (f : SqlFunction) (args : List SqlType) : Json :=
  let counts := List.range 6
  .ofMembers [("name", .string f.name), ("required", .ofNat f.required),
    ("defaults", .array (f.defaults.map .string)), ("variadic", .bool f.variadic),
    ("accepts", .array (counts.map fun n => .bool (f.accepts n))),
    ("missing", .array (counts.map fun n => .ofNat (f.missingDefaults n).length)),
    ("returns", (f.returns.resolve args).toJson)]

end SqlFunction

def SqlType.summary (t : SqlType) : Json :=
  .ofMembers [("ty", t.toJson), ("cast", .string t.cast), ("display", .string t.display),
    ("kind", .string t.kind.name), ("item", .ofOption SqlType.toJson t.item?),
    ("array", .bool t.isArray), ("json", .bool t.isJson), ("numeric", .bool t.isNumeric)]

end TypedQuery
