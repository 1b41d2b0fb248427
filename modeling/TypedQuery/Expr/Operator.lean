import TypedQuery.Expr.Basic

/-!
# Typed operators

Fragments are put together with everything they apply to in parentheses, and the type of the
result follows from the types of the operands.
-/

namespace TypedQuery

namespace SqlType

/-- Whether values of two types can be compared: NULL with everything, JSON with JSON, an enum
with itself and with text, arrays by their items, and every other kind with itself. -/
def comparable : SqlType -> SqlType -> Bool
  | null, _ => true
  | _, null => true
  | array a, array b => comparable a b
  | enum a, enum b => a = b
  | enum _, text => true
  | text, enum _ => true
  | a, b => a.kind = b.kind

def wider (a b : SqlType) : SqlType :=
  let floating (t : SqlType) : Bool := t = real || t = double
  if floating a || floating b then
    if a = real && b = real then real else double
  else if a = numeric || b = numeric then numeric
  else if a = bigint || b = bigint then bigint
  else integer

def isMoment : SqlType -> Bool
  | date | timestamp | time => true
  | _ => false

def arithmetic? (op : BinaryOp) (l r : SqlType) : Option SqlType :=
  let additive := op = .add || op = .sub
  if l = null && r = null then none
  else if l = null && r.isNumeric then some r
  else if r = null && l.isNumeric then some l
  else if l.isNumeric && r.isNumeric then some (wider l r)
  else if isMoment l && r = interval && additive then some l
  else if l = interval && isMoment r && op = .add then some r
  else if l = interval && r = interval && additive then some interval
  else if l = timestamp && r = timestamp && op = .sub then some interval
  else if l = date && r = date && op = .sub then some integer
  else if l = interval && r.isNumeric && (op = .mul || op = .div) then some interval
  else none

end SqlType

namespace TypedFragment

def ofValue (v : Typed) : TypedFragment := ⟨Fragment.empty.value v, v.type⟩

def surround (before : String) (inner : TypedFragment) (after : String) (type : SqlType) :
    TypedFragment :=
  ⟨((Fragment.empty.text before).nested inner.query).text after, type⟩

def combine (left : TypedFragment) (op : String) (right : TypedFragment) (type : SqlType) :
    TypedFragment :=
  ⟨((((Fragment.empty.text "(").nested left.query).text (") " ++ op ++ " (")).nested
      right.query).text ")", type⟩

/-- The JSON document of a value; a text is cast first, so that its type is known. -/
def toJsonb (value : TypedFragment) : TypedFragment :=
  if value.type = .text then surround "to_jsonb((" value ")::text)" (.json none)
  else surround "to_jsonb(" value ")" (.json none)

def requireBoolean (op : String) (operand : TypedFragment) : Result Unit :=
  match operand.type with
  | .boolean | .null => .ok ()
  | other => .error (.compile (.booleanOperands op other))

def isTextual : SqlType -> Bool
  | .text | .enum _ | .null => true
  | _ => false

/-- Addition concatenates texts and arrays; all else is arithmetic on numbers and times. -/
def arithmetic (op : BinaryOp) (left right : TypedFragment) : Result TypedFragment :=
  let (l, r) := (left.type, right.type)
  if op = .add && (l = .text || r = .text) && isTextual l && isTextual r then
    .ok (combine left "||" right .text)
  else if op = .add && l.isArray && (r.isArray || r = .null) then
    .ok (combine left "||" right l)
  else
    match SqlType.arithmetic? op l r with
    | some type => .ok (combine left op.sql right type)
    | none => .error (.compile (.inapplicable op.sql l r))

def logic (op : BinaryOp) (left right : TypedFragment) : Result TypedFragment := do
  requireBoolean op.sql left
  requireBoolean op.sql right
  return combine left op.sql right .boolean

/-- A comparison with one JSON side turns the other side into JSON. -/
def comparison (op : BinaryOp) (left right : TypedFragment) : Result TypedFragment :=
  let (l, r) := (left.type, right.type)
  if l.isJson && !r.isJson then .ok (combine left op.sql right.toJsonb .boolean)
  else if r.isJson && !l.isJson then .ok (combine left.toJsonb op.sql right .boolean)
  else if l.comparable r then .ok (combine left op.sql right .boolean)
  else .error (.compile (.incomparable l r))

def operator (op : BinaryOp) (left right : TypedFragment) : Result TypedFragment :=
  match op with
  | .and | .or => logic op left right
  | .add | .sub | .mul | .div => arithmetic op left right
  | _ => comparison op left right

def unary (op : UnaryOp) (operand : TypedFragment) : Result TypedFragment :=
  match op with
  | .not => do
      requireBoolean "NOT" operand
      return surround "NOT (" operand ")" .boolean
  | .cast type => .ok (surround "(" operand (")::" ++ type.cast) type)
  | .arrayLength =>
      if operand.type.isArray then .ok (surround "cardinality(" operand ")" .integer)
      else .error (.compile (.arrayLength operand.type))

def jsonStep (base : TypedFragment) (key : Typed) (asText : Bool) : Result TypedFragment :=
  if base.type.isJson then
    let op := if asText then "->>" else "->"
    let type := if asText then SqlType.text else .json none
    .ok ⟨((Fragment.empty.nested base.query).text op).value key, type⟩
  else .error (.compile (.jsonAccess base.type))

/-- A text constant that meets an enum is a label of it. -/
def enumLabel? (target : SqlType) (e : Expr) : Option TypedFragment :=
  match target, e with
  | .enum _, .constant ⟨.text label, _⟩ => some (ofValue ⟨.enum label, target⟩)
  | _, _ => none

end TypedFragment

end TypedQuery
