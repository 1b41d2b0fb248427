import TypedQuery.Expr.Basic
import TypedQuery.Text.Case

/-!
# Folding constants

Subtrees made only of constants are evaluated once, before compilation.  What the server could
answer differently is left to it: NULL operands, overflow, division by zero, decimal division,
the order of texts, and every call marked for the server.
-/

namespace TypedQuery
namespace Fold

def int64? (n : Int) : Option Int64 :=
  if -(Number.twoPow 63) ≤ n ∧ n < Number.twoPow 63 then some (Int64.ofInt n) else none

def int32? (n : Int) : Option Int32 :=
  if -(Number.twoPow 31) ≤ n ∧ n < Number.twoPow 31 then some (Int32.ofInt n) else none

def boolean (b : Bool) : Typed := ⟨.bool b, .boolean⟩

def ofText (s : String) : Typed := ⟨.text s, .text⟩

def integer? : Value -> Option Int64
  | .int n => some n.toInt64
  | .bigint n => some n
  | _ => none

def decimal? : Value -> Option Number.Decimal
  | .decimal d => some d
  | v => (integer? v).map Number.Decimal.ofInt64

/-- The value as a double, an integer being rounded to the nearest. -/
def double? : Value -> Option Float
  | .float x => some x.widen.toFloat
  | .double x => some x.toFloat
  | v => (integer? v).map Int64.toFloat

def compared (op : BinaryOp) (order : Ordering) : Option Typed :=
  match op with
  | .eq => some (boolean (order == .eq))
  | .ne => some (boolean (order != .eq))
  | .lt => some (boolean (order == .lt))
  | .lte => some (boolean (order != .gt))
  | .gt => some (boolean (order == .gt))
  | .gte => some (boolean (order != .lt))
  | _ => none

def equated (op : BinaryOp) (equal : Bool) : Option Typed :=
  match op with
  | .eq => some (boolean equal)
  | .ne => some (boolean (!equal))
  | _ => none

def booleans (op : BinaryOp) (a b : Bool) : Option Typed :=
  match op with
  | .and => some (boolean (a && b))
  | .or => some (boolean (a || b))
  | op => equated op (a == b)

/-- The exact result of an integer operation, division going toward zero. -/
def integerResult? (op : BinaryOp) (a b : Int) : Option Int :=
  match op with
  | .add => some (a + b)
  | .sub => some (a - b)
  | .mul => some (a * b)
  | .div => if b = 0 then none else some (a.tdiv b)
  | _ => none

/-- Integers are computed with 64 bits.  The result is narrowed to 32 bits when both operands
have 32 bits. -/
def integers (op : BinaryOp) (narrow : Bool) (a b : Int64) : Option Typed :=
  if op.isComparison then compared op (compare a.toInt b.toInt)
  else do
    let result <- int64? (<- integerResult? op a.toInt b.toInt)
    if narrow then return ⟨.int (<- int32? result.toInt), .integer⟩
    else return ⟨.bigint result, .bigint⟩

def decimals (op : BinaryOp) (a b : Number.Decimal) : Option Typed :=
  if op.isComparison then compared op (a.compare b)
  else do
    let result <-
      match op with
      | .add => a.add? b
      | .sub => a.sub? b
      | .mul => a.mul? b
      | _ => none
    return ⟨.decimal result, .numeric⟩

/-- The order of two doubles, unless one of them is no number. -/
def doubleOrder? (a b : Float) : Option Ordering :=
  if a < b then some .lt else if b < a then some .gt else if a == b then some .eq else none

def doubles (op : BinaryOp) (a b : Float) : Option Typed :=
  if op.isComparison then (doubleOrder? a b).bind (compared op)
  else do
    let result <-
      match op with
      | .add => some (a + b)
      | .sub => some (a - b)
      | .mul => some (a * b)
      | .div => if b == 0 then none else some (a / b)
      | _ => none
    let result := Number.Double.ofFloat result
    if result.isFinite then return ⟨.double result, .double⟩ else none

def texts (op : BinaryOp) (a b : String) : Option Typed :=
  match op with
  | .add => some (ofText (a ++ b))
  | op => equated op (a == b)

/-- Values of one type that is not JSON can be told apart. -/
def others (op : BinaryOp) (left right : Typed) : Option Typed :=
  if left.type = right.type ∧ left.type.isJson = false then
    equated op (left.value.same right.value)
  else none

private def isInteger (v : Value) : Bool := (integer? v).isSome

private def isFloating : Value -> Bool
  | .float _ | .double _ => true
  | _ => false

private def isDecimal : Value -> Bool
  | .decimal _ => true
  | _ => false

def binary? (op : BinaryOp) (left right : Typed) : Option Typed :=
  let (l, r) := (left.value, right.value)
  if l.isNull || r.isNull then none
  else
    match l, r with
    | .bool a, .bool b => booleans op a b
    | .int a, .int b => integers op true a.toInt64 b.toInt64
    | .text a, .text b => texts op a b
    | l, r =>
        if isInteger l && isInteger r then do integers op false (<- integer? l) (<- integer? r)
        else if isDecimal l || isDecimal r then do decimals op (<- decimal? l) (<- decimal? r)
        else if (isFloating l || isFloating r) && (double? l).isSome && (double? r).isSome then do
          doubles op (<- double? l) (<- double? r)
        else others op left right

def unary? (op : UnaryOp) (operand : Typed) : Option Typed :=
  match op, operand.value with
  | .not, .bool b => some (boolean (!b))
  | .arrayLength, .array items => (int32? items.length).map fun n => ⟨.int n, .integer⟩
  | _, _ => none

/-!
## Calls on texts
-/

def text? : Expr -> Option String
  | .constant ⟨.text s, _⟩ => some s
  | _ => none

/-- Whether one list stands somewhere inside another. -/
def isInside (needle : List Char) : List Char -> Bool
  | [] => needle.isEmpty
  | c :: rest => needle.isPrefixOf (c :: rest) || isInside needle rest

def onText? (name subject : String) (args : List Expr) : Option Typed :=
  match name, args with
  | "to_upper", [] => some (ofText (Text.toUpper subject))
  | "to_lower", [] => some (ofText (Text.toLower subject))
  | "length", [] => (int32? subject.length).map fun n => ⟨.int n, .integer⟩
  | "starts_with", [arg] => do
      return boolean ((<- text? arg).toList.isPrefixOf subject.toList)
  | "ends_with", [arg] => do
      return boolean ((<- text? arg).toList.isSuffixOf subject.toList)
  | "contains", [arg] => do
      return boolean (isInside (<- text? arg).toList subject.toList)
  | _, _ => none

/-!
## Folding trees
-/

/-- A constant in place of a unary operation on one, if it has a value. -/
def unaryNode (op : UnaryOp) (operand : Expr) : Expr :=
  match operand with
  | .constant v =>
      match unary? op v with
      | some folded => .constant folded
      | none => .unary op operand
  | operand => .unary op operand

def binaryNode (op : BinaryOp) (left right : Expr) : Expr :=
  match left, right with
  | .constant l, .constant r =>
      match binary? op l r with
      | some folded => .constant folded
      | none => .binary op left right
  | left, right => .binary op left right

def methodNode (name : String) (receiver : Expr) (args : List Expr) (onServer : Bool) : Expr :=
  if onServer then .method name receiver args onServer
  else
    match (text? receiver).bind fun subject => onText? name subject args with
    | some folded => .constant folded
    | none => .method name receiver args onServer

mutual

def fold : Expr -> Expr
  | .unary op operand => unaryNode op (fold operand)
  | .binary op left right => binaryNode op (fold left) (fold right)
  | .method name receiver args onServer =>
      methodNode name (fold receiver) (foldAll args) onServer
  | .function name args => .function name (foldAll args)
  | e => e

def foldAll : List Expr -> List Expr
  | [] => []
  | e :: rest => fold e :: foldAll rest

end

end Fold

export Fold (fold)

end TypedQuery
