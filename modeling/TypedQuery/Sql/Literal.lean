import TypedQuery.Sql.Bytes

/-!
# Values as SQL text

A literal is the whole value as text that the server reads back.  The few values whose text is
always safe and short are also written inline where every other value becomes a parameter.
-/

namespace TypedQuery

/-- Texts shorter than this many characters are written inline. -/
def inlineTextLimit : Nat := 30

def boolLiteral (b : Bool) : String := if b then "TRUE" else "FALSE"

/-- The fields of an interval with their units. -/
def Interval.toText (i : Interval) : String :=
  toString i.months.toInt ++ " mons " ++ toString i.days.toInt ++ " days " ++
    toString i.microseconds.toInt ++ " microseconds"

namespace Value

/-- The literal of a value that is never bound: NULL, a boolean, an integer or a short text. -/
def inlineLiteral? : Value -> Option String
  | null => some "NULL"
  | bool b => some (boolLiteral b)
  | int n => some (toString n.toInt)
  | bigint n => some (toString n.toInt)
  | text s => if s.length < inlineTextLimit then some (Text.quoteLiteral s) else none
  | _ => none

def joinComma : List String -> String
  | [] => ""
  | [s] => s
  | s :: rest => s ++ "," ++ joinComma rest

mutual

def literal : Value -> String
  | null => "NULL"
  | bool b => boolLiteral b
  | int n => toString n.toInt
  | bigint n => toString n.toInt
  | float x => Text.quoteLiteral (Number.FloatLayout.sqlLiteral.doubleText x.widen)
  | double x => Text.quoteLiteral (Number.FloatLayout.sqlLiteral.doubleText x)
  | decimal d => Text.quoteLiteral d.toText
  | text s => Text.quoteLiteral s
  | enum label => Text.quoteLiteral label
  | uuid u => Text.quoteLiteral u.toText
  | date d => Text.quoteLiteral d.toText
  | time t => Text.quoteLiteral t.toText
  | timestamp t => Text.quoteLiteral t.toText
  | interval i => Text.quoteLiteral i.toText
  | bytes b => Text.quoteLiteral ("\\x" ++ String.ofList (Hex.encode b))
  | json document => Text.quoteLiteral document.toText
  | array [] => "'\x7b\x7d'"
  | array (item :: rest) => "ARRAY[" ++ joinComma (itemLiterals (item :: rest)) ++ "]"

def itemLiterals : List Value -> List String
  | [] => []
  | item :: rest => literal item :: itemLiterals rest

end

end Value

end TypedQuery
