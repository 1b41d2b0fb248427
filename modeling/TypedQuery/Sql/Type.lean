import TypedQuery.Text.Blank
import TypedQuery.Text.Quoted

/-!
# Value types

The types that drive encoding, decoding and casts.  Arrays and enums carry parameters, and a JSON
type may carry the name of the shape behind its documents; every other type stands alone.
-/

namespace TypedQuery

/-- An enum type of the server, together with the host type it stands for. -/
structure EnumType where
  host : String
  name : String
  schema : Option String
  labels : List String
deriving DecidableEq

def EnumType.hasLabel (e : EnumType) (label : String) : Bool := e.labels.contains label

inductive SqlType where
  | null
  | boolean
  | integer
  | bigint
  | real
  | double
  | numeric
  | text
  | uuid
  | date
  | time
  | timestamp
  | interval
  | bytea
  | json (shape : Option String)
  | enum (e : EnumType)
  | array (item : SqlType)
deriving DecidableEq

/-- The shape of a type without its parameters. -/
inductive TypeKind where
  | null
  | boolean
  | numeric
  | string
  | uuid
  | temporal
  | interval
  | binary
  | json
  | enum
  | array
deriving DecidableEq

def TypeKind.name : TypeKind -> String
  | null => "null"
  | boolean => "boolean"
  | numeric => "numeric"
  | string => "string"
  | uuid => "uuid"
  | temporal => "temporal"
  | interval => "interval"
  | binary => "binary"
  | json => "json"
  | enum => "enum"
  | array => "array"

namespace SqlType

instance : Inhabited SqlType := ⟨null⟩

def kind : SqlType -> TypeKind
  | null => .null
  | boolean => .boolean
  | integer | bigint | real | double | numeric => .numeric
  | text => .string
  | uuid => .uuid
  | date | time | timestamp => .temporal
  | interval => .interval
  | bytea => .binary
  | json _ => .json
  | enum _ => .enum
  | array _ => .array

def item? : SqlType -> Option SqlType
  | array item => some item
  | _ => none

def isArray : SqlType -> Bool
  | array _ => true
  | _ => false

def isJson : SqlType -> Bool
  | json _ => true
  | _ => false

def isEnum : SqlType -> Bool
  | enum _ => true
  | _ => false

def isNumeric (t : SqlType) : Bool := t.kind = .numeric

/-- The type as it is written after `::`. -/
def cast : SqlType -> String
  | null => "unknown"
  | boolean => "boolean"
  | integer => "integer"
  | bigint => "bigint"
  | real => "real"
  | double => "double precision"
  | numeric => "numeric"
  | text => "text"
  | uuid => "uuid"
  | date => "date"
  | time => "time"
  | timestamp => "timestamp"
  | interval => "interval"
  | bytea => "bytea"
  | json _ => "jsonb"
  | enum e => Text.qualifiedIdent e.schema e.name
  | array item => item.cast ++ "[]"

/-- The type as messages show it: the cast, and the shape of a JSON type. -/
def display : SqlType -> String
  | json (some shape) => "jsonb<" ++ shape ++ ">"
  | t => t.cast

instance : ToString SqlType := ⟨display⟩

/-!
## Declared types

A declaration is the name of a scalar type in any case, followed by a pair of brackets for each
array level; blanks around the name and before the brackets do not count.
-/

def ofName? (name : String) : Option SqlType :=
  match name with
  | "bool" | "boolean" => some boolean
  | "int" | "int2" | "int4" | "integer" | "smallint" | "serial" => some integer
  | "int8" | "bigint" | "bigserial" => some bigint
  | "real" | "float4" => some real
  | "double precision" | "float8" => some double
  | "numeric" | "decimal" => some numeric
  | "text" | "varchar" | "character varying" | "char" => some text
  | "uuid" => some uuid
  | "date" => some date
  | "time" => some time
  | "timestamp" | "timestamptz" => some timestamp
  | "interval" => some interval
  | "bytea" => some bytea
  | "json" | "jsonb" => some (json none)
  | _ => none

/-- Takes trailing brackets off a reversed declaration, with the blanks before them: how many
pairs there were, and the name that is left, reversed. -/
private def takeBrackets : Nat -> List Char -> Nat × List Char
  | 0, cs => (0, cs)
  | fuel + 1, cs =>
      match cs with
      | ']' :: '[' :: rest =>
          let (levels, name) := takeBrackets fuel (Text.trimStart rest)
          (levels + 1, name)
      | _ => (0, cs)

private def nested : Nat -> SqlType -> SqlType
  | 0, t => t
  | levels + 1, t => array (nested levels t)

/-- The declared type, or the name that is not one. -/
def ofDeclaration (declaration : String) : Except String SqlType :=
  let reversed := (Text.trim declaration.toList).reverse
  let (levels, name) := takeBrackets reversed.length reversed
  let name := String.ofList ((Text.trimStart name.reverse).map Char.toLower)
  match ofName? name with
  | some t => .ok (nested levels t)
  | none => .error name

private theorem takeBrackets_nil (fuel : Nat) : takeBrackets fuel [] = (0, []) := by
  cases fuel <;> rfl

/-- As many steps as there are characters are enough. -/
private theorem takeBrackets_congr {fuel enough : Nat} {cs : List Char} (hfuel : cs.length ≤ fuel)
    (henough : cs.length ≤ enough) : takeBrackets fuel cs = takeBrackets enough cs := by
  induction fuel generalizing enough cs with
  | zero =>
      rw [List.length_eq_zero_iff.mp (Nat.le_zero.mp hfuel), takeBrackets_nil, takeBrackets_nil]
  | succ fuel ih =>
      cases enough with
      | zero =>
          rw [List.length_eq_zero_iff.mp (Nat.le_zero.mp henough), takeBrackets_nil,
            takeBrackets_nil]
      | succ enough =>
          unfold takeBrackets
          split
          · rename_i rest
            have hrest : (Text.trimStart rest).length ≤ rest.length :=
              (List.dropWhile_sublist _).length_le
            rw [List.length_cons, List.length_cons] at hfuel henough
            have hsame : takeBrackets fuel (Text.trimStart rest) =
                takeBrackets enough (Text.trimStart rest) := ih (by omega) (by omega)
            rw [hsame]
          · rfl

/-- A pair of brackets at the end is one array level. -/
theorem ofDeclaration_brackets (declaration : String) :
    ofDeclaration (declaration ++ "[]") = (ofDeclaration declaration).map array := by
  let start := Text.trimStart declaration.toList
  have hstart : Text.trimStart (declaration.toList ++ ['[', ']']) = start ++ ['[', ']'] := by
    rw [Text.trimStart, List.dropWhile_append]
    split
    · rename_i hempty
      rw [show start = [] from List.isEmpty_iff.mp hempty]
      rfl
    · rfl
  have htrim : (Text.trim (declaration ++ "[]").toList).reverse = ']' :: '[' :: start.reverse := by
    have hend : (start ++ ['[', ']']).reverse = ']' :: '[' :: start.reverse := by
      rw [List.reverse_append]
      rfl
    rw [String.toList_append, Text.trim, List.reverse_reverse]
    change Text.trimStart (Text.trimStart (declaration.toList ++ ['[', ']'])).reverse = _
    rw [hstart, hend]
    rfl
  have hplain : (Text.trim declaration.toList).reverse = Text.trimStart start.reverse := by
    rw [Text.trim, List.reverse_reverse]
  have hsame : takeBrackets (start.reverse.length + 1) (Text.trimStart start.reverse) =
      takeBrackets (Text.trimStart start.reverse).length (Text.trimStart start.reverse) := by
    have hlength : (Text.trimStart start.reverse).length ≤ start.reverse.length :=
      (List.dropWhile_sublist _).length_le
    exact takeBrackets_congr (Nat.le_succ_of_le hlength) (Nat.le_refl _)
  rw [ofDeclaration, ofDeclaration, htrim, hplain]
  dsimp only [List.length_cons]
  rw [takeBrackets, hsame]
  dsimp only
  split <;> rfl

/-- The names of types are written without quotes. -/
theorem ofName?_eq_none_of_quote {name : String} (h : name.toList.head? = some '"') :
    ofName? name = none := by
  unfold ofName?
  split <;> first | rfl | exact absurd h (by decide)

/-- What stands between quotes is not the name of a type. -/
theorem ofDeclaration_of_quotes {declaration : String} {inner : List Char}
    (h : declaration.toList = '"' :: inner ++ ['"']) :
    ofDeclaration declaration = .error (String.ofList (declaration.toList.map Char.toLower)) := by
  have hstart : Text.trimStart declaration.toList = declaration.toList := by
    rw [h]
    rfl
  have hreversed : declaration.toList.reverse = '"' :: ('"' :: inner).reverse := by
    rw [h, List.reverse_append]
    rfl
  have hend : Text.trimStart declaration.toList.reverse = declaration.toList.reverse := by
    rw [hreversed]
    rfl
  have hbrackets : takeBrackets declaration.toList.reverse.length declaration.toList.reverse =
      (0, declaration.toList.reverse) := by
    rw [hreversed]
    rfl
  have hname : ofName? (String.ofList (declaration.toList.map Char.toLower)) = none := by
    apply ofName?_eq_none_of_quote
    rw [String.toList_ofList, h]
    rfl
  rw [ofDeclaration, Text.trim, List.reverse_reverse, hstart, hend, hbrackets]
  dsimp only
  rw [List.reverse_reverse, hstart, hname]

end SqlType

end TypedQuery
