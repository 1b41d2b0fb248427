import TypedQuery.Number.Shortest

/-!
# JSON documents

A document is a tree whose objects keep their keys sorted and unique; a key set twice holds its
last value.  The text of a document is compact.
-/

namespace TypedQuery

/-- Whole numbers of 64 bits, signed or not, stay whole; every other number is a double. -/
inductive JsonNumber where
  | integer (n : Int)
  | double (d : Number.Double)
deriving DecidableEq

namespace JsonNumber

/-- Two numbers are equal when both are whole and the same, or both are doubles that compare
equal. -/
def same : JsonNumber -> JsonNumber -> Bool
  | integer a, integer b => a == b
  | double a, double b => a.toFloat == b.toFloat
  | _, _ => false

def toText : JsonNumber -> String
  | integer n => toString n
  | double d => Number.FloatLayout.json.doubleText d

end JsonNumber

inductive Json where
  | null
  | bool (b : Bool)
  | number (n : JsonNumber)
  | string (s : String)
  | array (items : List Json)
  | object (members : List (String × Json))
deriving Inhabited

namespace Json

/-- Sets a key among sorted members. -/
def setMember (key : String) (value : Json) : List (String × Json) -> List (String × Json)
  | [] => [(key, value)]
  | (k, v) :: rest =>
      if key = k then (key, value) :: rest
      else if key < k then (key, value) :: (k, v) :: rest
      else (k, v) :: setMember key value rest

def ofMembers (members : List (String × Json)) : Json :=
  object (members.foldl (fun sorted (key, value) => setMember key value sorted) [])

def member? (key : String) : Json -> Option Json
  | object members => (members.find? (·.1 == key)).map (·.2)
  | _ => none

def entry (j : Json) (name : String) : Json := (j.member? name).getD null

/-!
## Parts of documents
-/

def isNull : Json -> Bool
  | null => true
  | _ => false

def text? : Json -> Option String
  | string s => some s
  | _ => none

def integer? : Json -> Option Int
  | number (.integer n) => some n
  | _ => none

def natural? (j : Json) : Option Nat := j.integer?.map Int.toNat

def bool? : Json -> Option Bool
  | bool b => some b
  | _ => none

def items? : Json -> Option (List Json)
  | array items => some items
  | _ => none

def listOf? {α : Type} (f : Json -> Option α) (j : Json) : Option (List α) := do
  (<- j.items?).mapM f

/-- Reads null as none, and all else by `f`. -/
def optionOf? {α : Type} (f : Json -> Option α) : Json -> Option (Option α)
  | null => some none
  | j => (f j).map some

def ofInt (n : Int) : Json := number (.integer n)

def ofNat (n : Nat) : Json := ofInt n

def ofOption {α : Type} (f : α -> Json) : Option α -> Json
  | some a => f a
  | none => null

/-!
## Equality
-/

mutual

def same : Json -> Json -> Bool
  | null, null => true
  | bool a, bool b => a == b
  | number a, number b => a.same b
  | string a, string b => a == b
  | array as, array bs => sameItems as bs
  | object as, object bs => sameMembers as bs
  | _, _ => false

def sameItems : List Json -> List Json -> Bool
  | [], [] => true
  | a :: as, b :: bs => same a b && sameItems as bs
  | _, _ => false

def sameMembers : List (String × Json) -> List (String × Json) -> Bool
  | [], [] => true
  | (k, a) :: as, (l, b) :: bs => k == l && same a b && sameMembers as bs
  | _, _ => false

end

/-!
## Text
-/

private def hexDigit (n : Nat) : Char := ("0123456789abcdef".toList[n % 16]?).getD '0'

private def escaped (c : Char) : List Char :=
  match c with
  | '"' => ['\\', '"']
  | '\\' => ['\\', '\\']
  | '\n' => ['\\', 'n']
  | '\r' => ['\\', 'r']
  | '\t' => ['\\', 't']
  | _ =>
      let n := c.toNat
      if n = 8 then ['\\', 'b']
      else if n = 12 then ['\\', 'f']
      else if n < 32 then ['\\', 'u', '0', '0', hexDigit (n / 16), hexDigit n]
      else [c]

/-- A string between double quotes, with the escapes of JSON. -/
def quote (s : String) : String := "\"" ++ String.ofList (s.toList.flatMap escaped) ++ "\""

mutual

def toText : Json -> String
  | null => "null"
  | bool true => "true"
  | bool false => "false"
  | number n => n.toText
  | string s => quote s
  | array items => "[" ++ itemsText items ++ "]"
  | object members => "\x7b" ++ membersText members ++ "\x7d"

def itemsText : List Json -> String
  | [] => ""
  | [item] => toText item
  | item :: rest => toText item ++ "," ++ itemsText rest

def membersText : List (String × Json) -> String
  | [] => ""
  | [(key, value)] => quote key ++ ":" ++ toText value
  | (key, value) :: rest => quote key ++ ":" ++ toText value ++ "," ++ membersText rest

end

end Json

end TypedQuery
