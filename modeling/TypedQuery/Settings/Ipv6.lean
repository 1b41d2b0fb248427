import TypedQuery.Number.Rounding
import TypedQuery.Sql.Bytes
import TypedQuery.Text.Blank

/-!
# IPv6 addresses

Eight groups of up to four hexadecimal digits; two colons stand for one or more groups of zeros,
and the last two groups may be written as four decimal numbers.  The written form is in lowercase
and shortens the longest run of zero groups.
-/

namespace TypedQuery

def Text.splitOnChar (c : Char) : List Char -> List (List Char)
  | [] => [[]]
  | d :: rest =>
      match splitOnChar c rest with
      | [] => [[d]]
      | part :: parts => if d = c then [] :: part :: parts else (d :: part) :: parts

structure Ipv6 where
  groups : List Nat
  length_eq : groups.length = 8

namespace Ipv6

/-!
## Reading
-/

def group? (cs : List Char) : Option Nat :=
  if cs.isEmpty || cs.length > 4 then none
  else (cs.mapM Hex.digitValue?).map fun digits => digits.foldl (fun n d => 16 * n + d) 0

/-- A decimal number below 256 without leading zeros. -/
def octet? (cs : List Char) : Option Nat := do
  let n <- Number.readNat? cs
  if n < 256 && (toString n).length == cs.length then some n else none

def quad? (cs : List Char) : Option (List Nat) := do
  match <- (Text.splitOnChar '.' cs).mapM octet? with
  | [a, b, c, d] => some [256 * a + b, 256 * c + d]
  | _ => none

/-- Groups between single colons; only at the end of the address may the last be a quad. -/
def groups? (atEnd : Bool) : List (List Char) -> Option (List Nat)
  | [] => some []
  | [part] =>
      if atEnd && part.contains '.' then quad? part else (group? part).map fun n => [n]
  | part :: rest => do return (<- group? part) :: (<- groups? atEnd rest)

/-- A side of the two colons, which may be empty. -/
def side? (atEnd : Bool) (cs : List Char) : Option (List Nat) :=
  if cs.isEmpty then some [] else groups? atEnd (Text.splitOnChar ':' cs)

/-- Splits a text at its first two colons. -/
def splitGap : List Char -> Option (List Char × List Char)
  | ':' :: ':' :: rest => some ([], rest)
  | c :: rest => (splitGap rest).map fun (left, right) => (c :: left, right)
  | [] => none

def ofGroups? (groups : List Nat) : Option Ipv6 :=
  if h : groups.length = 8 then some ⟨groups, h⟩ else none

def ofText? (cs : List Char) : Option Ipv6 := do
  match splitGap cs with
  | some (left, right) =>
      let left <- side? false left
      let right <- side? true right
      let missing := 8 - (left.length + right.length)
      if missing = 0 then none else ofGroups? (left ++ List.replicate missing 0 ++ right)
  | none => ofGroups? (<- groups? true (Text.splitOnChar ':' cs))

/-!
## Writing
-/

def zerosAt (groups : List Nat) (start : Nat) : Nat :=
  ((groups.drop start).takeWhile (· == 0)).length

/-- Where the longest run of two or more zero groups starts, and its length. -/
def gap? (groups : List Nat) : Option (Nat × Nat) :=
  (List.range groups.length).foldl
    (fun best start =>
      let count := zerosAt groups start
      if count > ((best.map (·.2)).getD 1) then some (start, count) else best) none

def hexText (n : Nat) : String := String.ofList (Nat.toDigits 16 n)

def joined (groups : List Nat) : String := ":".intercalate (groups.map hexText)

def toText (a : Ipv6) : String :=
  match gap? a.groups with
  | some (start, count) =>
      joined (a.groups.take start) ++ "::" ++ joined (a.groups.drop (start + count))
  | none => joined a.groups

end Ipv6
end TypedQuery
