import TypedQuery.Text.CaseTable

/-!
# Upper and lower case

Texts are mapped by the full case mappings: a character may become several, and a capital sigma
at the end of a word becomes the final small sigma.
-/

namespace TypedQuery
namespace Text

private def mapped (runs : List CaseRun) (expansions : List (Nat × List Nat)) (c : Char) :
    List Char :=
  let n := c.toNat
  match expansions.find? (·.1 == n) with
  | some (_, images) => images.map Char.ofNat
  | none =>
      match runs.findSome? (·.image? n) with
      | some image => [Char.ofNat image]
      | none => [c]

def upperChar (c : Char) : List Char := mapped upperRuns upperExpansions c

def lowerChar (c : Char) : List Char := mapped lowerRuns lowerExpansions c

def toUpper (text : String) : String := String.ofList (text.toList.flatMap upperChar)

private def within (ranges : List (Nat × Nat)) (c : Char) : Bool :=
  ranges.any fun (low, high) => low ≤ c.toNat && c.toNat ≤ high

def isCased (c : Char) : Bool := within casedRanges c

def isCaseIgnorable (c : Char) : Bool := within ignorableRanges c

/-- Whether the first character that is not skipped is a letter with case. -/
private def meetsCased (cs : List Char) : Bool :=
  match cs.dropWhile isCaseIgnorable with
  | c :: _ => isCased c
  | [] => false

/-- Lowers a text, given what stands before it in reverse. -/
private def lowerFrom (before : List Char) : List Char -> List Char
  | [] => []
  | c :: rest =>
      let image :=
        if c == 'Σ' then
          if meetsCased before && !meetsCased rest then ['ς'] else ['σ']
        else lowerChar c
      image ++ lowerFrom (c :: before) rest

def toLower (text : String) : String := String.ofList (lowerFrom [] text.toList)

end Text
end TypedQuery
