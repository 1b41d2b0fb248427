import TypedQuery.Json.Reader

/-!
# Documents behind blanks

A text may begin with any number of blanks, so no document has a single text.
-/

namespace TypedQuery
namespace Json

def padded (text : List Char) (count : Nat) : String :=
  String.ofList (List.replicate count ' ' ++ text)

theorem padded_injective (text : List Char) : Function.Injective (padded text) := by
  intro count other h
  have hchars := String.ofList_injective h
  simpa using congrArg List.length hchars

theorem skipSpace_replicate (count : Nat) (cs : List Char) :
    skipSpace (List.replicate count ' ' ++ cs) = skipSpace cs := by
  induction count with
  | zero => rfl
  | succ count ih => exact ih

theorem value?_replicate (fuel depth count : Nat) (cs : List Char) :
    value? (fuel + 1) depth (List.replicate count ' ' ++ cs) = value? (fuel + 1) depth cs := by
  rw [value?, value?, skipSpace_replicate]

/-- A padded text is read as the text itself is with the fuel that its length gives it. -/
theorem ofText?_padded {text : List Char} {document : Json}
    (h : forall fuel, text.length ≤ fuel -> value? (fuel + 1) 128 text = some (document, []))
    (count : Nat) : ofText? (padded text count) = some document := by
  have hvalue := h (2 * (count + text.length) + 1) (by omega)
  simp only [ofText?, padded, String.toList_ofList, value?_replicate, List.length_append,
    List.length_replicate, hvalue]
  rfl

/-!
## Arrays of empty strings
-/

def emptyStrings : Nat -> List Char
  | 0 => ['"', '"', ']']
  | more + 1 => '"' :: '"' :: ',' :: emptyStrings more

def arrayOfEmpty : Nat -> List Char
  | 0 => ['[', ']']
  | more + 1 => '[' :: emptyStrings more

theorem value?_emptyString (fuel depth : Nat) (rest : List Char) :
    value? (fuel + 1) depth ('"' :: '"' :: rest) = some (.string "", rest) := rfl

theorem elements?_emptyString (fuel depth : Nat) (rest : List Char) :
    elements? (fuel + 2) depth ('"' :: '"' :: ',' :: rest) =
      (elements? (fuel + 1) depth rest).bind fun (items, rest) =>
        some (.string "" :: items, rest) := by
  rw [elements?, value?_emptyString]
  rfl

theorem elements?_emptyStrings (more fuel depth : Nat) :
    elements? (fuel + more + 2) depth (emptyStrings more) =
      some (List.replicate (more + 1) (.string ""), []) := by
  induction more with
  | zero =>
      rw [elements?, emptyStrings, value?_emptyString]
      rfl
  | succ more ih =>
      rw [emptyStrings, elements?_emptyString]
      simp only [<- Nat.add_assoc, ih]
      rfl

theorem value?_array (fuel : Nat) (rest : List Char) :
    value? (fuel + 1) 128 ('[' :: '"' :: rest) =
      (elements? fuel 127 ('"' :: rest)).bind fun (items, rest) => some (.array items, rest) := by
  rw [value?]
  rfl

theorem exists_emptyStrings_eq (more : Nat) : exists rest, emptyStrings more = '"' :: rest := by
  cases more with
  | zero => exact ⟨_, rfl⟩
  | succ more => exact ⟨_, rfl⟩

theorem length_emptyStrings (more : Nat) : (emptyStrings more).length = 3 * more + 3 := by
  induction more with
  | zero => rfl
  | succ more ih =>
      simp only [emptyStrings, List.length_cons, ih]
      omega

theorem ofText?_arrayOfEmpty (size count : Nat) :
    ofText? (padded (arrayOfEmpty size) count) =
      some (.array (List.replicate size (.string ""))) := by
  cases size with
  | zero => exact ofText?_padded (fun _ _ => rfl) count
  | succ more =>
      refine ofText?_padded ?_ count
      intro fuel hfuel
      rw [arrayOfEmpty, List.length_cons, length_emptyStrings] at hfuel
      have hspare : fuel - (more + 2) + more + 2 = fuel := by omega
      have helements := elements?_emptyStrings more (fuel - (more + 2)) 127
      rcases exists_emptyStrings_eq more with ⟨rest, hrest⟩
      rw [hspare, hrest] at helements
      rw [arrayOfEmpty, hrest, value?_array, helements]
      rfl

theorem ofText?_null (count : Nat) : ofText? (padded "null".toList count) = some null :=
  ofText?_padded (fun _ _ => rfl) count

end Json
end TypedQuery
