/-!
# Blank characters

A character is blank when it has the White_Space property.  The property covers more than the
blanks of ASCII, so it is given here as a table.
-/

namespace TypedQuery
namespace Text

/-- The White_Space property. -/
def isBlank (c : Char) : Bool :=
  let n := c.toNat
  (0x09 ≤ n && n ≤ 0x0D) || n == 0x20 || n == 0x85 || n == 0xA0 || n == 0x1680 ||
    (0x2000 ≤ n && n ≤ 0x200A) || n == 0x2028 || n == 0x2029 || n == 0x202F || n == 0x205F ||
    n == 0x3000

def trimStart (cs : List Char) : List Char := cs.dropWhile isBlank

def trim (cs : List Char) : List Char := (trimStart (trimStart cs).reverse).reverse

/-- Cuts a text at its blanks into words; no word is empty. -/
def words (cs : List Char) : List (List Char) :=
  go [] cs
where
  close (current : List Char) (rest : List (List Char)) : List (List Char) :=
    if current.isEmpty then rest else current.reverse :: rest
  go (current : List Char) : List Char -> List (List Char)
    | [] => close current []
    | c :: rest => if isBlank c then close current (go [] rest) else go (c :: current) rest

theorem go_append {word : List Char} (hword : forall c, c ∈ word -> isBlank c = false)
    (current rest : List Char) :
    words.go current (word ++ rest) = words.go (word.reverse ++ current) rest := by
  induction word generalizing current with
  | nil => rfl
  | cons c word ih =>
      have hc := hword c List.mem_cons_self
      rw [List.cons_append, words.go, hc, if_neg Bool.false_ne_true,
        ih fun d hd => hword d (List.mem_cons_of_mem c hd), List.reverse_cons, List.append_assoc,
        List.singleton_append]

theorem close_reverse {word : List Char} (hword : word ≠ []) (rest : List (List Char)) :
    words.close word.reverse rest = word :: rest := by
  rw [words.close, if_neg (by simpa using hword), List.reverse_reverse]

/-- Words with single blanks between them are cut into these words. -/
theorem words_intercalate {ws : List (List Char)}
    (h : forall word, word ∈ ws -> word ≠ [] ∧ forall c, c ∈ word -> isBlank c = false) :
    words ([' '].intercalate ws) = ws := by
  induction ws with
  | nil => rfl
  | cons word ws ih =>
      have hword := h word List.mem_cons_self
      have hrest := ih fun w hw => h w (List.mem_cons_of_mem word hw)
      cases ws with
      | nil =>
          rw [List.intercalate_singleton, words, <- List.append_nil word, go_append hword.2,
            List.append_nil, List.append_nil, words.go, close_reverse hword.1]
      | cons next ws =>
          rw [List.intercalate_cons_cons, words, List.append_assoc, go_append hword.2,
            List.append_nil, List.singleton_append, words.go, if_pos (by decide),
            close_reverse hword.1]
          exact congrArg _ hrest

end Text
end TypedQuery
