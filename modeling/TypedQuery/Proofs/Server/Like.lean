import Mathlib.Data.List.Infix

/-!
# Patterns

A text is matched as a whole against a pattern, in which a percent sign stands for any characters
and an underscore for any single one, and a backslash takes these meanings from the character that
follows.  The characters with a meaning are escaped by replacing each one throughout the text.  What
is escaped matches itself and nothing else.
-/

namespace TypedQuery
namespace Server

inductive LikeToken where
  | run
  | single
  | char (c : Char)
deriving DecidableEq

namespace LikeToken

/-- A pattern that ends in a backslash is refused. -/
def ofPattern? : List Char -> Option (List LikeToken)
  | [] => some []
  | '%' :: rest => (ofPattern? rest).map (run :: ·)
  | '_' :: rest => (ofPattern? rest).map (single :: ·)
  | ['\\'] => none
  | '\\' :: c :: rest => (ofPattern? rest).map (char c :: ·)
  | c :: rest => (ofPattern? rest).map (char c :: ·)

def accepts : List LikeToken -> List Char -> Bool
  | [], text => text.isEmpty
  | run :: rest, text => text.tails.any (accepts rest)
  | single :: _, [] => false
  | single :: rest, _ :: text => accepts rest text
  | char _ :: _, [] => false
  | char c :: rest, d :: text => c == d && accepts rest text

end LikeToken

def like? (text pattern : List Char) : Option Bool :=
  (LikeToken.ofPattern? pattern).map fun tokens => LikeToken.accepts tokens text

def replaceAfter (old new : List Char) : Nat -> List Char -> List Char
  | _, [] => []
  | skipped + 1, _ :: rest => replaceAfter old new skipped rest
  | 0, c :: rest =>
      if !old.isEmpty && old.isPrefixOf (c :: rest) then
        new ++ replaceAfter old new (old.length - 1) rest
      else c :: replaceAfter old new 0 rest

def replaceAll (old new text : List Char) : List Char := replaceAfter old new 0 text

def wildcards : List Char := ['\\', '%', '_']

def escapeWildcards (text : List Char) : List Char :=
  text.flatMap fun c => if c ∈ wildcards then ['\\', c] else [c]

/-!
## Escaping
-/

theorem replaceAll_char (c : Char) (new text : List Char) :
    replaceAll [c] new text = text.flatMap fun d => if d = c then new else [d] := by
  induction text with
  | nil => rfl
  | cons d rest ih =>
      rw [replaceAll] at ih
      rw [replaceAll, replaceAfter, List.length_singleton, Nat.sub_self, ih, List.flatMap_cons]
      by_cases hd : d = c
      · simp [hd]
      · simp [hd, Ne.symm hd]

/-- Replacing the backslashes first leaves alone those that come with the other two characters. -/
theorem replaceAll_wildcards (text : List Char) :
    replaceAll ['_'] ['\\', '_']
        (replaceAll ['%'] ['\\', '%'] (replaceAll ['\\'] ['\\', '\\'] text)) =
      escapeWildcards text := by
  rw [replaceAll_char, replaceAll_char, replaceAll_char, List.flatMap_assoc, List.flatMap_assoc,
    escapeWildcards]
  congr 1
  funext c
  by_cases hbackslash : c = '\\'
  · subst hbackslash
    rfl
  · by_cases hpercent : c = '%'
    · subst hpercent
      rfl
    · by_cases hunderscore : c = '_'
      · subst hunderscore
        rfl
      · simp [wildcards, hbackslash, hpercent, hunderscore]

namespace LikeToken

theorem ofPattern?_plain {c : Char} (h : c ∉ wildcards) (rest : List Char) :
    ofPattern? (c :: rest) = (ofPattern? rest).map (char c :: ·) := by
  simp only [wildcards, List.mem_cons, List.not_mem_nil, or_false, not_or] at h
  rcases h with ⟨hbackslash, hpercent, hunderscore⟩
  rw [ofPattern?]
  all_goals simp_all

theorem ofPattern?_run (rest : List Char) :
    ofPattern? ('%' :: rest) = (ofPattern? rest).map (run :: ·) := rfl

theorem ofPattern?_escaped (c : Char) (rest : List Char) :
    ofPattern? ('\\' :: c :: rest) = (ofPattern? rest).map (char c :: ·) := rfl

/-- An escaped text is a pattern of its characters. -/
theorem ofPattern?_escapeWildcards (text rest : List Char) :
    ofPattern? (escapeWildcards text ++ rest) =
      (ofPattern? rest).map (text.map char ++ ·) := by
  induction text with
  | nil => simp [escapeWildcards]
  | cons c text ih =>
      have hcons : escapeWildcards (c :: text) ++ rest =
          (if c ∈ wildcards then ['\\', c] else [c]) ++ (escapeWildcards text ++ rest) := by
        rw [escapeWildcards, List.flatMap_cons, List.append_assoc]
        rfl
      have hnext : ofPattern? (escapeWildcards (c :: text) ++ rest) =
          (ofPattern? (escapeWildcards text ++ rest)).map (char c :: ·) := by
        rw [hcons]
        split
        · exact ofPattern?_escaped c _
        · rename_i hplain
          exact ofPattern?_plain hplain _
      rw [hnext, ih, Option.map_map]
      rfl

/-!
## Matching
-/

theorem accepts_run_iff (rest : List LikeToken) (text : List Char) :
    accepts (run :: rest) text = true <->
      exists front back, front ++ back = text ∧ accepts rest back = true := by
  show text.tails.any (accepts rest) = true <-> _
  rw [List.any_eq_true]
  constructor
  · rintro ⟨back, hback, haccepts⟩
    rcases (List.mem_tails back text).mp hback with ⟨front, hfront⟩
    exact ⟨front, back, hfront, haccepts⟩
  · rintro ⟨front, back, hfront, haccepts⟩
    exact ⟨back, (List.mem_tails back text).mpr ⟨front, hfront⟩, haccepts⟩

theorem accepts_chars_iff (literal : List Char) (rest : List LikeToken) (text : List Char) :
    accepts (literal.map char ++ rest) text = true <->
      exists back, literal ++ back = text ∧ accepts rest back = true := by
  induction literal generalizing text with
  | nil => simp
  | cons c literal ih =>
      rw [List.map_cons, List.cons_append]
      cases text with
      | nil =>
          have hnone : accepts (char c :: (literal.map char ++ rest)) [] = false := rfl
          simp [hnone]
      | cons d text =>
          show (c == d && accepts (literal.map char ++ rest) text) = true <-> _
          rw [Bool.and_eq_true, beq_iff_eq, ih]
          constructor
          · rintro ⟨rfl, back, rfl, haccepts⟩
            exact ⟨back, rfl, haccepts⟩
          · rintro ⟨back, hback, haccepts⟩
            injection hback with hhead htail
            exact ⟨hhead, back, htail, haccepts⟩

theorem accepts_literal_iff (literal text : List Char) :
    accepts (literal.map char) text = true <-> literal = text := by
  have hliteral := accepts_chars_iff literal [] text
  have hnil : forall back, accepts [] back = back.isEmpty := fun _ => rfl
  rw [List.append_nil] at hliteral
  simp [hliteral, hnil]

theorem accepts_prefix_iff (literal text : List Char) :
    accepts (literal.map char ++ [run]) text = true <-> literal <+: text := by
  have hrun : forall back, accepts [run] back = true := fun back =>
    (accepts_run_iff [] back).mpr ⟨back, [], List.append_nil back, rfl⟩
  simp [accepts_chars_iff, hrun, List.IsPrefix]

end LikeToken

/-!
## Patterns of an escaped text
-/

section

open LikeToken

variable (text literal : List Char)

theorem like?_startsWith :
    like? text (escapeWildcards literal ++ ['%']) = some (decide (literal <+: text)) := by
  have htokens : ofPattern? (escapeWildcards literal ++ ['%']) =
      some (literal.map char ++ [run]) := ofPattern?_escapeWildcards literal ['%']
  rw [like?, htokens, Option.map_some, Option.some_inj, Bool.eq_iff_iff, decide_eq_true_iff]
  exact accepts_prefix_iff literal text

theorem like?_endsWith :
    like? text ('%' :: escapeWildcards literal) = some (decide (literal <:+ text)) := by
  have htokens : ofPattern? ('%' :: escapeWildcards literal) = some (run :: literal.map char) := by
    have hescaped := ofPattern?_escapeWildcards literal []
    rw [List.append_nil] at hescaped
    rw [ofPattern?_run, hescaped]
    exact congrArg some (List.append_nil (run :: literal.map char))
  rw [like?, htokens, Option.map_some, Option.some_inj, Bool.eq_iff_iff, decide_eq_true_iff,
    accepts_run_iff]
  constructor
  · rintro ⟨front, back, hfront, haccepts⟩
    rw [accepts_literal_iff] at haccepts
    subst haccepts
    exact ⟨front, hfront⟩
  · rintro ⟨front, hfront⟩
    exact ⟨front, literal, hfront, (accepts_literal_iff literal literal).mpr rfl⟩

theorem like?_contains :
    like? text ('%' :: (escapeWildcards literal ++ ['%'])) =
      some (decide (literal <:+: text)) := by
  have htokens : ofPattern? ('%' :: (escapeWildcards literal ++ ['%'])) =
      some (run :: (literal.map char ++ [run])) := by
    rw [ofPattern?_run, ofPattern?_escapeWildcards]
    rfl
  rw [like?, htokens, Option.map_some, Option.some_inj, Bool.eq_iff_iff, decide_eq_true_iff,
    accepts_run_iff]
  constructor
  · rintro ⟨front, back, rfl, haccepts⟩
    rcases (accepts_prefix_iff literal back).mp haccepts with ⟨rest, rfl⟩
    exact ⟨front, rest, List.append_assoc front literal rest⟩
  · rintro ⟨front, rest, rfl⟩
    have hprefix : literal <+: literal ++ rest := ⟨rest, rfl⟩
    exact ⟨front, literal ++ rest, (List.append_assoc front literal rest).symm,
      (accepts_prefix_iff literal _).mpr hprefix⟩

end

end Server
end TypedQuery
