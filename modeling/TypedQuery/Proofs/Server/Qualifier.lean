import TypedQuery.Proofs.Server.Shape

/-!
# Qualifiers that the grammar refuses

A word without quotes may stand before a dot only where it can name a table.  Tokens with another
word before a dot are refused as a whole, wherever the word stands in them, so that a text reads
exactly when all of its qualifiers may be written as they are.
-/

namespace TypedQuery
namespace Server

/-- Somewhere in the tokens a word that names no table stands before a dot. -/
inductive Refused : List Token -> Prop where
  | here {name : String} (h : isTableWord name = false) (rest : List Token) :
      Refused (.word name :: .mark '.' :: rest)
  | later (token : Token) {rest : List Token} (h : Refused rest) : Refused (token :: rest)

namespace Refused

variable {tokens : List Token}

theorem append_left (h : Refused tokens) (before : List Token) : Refused (before ++ tokens) := by
  induction before with
  | nil => exact h
  | cons token rest ih => exact .later token ih

theorem append_right (h : Refused tokens) (after : List Token) : Refused (tokens ++ after) := by
  induction h with
  | here hname rest => exact .here hname (rest ++ after)
  | later token _ ih => exact .later token ih

theorem enclosed (before : List Token) (last : Token) (h : Refused tokens) :
    Refused (before ++ (tokens ++ [last])) :=
  (h.append_right [last]).append_left before

theorem left (token : Token) (more : List Token) (h : Refused tokens) :
    Refused (tokens ++ ([token] ++ more)) :=
  h.append_right _

theorem right (before : List Token) (token : Token) (h : Refused tokens) :
    Refused (before ++ ([token] ++ tokens)) :=
  (h.append_left [token]).append_left before

end Refused

/-!
## No step takes the dot
-/

variable {env : Nat -> Option Tree}

theorem valueStep_dot (stack : List Item) (t : Tree) : valueStep stack t (.mark '.') = none := rfl

theorem valueStep_word {stack : List Item} {t : Tree} {name : String} {s : State}
    (h : valueStep stack t (.word name) = some s) :
    s.phase = .operand ∨ exists u, s.phase = .isWord u := by
  simp only [valueStep, reduceCtorEq, if_false] at h
  split at h
  · rcases Option.map_eq_some_iff.mp h with ⟨⟨rest, left⟩, -, rfl⟩
    exact Or.inr ⟨left, rfl⟩
  · rcases Option.bind_eq_some_iff.mp h with ⟨⟨op, level⟩, -, hmap⟩
    rcases Option.map_eq_some_iff.mp hmap with ⟨⟨rest, left⟩, -, rfl⟩
    exact Or.inl rfl

theorem step_dot_of_valueStep {stack : List Item} {t : Tree} {name : String} {s : State}
    (h : valueStep stack t (.word name) = some s) : step env s (.mark '.') = none := by
  rcases s with ⟨rest, phase⟩
  rcases valueStep_word h with hphase | ⟨u, hphase⟩
  · cases hphase
    rfl
  · cases hphase
    rfl

theorem step_dot_of_wordStep {stack : List Item} {name : String} {s : State}
    (hname : isTableWord name = false) (h : wordStep stack name = some s) :
    step env s (.mark '.') = none := by
  unfold wordStep at h
  split at h
  · cases h
    rfl
  split at h
  · cases h
    rfl
  split at h
  · cases h
    rfl
  split at h
  · split at h
    · split at h
      · cases h
        rfl
      · cases h
    · cases h
  split at h
  · cases h
  · cases h
    simp [step, hname]

theorem step_dot_of_typeStep {stack : List Item} {t : Tree} {type : List Token} {name : String}
    {s : State} (h : typeStep stack t type (.word name) = some s) :
    step env s (.mark '.') = none := by
  unfold typeStep at h
  simp only [reduceCtorEq, if_false] at h
  split at h
  · contradiction
  · cases h
    rfl
  · exact step_dot_of_valueStep h

/-- The step over a word that names no table leaves a state that takes no dot. -/
theorem step_dot_eq_none {s next : State} {name : String} (hname : isTableWord name = false)
    (h : step env s (.word name) = some next) : step env next (.mark '.') = none := by
  rcases s with ⟨stack, phase⟩
  -- Only names of tables, quoted names and schemas of types take a dot.
  cases phase with
  | operand => exact step_dot_of_wordStep hname h
  | quoted word => exact step_dot_of_valueStep h
  | closed t => exact step_dot_of_valueStep h
  | value t => exact step_dot_of_valueStep h
  | typeName t type => exact step_dot_of_typeStep h
  | isWord t =>
      simp only [step] at h
      split at h
      · cases h
        rfl
      split at h
      · cases h
        rfl
      · cases h
  | isNot t =>
      simp only [step] at h
      split at h
      · cases h
        rfl
      · cases h
  | typecast t =>
      simp only [step] at h
      split at h
      · cases h
        simp [step, typeStep, valueStep_dot]
      · cases h
  | _ => cases h

theorem Refused.run_eq_none {tokens : List Token} (h : Refused tokens) (s : State) :
    run env s tokens = none := by
  induction h generalizing s with
  | @here name hname rest =>
      rw [run]
      cases hstep : step env s (.word name) with
      | none => rfl
      | some next =>
          rw [Option.bind_some, run, step_dot_eq_none hname hstep]
          rfl
  | later token _ ih =>
      rw [run]
      cases step env s token with
      | none => rfl
      | some next => exact ih next

theorem Refused.read?_eq_none {conforming : Bool} {text : String} {tokens : List Token}
    (h : Refused tokens) (hlex : Lexes conforming text.toList tokens) :
    read? conforming env text = none := by
  unfold read? parse?
  rw [tokens?_of_lexes hlex, Option.bind_some, h.run_eq_none]
  rfl

/-!
## Qualifiers of a tree
-/

namespace Tree

mutual

def isQualified : Tree -> Bool
  | column (some qualifier) _ => isQualifier qualifier
  | call _ args => allQualified args
  | array items => allQualified items
  | unary _ arg => arg.isQualified
  | binary _ left right => left.isQualified && right.isQualified
  | isNull _ arg => arg.isQualified
  | quantified _ _ left right => left.isQualified && right.isQualified
  | cast arg _ => arg.isQualified
  | subscript arg index => arg.isQualified && index.isQualified
  | _ => true

def allQualified : List Tree -> Bool
  | [] => true
  | t :: rest => t.isQualified && allQualified rest

end

end Tree

def Tail.isQualified : Tail -> Bool
  | binary _ right => right.isQualified
  | isNull _ => true
  | quantified _ _ right => right.isQualified

theorem isQualified_foldl (tails : List Tail) (t : Tree) :
    (tails.foldl Tail.after t).isQualified = (t.isQualified && tails.all Tail.isQualified) := by
  induction tails generalizing t with
  | nil => simp
  | cons tail rest ih =>
      rw [List.foldl_cons, ih, List.all_cons, <- Bool.and_assoc]
      cases tail <;> simp [Tail.after, Tree.isQualified, Tail.isQualified]

/-!
## Outcomes
-/

structure Outcome (tokens : List Token) (qualified : Bool) (reads : Prop) : Prop where
  reads : qualified = true -> reads
  refused : qualified = false -> Refused tokens

namespace Outcome

variable {tokens more all : List Token} {q q' : Bool} {p p' whole : Prop}

theorem of_reads (h : p) : Outcome tokens true p :=
  ⟨fun _ => h, fun h => Bool.noConfusion h⟩

theorem imp (h : Outcome tokens q p) (f : p -> whole) : Outcome tokens q whole :=
  ⟨fun hq => f (h.reads hq), h.refused⟩

theorem map (h : Outcome tokens q p) (hall : Refused tokens -> Refused all) (f : p -> whole) :
    Outcome all q whole :=
  ⟨fun hq => f (h.reads hq), fun hq => hall (h.refused hq)⟩

theorem map₂ (h : Outcome tokens q p) (h' : Outcome more q' p')
    (hall : Refused tokens -> Refused all) (hall' : Refused more -> Refused all)
    (f : p -> p' -> whole) : Outcome all (q && q') whole := by
  constructor
  · intro hq
    rw [Bool.and_eq_true] at hq
    exact f (h.reads hq.1) (h'.reads hq.2)
  · intro hq
    rw [Bool.and_eq_false_iff] at hq
    rcases hq with hfirst | hsecond
    · exact hall (h.refused hfirst)
    · exact hall' (h'.refused hsecond)

end Outcome

end Server
end TypedQuery
