import TypedQuery.Proofs.Server.Parser

/-!
# How expressions read

An expression is read from any stack that ends in a boundary, perhaps after one pending arrow.  What
has been read is a spine: an operand and the operators after it that bind no tighter than an arrow.
A pending arrow takes the operand alone, which is where text without parentheses goes wrong.
-/

namespace TypedQuery
namespace Server

/-!
## Spines
-/

/-- An operator after an operand, with all that it takes on its right. -/
inductive Tail where
  | binary (op : String) (right : Tree)
  | isNull (negated : Bool)
  | quantified (op : String) (all : Bool) (right : Tree)

def Tail.after (left : Tree) : Tail -> Tree
  | binary op right => .binary op left right
  | isNull negated => .isNull negated left
  | quantified op all right => .quantified op all left right

structure Spine where
  head : Tree
  tails : List Tail := []

namespace Spine

def tree (s : Spine) : Tree := s.tails.foldl Tail.after s.head

def snoc (s : Spine) (tail : Tail) : Spine := ⟨s.head, s.tails ++ [tail]⟩

theorem tree_snoc (s : Spine) (tail : Tail) : (s.snoc tail).tree = tail.after s.tree := by
  simp [tree, snoc]

end Spine

/-- An arrow that waits for its right operand, with its left operand, if there is one. -/
abbrev Pending : Type := Option (String × Tree)

namespace Pending

def items : Pending -> List Item
  | none => []
  | some (op, left) => [.binary Level.other op left]

def apply : Pending -> Tree -> Tree
  | none, t => t
  | some (op, left), t => .binary op left t

end Pending

def Spine.under (s : Spine) (pending : Pending) : Tree :=
  s.tails.foldl Tail.after (pending.apply s.head)

/-!
## Collapsing
-/

def Item.isOperator : Item -> Bool
  | .binary _ _ _ => true
  | .unary _ _ => true
  | _ => false

attribute [local simp] collapse

/-- A stack on top of which no operator waits for its right operand. -/
def Bounded (stack : List Item) : Prop :=
  forall item, stack.head? = some item -> item.isOperator = false

theorem bounded_nil : Bounded [] := by
  intro item h
  cases h

theorem bounded_cons {item : Item} (h : item.isOperator = false) (stack : List Item) :
    Bounded (item :: stack) := by
  intro top htop
  cases htop
  exact h

theorem Bounded.collapse {stack : List Item} (h : Bounded stack) (level : Nat) (t : Tree) :
    collapse level stack t = some (stack, t) := by
  cases stack with
  | nil => rfl
  | cons item rest =>
      have htop := h item rfl
      cases item with
      | binary l op left => cases htop
      | unary l op => cases htop
      | _ => rfl

/-- A looser operator closes at least as much. -/
theorem collapse_mono {level lower : Nat} (hlower : lower ≤ level) {stack base : List Item}
    (hbase : Bounded base) {u t : Tree} (h : collapse level stack u = some (base, t)) :
    collapse lower stack u = some (base, t) := by
  induction stack generalizing u with
  | nil => exact h
  | cons item rest ih =>
      cases item with
      | binary l op left =>
          rw [Server.collapse] at h ⊢
          split at h
          · cases h
            cases hbase _ rfl
          split at h
          · cases h
          · rename_i hlevel hassoc
            rw [if_neg (by omega), if_neg ?_]
            · exact ih h
            · simp only [Bool.and_eq_true, decide_eq_true_eq, Bool.not_eq_true'] at hassoc ⊢
              rintro ⟨hl, hnot⟩
              have heq : level = lower := by omega
              subst heq
              exact hassoc ⟨hl, hnot⟩
      | unary l op =>
          rw [Server.collapse] at h ⊢
          split at h
          · cases h
            cases hbase _ rfl
          · rw [if_neg (by omega)]
            exact ih h
      | _ => exact h

/-- An operator that binds no tighter than an arrow takes a pending arrow as its left operand. -/
theorem collapse_pending {level : Nat} (hlevel : level ≤ Level.other) (pending : Pending)
    {base : List Item} (hbase : Bounded base) (t : Tree) :
    collapse level (pending.items ++ base) t = some (base, pending.apply t) := by
  cases pending with
  | none => exact hbase.collapse level t
  | some arrow =>
      rcases arrow with ⟨op, left⟩
      have hnot : ¬ Level.other < level := by omega
      have hassoc : (Level.other = level && !Level.associates level) = false := by
        by_cases heq : Level.other = level
        · subst heq
          rfl
        · simp [heq]
      simp only [Pending.items, List.cons_append, List.nil_append, collapse, if_neg hnot]
      rw [hassoc]
      exact hbase.collapse level _

theorem collapse_pending_of_lt {level : Nat} (hlevel : Level.other < level) (pending : Pending)
    {base : List Item} (hbase : Bounded base) (t : Tree) :
    collapse level (pending.items ++ base) t = some (pending.items ++ base, t) := by
  cases pending with
  | none => exact hbase.collapse level t
  | some arrow =>
      rcases arrow with ⟨op, left⟩
      simp only [Pending.items, List.cons_append, List.nil_append, collapse, if_pos hlevel]

/-- What an operator on top of a stack comes to when a looser one follows its right operand. -/
theorem collapse_binary {level l : Nat} (hlevel : level < l) (op : String) (left : Tree)
    (rest : List Item) (t : Tree) :
    collapse level (.binary l op left :: rest) t = collapse level rest (.binary op left t) := by
  have hnot : ¬ l < level := by omega
  have hne : ¬ l = level := by omega
  simp [hnot, hne]

theorem collapse_unary {level l : Nat} (hlevel : level ≤ l) (op : String) (rest : List Item)
    (t : Tree) :
    collapse level (.unary l op :: rest) t = collapse level rest (.unary op t) := by
  have hnot : ¬ l < level := by omega
  simp [hnot]

/-!
## Readings
-/

section

variable {env : Nat -> Option Tree}

/-- After the tokens a state holds a whole operand that a looser operator takes as the tree. -/
def State.Settles (s : State) (level : Nat) (base : List Item) (t : Tree) : Prop :=
  exists u, s.phase.value? = some u ∧ collapse level s.stack u = some (base, t)

/-- The tokens are one operand, on any stack. -/
def ReadsAtom (env : Nat -> Option Tree) (tokens : List Token) (t : Tree) : Prop :=
  forall stack, exists phase,
    run env ⟨stack, .operand⟩ tokens = some ⟨stack, phase⟩ ∧ phase.value? = some t

/-- The tokens are a spine whose operators may be followed by one of the level or a looser one. -/
def ReadsSpine (env : Nat -> Option Tree) (level : Nat) (tokens : List Token) (spine : Spine) :
    Prop :=
  forall (pending : Pending) (base : List Item), Bounded base ->
    exists s, run env ⟨pending.items ++ base, .operand⟩ tokens = some s ∧
      s.Settles level base (spine.under pending)

def Reads (env : Nat -> Option Tree) (tokens : List Token) (t : Tree) : Prop :=
  forall base, Bounded base ->
    exists s, run env ⟨base, .operand⟩ tokens = some s ∧ s.Settles 0 base t

theorem ReadsSpine.reads {tokens : List Token} {spine : Spine}
    (h : ReadsSpine env 0 tokens spine) : Reads env tokens spine.tree := by
  intro base hbase
  exact h none base hbase

theorem ReadsSpine.mono {level lower : Nat} {tokens : List Token} {spine : Spine}
    (h : ReadsSpine env level tokens spine) (hlower : lower ≤ level) :
    ReadsSpine env lower tokens spine := by
  intro pending base hbase
  rcases h pending base hbase with ⟨s, hrun, u, hvalue, hcollapse⟩
  exact ⟨s, hrun, u, hvalue, collapse_mono hlower hbase hcollapse⟩

theorem ReadsAtom.readsSpine {tokens : List Token} {t : Tree} (h : ReadsAtom env tokens t)
    {level : Nat} (hlevel : level ≤ Level.other) : ReadsSpine env level tokens ⟨t, []⟩ := by
  intro pending base hbase
  rcases h (pending.items ++ base) with ⟨phase, hrun, hvalue⟩
  exact ⟨_, hrun, t, hvalue, collapse_pending hlevel pending hbase t⟩

theorem ReadsAtom.reads {tokens : List Token} {t : Tree} (h : ReadsAtom env tokens t) :
    Reads env tokens t :=
  (h.readsSpine (Nat.zero_le _)).reads

theorem parse?_of_reads {tokens : List Token} {t : Tree} (h : Reads env tokens t) :
    parse? env tokens = some t := by
  rcases h [] bounded_nil with ⟨s, hrun, u, hvalue, hcollapse⟩
  unfold parse? State.finish?
  rw [hrun, Option.bind_some, hvalue, Option.bind_some, hcollapse]

theorem read?_of_reads {conforming : Bool} {text : String} {tokens : List Token} {t : Tree}
    (hlex : Lexes conforming text.toList tokens) (h : Reads env tokens t) :
    read? conforming env text = some t := by
  unfold read?
  rw [tokens?_of_lexes hlex]
  exact parse?_of_reads h

/-!
## One token after an operand
-/

/-- The tokens that go on from a whole operand in the same way, whatever it is. -/
def Token.follows (token : Token) : Bool :=
  token ≠ .mark '.' && token ≠ .mark '(' && token ≠ .mark '[' && token ≠ .word "precision"

theorem step_value {stack : List Item} {phase : Phase} {t : Tree} {token : Token}
    (hvalue : phase.value? = some t) (hfollows : token.follows = true) :
    step env ⟨stack, phase⟩ token = valueStep stack t token := by
  simp only [Token.follows, Bool.and_eq_true, decide_eq_true_eq] at hfollows
  rcases hfollows with ⟨⟨⟨hdot, hparen⟩, hbracket⟩, hprecision⟩
  cases phase with
  | quoted name =>
      cases hvalue
      simp only [step, if_neg hdot]
  | closed t =>
      cases hvalue
      simp only [step, if_neg hbracket]
  | value t =>
      cases hvalue
      rfl
  | typeName t type =>
      cases hvalue
      simp only [step, typeStep, if_neg hbracket]
      split
      · exact absurd rfl hdot
      · exact absurd rfl hprecision
      · rfl
  | _ => cases hvalue

theorem run_cons (s : State) (token : Token) (rest : List Token) :
    run env s (token :: rest) = (step env s token).bind fun next => run env next rest := rfl

theorem run_of_append {s next : State} {first second : List Token}
    (h : run env s first = some next) :
    run env s (first ++ second) = run env next second := by
  rw [run_append, h, Option.bind_some]

theorem Reads.run_paren {tokens : List Token} {t : Tree} (h : Reads env tokens t)
    {base : List Item} (hbase : Bounded base) (more : List Token) :
    run env ⟨base, .operand⟩ (tokens ++ .mark ')' :: more) =
      (closeParen base t).bind fun next => run env next more := by
  rcases h base hbase with ⟨s, hrun, u, hvalue, hcollapse⟩
  rw [run_of_append hrun, run_cons, step_value hvalue rfl]
  simp only [valueStep, if_true, hcollapse, Option.bind_some]

theorem Reads.run_bracket {tokens : List Token} {t : Tree} (h : Reads env tokens t)
    {base : List Item} (hbase : Bounded base) (more : List Token) :
    run env ⟨base, .operand⟩ (tokens ++ .mark ']' :: more) =
      (closeBracket base t).bind fun next => run env next more := by
  rcases h base hbase with ⟨s, hrun, u, hvalue, hcollapse⟩
  rw [run_of_append hrun, run_cons, step_value hvalue rfl]
  have hother : ¬ Token.mark ']' = .mark ')' := by decide
  simp only [valueStep, if_neg hother, if_true, hcollapse, Option.bind_some]

theorem Reads.run_comma {tokens : List Token} {t : Tree} (h : Reads env tokens t)
    {base : List Item} (hbase : Bounded base) (more : List Token) :
    run env ⟨base, .operand⟩ (tokens ++ .mark ',' :: more) =
      (nextItem base t).bind fun next => run env next more := by
  rcases h base hbase with ⟨s, hrun, u, hvalue, hcollapse⟩
  rw [run_of_append hrun, run_cons, step_value hvalue rfl]
  have hparen : ¬ Token.mark ',' = .mark ')' := by decide
  have hbracket : ¬ Token.mark ',' = .mark ']' := by decide
  simp only [valueStep, if_neg hparen, if_neg hbracket, if_true, hcollapse, Option.bind_some]

end

end Server
end TypedQuery
