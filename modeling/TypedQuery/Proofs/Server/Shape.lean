import TypedQuery.Proofs.Server.Reading
import TypedQuery.Proofs.Server.Spelling

/-!
# Shapes of expressions

For every way in which text is put together there is a lemma that says how it reads, given how its
parts read.  Parts between parentheses, brackets and commas may be any expressions; the others must
be operands that bind tighter than an arrow.
-/

namespace TypedQuery
namespace Server

variable {env : Nat -> Option Tree}

/-- The tokens are an operand that everything binding no tighter than an arrow takes whole. -/
def ReadsOperand (env : Nat -> Option Tree) (tokens : List Token) (t : Tree) : Prop :=
  forall stack, exists s u,
    run env ⟨stack, .operand⟩ tokens = some s ∧ s.phase.value? = some u ∧
      forall level, level ≤ Level.other -> collapse level s.stack u = collapse level stack t

theorem ReadsAtom.readsOperand {tokens : List Token} {t : Tree} (h : ReadsAtom env tokens t) :
    ReadsOperand env tokens t := by
  intro stack
  rcases h stack with ⟨phase, hrun, hvalue⟩
  exact ⟨_, t, hrun, hvalue, fun _ _ => rfl⟩

theorem ReadsOperand.readsSpine {tokens : List Token} {t : Tree}
    (h : ReadsOperand env tokens t) {level : Nat} (hlevel : level ≤ Level.other) :
    ReadsSpine env level tokens ⟨t, []⟩ := by
  intro pending base hbase
  rcases h (pending.items ++ base) with ⟨s, u, hrun, hvalue, hcollapse⟩
  refine ⟨s, hrun, u, hvalue, ?_⟩
  rw [hcollapse level hlevel]
  exact collapse_pending hlevel pending hbase t

/-!
## Single tokens
-/

theorem readsAtom_string (text : String) : ReadsAtom env [.string text] (.string text) := by
  intro stack
  exact ⟨.value (.string text), rfl, rfl⟩

theorem readsAtom_number (n : Nat) : ReadsAtom env [.number n] (.number n) := by
  intro stack
  exact ⟨.value (.number n), rfl, rfl⟩

theorem readsAtom_parameter {index : Nat} {t : Tree} (h : env index = some t) :
    ReadsAtom env [.parameter index] t := by
  intro stack
  refine ⟨.value t, ?_, rfl⟩
  simp only [run, step, operandStep, h, Option.map_some, Option.bind_some]

theorem readsAtom_keyword {name : String} (h : ["null", "true", "false"].contains name = true) :
    ReadsAtom env [.word name] (.keyword name) := by
  intro stack
  refine ⟨.value (.keyword name), ?_, rfl⟩
  simp only [run, step, operandStep, wordStep, h, if_true, Option.bind_some]

theorem readsAtom_column (name : String) : ReadsAtom env [.quoted name] (.column none name) := by
  intro stack
  exact ⟨.quoted name, rfl, rfl⟩

theorem readsOperand_minus (n : Nat) :
    ReadsOperand env [.operator "-", .number n] (.unary "-" (.number n)) := by
  intro stack
  refine ⟨⟨.unary Level.minus "-" :: stack, .value (.number n)⟩, .number n, rfl, rfl, ?_⟩
  intro level hlevel
  exact collapse_unary (Nat.le_trans hlevel (by decide)) _ _ _

/-!
## Qualified columns
-/

theorem wordStep_of_not_mem {name : String} (h : name ∉ reservedWords) (stack : List Item) :
    wordStep stack name = some ⟨stack, .word name⟩ := by
  have hne : forall w, w ∈ reservedWords -> name ≠ w := by
    rintro w hw rfl
    exact h hw
  simp [wordStep, hne "null" (by decide), hne "true" (by decide), hne "false" (by decide),
    hne "not" (by decide), hne "array" (by decide), hne "any" (by decide),
    hne "all" (by decide), h]

def isQualifier (name : String) : Bool := !isPlainAlias name || isTableWord name

theorem readsAtom_qualified {qualifier : String} (h : isQualifier qualifier = true)
    (name : String) :
    ReadsAtom env [aliasToken qualifier, .mark '.', .quoted name]
      (.column (some qualifier) name) := by
  intro stack
  refine ⟨.value (.column (some qualifier) name), ?_, rfl⟩
  unfold aliasToken
  cases hplain : isPlainAlias qualifier with
  | false => rfl
  | true =>
      have htable : isTableWord qualifier = true := by
        simpa [isQualifier, hplain] using h
      have hreserved : qualifier ∉ reservedWords := by
        rw [isTableWord, Bool.and_eq_true] at htable
        simpa using htable.1
      simp only [if_true, run, step, operandStep, wordStep_of_not_mem hreserved,
        Option.bind_some, htable]
      rfl

/-!
## Parentheses and brackets
-/

theorem run_group {tokens : List Token} {t : Tree} (h : Reads env tokens t) (stack : List Item) :
    run env ⟨stack, .operand⟩ (.mark '(' :: (tokens ++ [.mark ')'])) =
      some ⟨stack, .closed t⟩ := by
  have hstep : step env ⟨stack, .operand⟩ (.mark '(') = some ⟨.group :: stack, .operand⟩ := rfl
  rw [run_cons, hstep, Option.bind_some, h.run_paren (bounded_cons rfl stack)]
  rfl

theorem Reads.group {tokens : List Token} {t : Tree} (h : Reads env tokens t) :
    ReadsAtom env (.mark '(' :: (tokens ++ [.mark ')'])) t := by
  intro stack
  exact ⟨.closed t, run_group h stack, rfl⟩

theorem Reads.subscript {tokens index : List Token} {t i : Tree} (h : Reads env tokens t)
    (hindex : Reads env index i) :
    ReadsAtom env (.mark '(' :: (tokens ++ [.mark ')']) ++ .mark '[' :: (index ++ [.mark ']']))
      (.subscript t i) := by
  intro stack
  refine ⟨.closed (.subscript t i), ?_, rfl⟩
  have hstep : step env ⟨stack, .closed t⟩ (.mark '[') =
      some ⟨.subscript t :: stack, .operand⟩ := rfl
  rw [run_of_append (run_group h stack), run_cons, hstep, Option.bind_some,
    hindex.run_bracket (bounded_cons rfl stack)]
  rfl

/-!
## Casts
-/

theorem run_type (stack : List Item) (t : Tree) (type : SqlType) :
    run env ⟨stack, .typecast t⟩ type.tokens = some ⟨stack, .typeName t type.tokens⟩ := by
  induction type with
  | enum e =>
      rw [SqlType.tokens]
      cases e.schema <;> rfl
  | array item ih =>
      rw [SqlType.tokens, run_of_append ih]
      rfl
  | json shape =>
      rw [SqlType.tokens]
      rfl
  | _ => rfl

theorem ReadsAtom.cast {tokens : List Token} {t : Tree} (h : ReadsAtom env tokens t)
    (type : SqlType) :
    ReadsAtom env (tokens ++ .typecast :: type.tokens) (.cast t type.tokens) := by
  intro stack
  rcases h stack with ⟨phase, hrun, hvalue⟩
  refine ⟨.typeName t type.tokens, ?_, rfl⟩
  have hstep : step env ⟨stack, phase⟩ .typecast = some ⟨stack, .typecast t⟩ := by
    rw [step_value hvalue rfl]
    rfl
  rw [run_of_append hrun, run_cons, hstep, Option.bind_some, run_type]

/-!
## Lists
-/

def ReadsItems (env : Nat -> Option Tree) (tokens : List Token) (items : List Tree) : Prop :=
  forall (opener : Opener) (done : List Tree) (stack : List Item),
    opener.accepts (done ++ items).length = true ->
      run env ⟨.list opener done :: stack, .operand⟩ (tokens ++ [.mark opener.closer]) =
        some ⟨stack, .value (opener.tree (done ++ items))⟩

theorem Reads.lastItem {tokens : List Token} {t : Tree} (h : Reads env tokens t) :
    ReadsItems env tokens [t] := by
  intro opener done stack haccepts
  cases opener with
  | call name =>
      have htakes : takes name (done ++ [t]).length = true := haccepts
      rw [show Opener.closer (.call name) = ')' from rfl, h.run_paren (bounded_cons rfl _)]
      simp only [closeParen, htakes, if_true, Option.bind_some]
      rfl
  | array =>
      rw [show Opener.closer .array = ']' from rfl, h.run_bracket (bounded_cons rfl _)]
      rfl

theorem Reads.consItem {tokens : List Token} {t : Tree} (h : Reads env tokens t)
    {rest : List Token} {items : List Tree} (hrest : ReadsItems env rest items) :
    ReadsItems env (tokens ++ .mark ',' :: rest) (t :: items) := by
  intro opener done stack haccepts
  have hnext := hrest opener (done ++ [t]) stack (by simpa using haccepts)
  rw [List.append_assoc, List.cons_append, h.run_comma (bounded_cons rfl stack)]
  simp only [nextItem, Option.bind_some, hnext, List.append_assoc, List.cons_append,
    List.nil_append]

theorem ReadsItems.array {tokens : List Token} {items : List Tree}
    (h : ReadsItems env tokens items) (hne : items ≠ []) :
    ReadsAtom env (.word "array" :: .mark '[' :: (tokens ++ [.mark ']'])) (.array items) := by
  intro stack
  refine ⟨.value (.array items), ?_, rfl⟩
  have hopen : run env ⟨stack, .operand⟩ [.word "array", .mark '['] =
      some ⟨.list .array [] :: stack, .operand⟩ := rfl
  have haccepts : Opener.accepts .array items.length = true := by
    have hpos : 0 < items.length := List.length_pos_iff.mpr hne
    simpa [Opener.accepts] using hpos
  exact (run_of_append hopen).trans (h .array [] stack haccepts)

theorem run_callOpen {name : String} (hname : name ∉ reservedWords) (stack : List Item) :
    run env ⟨stack, .operand⟩ [.word name, .mark '('] =
      some ⟨.list (.call name) [] :: stack, .operand⟩ := by
  simp only [run, step, operandStep, wordStep_of_not_mem hname, Option.bind_some, if_true]

theorem ReadsItems.call {tokens : List Token} {items : List Tree}
    (h : ReadsItems env tokens items) {name : String} (hname : name ∉ reservedWords)
    (htakes : takes name items.length = true) :
    ReadsAtom env (.word name :: .mark '(' :: (tokens ++ [.mark ')'])) (.call name items) := by
  intro stack
  exact ⟨.value (.call name items),
    (run_of_append (run_callOpen hname stack)).trans (h (.call name) [] stack htakes), rfl⟩

theorem readsAtom_call_nil {name : String} (hname : name ∉ reservedWords)
    (htakes : takes name 0 = true) :
    ReadsAtom env [.word name, .mark '(', .mark ')'] (.call name []) := by
  intro stack
  refine ⟨.value (.call name []), ?_, rfl⟩
  refine (run_of_append (run_callOpen hname stack)).trans ?_
  simp [run, step, operandStep, htakes]

/-!
## Operators
-/

theorem follows_of_binaryLevel? {token : Token} {entry : String × Nat}
    (h : binaryLevel? token = some entry) : token.follows = true := by
  cases token with
  | operator symbol => rfl
  | word name =>
      by_cases hname : name = "precision"
      · subst hname
        cases h
      · simp [Token.follows, hname]
  | _ => cases h

theorem valueStep_binary {token : Token} {op : String} {level : Nat}
    (h : binaryLevel? token = some (op, level)) (stack : List Item) (t : Tree) :
    valueStep stack t token =
      (collapse level stack t).map fun (rest, left) =>
        ⟨.binary level op left :: rest, .operand⟩ := by
  have hne : forall other, binaryLevel? other = none -> token ≠ other := by
    rintro other hnone rfl
    rw [hnone] at h
    cases h
  have his : binaryLevel? (.word "is") = none := by decide
  unfold valueStep
  rw [if_neg (hne (.mark ')') rfl), if_neg (hne (.mark ']') rfl), if_neg (hne (.mark ',') rfl),
    if_neg (hne .typecast rfl), if_neg (hne (.word "is") his), h]
  rfl

theorem ReadsSpine.snoc {before after : Nat} {left right : List Token} {spine : Spine} {r : Tree}
    {token : Token} {op : String}
    (hleft : ReadsSpine env before left spine) (htoken : binaryLevel? token = some (op, before))
    (hlevel : before ≤ Level.other) (hright : ReadsOperand env right r)
    (hafter : after < before ∨ after = before ∧ Level.associates before = true) :
    ReadsSpine env after (left ++ token :: right) (spine.snoc (.binary op r)) := by
  intro pending base hbase
  rcases hleft pending base hbase with ⟨s, hrun, u, hvalue, hcollapse⟩
  have hstep : step env s token =
      some ⟨.binary before op (spine.under pending) :: base, .operand⟩ := by
    rw [show s = ⟨s.stack, s.phase⟩ from rfl, step_value hvalue (follows_of_binaryLevel? htoken),
      valueStep_binary htoken, hcollapse]
    rfl
  obtain ⟨s', u', hrun', hvalue', hcollapse'⟩ :=
    hright (.binary before op (spine.under pending) :: base)
  refine ⟨s', ?_, u', hvalue', ?_⟩
  · rw [run_of_append hrun, run_cons, hstep, Option.bind_some, hrun']
  · rw [hcollapse' after (by omega)]
    have hunder : (spine.snoc (.binary op r)).under pending =
        .binary op (spine.under pending) r := by
      simp [Spine.under, Spine.snoc, Tail.after]
    rw [hunder]
    cases hafter with
    | inl hlt =>
        rw [collapse_binary hlt]
        exact hbase.collapse after _
    | inr heq =>
        rcases heq with ⟨rfl, hassoc⟩
        simp only [collapse, Nat.lt_irrefl, if_false, hassoc, Bool.not_true, Bool.and_false,
          Bool.false_eq_true]
        exact hbase.collapse after _

theorem ReadsAtom.tight {left right : List Token} {l r : Tree} {token : Token} {op : String}
    {level : Nat} (hleft : ReadsAtom env left l) (htoken : binaryLevel? token = some (op, level))
    (hlevel : Level.other < level) (hright : ReadsAtom env right r) :
    ReadsSpine env 0 (left ++ token :: right) ⟨.binary op l r, []⟩ := by
  intro pending base hbase
  rcases hleft (pending.items ++ base) with ⟨phase, hrun, hvalue⟩
  rcases hright (.binary level op l :: (pending.items ++ base)) with ⟨phase', hrun', hvalue'⟩
  have hstep : step env ⟨pending.items ++ base, phase⟩ token =
      some ⟨.binary level op l :: (pending.items ++ base), .operand⟩ := by
    rw [step_value hvalue (follows_of_binaryLevel? htoken), valueStep_binary htoken,
      collapse_pending_of_lt hlevel pending hbase]
    rfl
  refine ⟨⟨.binary level op l :: (pending.items ++ base), phase'⟩, ?_, r, hvalue', ?_⟩
  · rw [run_of_append hrun, run_cons, hstep, Option.bind_some, hrun']
  · rw [collapse_binary (Nat.zero_lt_of_lt hlevel)]
    exact collapse_pending (Nat.zero_le _) pending hbase _

/-- The operand that an arrow takes from a spine after it is the head alone. -/
theorem ReadsAtom.arrow {left right : List Token} {l : Tree} {spine : Spine}
    (hleft : ReadsAtom env left l) (asText : Bool) (hright : ReadsSpine env 0 right spine) :
    ReadsSpine env 0 (left ++ .operator (arrowSymbol asText) :: right)
      ⟨l, .binary (arrowSymbol asText) spine.head :: spine.tails⟩ := by
  intro pending base hbase
  have hlevel : binaryLevel? (.operator (arrowSymbol asText)) =
      some (arrowSymbol asText, Level.other) := by
    cases asText <;> rfl
  rcases hleft (pending.items ++ base) with ⟨phase, hrun, hvalue⟩
  have hstep : step env ⟨pending.items ++ base, phase⟩ (.operator (arrowSymbol asText)) =
      some ⟨Pending.items (some (arrowSymbol asText, pending.apply l)) ++ base, .operand⟩ := by
    rw [step_value hvalue rfl, valueStep_binary hlevel,
      collapse_pending (Nat.le_refl _) pending hbase]
    rfl
  rcases hright (some (arrowSymbol asText, pending.apply l)) base hbase with ⟨s, hrun', hsettles⟩
  refine ⟨s, ?_, hsettles⟩
  rw [run_of_append hrun, run_cons, hstep, Option.bind_some, hrun']

theorem Reads.not {tokens : List Token} {t : Tree} (h : Reads env tokens t) :
    ReadsSpine env 0 (.word "not" :: .mark '(' :: (tokens ++ [.mark ')']))
      ⟨.unary "NOT" t, []⟩ := by
  intro pending base hbase
  have hstep : step env ⟨pending.items ++ base, .operand⟩ (.word "not") =
      some ⟨.unary Level.not "NOT" :: (pending.items ++ base), .operand⟩ := rfl
  refine ⟨⟨.unary Level.not "NOT" :: (pending.items ++ base), .closed t⟩, ?_, t, rfl, ?_⟩
  · rw [run_cons, hstep, Option.bind_some]
    exact run_group h _
  · rw [collapse_unary (Nat.zero_le _)]
    exact collapse_pending (Nat.zero_le _) pending hbase _

def nullWords (negated : Bool) : List Token :=
  if negated then [.word "is", .word "not", .word "null"] else [.word "is", .word "null"]

theorem ReadsAtom.isNull {tokens : List Token} {t : Tree} (h : ReadsAtom env tokens t)
    (negated : Bool) :
    ReadsSpine env 0 (tokens ++ nullWords negated) ⟨t, [.isNull negated]⟩ := by
  intro pending base hbase
  rcases h (pending.items ++ base) with ⟨phase, hrun, hvalue⟩
  have hstep : step env ⟨pending.items ++ base, phase⟩ (.word "is") =
      some ⟨base, .isWord (pending.apply t)⟩ := by
    have hcollapse := collapse_pending (show Level.is ≤ Level.other by decide) pending hbase t
    rw [step_value hvalue rfl]
    simp only [valueStep, hcollapse]
    rfl
  refine ⟨⟨base, .value (.isNull negated (pending.apply t))⟩, ?_, _, rfl, hbase.collapse 0 _⟩
  rw [run_of_append hrun]
  cases negated with
  | false =>
      rw [show nullWords false = [.word "is", .word "null"] from rfl, run_cons, hstep]
      rfl
  | true =>
      rw [show nullWords true = [.word "is", .word "not", .word "null"] from rfl, run_cons,
        hstep]
      rfl

def quantifierWord (all : Bool) : Token := .word (if all then "all" else "any")

theorem ReadsAtom.quantified {left right : List Token} {l r : Tree} {token : Token}
    {op : String} (hleft : ReadsAtom env left l)
    (htoken : binaryLevel? token = some (op, Level.comparison)) (all : Bool)
    (hright : Reads env right r) :
    ReadsSpine env 0
      (left ++ token :: quantifierWord all :: .mark '(' :: (right ++ [.mark ')']))
      ⟨l, [.quantified op all r]⟩ := by
  intro pending base hbase
  rcases hleft (pending.items ++ base) with ⟨phase, hrun, hvalue⟩
  have hstep : step env ⟨pending.items ++ base, phase⟩ token =
      some ⟨.binary Level.comparison op (pending.apply l) :: base, .operand⟩ := by
    have hlevel : Level.comparison ≤ Level.other := by decide
    have hcollapse := collapse_pending hlevel pending hbase l
    rw [step_value hvalue (follows_of_binaryLevel? htoken), valueStep_binary htoken, hcollapse]
    rfl
  have hopen : run env ⟨.binary Level.comparison op (pending.apply l) :: base, .operand⟩
      [quantifierWord all, .mark '('] =
        some ⟨.quantified op all (pending.apply l) :: base, .operand⟩ := by
    cases all <;> rfl
  refine ⟨⟨base, .value (.quantified op all (pending.apply l) r)⟩, ?_, _, rfl, hbase.collapse 0 _⟩
  rw [run_of_append hrun, run_cons, hstep, Option.bind_some]
  refine (run_of_append hopen).trans ?_
  exact (hright.run_paren (bounded_cons rfl _) []).trans rfl

end Server
end TypedQuery
