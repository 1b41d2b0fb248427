import TypedQuery.Proofs.Expr.Meaning
import TypedQuery.Proofs.Fragment.Meaning
import TypedQuery.Proofs.Result

/-!
# Operators mean what they should

Every typed operator puts its operands in parentheses or makes them arguments of a call, and so
means the tree of the operator on the trees of the operands.
-/

namespace TypedQuery

open Server

namespace Reader

variable {r : Reader} {t u : Tree}

/-!
## Groups and calls
-/

theorem atomText_call {conforming : Bool} {env : Nat -> Option Tree} (name : String)
    (hcall : isCall name 1 = true) {text : List Char} (h : WholeText conforming env text t) :
    AtomText conforming env (name.toList ++ '(' :: (text ++ [')'])) (.call name [t]) :=
  h.lastItem.call name hcall

theorem agrees_call (h : u.Agrees t) (name : String) :
    (Tree.call name [u]).Agrees (Tree.call name [t]) :=
  Tree.Agrees.call (List.Forall₂.cons h .nil) name

theorem Means.call {f : TypedFragment} (hf : r.Means f.query t) {name before : String}
    (hbefore : before.toList = name.toList ++ ['(']) (hcall : isCall name 1 = true)
    (type : SqlType) :
    r.Means (TypedFragment.surround before f ")" type).query (.call name [t]) := by
  refine hf.wrap (fun tree => ⟨.call name [tree], []⟩) ?_ ?_
  · intro text tree htext
    have hatom := atomText_call name hcall htext
    rw [hbefore]
    simpa using hatom.spine
  · intro tree htree
    exact Spine.presents_operand (agrees_call htree name) rfl

theorem Means.cast {f : TypedFragment} (hf : r.Means f.query t) (type target : SqlType) :
    r.Means (TypedFragment.surround "(" f (")::" ++ target.cast) type).query
      (Tree.castTo t target) := by
  refine hf.wrap (fun tree => ⟨Tree.castTo tree target, []⟩) ?_ ?_
  · intro text tree htext
    have hcast := (htext.group.cast target).spine
    simpa [Tree.castTo] using hcast
  · intro tree htree
    exact Spine.presents_operand (htree.cast target.tokens) rfl

theorem Means.toJsonb {f : TypedFragment} (hf : r.Means f.query t) :
    r.Means f.toJsonb.query (Tree.json f.type t) := by
  unfold TypedFragment.toJsonb Tree.json
  split
  · refine hf.wrap (fun tree => ⟨.call "to_jsonb" [Tree.castTo tree .text], []⟩) ?_ ?_
    · intro text tree htext
      have hcall := (atomText_call "to_jsonb" rfl
        (htext.group.cast .text).whole).spine
      simpa [SqlType.cast, Tree.castTo] using hcall
    · intro tree htree
      exact Spine.presents_operand (agrees_call (htree.cast _) _) rfl
  · exact hf.call rfl rfl _

/-!
## Unary operators
-/

theorem Means.not {f : TypedFragment} (hf : r.Means f.query t) (type : SqlType) :
    r.Means (TypedFragment.surround "NOT (" f ")" type).query (.unary "NOT" t) := by
  refine hf.wrap (fun tree => ⟨.unary "NOT" tree, []⟩) ?_ ?_
  · intro text tree htext
    exact htext.not
  · intro tree htree
    exact Spine.presents_operand (htree.unary "NOT") rfl

theorem means_unary {op : UnaryOp} {f g : TypedFragment} (hf : r.Means f.query t)
    (h : TypedFragment.unary op f = .ok g) : r.Means g.query (op.tree t) := by
  cases op with
  | not =>
      rcases Result.bind_eq_ok.mp h with ⟨_, _, hg⟩
      cases hg
      exact hf.not _
  | cast type =>
      cases h
      exact hf.cast _ type
  | arrayLength =>
      simp only [TypedFragment.unary] at h
      split at h
      · cases h
        exact hf.call rfl rfl _
      · cases h

/-!
## Binary operators
-/

theorem isArrow_of_loose {op : String} (h : op ∈ looseSymbols) : Tree.isArrow op = false := by
  simp only [looseSymbols, List.mem_cons, List.not_mem_nil, or_false] at h
  rcases h with rfl | rfl | rfl | rfl | rfl | rfl | rfl | rfl | rfl | rfl | rfl | rfl <;> rfl

theorem isArrow_of_tight {op : String} (h : op ∈ tightSymbols) : Tree.isArrow op = false := by
  simp only [tightSymbols, List.mem_cons, List.not_mem_nil, or_false] at h
  rcases h with rfl | rfl | rfl | rfl <;> rfl

theorem not_tight_of_loose {op : String} (h : op ∈ looseSymbols) : op ∉ tightSymbols := by
  simp only [looseSymbols, List.mem_cons, List.not_mem_nil, or_false] at h
  rcases h with rfl | rfl | rfl | rfl | rfl | rfl | rfl | rfl | rfl | rfl | rfl | rfl <;> decide

theorem Means.combine {f g : TypedFragment} (hf : r.Means f.query t) (hg : r.Means g.query u)
    {op : String} (hop : op ∈ tightSymbols ∨ op ∈ looseSymbols) (type : SqlType) :
    r.Means (TypedFragment.combine f op g type).query (.binary op t u) := by
  cases hop with
  | inl htight =>
      refine hf.wrap₂ hg (fun tree tree' => ⟨.binary op tree tree', []⟩) ?_ ?_
      · intro text tree text' tree' htext htext'
        simpa [spaced] using htext.group.tight htight htext'.group
      · intro tree tree' htree htree'
        refine Spine.presents_operand (htree.binary htree' (isArrow_of_tight htight)) ?_
        simpa [Tree.isTight] using htight
  | inr hloose =>
      refine hf.wrap₂ hg (fun tree tree' => ⟨tree, [.binary op tree']⟩) ?_ ?_
      · intro text tree text' tree' htext htext'
        simpa [spaced] using htext.group.loose hloose htext'.group
      · intro tree tree' htree htree'
        have hagrees := htree.binary htree' (isArrow_of_loose hloose)
        refine Spine.presents_tail hagrees ?_
        simpa [Tree.isTight] using not_tight_of_loose hloose

end Reader

/-!
## Results of arithmetic
-/

namespace SqlType

def IsScalar (t : SqlType) : Prop := t ≠ .text ∧ t.isArray = false

theorem isScalar_of_isNumeric {t : SqlType} (h : t.isNumeric = true) : t.IsScalar := by
  constructor
  · rintro rfl
    exact absurd h (by decide)
  · cases t with
    | array item => exact absurd h (by simp [isNumeric, kind])
    | _ => rfl

theorem isScalar_of_isMoment {t : SqlType} (h : t.isMoment = true) : t.IsScalar := by
  constructor
  · rintro rfl
    cases h
  · cases t with
    | array item => cases h
    | _ => rfl

theorem isScalar_wider (a b : SqlType) : (wider a b).IsScalar := by
  unfold wider
  dsimp only
  repeat' split
  all_goals exact ⟨fun h => SqlType.noConfusion h, rfl⟩

inductive Calculates (op : BinaryOp) : SqlType -> SqlType -> SqlType -> Prop
  | besideNull {l : SqlType} (hl : l.isNumeric = true) : Calculates op l null l
  | nullBeside {r : SqlType} (hr : r.isNumeric = true) : Calculates op null r r
  | numbers {l r : SqlType} (hl : l.isNumeric = true) (hr : r.isNumeric = true) :
      Calculates op l r (wider l r)
  | moved {l : SqlType} (hl : l.isMoment = true) (hop : op = .add ∨ op = .sub) :
      Calculates op l interval l
  | moving {r : SqlType} (hr : r.isMoment = true) (hop : op = .add) : Calculates op interval r r
  | intervals (hop : op = .add ∨ op = .sub) : Calculates op interval interval interval
  | timestamps (hop : op = .sub) : Calculates op timestamp timestamp interval
  | dates (hop : op = .sub) : Calculates op date date integer
  | scaled {r : SqlType} (hr : r.isNumeric = true) (hop : op = .mul ∨ op = .div) :
      Calculates op interval r interval

theorem calculates_of_arithmetic? {op : BinaryOp} {l r t : SqlType}
    (h : arithmetic? op l r = some t) : Calculates op l r t := by
  unfold arithmetic? at h
  simp only [Bool.and_eq_true, Bool.or_eq_true, decide_eq_true_eq] at h
  by_cases hnulls : l = null ∧ r = null
  · rw [if_pos hnulls] at h
    cases h
  rw [if_neg hnulls] at h
  by_cases hnull : l = null ∧ r.isNumeric = true
  · rw [if_pos hnull] at h
    rcases hnull with ⟨rfl, hr⟩
    cases h
    exact .nullBeside hr
  rw [if_neg hnull] at h
  by_cases hnull : r = null ∧ l.isNumeric = true
  · rw [if_pos hnull] at h
    rcases hnull with ⟨rfl, hl⟩
    cases h
    exact .besideNull hl
  rw [if_neg hnull] at h
  by_cases hnumbers : l.isNumeric = true ∧ r.isNumeric = true
  · rw [if_pos hnumbers] at h
    cases h
    exact .numbers hnumbers.1 hnumbers.2
  rw [if_neg hnumbers] at h
  by_cases hmoved : (l.isMoment = true ∧ r = interval) ∧ (op = .add ∨ op = .sub)
  · rw [if_pos hmoved] at h
    rcases hmoved with ⟨⟨hl, rfl⟩, hop⟩
    cases h
    exact .moved hl hop
  rw [if_neg hmoved] at h
  by_cases hmoving : (l = interval ∧ r.isMoment = true) ∧ op = .add
  · rw [if_pos hmoving] at h
    rcases hmoving with ⟨⟨rfl, hr⟩, hop⟩
    cases h
    exact .moving hr hop
  rw [if_neg hmoving] at h
  by_cases hintervals : (l = interval ∧ r = interval) ∧ (op = .add ∨ op = .sub)
  · rw [if_pos hintervals] at h
    rcases hintervals with ⟨⟨rfl, rfl⟩, hop⟩
    cases h
    exact .intervals hop
  rw [if_neg hintervals] at h
  by_cases htimestamps : (l = timestamp ∧ r = timestamp) ∧ op = .sub
  · rw [if_pos htimestamps] at h
    rcases htimestamps with ⟨⟨rfl, rfl⟩, hop⟩
    cases h
    exact .timestamps hop
  rw [if_neg htimestamps] at h
  by_cases hdates : (l = date ∧ r = date) ∧ op = .sub
  · rw [if_pos hdates] at h
    rcases hdates with ⟨⟨rfl, rfl⟩, hop⟩
    cases h
    exact .dates hop
  rw [if_neg hdates] at h
  by_cases hscaled : (l = interval ∧ r.isNumeric = true) ∧ (op = .mul ∨ op = .div)
  · rw [if_pos hscaled] at h
    rcases hscaled with ⟨⟨rfl, hr⟩, hop⟩
    cases h
    exact .scaled hr hop
  · rw [if_neg hscaled] at h
    cases h

theorem Calculates.isScalar {op : BinaryOp} {l r t : SqlType} (h : Calculates op l r t) :
    l.IsScalar ∧ r.IsScalar ∧ t.IsScalar := by
  have hnull : IsScalar null := ⟨fun h => SqlType.noConfusion h, rfl⟩
  have hinterval : IsScalar interval := ⟨fun h => SqlType.noConfusion h, rfl⟩
  cases h with
  | besideNull hl => exact ⟨isScalar_of_isNumeric hl, hnull, isScalar_of_isNumeric hl⟩
  | nullBeside hr => exact ⟨hnull, isScalar_of_isNumeric hr, isScalar_of_isNumeric hr⟩
  | numbers hl hr => exact ⟨isScalar_of_isNumeric hl, isScalar_of_isNumeric hr, isScalar_wider l r⟩
  | moved hl => exact ⟨isScalar_of_isMoment hl, hinterval, isScalar_of_isMoment hl⟩
  | moving hr => exact ⟨hinterval, isScalar_of_isMoment hr, isScalar_of_isMoment hr⟩
  | intervals => exact ⟨hinterval, hinterval, hinterval⟩
  | timestamps => exact ⟨isScalar_of_isMoment rfl, isScalar_of_isMoment rfl, hinterval⟩
  | dates => exact ⟨isScalar_of_isMoment rfl, isScalar_of_isMoment rfl, isScalar_of_isNumeric rfl⟩
  | scaled hr => exact ⟨hinterval, isScalar_of_isNumeric hr, hinterval⟩

end SqlType

theorem BinaryOp.symbol_of_isScalar (op : BinaryOp) {t : SqlType} (h : t.IsScalar) :
    op.symbol t = op.sql := by
  simp [BinaryOp.symbol, h.1, h.2]

theorem BinaryOp.mem_symbols (op : BinaryOp) (t : SqlType) :
    op.symbol t ∈ tightSymbols ∨ op.symbol t ∈ looseSymbols := by
  unfold BinaryOp.symbol
  split
  · exact Or.inr (by decide)
  · cases op <;> decide

namespace TypedFragment

theorem arithmetic_eq {op : BinaryOp} {left right f : TypedFragment}
    (h : arithmetic op left right = .ok f) :
    f = combine left (op.symbol f.type) right f.type := by
  unfold arithmetic at h
  dsimp only at h
  split at h
  · rename_i htexts
    cases h
    simp only [Bool.and_eq_true, decide_eq_true_eq] at htexts
    rw [htexts.1.1.1]
    rfl
  split at h
  · rename_i harrays
    cases h
    simp only [Bool.and_eq_true, decide_eq_true_eq] at harrays
    have hsymbol : op.symbol left.type = "||" := by
      simp [BinaryOp.symbol, harrays.1.1, harrays.1.2]
    rw [show (combine left "||" right left.type).type = left.type from rfl, hsymbol]
  · split at h
    · rename_i t hresult
      cases h
      rw [show (combine left op.sql right t).type = t from rfl,
        op.symbol_of_isScalar (SqlType.calculates_of_arithmetic? hresult).isScalar.2.2]
    · cases h

theorem logic_eq {op : BinaryOp} {left right f : TypedFragment}
    (hsymbol : op.symbol .boolean = op.sql) (h : logic op left right = .ok f) :
    f = combine left (op.symbol f.type) right f.type := by
  rcases Result.bind_eq_ok.mp h with ⟨_, _, h⟩
  rcases Result.bind_eq_ok.mp h with ⟨_, _, h⟩
  cases h
  rw [show (combine left op.sql right .boolean).type = .boolean from rfl, hsymbol]

end TypedFragment

/-!
## Binary operators of expressions
-/

namespace Reader

variable {r : Reader} {t u : Tree}

theorem means_comparison {op : BinaryOp} (hop : op.isComparison = true)
    {left right f : TypedFragment} {l m : Meant} (hl : r.Means left.query l.tree)
    (hltype : left.type = l.type) (hm : r.Means right.query m.tree)
    (hmtype : right.type = m.type) (h : TypedFragment.comparison op left right = .ok f) :
    r.Means f.query (op.operatorTree f.type l m) := by
  have hsymbol : op.sql ∈ tightSymbols ∨ op.sql ∈ looseSymbols := by
    cases op <;> decide
  unfold TypedFragment.comparison at h
  dsimp only at h
  unfold BinaryOp.operatorTree
  rw [hop, <- hltype, <- hmtype, Bool.true_and, Bool.true_and]
  split at h
  · rename_i hjson
    cases h
    rw [if_pos hjson]
    exact hl.combine hm.toJsonb hsymbol _
  split at h
  · rename_i hleft hjson
    cases h
    rw [if_neg hleft, if_pos hjson]
    exact hl.toJsonb.combine hm hsymbol _
  split at h
  · rename_i hleft hright _
    cases h
    have hscalar : SqlType.IsScalar .boolean := ⟨fun h => SqlType.noConfusion h, rfl⟩
    have hop : op.symbol (TypedFragment.combine left op.sql right .boolean).type = op.sql :=
      op.symbol_of_isScalar hscalar
    rw [if_neg hleft, if_neg hright, hop]
    exact hl.combine hm hsymbol _
  · cases h

theorem means_operator {op : BinaryOp} {left right f : TypedFragment} {l m : Meant}
    (hl : r.Means left.query l.tree) (hltype : left.type = l.type)
    (hm : r.Means right.query m.tree) (hmtype : right.type = m.type)
    (h : TypedFragment.operator op left right = .ok f) :
    r.Means f.query (op.operatorTree f.type l m) := by
  cases hop : op.isComparison with
  | true =>
      apply means_comparison hop hl hltype hm hmtype
      cases op <;> first | exact h | cases hop
  | false =>
      have htree : op.operatorTree f.type l m = .binary (op.symbol f.type) l.tree m.tree := by
        simp [BinaryOp.operatorTree, hop]
      have hf : f = TypedFragment.combine left (op.symbol f.type) right f.type := by
        cases op with
        | and => exact TypedFragment.logic_eq rfl h
        | or => exact TypedFragment.logic_eq rfl h
        | add => exact TypedFragment.arithmetic_eq h
        | sub => exact TypedFragment.arithmetic_eq h
        | mul => exact TypedFragment.arithmetic_eq h
        | div => exact TypedFragment.arithmetic_eq h
        | _ => cases hop
      rw [htree, hf]
      exact hl.combine hm (op.mem_symbols _) _

/-- What an argument compiles to, if it does, is what its counterpart means. -/
structure Answers (r : Reader) (a : Argument) (m : Meant) : Prop where
  expr_eq : a.expr = m.expr
  plain : m.expr.isPlain = true
  means : forall f, a.compiled = .ok f -> f.type = m.type ∧ r.Means f.query m.tree

theorem Means.isNull {f : TypedFragment} (hf : r.Means f.query t) (negated : Bool)
    (type : SqlType) :
    r.Means (TypedFragment.surround "(" f (")" ++ nullTest negated) type).query
      (.isNull negated t) := by
  refine hf.wrap (fun tree => ⟨tree, [.isNull negated]⟩) ?_ ?_
  · intro text tree htext
    simpa using htext.group.isNull negated
  · intro tree htree
    exact Spine.presents_tail (htree.isNull negated) rfl

theorem nullTest?_eq (op : BinaryOp) (left right : Argument) :
    Compiler.nullTest? op left right =
      if (op = .eq || op = .ne) && right.expr.isNullConstant then
        some (left, ")" ++ nullTest (op = .ne))
      else if (op = .eq || op = .ne) && left.expr.isNullConstant then
        some (right, ")" ++ nullTest (op = .ne))
      else none := by
  cases op <;> rfl

/-- A text constant that meets an enum is compiled as a label, and means one. -/
theorem enumLabel?_cases (target : SqlType) (m : Meant) :
    (exists v, TypedFragment.enumLabel? target m.expr = some (.ofValue v) ∧
      m.labelled target = { m with type := v.type, tree := v.tree }) ∨
    (TypedFragment.enumLabel? target m.expr = none ∧ m.labelled target = m) := by
  rcases m with ⟨e, type, tree⟩
  cases target with
  | enum labels =>
      cases e with
      | constant v =>
          rcases v with ⟨value, valueType⟩
          cases value with
          | text label => exact Or.inl ⟨⟨.enum label, .enum labels⟩, rfl, rfl⟩
          | _ => exact Or.inr ⟨rfl, rfl⟩
      | _ => exact Or.inr ⟨rfl, rfl⟩
  | _ => exact Or.inr ⟨rfl, rfl⟩

theorem means_binary {op : BinaryOp} {left right : Argument} {l m : Meant}
    (hleft : r.Answers left l) (hright : r.Answers right m) {f : TypedFragment}
    (h : Compiler.binary op left right = .ok f) : r.Means f.query (op.tree f.type l m) := by
  unfold Compiler.binary at h
  rw [nullTest?_eq] at h
  unfold BinaryOp.tree
  rw [<- hleft.expr_eq, <- hright.expr_eq]
  split at h
  · rename_i subject test hnull
    rcases Result.bind_eq_ok.mp h with ⟨g, hg, hf⟩
    cases hf
    split at hnull
    · rename_i hnullRight
      cases hnull
      rw [if_pos hnullRight]
      exact (hleft.means g hg).2.isNull _ _
    · rename_i hnullRight
      split at hnull
      · rename_i hnullLeft
        cases hnull
        rw [if_neg hnullRight, if_pos hnullLeft]
        exact (hright.means g hg).2.isNull _ _
      · cases hnull
  · rename_i hnull
    split at hnull
    · cases hnull
    · rename_i hnullRight
      split at hnull
      · cases hnull
      · rename_i hnullLeft
        rw [if_neg hnullRight, if_neg hnullLeft]
        rcases Result.bind_eq_ok.mp h with ⟨g, hg, h⟩
        rcases hleft.means g hg with ⟨hgtype, hgmeans⟩
        rw [hright.expr_eq, hgtype] at h
        rcases enumLabel?_cases l.type m with ⟨v, hlabel, hlabelled⟩ | ⟨hlabel, hlabelled⟩
        · rw [hlabel] at h
          rw [hlabelled]
          exact means_operator hgmeans hgtype (means_value v) rfl h
        · rw [hlabel] at h
          rcases Result.bind_eq_ok.mp h with ⟨k, hk, h⟩
          rcases hright.means k hk with ⟨hktype, hkmeans⟩
          rw [hlabelled]
          exact means_operator hgmeans hgtype hkmeans hktype h

end Reader
end TypedQuery
