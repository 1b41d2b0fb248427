import TypedQuery.Proofs.Expr.Rendered
import TypedQuery.Proofs.Expr.Transparent
import TypedQuery.Proofs.Schema.Lookup

/-!
# Elementary expressions

Elementary expressions are made of columns, constants, operators, casts and calls of functions of
the catalog.  They stay elementary when they are folded, and so do all their parts.  No arrow is
among what they mean, so that their text always reads as what they mean, if it can be read.
-/

namespace TypedQuery

open Server

namespace Expr

/-!
## Operands
-/

def operands : Expr -> List Expr
  | .unary _ operand => [operand]
  | .binary _ left right => [left, right]
  | .method _ receiver args _ => receiver :: args
  | .function _ args => args
  | _ => []

theorem mem_allParts_iff {es : List Expr} {part : Expr} :
    part ∈ allParts es <-> exists e, e ∈ es ∧ part ∈ e.parts := by
  induction es with
  | nil => simp [allParts]
  | cons e rest ih => simp [allParts, ih]

theorem mem_parts_iff {e part : Expr} :
    part ∈ e.parts <-> part = e ∨ exists operand, operand ∈ e.operands ∧ part ∈ operand.parts := by
  cases e with
  | unary op operand => simp [parts, operands]
  | binary op left right => simp [parts, operands]
  | method name receiver args onServer => simp [parts, operands, mem_allParts_iff]
  | function name args => simp [parts, operands, mem_allParts_iff]
  | _ => simp [parts, operands]

theorem mem_parts_of_operand {e operand part : Expr} (hoperand : operand ∈ e.operands)
    (hpart : part ∈ operand.parts) : part ∈ e.parts := by
  rw [mem_parts_iff]
  exact Or.inr ⟨operand, hoperand, hpart⟩

theorem mem_parts_of_mem_operands {e operand : Expr} (h : operand ∈ e.operands) :
    operand ∈ e.parts :=
  mem_parts_of_operand h operand.mem_parts_self

mutual

/-- What follows for an expression from its operands holds of every expression. -/
theorem of_operands {P : Expr -> Prop}
    (step : forall e, (forall operand, operand ∈ e.operands -> P operand) -> P e) (e : Expr) :
    P e := by
  apply step
  cases e with
  | unary op operand => exact List.forall_mem_singleton.mpr (of_operands step operand)
  | binary op left right =>
      exact List.forall_mem_cons.mpr ⟨of_operands step left,
        List.forall_mem_singleton.mpr (of_operands step right)⟩
  | method name receiver args onServer =>
      exact List.forall_mem_cons.mpr ⟨of_operands step receiver, all_of_operands step args⟩
  | function name args => exact all_of_operands step args
  | _ => exact List.forall_mem_nil _

theorem all_of_operands {P : Expr -> Prop}
    (step : forall e, (forall operand, operand ∈ e.operands -> P operand) -> P e)
    (es : List Expr) : forall e, e ∈ es -> P e := by
  cases es with
  | nil => exact List.forall_mem_nil _
  | cons e rest =>
      exact List.forall_mem_cons.mpr ⟨of_operands step e, all_of_operands step rest⟩

end

/-- What operands inherit from an expression, all its parts inherit. -/
theorem of_mem_parts {P : Expr -> Prop}
    (step : forall e, P e -> forall operand, operand ∈ e.operands -> P operand) {e part : Expr}
    (h : P e) (hpart : part ∈ e.parts) : P part := by
  induction e using of_operands with
  | step e ih =>
      rw [mem_parts_iff] at hpart
      rcases hpart with rfl | ⟨operand, hoperand, hpart⟩
      · exact h
      · exact ih operand hoperand (step e h operand hoperand) hpart

end Expr

/-!
## The expressions
-/

def PathStep.isColumnStep : PathStep -> Bool
  | table _ | column _ => true
  | _ => false

/-- Names that registered methods and properties, or the methods of every receiver, answer to.  The
property `length` is left out: it is a function of the catalog too. -/
def answeredNames : List String :=
  methodTrees.map (·.1.2) ++ (accessorTrees.map (·.1.2)).filter (· != "length") ++
    ["contains", "index", "pg_in", "pg_not_in", "pg_contains_any"]

namespace Expr

def isElementaryNode : Expr -> Bool
  | .field path => path.all PathStep.isColumnStep
  | .method name _ _ _ => !answeredNames.contains name
  | .subquery _ | .compiled _ | .invalid _ => false
  | _ => true

/-- An expression of columns, constants, operators, casts and functions of the catalog. -/
def IsElementary (e : Expr) : Prop := forall part, part ∈ e.parts -> part.isElementaryNode = true

theorem IsElementary.node {e : Expr} (h : e.IsElementary) : e.isElementaryNode = true :=
  h e e.mem_parts_self

theorem IsElementary.operand {e operand : Expr} (h : e.IsElementary)
    (hoperand : operand ∈ e.operands) : operand.IsElementary :=
  fun part hpart => h part (mem_parts_of_operand hoperand hpart)

theorem isElementary_iff {e : Expr} :
    e.IsElementary <->
      e.isElementaryNode = true ∧ forall operand, operand ∈ e.operands -> operand.IsElementary := by
  constructor
  · exact fun h => ⟨h.node, fun operand hoperand => h.operand hoperand⟩
  · rintro ⟨hnode, hoperands⟩ part hpart
    rw [mem_parts_iff] at hpart
    rcases hpart with rfl | ⟨operand, hoperand, hpart⟩
    · exact hnode
    · exact hoperands operand hoperand part hpart

theorem allPlain_iff {es : List Expr} :
    allPlain es = true <-> forall e, e ∈ es -> e.isPlain = true := by
  induction es with
  | nil => simp [allPlain]
  | cons e rest ih => simp [allPlain, ih]

theorem IsElementary.isPlain {e : Expr} (h : e.IsElementary) : e.isPlain = true := by
  induction e using of_operands with
  | step e ih =>
      have hnode := h.node
      have hplain : forall operand, operand ∈ e.operands -> operand.isPlain = true :=
        fun operand hoperand => ih operand hoperand (h.operand hoperand)
      cases e with
      | unary op operand => exact hplain operand List.mem_cons_self
      | binary op left right => simpa [operands, Expr.isPlain] using hplain
      | method name receiver args onServer =>
          simpa [operands, Expr.isPlain, allPlain_iff] using hplain
      | function name args => exact allPlain_iff.mpr hplain
      | subquery s => cases hnode
      | compiled fragment => cases hnode
      | _ => rfl

end Expr

/-!
## Folding
-/

namespace Fold

theorem foldAll_eq_map (es : List Expr) : foldAll es = es.map fold := by
  induction es with
  | nil => rfl
  | cons e rest ih => rw [foldAll, ih, List.map_cons]

/-- An expression becomes a constant, or only its operands are folded. -/
theorem fold_cases (e : Expr) :
    (exists v, fold e = .constant v) ∨
      (fold e).operands = e.operands.map fold ∧
        (fold e).isElementaryNode = e.isElementaryNode := by
  cases e with
  | unary op operand =>
      rw [fold]
      rcases unaryNode_cases op (fold operand) with ⟨_, v, -, -, hv⟩ | hsame
      · exact Or.inl ⟨v, hv⟩
      · rw [hsame]
        exact Or.inr ⟨rfl, rfl⟩
  | binary op left right =>
      rw [fold]
      rcases binaryNode_cases op (fold left) (fold right) with ⟨_, _, v, -, -, -, hv⟩ | hsame
      · exact Or.inl ⟨v, hv⟩
      · rw [hsame]
        exact Or.inr ⟨rfl, rfl⟩
  | method name receiver args onServer =>
      rw [fold, foldAll_eq_map]
      rcases methodNode_cases name (fold receiver) (args.map fold) onServer with
        ⟨_, v, -, -, hv⟩ | hsame
      · exact Or.inl ⟨v, hv⟩
      · rw [hsame]
        exact Or.inr ⟨rfl, rfl⟩
  | function name args =>
      rw [fold, foldAll_eq_map]
      exact Or.inr ⟨rfl, rfl⟩
  | constant v => exact Or.inl ⟨v, rfl⟩
  | _ => exact Or.inr ⟨rfl, rfl⟩

theorem isElementary_fold {e : Expr} (h : e.IsElementary) : (fold e).IsElementary := by
  induction e using Expr.of_operands with
  | step e ih =>
      rcases fold_cases e with ⟨v, hv⟩ | ⟨hoperands, hnode⟩
      · rw [hv, Expr.isElementary_iff]
        exact ⟨rfl, List.forall_mem_nil _⟩
      · rw [Expr.isElementary_iff, hnode, hoperands, List.forall_mem_map]
        exact ⟨h.node, fun operand hoperand => ih operand hoperand (h.operand hoperand)⟩

theorem fold_operand {e : Expr} (h : fold e = e) {operand : Expr}
    (hoperand : operand ∈ e.operands) : fold operand = operand := by
  rcases fold_cases e with ⟨v, hv⟩ | ⟨hoperands, -⟩
  · rw [h] at hv
    rw [hv] at hoperand
    cases hoperand
  · rw [h] at hoperands
    have hsame : e.operands.map fold = e.operands.map id := by
      rw [<- hoperands, List.map_id]
    exact List.map_inj_left.mp hsame operand hoperand

end Fold

/-!
## Calls
-/

theorem keyed?_eq_none {α : Type} {entries : List ((TypeKind × String) × α)} {name : String}
    (h : name ∉ entries.map (·.1.2)) (kind : TypeKind) : keyed? entries kind name = none := by
  rw [keyed?, Option.map_eq_none_iff, List.find?_eq_none]
  intro entry hentry hkey
  refine h (List.mem_map.mpr ⟨entry, hentry, ?_⟩)
  rw [of_decide_eq_true hkey]

def lengthFunctions : List String := ["char_length", "cardinality", "jsonb_array_length"]

theorem methodTree_cases {name : String} (h : answeredNames.contains name = false) (m : Meant)
    (ms : List Meant) :
    methodTree name m ms = functionTree name (m.tree :: ms.map (·.tree)) ∨
      name = "length" ∧ ms = [] ∧
        exists f, f ∈ lengthFunctions ∧ methodTree name m ms = .call f [m.tree] := by
  have hname : name ∉ answeredNames := by simpa using h
  simp only [answeredNames, List.mem_append, not_or] at hname
  rcases hname with ⟨⟨hmethod, haccessor⟩, hnative⟩
  have hnone : nativeTree? name m ms = none := by
    unfold nativeTree?
    split <;> first | rfl | exact absurd (by decide) hnative
  unfold methodTree
  rw [keyed?_eq_none hmethod]
  dsimp only
  by_cases hlength : name = "length"
  · subst hlength
    cases ms with
    | cons first rest => exact Or.inl rfl
    | nil =>
        cases m.type.kind with
        | string => exact Or.inr ⟨rfl, rfl, _, List.mem_cons_self, rfl⟩
        | array => exact Or.inr ⟨rfl, rfl, _, List.mem_cons_of_mem _ List.mem_cons_self, rfl⟩
        | json => exact Or.inr ⟨rfl, rfl, _, by decide, rfl⟩
        | _ => exact Or.inl rfl
  · have hkey : keyed? accessorTrees m.type.kind name = none := by
      refine keyed?_eq_none (fun hmem => haccessor ?_) m.type.kind
      exact List.mem_filter.mpr ⟨hmem, by simpa using hlength⟩
    rw [hkey, ite_self, hnone]
    exact Or.inl rfl

/-!
## Texts
-/

namespace Server.Tree

theorem allArrowsTight_iff {ts : List Tree} :
    allArrowsTight ts = true <-> forall t, t ∈ ts -> t.arrowsTight = true := by
  induction ts with
  | nil => simp [allArrowsTight]
  | cons t rest ih => simp [allArrowsTight, ih]

theorem arrowsTight_functionTree {name : String} {ts : List Tree}
    (h : forall t, t ∈ ts -> t.arrowsTight = true) : (functionTree name ts).arrowsTight = true := by
  unfold functionTree
  split
  · rename_i f hlookup
    rw [arrowsTight, allArrowsTight_iff]
    intro t ht
    rcases List.mem_append.mp ht with ht | ht
    · exact h t ht
    · rcases List.mem_map.mp ht with ⟨text, htext, rfl⟩
      have hcallable := SqlFunction.isCallable_of_lookup? hlookup
      exact (agrees_defaultTree (f.mem_defaultTexts hcallable htext)).eq_iff.mp rfl
  · rfl

theorem arrowsTight_json (type : SqlType) {t : Tree} (h : t.arrowsTight = true) :
    (Tree.json type t).arrowsTight = true := by
  unfold Tree.json
  split <;> simp [arrowsTight, allArrowsTight, TypedQuery.Tree.castTo, h]

end Server.Tree

theorem BinaryOp.isArrow_symbol (op : BinaryOp) (result : SqlType) :
    Tree.isArrow (op.symbol result) = false := by
  unfold symbol
  split
  · decide
  · cases op <;> decide

theorem Meant.arrowsTight_labelled {m : Meant} (h : m.tree.arrowsTight = true) (target : SqlType) :
    (m.labelled target).tree.arrowsTight = true := by
  unfold labelled
  split
  · rename_i e label _ _
    exact (Typed.inert_tree ⟨.enum label, .enum e⟩).arrowsTight
  · exact h

theorem BinaryOp.arrowsTight_tree (op : BinaryOp) (result : SqlType) {left right : Meant}
    (hleft : left.tree.arrowsTight = true) (hright : right.tree.arrowsTight = true) :
    (op.tree result left right).arrowsTight = true := by
  have hlabelled := Meant.arrowsTight_labelled hright left.type
  have hbinary : forall {symbol : String} {l r : Tree}, Tree.isArrow symbol = false ->
      l.arrowsTight = true -> r.arrowsTight = true ->
        (Tree.binary symbol l r).arrowsTight = true := by
    intro symbol l r hsymbol hl hr
    rw [Tree.arrowsTight, hl, hr, hsymbol]
    rfl
  have hsql : Tree.isArrow op.sql = false := by cases op <;> decide
  unfold tree
  split
  · exact hleft
  split
  · exact hright
  unfold operatorTree
  split
  · exact hbinary hsql hleft (Tree.arrowsTight_json _ hlabelled)
  split
  · exact hbinary hsql (Tree.arrowsTight_json _ hleft) hlabelled
  · exact hbinary (op.isArrow_symbol result) hleft hlabelled

namespace Compiler

variable {c : Compiler}

theorem meanings_eq (c : Compiler) (scopes : Scopes) (es : List Expr) :
    c.meanings scopes es = es.map fun e => ⟨e, c.typeOf e, c.meaning scopes e⟩ := by
  induction es with
  | nil => rw [meanings, List.map_nil]
  | cons e rest ih => rw [meanings, ih, List.map_cons]

theorem meanings_trees (c : Compiler) (scopes : Scopes) (es : List Expr) :
    (c.meanings scopes es).map (·.tree) = es.map (c.meaning scopes) := by
  rw [meanings_eq, List.map_map]
  rfl

theorem start?_eq_ok {path : List PathStep} {slot : Slot} {column : Column} {start : ResolvedPath}
    {steps : List PathStep} (h : c.start? path = .ok (slot, column, start, steps)) :
    (exists t, c.scope.table slot = .ok t ∧ column ∈ t.columns) ∧
      exists front, path = front ++ steps := by
  rcases Result.bind_eq_ok.mp h with ⟨⟨first, rest⟩, hfirst, h⟩
  rcases Result.bind_eq_ok.mp h with ⟨t, htable, h⟩
  dsimp only at h
  split at h
  · rename_i name steps'
    rcases Result.bind_eq_ok.mp h with ⟨⟨index, found⟩, hfound, hpair⟩
    cases hpair
    refine ⟨⟨t, htable, List.mem_of_getElem? (Table.getElem?_of_requireColumn hfound)⟩, ?_⟩
    unfold startOfPath at hfirst
    split at hfirst
    · cases hfirst
      exact ⟨[_, _], rfl⟩
    · rcases Result.bind_eq_ok.mp hfirst with ⟨root, -, hroot⟩
      cases hroot
      exact ⟨[_], rfl⟩
  · cases h

theorem step_of_isColumnStep {step : PathStep} (h : step.isColumnStep = true) (r : ResolvedPath)
    (q : ResolvedPath) : r.step c.calls step ≠ .ok q := by
  cases step with
  | table slot =>
      intro hstep
      cases hstep
  | column name =>
      intro hstep
      cases hstep
  | _ => cases h

theorem pathTree_cases (c : Compiler) (scopes : Scopes) {path : List PathStep}
    (h : path.all PathStep.isColumnStep = true) :
    (exists slot name, c.pathTree scopes path = scopes.columnTree slot name) ∨
      c.pathTree scopes path = default := by
  unfold pathTree
  split
  · rename_i slot column start steps hstart
    rcases (start?_eq_ok hstart).2 with ⟨front, hpath⟩
    cases steps with
    | nil => exact Or.inl ⟨slot, column.name, rfl⟩
    | cons step rest =>
        have hstep : step.isColumnStep = true :=
          List.all_eq_true.mp h step (hpath ▸ List.mem_append_right _ List.mem_cons_self)
        rw [ResolvedPath.tree]
        split
        · rename_i q hq
          exact absurd hq (step_of_isColumnStep hstep start q)
        · exact Or.inr rfl
  · exact Or.inr rfl

theorem arrowsTight_meaning (c : Compiler) (scopes : Scopes) {e : Expr} (h : e.IsElementary) :
    (c.meaning scopes e).arrowsTight = true := by
  induction e using Expr.of_operands with
  | step e ih =>
      have hnode := h.node
      have htight : forall operand, operand ∈ e.operands ->
          (c.meaning scopes operand).arrowsTight = true :=
        fun operand hoperand => ih operand hoperand (h.operand hoperand)
      cases e with
      | field path =>
          rw [meaning]
          rcases c.pathTree_cases scopes hnode with ⟨slot, name, htree⟩ | htree
          · rw [htree]
            rfl
          · rw [htree]
            rfl
      | constant v =>
          rw [meaning]
          exact v.inert_tree.arrowsTight
      | unary op operand =>
          have hoperand := htight operand List.mem_cons_self
          rw [meaning]
          cases op <;> simp [UnaryOp.tree, Tree.castTo, Tree.arrowsTight, Tree.allArrowsTight,
            hoperand]
      | binary op left right =>
          rw [meaning]
          exact op.arrowsTight_tree _ (htight left List.mem_cons_self)
            (htight right (List.mem_cons_of_mem _ List.mem_cons_self))
      | method name receiver args onServer =>
          rw [meaning]
          have hname : answeredNames.contains name = false := by
            simpa [Expr.isElementaryNode] using hnode
          rcases methodTree_cases hname ⟨receiver, c.typeOf receiver, c.meaning scopes receiver⟩
            (c.meanings scopes args) with htree | ⟨-, -, f, -, htree⟩
          · rw [htree, meanings_trees]
            apply Tree.arrowsTight_functionTree
            refine List.forall_mem_cons.mpr ⟨htight receiver List.mem_cons_self, ?_⟩
            rw [List.forall_mem_map]
            exact fun arg harg => htight arg (List.mem_cons_of_mem _ harg)
          · have hreceiver := htight receiver List.mem_cons_self
            rw [htree]
            simp [Tree.arrowsTight, Tree.allArrowsTight, hreceiver]
      | function name args =>
          rw [meaning, meanings_trees]
          apply Tree.arrowsTight_functionTree
          rw [List.forall_mem_map]
          exact htight
      | _ => cases hnode

/-- The text of an elementary expression reads as what it means, or not at all. -/
theorem read?_of_isElementary (hcalls : c.calls = .builtin) {e : Expr} (he : e.IsElementary)
    {f : TypedFragment} (h : c.compile e = .ok f) {mode : RenderMode}
    (hmode : mode ≠ .bound .atSign) (scopes : Scopes) (conforming : Bool) :
    (f.query.renderIn mode scopes).read? conforming =
      if (c.meaning scopes (fold e)).isQualified then some (c.meaning scopes (fold e))
      else none := by
  have htight := c.arrowsTight_meaning scopes (Fold.isElementary_fold he)
  rcases read?_of_node hcalls (Fold.isElementary_fold he).isPlain h hmode scopes conforming with
    ⟨hsome, hiff⟩
  cases hqualified : (c.meaning scopes (fold e)).isQualified with
  | true => exact hiff.mpr ⟨hqualified, htight⟩
  | false =>
      rw [hqualified] at hsome
      simpa using hsome

end Compiler
end TypedQuery
