import TypedQuery.Proofs.Expr.Elementary

/-!
# Qualifiers of an expression

What an expression means has no qualifiers but those of its columns.  Where these may be written,
all of its text reads as an expression.
-/

namespace TypedQuery

open Server

attribute [local simp] Tree.isQualified Tree.allQualified

/-!
## Trees
-/

namespace Server.Tree

theorem allQualified_iff {ts : List Tree} :
    allQualified ts = true <-> forall t, t ∈ ts -> t.isQualified = true := by
  induction ts with
  | nil => simp
  | cons t rest ih => simp [ih]

theorem isQualified_json (type : SqlType) (t : Tree) :
    (Tree.json type t).isQualified = t.isQualified := by
  unfold Tree.json
  split <;> simp [TypedQuery.Tree.castTo]

theorem isQualified_functionTree {name : String} {ts : List Tree}
    (h : forall t, t ∈ ts -> t.isQualified = true) : (functionTree name ts).isQualified = true := by
  unfold functionTree
  split
  · rename_i f hlookup
    rw [isQualified, allQualified_iff]
    intro t ht
    rcases List.mem_append.mp ht with ht | ht
    · exact h t ht
    · rcases List.mem_map.mp ht with ⟨text, htext, rfl⟩
      have hcallable := SqlFunction.isCallable_of_lookup? hlookup
      have hdefault := f.mem_defaultTexts hcallable htext
      simp only [SqlFunction.defaultTexts, List.mem_cons, List.not_mem_nil, or_false] at hdefault
      rcases hdefault with rfl | rfl | rfl <;> rfl
  · rfl

end Server.Tree

theorem UnaryOp.isQualified_tree (op : UnaryOp) (t : Tree) :
    (op.tree t).isQualified = t.isQualified := by
  cases op <;> simp [tree, TypedQuery.Tree.castTo]

theorem Meant.isQualified_labelled {m : Meant} (h : m.tree.isQualified = true)
    (target : SqlType) : (m.labelled target).tree.isQualified = true := by
  unfold labelled
  split
  · rename_i e label _ _
    exact (Typed.inert_tree ⟨.enum label, .enum e⟩).isQualified
  · exact h

theorem BinaryOp.isQualified_tree (op : BinaryOp) (result : SqlType) {left right : Meant}
    (hleft : left.tree.isQualified = true) (hright : right.tree.isQualified = true) :
    (op.tree result left right).isQualified = true := by
  have hlabelled := Meant.isQualified_labelled hright left.type
  unfold tree
  split
  · exact hleft
  split
  · exact hright
  unfold operatorTree
  split
  · simp [hleft, Tree.isQualified_json, hlabelled]
  split
  · simp [hleft, Tree.isQualified_json, hlabelled]
  · simp [hleft, hlabelled]

/-!
## Calls
-/

theorem exists_entry_of_keyed? {α : Type} {entries : List ((TypeKind × String) × α)}
    {kind : TypeKind} {name : String} {x : α} (h : keyed? entries kind name = some x) :
    exists entry, entry ∈ entries ∧ entry.2 = x := by
  rcases Option.map_eq_some_iff.mp h with ⟨entry, hentry, rfl⟩
  exact ⟨entry, List.mem_of_find?_eq_some hentry, rfl⟩

namespace Meant

variable {receiver : Meant} {args : List Meant}

theorem isQualified_single (hargs : forall m, m ∈ args -> m.tree.isQualified = true) :
    (single args).isQualified = true := by
  unfold single
  split
  · exact hargs _ List.mem_cons_self
  · rfl

theorem isQualified_next {m : Meant} (h : m.tree.isQualified = true) :
    m.next.isQualified = true := by
  unfold next
  split
  · exact (Typed.inert_tree _).isQualified
  · simp [h]

theorem isQualified_method (hreceiver : receiver.tree.isQualified = true)
    (hargs : forall m, m ∈ args -> m.tree.isQualified = true) :
    forall entry, entry ∈ methodTrees -> (entry.2 receiver args).isQualified = true := by
  have hsingle := isQualified_single hargs
  intro entry hentry
  simp only [methodTrees, List.mem_cons, List.not_mem_nil, or_false] at hentry
  rcases hentry with rfl | rfl | rfl | rfl | rfl
  · simp [startsWith, hreceiver, hsingle]
  · simp [endsWith, hreceiver, hsingle]
  · simp [containsText, hreceiver, hsingle]
  · simp [startsWithIgnoreCase, hreceiver, hsingle]
  · dsimp only
    unfold substring
    split
    · simp [hreceiver, isQualified_next (hargs _ List.mem_cons_self)]
    · simp [hreceiver, isQualified_next (hargs _ List.mem_cons_self),
        hargs _ (List.mem_cons_of_mem _ List.mem_cons_self)]
    · rfl

theorem isQualified_index (hreceiver : receiver.tree.isQualified = true)
    (hargs : forall m, m ∈ args -> m.tree.isQualified = true) :
    (receiver.index args).isQualified = true := by
  unfold index
  split
  · simp [hreceiver, isQualified_next (hargs _ List.mem_cons_self)]
  · simp [hreceiver, isQualified_single hargs]

theorem isQualified_member (hreceiver : receiver.tree.isQualified = true) (args : List Meant)
    (negated : Bool) : (receiver.member args negated).isQualified = true := by
  unfold member
  split
  · simp [hreceiver, (Typed.inert_tree _).isQualified]
  · rfl

theorem isQualified_native {name : String} {t : Tree}
    (hreceiver : receiver.tree.isQualified = true)
    (hargs : forall m, m ∈ args -> m.tree.isQualified = true)
    (h : nativeTree? name receiver args = some t) : t.isQualified = true := by
  have hsingle := isQualified_single hargs
  unfold nativeTree? at h
  split at h
  · cases h
    simp [hreceiver, hsingle]
  · cases h
    exact isQualified_index hreceiver hargs
  · cases h
    exact isQualified_member hreceiver args false
  · cases h
    exact isQualified_member hreceiver args true
  · cases h
    simp [hreceiver, hsingle]
  · cases h

end Meant

theorem isQualified_accessor {entry : (TypeKind × String) × (Tree -> Tree)}
    (h : entry ∈ accessorTrees) (t : Tree) : (entry.2 t).isQualified = t.isQualified := by
  simp only [accessorTrees, List.mem_cons, List.not_mem_nil, or_false] at h
  rcases h with rfl | rfl | rfl | rfl | rfl | rfl | rfl | rfl | rfl | rfl | rfl | rfl <;>
    simp [datePartTree, secondTree, callTree, TypedQuery.Tree.castTo]

theorem isQualified_methodTree {name : String} {receiver : Meant} {args : List Meant}
    (hreceiver : receiver.tree.isQualified = true)
    (hargs : forall m, m ∈ args -> m.tree.isQualified = true) :
    (methodTree name receiver args).isQualified = true := by
  unfold methodTree
  split
  · rename_i method hmethod
    rcases exists_entry_of_keyed? hmethod with ⟨entry, hentry, rfl⟩
    exact Meant.isQualified_method hreceiver hargs entry hentry
  split
  · rename_i accessor haccessor
    rcases exists_entry_of_keyed? (Option.ite_none_right_eq_some.mp haccessor).2 with
      ⟨entry, hentry, rfl⟩
    rw [isQualified_accessor hentry]
    exact hreceiver
  split
  · rename_i t hnative
    exact Meant.isQualified_native hreceiver hargs hnative
  · refine Tree.isQualified_functionTree ?_
    intro t ht
    rcases List.mem_cons.mp ht with rfl | ht
    · exact hreceiver
    · rcases List.mem_map.mp ht with ⟨m, hm, rfl⟩
      exact hargs m hm

/-!
## Expressions
-/

theorem ResolvedPath.isQualified_tree {calls : CallRegistry} {steps : List PathStep}
    {r : ResolvedPath} {t : Tree} (h : t.isQualified = true) :
    (r.tree calls t steps).isQualified = true := by
  induction steps generalizing r t with
  | nil => exact h
  | cons step rest ih =>
      rw [tree]
      split
      · apply ih
        cases step with
        | derived name =>
            rw [PathStep.tree]
            split
            · rename_i accessor haccessor
              rcases exists_entry_of_keyed? haccessor with ⟨entry, hentry, rfl⟩
              rw [isQualified_accessor hentry]
              exact h
            · rfl
        | key k asText => simp [PathStep.tree, h, (Typed.inert_tree _).isQualified]
        | index n asText => simp [PathStep.tree, h, (Typed.inert_tree _).isQualified]
        | _ => rfl
      · rfl

namespace Compiler

variable {c : Compiler} {scopes : Scopes}

/-- The meaning of an expression may be written with its qualifiers where those of the tables in
scope may be. -/
theorem isQualified_meaning
    (h : forall slot t, c.scope.table slot = .ok t ->
      (scopes.qualifierName? slot).all isQualifier = true) (e : Expr) :
    (c.meaning scopes e).isQualified = true := by
  induction e using Expr.of_operands with
  | step e ih =>
      cases e with
      | field path =>
          rw [meaning, pathTree]
          split
          · rename_i slot column start steps hstart
            rcases (start?_eq_ok hstart).1 with ⟨t, htable, -⟩
            have hqualifier := h slot t htable
            refine ResolvedPath.isQualified_tree ?_
            unfold Scopes.columnTree
            cases hname : scopes.qualifierName? slot with
            | none => rfl
            | some qualifier =>
                rw [hname] at hqualifier
                exact hqualifier
          · rfl
      | constant v =>
          rw [meaning]
          exact v.inert_tree.isQualified
      | unary op operand =>
          rw [meaning, op.isQualified_tree]
          exact ih operand List.mem_cons_self
      | binary op left right =>
          rw [meaning]
          exact op.isQualified_tree _ (ih left List.mem_cons_self)
            (ih right (List.mem_cons_of_mem _ List.mem_cons_self))
      | method name receiver args onServer =>
          rw [meaning, meanings_eq]
          refine isQualified_methodTree (ih receiver List.mem_cons_self) ?_
          rw [List.forall_mem_map]
          exact fun arg harg => ih arg (List.mem_cons_of_mem _ harg)
      | function name args =>
          rw [meaning, meanings_trees]
          refine Tree.isQualified_functionTree ?_
          rw [List.forall_mem_map]
          exact ih
      | _ => rfl

end Compiler
end TypedQuery
