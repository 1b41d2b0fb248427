import TypedQuery.Proofs.Expr.Composed
import TypedQuery.Proofs.Fragment.Site
import TypedQuery.Proofs.Statement.Builder

/-!
# The body of a SELECT

Clause by clause, the columns, tables and frames of a query are those of its projection, its tables
with the conditions between them, its filters and its order.  All of them are columns or tables in
its scope, or come from sources of its expressions.
-/

namespace TypedQuery

namespace Compiler

variable {c : Compiler} {e : Expr} {f : TypedFragment}

theorem compile_of_compilePredicate (h : c.compilePredicate e = .ok f) : c.compile e = .ok f := by
  rcases Result.bind_eq_ok.mp h with ⟨g, hg, h⟩
  have hfg : f = g := by
    split at h <;> cases h <;> rfl
  rw [hfg, hg]

def anchorsOf (c : Compiler) (e : Expr) : List Part :=
  match c.compile e with
  | .ok f => f.query.anchors
  | .error _ => []

theorem anchorsOf_eq (h : c.compile e = .ok f) : c.anchorsOf e = f.query.anchors := by
  rw [anchorsOf, h]

end Compiler

/-!
## Clauses
-/

theorem Fragment.anchors_filtered {f g : Fragment} {c : Compiler} {predicates : List Expr}
    (h : f.filtered c predicates = .ok g) :
    g.anchors = f.anchors ++ (Expr.conjunction? predicates).toList.flatMap c.anchorsOf := by
  unfold filtered at h
  split at h
  · rename_i hnone
    cases h
    simp [hnone]
  · rename_i predicate hsome
    rcases Result.bind_eq_ok.mp h with ⟨compiled, hcompiled, hg⟩
    cases hg
    have hpredicate := Compiler.compile_of_compilePredicate hcompiled
    simp [hsome, Compiler.anchorsOf_eq hpredicate]

namespace Select

variable {α : Type} {s : Select α}

def clauseAnchors (s : Select α) (clause : ((Slot × Table) × Expr) × Nat) : List Part :=
  .table clause.1.1.1 clause.1.1.2 :: (s.compiler clause.2).anchorsOf clause.1.2

theorem anchors_joinClauses {clauses : List ((Slot × Table) × Expr)} {query result : Fragment}
    {slots : Nat} (h : s.joinClauses query slots clauses = .ok result) :
    result.anchors = query.anchors ++ (clauses.zipIdx slots).flatMap s.clauseAnchors := by
  induction clauses generalizing query slots with
  | nil =>
      cases h
      simp
  | cons clause rest ih =>
      rcases clause with ⟨⟨slot, t⟩, on⟩
      rcases Result.bind_eq_ok.mp h with ⟨condition, hcondition, hrest⟩
      have hcompiled := Compiler.compile_of_compilePredicate hcondition
      rw [ih hrest, List.zipIdx_cons, List.flatMap_cons, clauseAnchors,
        Compiler.anchorsOf_eq hcompiled]
      simp

theorem anchors_ordered {query result : Fragment} (h : s.ordered query = .ok result) :
    result.anchors = query.anchors ++
      s.orderBy.flatMap fun item => (s.compiler s.tables.length).anchorsOf item.expr := by
  rcases Result.bind_eq_ok.mp h with ⟨items, hitems, h⟩
  have hanchors := Result.flatMap_of_mapM hitems (g := Fragment.anchors)
    (k := fun item => (s.compiler s.tables.length).anchorsOf item.expr) (by
      intro item f hf
      rcases Result.bind_eq_ok.mp hf with ⟨compiled, hcompiled, heq⟩
      cases heq
      simp [Compiler.anchorsOf_eq hcompiled])
  cases h
  rw [<- hanchors]
  cases s.limit <;> cases s.offset <;> cases items <;> simp

def projectedAnchors (c : Compiler) (p : Projection) : List Part :=
  match projected c p with
  | .ok (items, _) => items.flatMap Fragment.anchors
  | .error _ => []

theorem check_eq_ok_iff : s.check = .ok () <-> s.error = none := by
  unfold check
  cases s.error <;> simp

theorem error_of_body {query : Fragment} {single : Option SqlType}
    (h : s.body = .ok (query, single)) : s.error = none := by
  rcases Result.bind_eq_ok.mp h with ⟨_, hcheck, -⟩
  exact check_eq_ok_iff.mp hcheck

theorem body_cases {query : Fragment} {single : Option SqlType}
    (h : s.body = .ok (query, single)) :
    exists parts head root t rest joined filtered,
      s.projection.mapM (projected (s.compiler s.tables.length)) = .ok parts ∧
        head = (Fragment.empty.text (if s.distinct then "SELECT DISTINCT " else "SELECT ")).joined
          (parts.flatMap (·.1)) "," ∧
        s.tables = (root, t) :: rest ∧
        s.joinClauses ((head.text " FROM ").table root t) 2 (rest.zip s.joins) = .ok joined ∧
        joined.filtered (s.compiler s.tables.length) s.filters = .ok filtered ∧
        s.ordered filtered = .ok query := by
  rcases Result.bind_eq_ok.mp h with ⟨_, -, h⟩
  rcases Result.bind_eq_ok.mp h with ⟨parts, hparts, h⟩
  dsimp only at h
  split at h
  · cases h
  · rcases Result.bind_eq_ok.mp h with ⟨filtered, hclauses, h⟩
    rcases Result.bind_eq_ok.mp h with ⟨ordered, hordered, hquery⟩
    cases hquery
    unfold clauses at hclauses
    split at hclauses
    · cases hclauses
    · rename_i root t rest htables
      rcases Result.bind_eq_ok.mp hclauses with ⟨joined, hjoined, hfiltered⟩
      exact ⟨parts, _, root, t, rest, joined, filtered, hparts, rfl, htables, hjoined, hfiltered,
        hordered⟩

theorem anchors_body {query : Fragment} {single : Option SqlType}
    (h : s.body = .ok (query, single)) :
    exists root t rest, s.tables = (root, t) :: rest ∧
      query.anchors =
        s.projection.flatMap (projectedAnchors (s.compiler s.tables.length)) ++
          .table root t :: ((rest.zip s.joins).zipIdx 2).flatMap s.clauseAnchors ++
          (Expr.conjunction? s.filters).toList.flatMap (s.compiler s.tables.length).anchorsOf ++
          s.orderBy.flatMap fun item => (s.compiler s.tables.length).anchorsOf item.expr := by
  rcases body_cases h with
    ⟨parts, head, root, t, rest, joined, filtered, hparts, rfl, htables, hjoined, hfiltered,
      hordered⟩
  refine ⟨root, t, rest, htables, ?_⟩
  have hprojected := Result.flatMap_of_mapM hparts
    (g := fun part => part.1.flatMap Fragment.anchors)
    (k := projectedAnchors (s.compiler s.tables.length)) (by
      intro p part hp
      rw [projectedAnchors, hp])
  rw [anchors_ordered hordered, Fragment.anchors_filtered hfiltered, anchors_joinClauses hjoined,
    <- hprojected]
  simp [List.flatMap_assoc]

end Select

/-!
## What a query mentions
-/

namespace Projection

def expr? : Projection -> Option Expr
  | .expr e => some e
  | _ => none

end Projection

theorem Scope.mem_of_table {scope : Scope} {slot : Slot} {t : Table}
    (h : scope.table slot = .ok t) : (slot, t) ∈ scope.tables := by
  unfold Scope.table at h
  split at h
  · rename_i found t' hfind
    cases h
    have hslot : found = slot := by
      simpa using List.find?_some hfind
    exact hslot ▸ List.mem_of_find?_eq_some hfind
  · cases h

theorem Compiler.anchorsOf_cases {c : Compiler} (hcalls : c.calls.Composes) {e : Expr} {part : Part}
    (h : part ∈ c.anchorsOf e) :
    c.Declares part ∨
      (exists q, .subquery q ∈ e.sources ∧ part = q.frame.part) ∨
      exists f, .compiled f ∈ e.sources ∧ part ∈ f.query.anchors := by
  unfold anchorsOf at h
  split at h
  · rename_i f hf
    rcases (holds_compile hcalls hf).exists_source h with ⟨source, parts, hsource, hparts, hpart⟩
    cases source with
    | field path =>
        left
        rcases Result.bind_eq_ok.mp hparts with ⟨⟨slot, name⟩, hcolumn, heq⟩
        cases heq
        rw [List.mem_singleton.mp hpart]
        exact declares_of_columnOf hcolumn
    | subquery q =>
        right
        left
        rcases Result.bind_eq_ok.mp hparts with ⟨value, hvalue, heq⟩
        cases heq
        unfold Subquery.expression at hvalue
        split at hvalue
        · cases hvalue
          simp only [Subquery.derivedTable, Fragment.anchors_text, Fragment.anchors_frame,
            Fragment.anchors_empty, List.nil_append, List.mem_singleton] at hpart
          exact ⟨q, hsource, hpart⟩
        · cases hvalue
    | compiled fragment =>
        right
        right
        cases hparts
        exact ⟨fragment, hsource, hpart⟩
    | invalid error => cases hparts
    | _ =>
        cases hparts
        cases hpart
  · cases h

namespace Select

variable {α : Type} {s : Select α}

def exprs (s : Select α) : List Expr :=
  s.joins ++ s.filters ++ s.projection.filterMap Projection.expr? ++ s.orderBy.map (·.expr)

theorem mem_exprs {e : Expr} :
    e ∈ s.exprs <-> e ∈ s.joins ∨ e ∈ s.filters ∨ .expr e ∈ s.projection ∨
      exists item, item ∈ s.orderBy ∧ item.expr = e := by
  have hprojection : e ∈ s.projection.filterMap Projection.expr? <-> .expr e ∈ s.projection := by
    rw [List.mem_filterMap]
    constructor
    · rintro ⟨p, hp, hexpr⟩
      cases p with
      | expr e' =>
          cases hexpr
          exact hp
      | _ => cases hexpr
    · intro h
      exact ⟨_, h, rfl⟩
  simp only [exprs, List.mem_append, hprojection, List.mem_map, or_assoc]

/-- The columns, tables and frames that a query may have. -/
inductive Mentions (s : Select α) : Part -> Prop where
  | table {slot : Slot} {t : Table} (h : (slot, t) ∈ s.tables) : Mentions s (.table slot t)
  | column {slot : Slot} {t : Table} {column : Column} (h : (slot, t) ∈ s.tables)
      (hcolumn : column ∈ t.columns) : Mentions s (.column slot column.name)
  | subquery {e : Expr} {q : Subquery} (he : e ∈ s.exprs) (hq : .subquery q ∈ e.sources) :
      Mentions s q.frame.part
  | compiled {e : Expr} {f : TypedFragment} (he : e ∈ s.exprs) (hf : .compiled f ∈ e.sources)
      {part : Part} (hpart : part ∈ f.query.anchors) : Mentions s part

theorem Mentions.of_declares {slots : Nat} {part : Part} (h : (s.compiler slots).Declares part) :
    s.Mentions part := by
  rcases h with ⟨slot, t, column, htable, hcolumn, rfl⟩
  exact .column (List.mem_of_mem_take (Scope.mem_of_table htable)) hcolumn

theorem Mentions.of_anchorsOf (hcalls : s.calls.Composes) {slots : Nat} {e : Expr}
    (hsources : forall source, source ∈ e.sources ->
      exists e', e' ∈ s.exprs ∧ source ∈ e'.sources)
    {part : Part} (h : part ∈ (s.compiler slots).anchorsOf e) : s.Mentions part := by
  rcases Compiler.anchorsOf_cases hcalls h with hdeclares | ⟨q, hq, rfl⟩ | ⟨f, hf, hpart⟩
  · exact .of_declares hdeclares
  · rcases hsources _ hq with ⟨e', he', hq'⟩
    exact .subquery he' hq'
  · rcases hsources _ hf with ⟨e', he', hf'⟩
    exact .compiled he' hf' hpart

theorem declares_columns {c : Compiler} {slot : Slot} {t : Table} (h : c.scope.table slot = .ok t)
    {part : Part} (hpart : part ∈ (columns slot t).flatMap Fragment.anchors) : c.Declares part := by
  rcases List.mem_flatMap.mp hpart with ⟨f, hf, hpart⟩
  rcases List.mem_map.mp hf with ⟨column, hcolumn, rfl⟩
  rw [Fragment.anchors_column, Fragment.anchors_empty, List.nil_append,
    List.mem_singleton] at hpart
  exact ⟨slot, t, column, h, hcolumn, hpart⟩

theorem declares_indicator {c : Compiler} {slot : Slot} {t : Table}
    (h : c.scope.table slot = .ok t) {part : Part} (hpart : part ∈ (indicator slot t).anchors) :
    c.Declares part := by
  unfold indicator at hpart
  split at hpart
  · rename_i index key hkey
    have hcolumn := List.mem_of_getElem? (Table.firstColumn?_eq_some_iff.mp hkey).1
    simp only [Fragment.anchors_text, Fragment.anchors_column, Fragment.anchors_empty,
      List.nil_append, List.mem_singleton] at hpart
    exact ⟨slot, t, key, h, hcolumn, hpart⟩
  · rw [Fragment.anchors_text, Fragment.anchors_joined, Fragment.anchors_text,
      Fragment.anchors_empty, List.nil_append] at hpart
    exact declares_columns h hpart

theorem projectedAnchors_cases {c : Compiler} {p : Projection} {part : Part}
    (h : part ∈ projectedAnchors c p) :
    c.Declares part ∨ exists e, p = .expr e ∧ part ∈ c.anchorsOf e := by
  unfold projectedAnchors at h
  split at h
  · rename_i items type hitems
    cases p with
    | columns slot =>
        left
        rcases Result.bind_eq_ok.mp hitems with ⟨t, ht, heq⟩
        cases heq
        exact declares_columns ht h
    | nullable slot =>
        left
        rcases Result.bind_eq_ok.mp hitems with ⟨t, ht, heq⟩
        cases heq
        rw [List.flatMap_cons] at h
        rcases List.mem_append.mp h with hfirst | hrest
        · exact declares_indicator ht hfirst
        · exact declares_columns ht hrest
    | expr e =>
        right
        rcases Result.bind_eq_ok.mp hitems with ⟨compiled, hcompiled, heq⟩
        cases heq
        rw [List.flatMap_singleton] at h
        exact ⟨e, rfl, Compiler.anchorsOf_eq hcompiled ▸ h⟩
  · cases h

/-- A query mentions its tables, columns of its tables, and what its expressions bring along. -/
theorem mentions_of_body (hcalls : s.calls.Composes) {query : Fragment} {single : Option SqlType}
    (h : s.body = .ok (query, single)) {part : Part} (hpart : part ∈ query.anchors) :
    s.Mentions part := by
  rcases anchors_body h with ⟨root, t, rest, htables, hanchors⟩
  have hexpr : forall {slots : Nat} {e : Expr}, e ∈ s.exprs ->
      part ∈ (s.compiler slots).anchorsOf e -> s.Mentions part :=
    fun he => Mentions.of_anchorsOf hcalls fun _ hsource => ⟨_, he, hsource⟩
  rw [hanchors] at hpart
  simp only [List.mem_append, List.mem_cons, List.mem_flatMap] at hpart
  rcases hpart with ((⟨p, hp, hpart⟩ | rfl | ⟨clause, hclause, hpart⟩) | ⟨e, he, hpart⟩) |
    ⟨item, hitem, hpart⟩
  · rcases projectedAnchors_cases hpart with hdeclares | ⟨e, rfl, hcompiled⟩
    · exact .of_declares hdeclares
    · exact hexpr (mem_exprs.mpr (Or.inr (Or.inr (Or.inl hp)))) hcompiled
  · exact .table (by simp [htables])
  · rcases clause with ⟨⟨⟨slot, t'⟩, on⟩, slots⟩
    have hzip := (List.mem_zipIdx hclause).2.2
    have hmem := List.of_mem_zip (hzip ▸ List.getElem_mem _)
    rcases List.mem_cons.mp hpart with rfl | hpart
    · exact .table (htables ▸ List.mem_cons_of_mem _ hmem.1)
    · exact hexpr (mem_exprs.mpr (Or.inl hmem.2)) hpart
  · have hsources := Expr.sources_conjunction? (Option.mem_toList.mp he)
    refine .of_anchorsOf hcalls ?_ hpart
    intro source hsource
    rw [hsources, List.mem_flatMap] at hsource
    rcases hsource with ⟨predicate, hpredicate, hsource⟩
    exact ⟨predicate, mem_exprs.mpr (Or.inr (Or.inl hpredicate)), hsource⟩
  · exact hexpr (mem_exprs.mpr (Or.inr (Or.inr (Or.inr ⟨item, hitem, rfl⟩)))) hpart

end Select
end TypedQuery
