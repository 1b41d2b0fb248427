import TypedQuery.Proofs.Statement.Condition

/-!
# Names in joins

The relations of a join go by the names of their slots, whether the alias is written or left out
because the table has the same name.  Where it is left out, the columns of the table are written
bare, and another table with a column of the same name makes them ambiguous.
-/

namespace TypedQuery

open Server

/-!
## The FROM list
-/

def Part.table? : Part -> Option (Slot × Table)
  | .table slot t => some (slot, t)
  | _ => none

namespace Compiler

variable {c : Compiler} {e : Expr} {part : Part}

theorem Declares.table?_eq_none (h : c.Declares part) : part.table? = none := by
  rcases h with ⟨slot, t, column, -, -, rfl⟩
  rfl

theorem declares_of_anchorsOf (hcalls : c.calls.Composes)
    (hplain : forall source, source ∈ e.sources -> source.IsPathOrError)
    (h : part ∈ c.anchorsOf e) : c.Declares part := by
  rcases anchorsOf_cases hcalls h with hdeclares | ⟨q, hq, -⟩ | ⟨f, hf, -⟩
  · exact hdeclares
  · exact absurd (hplain _ hq) Expr.IsPathOrError.ne_subquery
  · exact absurd (hplain _ hf) Expr.IsPathOrError.ne_compiled

theorem filterMap_table?_anchorsOf (hcalls : c.calls.Composes)
    (hplain : forall source, source ∈ e.sources -> source.IsPathOrError) :
    (c.anchorsOf e).filterMap Part.table? = [] := by
  rw [List.filterMap_eq_nil_iff]
  intro part hpart
  exact (declares_of_anchorsOf hcalls hplain hpart).table?_eq_none

end Compiler

namespace Select

variable {α : Type} {s : Select α}

theorem filterMap_table?_projected {projection : List Projection} {c : Compiler}
    (hexpr : forall e, .expr e ∈ projection -> (c.anchorsOf e).filterMap Part.table? = []) :
    (projection.flatMap (projectedAnchors c)).filterMap Part.table? = [] := by
  rw [List.filterMap_eq_nil_iff]
  intro part hpart
  rcases List.mem_flatMap.mp hpart with ⟨p, hp, hpart⟩
  rcases projectedAnchors_cases hpart with hdeclares | ⟨e, rfl, hcompiled⟩
  · exact hdeclares.table?_eq_none
  · exact List.filterMap_eq_nil_iff.mp (hexpr e hp) part hcompiled

theorem filterMap_table?_clauses {clauses : List ((Slot × Table) × Expr)}
    (hon : forall clause, clause ∈ clauses -> forall slots,
      ((s.compiler slots).anchorsOf clause.2).filterMap Part.table? = []) (slots : Nat) :
    ((clauses.zipIdx slots).flatMap s.clauseAnchors).filterMap Part.table? =
      clauses.map (·.1) := by
  induction clauses generalizing slots with
  | nil => rfl
  | cons clause rest ih =>
      have hrest := ih (fun other hother => hon other (List.mem_cons_of_mem _ hother)) (slots + 1)
      rw [List.zipIdx_cons, List.flatMap_cons, List.filterMap_append, hrest, clauseAnchors,
        List.filterMap_cons, hon clause List.mem_cons_self slots]
      rfl

theorem tables_of_body (hcalls : s.calls.Composes)
    (hplain : forall e, e ∈ s.exprs -> e.isPlain = true)
    (hjoins : s.joins.length + 1 = s.tables.length) {query : Fragment} {single : Option SqlType}
    (h : s.body = .ok (query, single)) : query.anchors.filterMap Part.table? = s.tables := by
  rcases anchors_body h with ⟨root, t, rest, htables, hanchors⟩
  have hexpr : forall e, e ∈ s.exprs -> forall slots,
      ((s.compiler slots).anchorsOf e).filterMap Part.table? = [] :=
    fun e he _ => Compiler.filterMap_table?_anchorsOf hcalls
      fun _ => Expr.isPathOrError_of_isPlain (hplain e he)
  have hprojection := filterMap_table?_projected fun e he =>
    hexpr e (mem_exprs.mpr (Or.inr (Or.inr (Or.inl he)))) s.tables.length
  have hclauses : (((rest.zip s.joins).zipIdx 2).flatMap s.clauseAnchors).filterMap Part.table? =
      rest := by
    rw [filterMap_table?_clauses]
    · apply List.map_fst_zip
      rw [htables, List.length_cons] at hjoins
      omega
    · intro clause hclause
      exact hexpr clause.2 (mem_exprs.mpr (Or.inl (List.of_mem_zip hclause).2))
  have hfilters : ((Expr.conjunction? s.filters).toList.flatMap
      (s.compiler s.tables.length).anchorsOf).filterMap Part.table? = [] := by
    rw [List.filterMap_flatMap, List.flatMap_eq_nil_iff]
    intro predicate hpredicate
    apply Compiler.filterMap_table?_anchorsOf hcalls
    intro source hsource
    rw [Expr.sources_conjunction? (Option.mem_toList.mp hpredicate), List.mem_flatMap] at hsource
    rcases hsource with ⟨e, he, hsource⟩
    exact Expr.isPathOrError_of_isPlain (hplain e (mem_exprs.mpr (Or.inr (Or.inl he)))) hsource
  have horder : (s.orderBy.flatMap fun item =>
      (s.compiler s.tables.length).anchorsOf item.expr).filterMap Part.table? = [] := by
    rw [List.filterMap_flatMap, List.flatMap_eq_nil_iff]
    intro item hitem
    exact hexpr _ (mem_exprs.mpr (Or.inr (Or.inr (Or.inr ⟨item, hitem, rfl⟩)))) _
  rw [hanchors]
  simp only [List.filterMap_append, List.filterMap_cons, Part.table?, hprojection, hclauses,
    hfilters, horder, List.nil_append, List.append_nil]
  exact htables.symm

/-!
## Names
-/

theorem WellFormed.binding?_aliases (h : s.WellFormed) (hjoined : 2 ≤ s.tables.length) {slot : Slot}
    {t : Table} (hmem : (slot, t) ∈ s.tables) :
    s.aliases.binding? slot = some ⟨slot, slot.name, t.name⟩ := by
  unfold aliases
  split
  · rename_i only t' htables
    rw [htables] at hjoined
    cases hjoined with
    | step hless => cases hless
  · refine AliasMap.binding?_positional_of_nodup ?_ hmem
    rw [h.slots]
    exact List.nodup_range.map Slot.ofPosition_injective

def relationOf (entry : Slot × Table) : Relation :=
  ⟨entry.1.name, entry.2.columns.map (·.name)⟩

theorem WellFormed.nodup_names (h : s.WellFormed) :
    ((s.tables.map relationOf).map (·.name)).Nodup := by
  have hnames : (s.tables.map relationOf).map (·.name) =
      (s.tables.map (·.1)).map Slot.name := by
    simp [relationOf]
  have hinjective : Function.Injective Slot.name := by
    rintro ⟨a⟩ ⟨b⟩ heq
    exact congrArg Slot.mk heq
  rw [hnames, h.slots]
  exact (List.nodup_range.map Slot.ofPosition_injective).map hinjective

theorem relation_writtenName? (slot : Slot) (t : Table) :
    t.relation (Binding.writtenName? ⟨slot, slot.name, t.name⟩) = relationOf (slot, t) := by
  unfold Binding.writtenName? Table.relation relationOf
  split
  · rename_i heq
    have hname : slot.name = t.name := heq
    rw [Option.getD_none, hname]
  · rfl

def outermost (s : Select α) : Scopes := ({} : Scopes).push s.aliases false

theorem leaves_framed (s : Select α) (body : Fragment) :
    (s.framed body).leaves = Part.allLeaves s.outermost body.parts := by
  have hparts : (s.framed body).parts = [.frame s.aliases false body.parts] := rfl
  rw [Fragment.leaves, hparts, Part.allLeaves, Part.leaves, Part.allLeaves, List.append_nil]
  rfl

theorem mentions_cases (hplain : forall e, e ∈ s.exprs -> e.isPlain = true) {part : Part}
    (h : s.Mentions part) :
    (exists slot t, (slot, t) ∈ s.tables ∧ part = .table slot t) ∨
      exists slot t column, (slot, t) ∈ s.tables ∧ column ∈ t.columns ∧
        part = .column slot column.name := by
  cases h with
  | table h => exact Or.inl ⟨_, _, h, rfl⟩
  | column h hcolumn => exact Or.inr ⟨_, _, _, h, hcolumn, rfl⟩
  | subquery he hq =>
      exact absurd (Expr.isPathOrError_of_isPlain (hplain _ he) hq) Expr.IsPathOrError.ne_subquery
  | compiled he hf _ =>
      exact absurd (Expr.isPathOrError_of_isPlain (hplain _ he) hf) Expr.IsPathOrError.ne_compiled

/-- Every column or table of a statement of plain expressions is one of its tables or a column of
one, outside all inner frames. -/
theorem leaf_cases (hcalls : s.calls.Composes)
    (hplain : forall e, e ∈ s.exprs -> e.isPlain = true) {body : Fragment}
    {single : Option SqlType} (hbody : s.body = .ok (body, single)) {p : Placed}
    (hp : p ∈ (s.framed body).leaves) (hnamed : p.named? = some p) :
    (exists slot t, (slot, t) ∈ s.tables ∧ p = ⟨s.outermost, .table slot t⟩) ∨
      exists slot t column, (slot, t) ∈ s.tables ∧ column ∈ t.columns ∧
        p = ⟨s.outermost, .column slot column.name⟩ := by
  rw [leaves_framed] at hp
  rcases Part.exists_anchor hp hnamed with ⟨anchor, hanchor, hleaf⟩
  rcases mentions_cases hplain (mentions_of_body hcalls hbody hanchor) with
    ⟨slot, t, h, rfl⟩ | ⟨slot, t, column, h, hcolumn, rfl⟩
  · exact Or.inl ⟨slot, t, h, List.mem_singleton.mp hleaf⟩
  · exact Or.inr ⟨slot, t, column, h, hcolumn, List.mem_singleton.mp hleaf⟩

theorem relations_of_body (hwell : s.WellFormed) (hcalls : s.calls.Composes)
    (hplain : forall e, e ∈ s.exprs -> e.isPlain = true) (hjoined : 2 ≤ s.tables.length)
    {body : Fragment} {single : Option SqlType} (hbody : s.body = .ok (body, single)) :
    (s.framed body).leaves.filterMap Placed.relation? = s.tables.map relationOf := by
  have hanchor : forall anchor, anchor ∈ body.anchors ->
      (anchor.leaves s.outermost).filterMap Placed.relation? =
        (anchor.table?.map relationOf).toList := by
    intro anchor hanchor
    rcases mentions_cases hplain (mentions_of_body hcalls hbody hanchor) with
      ⟨slot, t, h, rfl⟩ | ⟨slot, t, column, h, hcolumn, rfl⟩
    · have hname := Scopes.tableName?_push {} false (hwell.binding?_aliases hjoined h)
      simp only [Part.leaves, List.filterMap_cons, List.filterMap_nil, Placed.relation?,
        outermost, hname, relation_writtenName?, Part.table?, Option.map_some,
        Option.toList_some]
    · rfl
  have htables := tables_of_body hcalls hplain (hwell.joins (error_of_body hbody)) hbody
  rw [leaves_framed, Part.filterMap_allLeaves (fun _ _ => rfl) (fun _ _ => rfl), <- htables,
    List.map_filterMap, List.filterMap_eq_flatMap_toList]
  exact List.flatMap_congr hanchor

/-!
## Columns in joins
-/

section

variable {slot : Slot} {t : Table}

theorem WellFormed.aliasIdent_eq (h : s.WellFormed) (hmem : (slot, t) ∈ s.tables) :
    aliasIdent slot.name = slot.name := by
  rcases List.mem_iff_getElem?.mp hmem with ⟨i, hi⟩
  rw [h.slot_eq hi, Slot.aliasIdent_ofPosition]

theorem WellFormed.reference_eq (h : s.WellFormed) (hjoined : 2 ≤ s.tables.length)
    (hmem : (slot, t) ∈ s.tables) (name : String) :
    s.outermost.reference slot name =
      ⟨if slot.name = t.name then none else some slot.name, name⟩ := by
  rw [Scopes.reference, outermost, Scopes.qualifierName?_push {} (h.binding?_aliases hjoined hmem),
    Binding.writtenName?]

theorem WellFormed.written_reference (h : s.WellFormed) (hjoined : 2 ≤ s.tables.length)
    (hmem : (slot, t) ∈ s.tables) (name : String) :
    s.outermost.columnText slot name =
      if slot.name = t.name then Text.quoteIdent name
      else slot.name ++ "." ++ Text.quoteIdent name := by
  rw [Scopes.columnText_eq_written, h.reference_eq hjoined hmem]
  by_cases hname : slot.name = t.name
  · rw [if_pos hname, if_pos hname]
    rfl
  · rw [if_neg hname, if_neg hname]
    simp only [Reference.written, h.aliasIdent_eq hmem]

theorem WellFormed.written_relation (h : s.WellFormed) (hjoined : 2 ≤ s.tables.length)
    (hmem : (slot, t) ∈ s.tables) :
    s.outermost.tableText slot t =
      if slot.name = t.name then t.qualifiedName else t.qualifiedName ++ " " ++ slot.name := by
  have halias : s.outermost.tableAlias? slot =
      (Binding.writtenName? ⟨slot, slot.name, t.name⟩).map aliasIdent := by
    rw [Scopes.tableAlias?_eq, outermost,
      Scopes.tableName?_push {} false (h.binding?_aliases hjoined hmem)]
  unfold Scopes.tableText
  rw [halias, Binding.writtenName?]
  by_cases hname : slot.name = t.name
  · rw [if_pos hname, if_pos hname]
    rfl
  · rw [if_neg hname, if_neg hname]
    simp only [Option.map_some, h.aliasIdent_eq hmem]

/-- Among the first so many tables, a column is resolved to itself exactly when its qualifier is
written or no other of these tables has a column of its name. -/
theorem WellFormed.resolve?_iff (h : s.WellFormed) (hjoined : 2 ≤ s.tables.length) {i j n : Nat}
    (hi : s.tables[i]? = some (slot, t)) {name : String}
    (hj : (t.columns.map (·.name))[j]? = some name) (hn : i < n) :
    (s.outermost.reference slot name).resolve? ((s.tables.map relationOf).take n) = some (i, j) <->
      t.name ≠ slot.name ∨
        forall k slot' t', k < n -> s.tables[k]? = some (slot', t') ->
          name ∈ t'.columns.map (·.name) -> k = i := by
  have hmem := List.mem_of_getElem? hi
  have hcolumns := Table.names_nodup_of_validate (h.valid slot t hmem)
  have hget : forall k, k < n -> ((s.tables.map relationOf).take n)[k]? =
      s.tables[k]?.map relationOf := by
    intro k hk
    rw [List.getElem?_take_of_lt hk, List.getElem?_map]
  have hr : ((s.tables.map relationOf).take n)[i]? = some (relationOf (slot, t)) := by
    rw [hget i hn, hi]
    rfl
  rw [h.reference_eq hjoined hmem]
  split
  · rename_i hname
    rw [Reference.resolve?_eq_iff hr rfl hcolumns hj]
    constructor
    · intro hunique
      right
      intro k slot' t' hk hk' hcolumn
      refine hunique k (relationOf (slot', t')) ?_ rfl hcolumn
      rw [hget k hk, hk']
      rfl
    · rintro (hne | hunique) k r' hr' - hcolumn
      · exact absurd hname.symm hne
      · have hk : k < n := by
          rcases List.getElem?_eq_some_iff.mp hr' with ⟨hk, -⟩
          rw [List.length_take] at hk
          omega
        rw [hget k hk] at hr'
        rcases Option.map_eq_some_iff.mp hr' with ⟨⟨slot', t'⟩, hentry, rfl⟩
        exact hunique k slot' t' hk hentry hcolumn
  · rename_i hname
    have hnames : (((s.tables.map relationOf).take n).map (·.name)).Nodup := by
      rw [List.map_take]
      exact h.nodup_names.sublist (List.take_sublist _ _)
    have hresolved := Reference.resolve?_qualified hnames hr hcolumns hj
    constructor
    · intro _
      exact Or.inl (Ne.symm hname)
    · intro _
      exact hresolved

end

/-- In every join of plain expressions the relations of the FROM list are the tables in order, under
the different names of their slots.  A column is written with the name of its slot as its
qualifier unless its table has that very name; and among the first so many tables it is resolved to
itself exactly when it is written so or no other of them has a column of its name. -/
theorem column_resolves_iff (hbuilt : s.Built) (hcalls : s.calls.Composes)
    (hplain : forall e, e ∈ s.exprs -> e.isPlain = true) (hjoined : 2 ≤ s.tables.length)
    {statement : Statement (List α)} (hbuild : s.build = .ok statement) :
    let leaves := statement.query.leaves
    let relations := leaves.filterMap Placed.relation?
    relations = s.tables.map relationOf ∧
      (relations.map (·.name)).Nodup ∧
      (forall p, p ∈ leaves -> forall slot t, p.leaf = .table slot t ->
        p.piece = .sql (if slot.name = t.name then t.qualifiedName
          else t.qualifiedName ++ " " ++ slot.name)) ∧
      forall p, p ∈ leaves -> forall slot name, p.leaf = .column slot name ->
        exists i t j, s.tables[i]? = some (slot, t) ∧ (t.columns.map (·.name))[j]? = some name ∧
          p.piece = .sql (if slot.name = t.name then Text.quoteIdent name
            else slot.name ++ "." ++ Text.quoteIdent name) ∧
          forall n, i < n ->
            ((p.scopes.reference slot name).resolve? (relations.take n) = some (i, j) <->
              t.name ≠ slot.name ∨
                forall k slot' t', k < n -> s.tables[k]? = some (slot', t') ->
                  name ∈ t'.columns.map (·.name) -> k = i) := by
  rcases Result.bind_eq_ok.mp hbuild with ⟨⟨body, single⟩, hbody, hstatement⟩
  cases hstatement
  have hwell := hbuilt.wellFormed
  have hrelations := relations_of_body hwell hcalls hplain hjoined hbody
  intro leaves relations
  refine ⟨hrelations, ?_, ?_, ?_⟩
  · rw [show relations = s.tables.map relationOf from hrelations]
    exact hwell.nodup_names
  · intro p hp slot t hleaf
    have hnamed : p.named? = some p := by
      simp only [Placed.named?, hleaf]
    rcases leaf_cases hcalls hplain hbody hp hnamed with
      ⟨_, _, hmem, rfl⟩ | ⟨_, _, column, hmem, hcolumn, rfl⟩
    · cases hleaf
      exact congrArg Piece.sql (hwell.written_relation hjoined hmem)
    · cases hleaf
  · intro p hp slot name hleaf
    have hnamed : p.named? = some p := by
      simp only [Placed.named?, hleaf]
    rcases leaf_cases hcalls hplain hbody hp hnamed with
      ⟨_, _, hmem, rfl⟩ | ⟨_, t, column, hmem, hcolumn, rfl⟩
    · cases hleaf
    · cases hleaf
      rcases List.mem_iff_getElem?.mp hmem with ⟨i, hi⟩
      rcases List.mem_iff_getElem?.mp (List.mem_map_of_mem (f := (·.name)) hcolumn) with ⟨j, hj⟩
      refine ⟨i, t, j, hi, hj, ?_, ?_⟩
      · exact congrArg Piece.sql (hwell.written_reference hjoined hmem _)
      · intro n hn
        rw [show relations = s.tables.map relationOf from hrelations]
        exact hwell.resolve?_iff hjoined hi hj hn

def entryKey (table : String) : Placed :=
  ⟨(writersJoining table).outermost, .column (.ofPosition 1) "id"⟩

theorem entryKey_resolves :
    (writersJoining "entry").Built ∧ (writersJoining "entry").calls.Composes ∧
      (forall e, e ∈ (writersJoining "entry").exprs -> e.isPlain = true) ∧
      2 ≤ (writersJoining "entry").tables.length ∧
      exists statement, (writersJoining "entry").build = .ok statement ∧
        entryKey "entry" ∈ statement.query.leaves ∧
        (entryKey "entry").piece = .sql "t1.\"id\"" ∧
        ((entryKey "entry").scopes.reference (.ofPosition 1) "id").resolve?
          ((statement.query.leaves.filterMap Placed.relation?).take 2) = some (1, 0) := by
  have hplain : forall e, e ∈ (writersJoining "entry").exprs -> e.isPlain = true := by decide
  have hjoined : 2 ≤ (writersJoining "entry").tables.length := by decide
  have hbuilds : exists statement, (writersJoining "entry").build = .ok statement ∧
      statement.query.leaves[3]? = some (entryKey "entry") := ⟨_, rfl, rfl⟩
  rcases hbuilds with ⟨statement, hbuild, hleaf⟩
  have hmem := List.mem_of_getElem? hleaf
  rcases column_resolves_iff (built_writersJoining "entry") CallRegistry.builtin_composes hplain
    hjoined hbuild with ⟨-, -, -, hcolumns⟩
  rcases hcolumns _ hmem _ _ rfl with ⟨i, t, j, hi, hj, hpiece, hresolve⟩
  refine ⟨built_writersJoining _, CallRegistry.builtin_composes, hplain, hjoined, statement, hbuild,
    hmem, ?_⟩
  match i with
  | 0 => cases hi
  | 1 =>
      cases hi
      match j with
      | 0 => exact ⟨hpiece, (hresolve 2 (by decide)).mpr (Or.inl (by decide))⟩
      | 1 => exact absurd hj (by decide)
      | j + 2 => cases hj
  | i + 2 => cases hi

/-- Where the table of the entries is itself named `t1`, its key is written bare, and the key of the
writers makes it ambiguous. -/
theorem entryKey_ambiguous :
    (writersJoining "t1").Built ∧ (writersJoining "t1").calls.Composes ∧
      (forall e, e ∈ (writersJoining "t1").exprs -> e.isPlain = true) ∧
      2 ≤ (writersJoining "t1").tables.length ∧
      exists statement, (writersJoining "t1").build = .ok statement ∧
        statement.query.renderSimple =
          "SELECT t0.\"id\",\"id\" IS NOT NULL,\"id\",\"writer_id\" FROM \"blog\".\"writer\" t0 " ++
            "LEFT JOIN \"blog\".\"t1\" ON ((t0.\"id\") = (\"writer_id\"))" ∧
        entryKey "t1" ∈ statement.query.leaves ∧
        (entryKey "t1").piece = .sql "\"id\"" ∧
        ((entryKey "t1").scopes.reference (.ofPosition 1) "id").resolve?
          (statement.query.leaves.filterMap Placed.relation?) = none := by
  refine ⟨built_writersJoining _, CallRegistry.builtin_composes, by decide, by decide, _, rfl, rfl,
    ?_, rfl, rfl⟩
  exact List.mem_of_getElem? (show ((writersJoining "t1").framed _).leaves[3]? = some _ from rfl)

end Select
end TypedQuery
