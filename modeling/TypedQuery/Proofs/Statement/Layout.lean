import Mathlib.Data.List.Nodup
import TypedQuery.Proofs.Fragment.Text
import TypedQuery.Proofs.Statement.Composition
import TypedQuery.Proofs.Statement.FirstError
import TypedQuery.Proofs.Statement.Projection
import TypedQuery.Proofs.Statement.Whole

/-!
# Columns and tuples of an INSERT

The names of the column list and the entries of the tuples are put together from two lists, the
columns that take their values from the rows and the columns that have a source.  What each of the
lists holds is decided by the latest call on it, and both are run through in the same order.
-/

namespace TypedQuery
namespace Insert

variable {m : Model} {t : Table} {i : Insert} {steps : List Step}

/-!
## What the steps say
-/

def Step.source? (t : Table) (index : Nat) : Step -> Option InsertSource
  | valueFromSubquery column s =>
      if t.index? column = some index then some (.subquery s) else none
  | valueFromSequence column parent =>
      if t.index? column = some index then parent.table.toOption.map .sequence else none
  | _ => none

def Step.row? : Step -> Option (EnumRegistry × Instance)
  | row enums fields => some (enums, fields)
  | _ => none

def Step.columns? (t : Table) : Step -> Option (List Nat)
  | into names => some (names.filterMap t.index?)
  | _ => none

def Step.conflict? (t : Table) : Step -> Option OnConflict
  | onConflictDoNothing => some .nothing
  | onConflictUpdate target assign =>
      let names (list : List String) : List String :=
        list.filterMap fun name => (t.findColumn? name).map (·.2.name)
      some (.update (names target) (names assign))
  | _ => none

/-- What the latest of the steps that say it say. -/
def latest? {α : Type} (f : Step -> Option α) (steps : List Step) : Option α :=
  steps.reverse.findSome? f

theorem latest?_concat {α : Type} (f : Step -> Option α) (steps : List Step) (s : Step) :
    latest? f (steps ++ [s]) = (f s).or (latest? f steps) := by
  rw [latest?, List.reverse_concat, List.findSome?_cons, latest?]
  cases f s <;> rfl

/-- The columns that would be listed without sources: those of the latest list, or those that a
default INSERT writes. -/
def base (t : Table) (steps : List Step) : List Nat :=
  (latest? (Step.columns? t) steps).getD t.insertable

/-!
## What a builder without an error holds
-/

structure Holds (m : Model) (t : Table) (steps : List Step) (i : Insert) : Prop where
  table : i.table = .ok t
  error : i.error = none
  columns : i.columns = latest? (Step.columns? t) steps
  rows : List.Forall₂ (fun row values => cells m t row.1 row.2 = .ok values)
    (steps.filterMap Step.row?) i.rows
  sources : forall index s, (index, s) ∈ i.sources <-> latest? (Step.source? t index) steps = some s
  distinct : (i.sources.map (·.1)).Nodup
  written : forall entry, entry ∈ i.sources -> exists f, sourceValue entry.2 = .ok f
  conflict : i.conflict = latest? (Step.conflict? t) steps

theorem mapM_requireColumn {α : Type} {names : List String} {f : Nat × Column -> α} {found : List α}
    (h : (names.mapM fun name => do return f (<- t.requireColumn name)) = .ok found) :
    found = names.filterMap fun name => (t.findColumn? name).map f := by
  induction Result.mapM_eq_ok.mp h with
  | nil => rfl
  | @cons name a rest more hname hrest ih =>
      rcases Result.bind_eq_ok.mp hname with ⟨column, hcolumn, heq⟩
      cases heq
      rw [List.filterMap_cons, Table.requireColumn_eq_ok_iff.mp hcolumn,
        <- ih (Result.mapM_eq_ok.mpr hrest)]
      rfl

/-- A new source of a column takes the place of an earlier one, and leaves those of all others. -/
theorem mem_setSource {index j : Nat} {source s : InsertSource} :
    (j, s) ∈ (i.setSource index source).sources <->
      (j = index ∧ s = source) ∨ (j ≠ index ∧ (j, s) ∈ i.sources) := by
  simp only [setSource, List.mem_append, List.mem_filter, List.mem_singleton, Prod.mk.injEq,
    decide_eq_true_eq, ne_eq]
  tauto

theorem distinct_setSource {index : Nat} (source : InsertSource)
    (h : (i.sources.map (·.1)).Nodup) : ((i.setSource index source).sources.map (·.1)).Nodup := by
  have hkept : ((i.sources.filter (·.1 ≠ index)).map (·.1)).Nodup :=
    h.sublist (List.filter_sublist.map _)
  rw [setSource, List.map_append, List.map_singleton, <- List.concat_eq_append]
  refine hkept.concat ?_
  intro hmem
  rcases List.mem_map.mp hmem with ⟨entry, hentry, heq⟩
  exact of_decide_eq_true (List.mem_filter.mp hentry).2 heq

theorem exists_sourceValue_sequence {parent : Table} {key : Nat × Column}
    (hkey : parent.primaryKey? = some key) : exists f, sourceValue (.sequence parent) = .ok f := by
  unfold sourceValue
  dsimp only
  rw [hkey]
  exact ⟨_, rfl⟩

theorem exists_sourceValue_subquery {q : Subquery} {projected : SqlType}
    (hprojected : q.projected = some projected) :
    exists f, sourceValue (.subquery q) = .ok f := by
  unfold sourceValue Subquery.expression
  dsimp only
  rw [hprojected]
  exact ⟨_, rfl⟩

theorem Holds.concat (h : Holds m t steps i) {s : Step} {i' : Insert} (htable : i'.table = i.table)
    (herror : i'.error = i.error) (hcolumns : i'.columns = (s.columns? t).or i.columns)
    (hrows : exists added, i'.rows = i.rows ++ added ∧
      List.Forall₂ (fun row values => cells m t row.1 row.2 = .ok values) s.row?.toList added)
    (hsources : forall index source, (index, source) ∈ i'.sources <->
      s.source? t index = some source ∨ (s.source? t index = none ∧ (index, source) ∈ i.sources))
    (hdistinct : (i'.sources.map (·.1)).Nodup)
    (hwritten : forall entry, entry ∈ i'.sources -> exists f, sourceValue entry.2 = .ok f)
    (hconflict : i'.conflict = (s.conflict? t).or i.conflict) : Holds m t (steps ++ [s]) i' where
  table := htable.trans h.table
  error := herror.trans h.error
  columns := by rw [hcolumns, latest?_concat, h.columns]
  rows := by
    rcases hrows with ⟨added, hrows, hadded⟩
    have hsaid : [s].filterMap Step.row? = s.row?.toList := by
      cases hrow : s.row? <;> simp [hrow]
    rw [hrows, List.filterMap_append, hsaid]
    exact List.rel_append h.rows hadded
  sources := by
    intro index source
    rw [hsources, latest?_concat, h.sources]
    cases s.source? t index <;> simp
  distinct := hdistinct
  written := hwritten
  conflict := by rw [hconflict, latest?_concat, h.conflict]

theorem Holds.setSource (h : Holds m t steps i) {s : Step} {index : Nat} {source : InsertSource}
    (hsource : forall j, s.source? t j = if j = index then some source else none)
    (hcolumns : s.columns? t = none) (hrow : s.row? = none) (hconflict : s.conflict? t = none)
    (hwritten : exists f, sourceValue source = .ok f) :
    Holds m t (steps ++ [s]) (i.setSource index source) := by
  refine h.concat rfl rfl ?_ ?_ ?_ (distinct_setSource source h.distinct) ?_ ?_
  · rw [hcolumns]
    rfl
  · rw [hrow]
    exact ⟨[], (List.append_nil _).symm, .nil⟩
  · intro j s'
    rw [mem_setSource, hsource]
    by_cases hj : j = index
    · simp [hj, eq_comm]
    · simp [hj]
  · rintro ⟨j, s'⟩ hentry
    rcases mem_setSource.mp hentry with ⟨-, rfl⟩ | ⟨-, hold⟩
    · exact hwritten
    · exact h.written _ hold
  · rw [hconflict]
    rfl

/-- What a step changes is what it says. -/
theorem Holds.step (h : Holds m t steps i) {s : Step} {c : Change}
    (hchange : s.change m t = .ok c) :
    Holds m t (steps ++ [s]) (c.apply i) := by
  have hnone : exists added, i.rows = i.rows ++ added ∧
      List.Forall₂ (fun (row : EnumRegistry × Instance) values =>
        cells m t row.1 row.2 = .ok values) [] added :=
    ⟨[], (List.append_nil _).symm, .nil⟩
  cases s with
  | into names =>
      rcases Result.bind_eq_ok.mp hchange with ⟨found, hfound, heq⟩
      cases heq
      exact h.concat rfl rfl (congrArg some (mapM_requireColumn hfound)) hnone
        (fun j s' => by simp [Step.source?, Change.apply]) h.distinct h.written rfl
  | row enums fields =>
      rcases Result.bind_eq_ok.mp hchange with ⟨values, hvalues, heq⟩
      cases heq
      exact h.concat rfl rfl rfl ⟨[values], rfl, .cons hvalues .nil⟩
        (fun j s' => by simp [Step.source?, Change.apply]) h.distinct h.written rfl
  | valueFromSubquery column q =>
      rcases Result.bind_eq_ok.mp hchange with ⟨found, hfound, hchange⟩
      cases hprojected : q.projected with
      | none =>
          simp only [hprojected] at hchange
          cases hchange
      | some projected =>
          simp only [hprojected] at hchange
          split at hchange
          · cases hchange
            refine h.setSource ?_ rfl rfl rfl (exists_sourceValue_subquery hprojected)
            intro j
            simp [Step.source?, Table.index?_of_requireColumn hfound, eq_comm]
          · cases hchange
  | valueFromSequence column parent =>
      rcases Result.bind_eq_ok.mp hchange with ⟨found, hfound, hchange⟩
      rcases Result.bind_eq_ok.mp hchange with ⟨p, hp, hchange⟩
      cases hkey : p.primaryKey? with
      | none =>
          simp only [hkey] at hchange
          cases hchange
      | some key =>
          simp only [hkey] at hchange
          cases hchange
          refine h.setSource ?_ rfl rfl rfl (exists_sourceValue_sequence hkey)
          intro j
          simp [Step.source?, Table.index?_of_requireColumn hfound, hp, Except.toOption, eq_comm]
  | onConflictDoNothing =>
      cases hchange
      exact h.concat rfl rfl rfl hnone (fun j s' => by simp [Step.source?, Change.apply])
        h.distinct h.written rfl
  | onConflictUpdate target assign =>
      rcases Result.bind_eq_ok.mp hchange with ⟨targets, htargets, hchange⟩
      rcases Result.bind_eq_ok.mp hchange with ⟨assigned, hassigned, heq⟩
      cases heq
      rw [mapM_requireColumn htargets, mapM_requireColumn hassigned]
      exact h.concat rfl rfl rfl hnone (fun j s' => by simp [Step.source?, Change.apply])
        h.distinct h.written rfl

theorem holds_start : Holds m t [] { table := .ok t } where
  table := rfl
  error := rfl
  columns := rfl
  rows := .nil
  sources := fun index s => by simp [latest?]
  distinct := List.nodup_nil
  written := fun _ h => absurd h List.not_mem_nil
  conflict := rfl

theorem holds_foldlM (h : steps.foldlM (Step.attempt m) { table := .ok t } = .ok i) :
    Holds m t steps i := by
  induction steps using List.reverseRecOn generalizing i with
  | nil =>
      cases h
      exact holds_start
  | append_singleton steps s ih =>
      rw [List.foldlM_append] at h
      rcases Result.bind_eq_ok.mp h with ⟨before, hbefore, hlast⟩
      rw [List.foldlM_cons] at hlast
      rcases Result.bind_eq_ok.mp hlast with ⟨i', hattempt, heq⟩
      cases heq
      rcases Result.bind_eq_ok.mp hattempt with ⟨t', ht, hchange⟩
      cases (ih hbefore).table.symm.trans ht
      rcases Result.bind_eq_ok.mp hchange with ⟨c, hc, heq⟩
      cases heq
      exact (ih hbefore).step hc

/-- A run that leaves no error behind holds what its steps say. -/
theorem holds_run (h : (run m steps).error = none) :
    exists t, m.table = .ok t ∧ Holds m t steps (run m steps) := by
  rcases error_run_eq_none_iff.mp h with ⟨i, hattempted⟩
  rcases Result.bind_eq_ok.mp hattempted with ⟨start, hstart, hsteps⟩
  rcases Result.map_eq_ok.mp hstart with ⟨t, ht, rfl⟩
  exact ⟨t, ht, (run_of_attemptedSteps hattempted).1 ▸ holds_foldlM hsteps⟩

/-!
## What a built statement lists
-/

/-- The column list of an INSERT, its tuples, and what it does on a conflict. -/
structure Layout where
  columns : List Nat
  tuples : List (List Fragment)
  conflict : Option OnConflict

def Layout.values (query : Fragment) : List (List Fragment) -> Fragment
  | [] => query
  | [entries] => ((query.text "(").joined entries ",").text ")"
  | entries :: next :: rest =>
      values ((((query.text "(").joined entries ",").text ")").text ",") (next :: rest)

def Layout.query (t : Table) (l : Layout) : Fragment :=
  let query := values (head t (l.columns.map (columnName t))) l.tuples
  let query :=
    match l.conflict with
    | some conflict => query.text (conflictClause conflict)
    | none => query
  let query :=
    match t.primaryKey? with
    | some (_, key) => query.text (" RETURNING " ++ key.quoted)
    | none => query
  (Frame.mk query (.single .root t) false).framed

theorem tableText_single (t : Table) :
    (Scopes.push {} (.single .root t) false).tableText .root t = t.qualifiedName := by
  have hbinding : (Scopes.push {} (.single .root t) false).binding? .root =
      some ⟨.root, t.name, t.name⟩ := by
    simp [Scopes.push, Scopes.binding?, AliasMap.single, AliasMap.bind, AliasMap.empty,
      AliasMap.binding?]
  unfold Scopes.tableText Scopes.tableAlias?
  rw [hbinding]
  simp [Binding.written?]

theorem simpleIn_values (scopes : Scopes) (query : Fragment) (tuples : List (List Fragment)) :
    (Layout.values query tuples).simpleIn scopes = query.simpleIn scopes ++
      ",".intercalate (tuples.map fun entries =>
        "(" ++ ",".intercalate (entries.map (Fragment.simpleIn scopes)) ++ ")") := by
  induction tuples generalizing query with
  | nil =>
      rw [List.map_nil, String.intercalate_nil, String.append_empty]
      rfl
  | cons entries rest ih =>
      cases rest with
      | nil => simp [Layout.values, String.append_assoc]
      | cons next more =>
          rw [Layout.values, ih, List.map_cons, List.map_cons, List.map_cons,
            String.intercalate_cons_cons]
          simp [String.append_assoc]

theorem Layout.renderSimple_query (t : Table) (l : Layout) : exists ending,
    (l.query t).renderSimple =
      "INSERT INTO " ++ t.qualifiedName ++ "(" ++
        ",".intercalate (l.columns.map (columnName t)) ++ ") VALUES " ++
        ",".intercalate (l.tuples.map fun entries => "(" ++ ",".intercalate (entries.map fun f =>
          (Frame.mk f (.single .root t) false).framed.renderSimple) ++ ")") ++ ending := by
  have hhead : (head t (l.columns.map (columnName t))).simpleIn
      (Scopes.push {} (.single .root t) false) =
        "INSERT INTO " ++ t.qualifiedName ++ "(" ++
          ",".intercalate (l.columns.map (columnName t)) ++ ") VALUES " := by
    rw [head, Fragment.simpleIn_text, Fragment.table, Fragment.simpleIn_push, <- tableText_single]
    simp [Part.pieces, Part.allLeaves, Part.leaves, Placed.piece, Piece.simpleText,
      String.append_assoc]
  simp only [Fragment.renderSimple_framed, Layout.query]
  rw [<- hhead, <- simpleIn_values]
  cases l.conflict with
  | none =>
      cases t.primaryKey? with
      | none => exact ⟨"", String.append_empty.symm⟩
      | some key => exact ⟨" RETURNING " ++ key.2.quoted, Fragment.simpleIn_text _ _ _⟩
  | some conflict =>
      cases t.primaryKey? with
      | none => exact ⟨conflictClause conflict, Fragment.simpleIn_text _ _ _⟩
      | some key =>
          refine ⟨conflictClause conflict ++ (" RETURNING " ++ key.2.quoted), ?_⟩
          dsimp only
          rw [Fragment.simpleIn_text, Fragment.simpleIn_text, String.append_assoc]

theorem tuples_eq_values (query : Fragment) (plain : List Nat) (sources : List Fragment)
    (rows : List (List Typed)) :
    tuples query plain sources rows = Layout.values query (rows.map (tuple plain sources)) := by
  induction rows generalizing query with
  | nil => rfl
  | cons row rest ih =>
      cases rest with
      | nil => rfl
      | cons next more => exact ih _

/-- A built insert has no error and a row, and its layout is that of its columns, sources and
rows. -/
theorem layout_of_build {statement : Statement Inserted} (h : i.build = .ok statement) :
    i.error = none ∧ i.rows ≠ [] ∧ exists t sources, i.table = .ok t ∧
      i.sources.mapM (fun (_, source) => sourceValue source) = .ok sources ∧
      statement.query = Layout.query t
        ⟨i.plainColumns t ++ i.sources.map (·.1), i.rows.map (tuple (i.plainColumns t) sources),
          i.conflict⟩ := by
  unfold build at h
  cases herror : i.error with
  | some e =>
      rw [herror] at h
      cases h
  | none =>
      rw [herror] at h
      rcases Result.bind_eq_ok.mp h with ⟨t, ht, h⟩
      cases hrows : i.rows with
      | nil =>
          rw [hrows] at h
          cases h
      | cons row rest =>
          rw [hrows] at h
          rcases Result.bind_eq_ok.mp h with ⟨sources, hsources, h⟩
          cases h
          refine ⟨rfl, List.cons_ne_nil row rest, t, sources, ht, hsources, ?_⟩
          rw [<- hrows]
          unfold Layout.query
          rw [<- tuples_eq_values]
          rfl

/-!
## Columns and entries
-/

theorem exists_column_of_index? {name : String} {index : Nat} (h : t.index? name = some index) :
    exists column, t.columns[index]? = some column := by
  rcases Option.map_eq_some_iff.mp h with ⟨⟨j, column⟩, hfind, rfl⟩
  exact ⟨column, Table.getElem?_of_requireColumn (Table.requireColumn_eq_ok_iff.mpr hfind)⟩

theorem exists_column_of_mem_base {index : Nat} (h : index ∈ base t steps) :
    exists column, t.columns[index]? = some column := by
  unfold base at h
  cases hlatest : latest? (Step.columns? t) steps with
  | none =>
      rw [hlatest, Option.getD_none] at h
      rcases Table.mem_insertable.mp h with ⟨column, hcolumn, -⟩
      exact ⟨column, hcolumn⟩
  | some list =>
      rw [hlatest, Option.getD_some] at h
      rcases List.exists_of_findSome?_eq_some hlatest with ⟨s, -, hs⟩
      cases s with
      | into names =>
          cases hs
          rcases List.mem_filterMap.mp h with ⟨name, -, hname⟩
          exact exists_column_of_index? hname
      | _ => cases hs

theorem typedColumn_of_cells (ht : m.table = .ok t) {enums : EnumRegistry} {fields : Instance}
    {values : List Typed} (h : cells m t enums fields = .ok values) {index : Nat} {column : Column}
    (hcolumn : t.columns[index]? = some column) :
    m.typedColumn enums fields index = .ok ((values[index]?).getD .null) := by
  rcases List.forall₂_iff_get.mp (Result.mapM_eq_ok.mp h) with ⟨hlength, hget⟩
  rcases List.getElem?_eq_some_iff.mp hcolumn with ⟨hindex, rfl⟩
  rw [List.length_zipIdx] at hlength
  have hcell := hget index (by rwa [List.length_zipIdx]) (hlength ▸ hindex)
  rw [List.get_eq_getElem, List.getElem_zipIdx, Nat.zero_add] at hcell
  rw [List.getElem?_eq_getElem (hlength ▸ hindex), Option.getD_some, Model.typedColumn, ht,
    Result.ok_bind, hcolumn]
  exact hcell

def sourced (t : Table) (steps : List Step) (index : Nat) : Bool :=
  (latest? (Step.source? t index) steps).isSome

/-- What stands in a row's tuple for a column: its source if it has one, else the row's value. -/
def entry (m : Model) (t : Table) (steps : List Step) (row : EnumRegistry × Instance)
    (index : Nat) : Result Fragment :=
  match latest? (Step.source? t index) steps with
  | some source => sourceValue source
  | none => do return Fragment.empty.value (<- m.typedColumn row.1 row.2 index)

/-- Every tuple has an entry for each listed column, in the order of the list. -/
structure LinesUp (m : Model) (t : Table) (steps : List Step) (l : Layout) : Prop where
  columns : exists rest, l.columns = (base t steps).filter (!sourced t steps ·) ++ rest ∧
    rest.Nodup ∧ forall index, index ∈ rest <-> sourced t steps index = true
  listed : forall index, index ∈ l.columns -> exists column, t.columns[index]? = some column
  tuples : List.Forall₂
    (fun row entries => List.Forall₂ (fun index f => entry m t steps row index = .ok f)
      l.columns entries)
    (steps.filterMap Step.row?) l.tuples

theorem exists_column_of_source? {s : Step} {index : Nat} {source : InsertSource}
    (h : s.source? t index = some source) : exists column, t.columns[index]? = some column := by
  cases s with
  | valueFromSubquery column q =>
      by_cases hindex : t.index? column = some index
      · exact exists_column_of_index? hindex
      · simp [Step.source?, hindex] at h
  | valueFromSequence column parent =>
      by_cases hindex : t.index? column = some index
      · exact exists_column_of_index? hindex
      · simp [Step.source?, hindex] at h
  | _ => cases h

theorem exists_column_of_sourced {index : Nat} (h : sourced t steps index = true) :
    exists column, t.columns[index]? = some column := by
  rcases Option.isSome_iff_exists.mp h with ⟨source, hsource⟩
  rcases List.exists_of_findSome?_eq_some hsource with ⟨s, -, hs⟩
  exact exists_column_of_source? hs

theorem Holds.mem_sources_iff (h : Holds m t steps i) {index : Nat} :
    index ∈ i.sources.map (·.1) <-> sourced t steps index = true := by
  rw [sourced, Option.isSome_iff_exists, List.mem_map]
  constructor
  · rintro ⟨⟨j, source⟩, hentry, rfl⟩
    exact ⟨source, (h.sources j source).mp hentry⟩
  · rintro ⟨source, hsource⟩
    exact ⟨(index, source), (h.sources index source).mpr hsource, rfl⟩

theorem Holds.plainColumns (h : Holds m t steps i) :
    i.plainColumns t = (base t steps).filter (!sourced t steps ·) := by
  rw [Insert.plainColumns, h.columns, base]
  refine List.filter_congr fun index _ => congrArg (!·) ?_
  rw [Bool.eq_iff_iff, <- h.mem_sources_iff]
  simp

theorem Holds.entry_plain (h : Holds m t steps i) (ht : m.table = .ok t)
    {row : EnumRegistry × Instance} {values : List Typed}
    (hrow : cells m t row.1 row.2 = .ok values) {index : Nat} (hindex : index ∈ i.plainColumns t) :
    entry m t steps row index =
      .ok (Fragment.empty.value ((values[index]?).getD .null)) := by
  rw [h.plainColumns, List.mem_filter] at hindex
  rcases exists_column_of_mem_base hindex.1 with ⟨column, hcolumn⟩
  have hnone : latest? (Step.source? t index) steps = none := by
    simpa [sourced] using hindex.2
  rw [entry, hnone]
  dsimp only
  rw [typedColumn_of_cells ht hrow hcolumn]
  rfl

theorem Holds.entry_source (h : Holds m t steps i) (row : EnumRegistry × Instance)
    {given : Nat × InsertSource} (hgiven : given ∈ i.sources) :
    entry m t steps row given.1 = sourceValue given.2 := by
  rw [entry, (h.sources given.1 given.2).mp hgiven]

theorem Holds.entries (h : Holds m t steps i) (ht : m.table = .ok t)
    {row : EnumRegistry × Instance} {values : List Typed}
    (hrow : cells m t row.1 row.2 = .ok values) {sources : List Fragment}
    (hsources : i.sources.mapM (fun (_, source) => sourceValue source) = .ok sources) :
    List.Forall₂ (fun index f => entry m t steps row index = .ok f)
      (i.plainColumns t ++ i.sources.map (·.1)) (tuple (i.plainColumns t) sources values) := by
  refine List.rel_append ?_ ?_
  · rw [List.forall₂_map_right_iff, List.forall₂_same]
    exact fun index hindex => h.entry_plain ht hrow hindex
  · rw [List.forall₂_map_left_iff]
    have hgiven := (List.forall₂_and_left (p := fun given => given ∈ i.sources) _ _).mpr
      ⟨fun given hgiven => hgiven, Result.mapM_eq_ok.mp hsources⟩
    exact hgiven.imp fun given f hvalue => (h.entry_source row hvalue.1).trans hvalue.2

theorem Holds.linesUp (h : Holds m t steps i) (ht : m.table = .ok t) {sources : List Fragment}
    (hsources : i.sources.mapM (fun (_, source) => sourceValue source) = .ok sources) :
    LinesUp m t steps ⟨i.plainColumns t ++ i.sources.map (·.1),
      i.rows.map (tuple (i.plainColumns t) sources), i.conflict⟩ where
  columns :=
    ⟨i.sources.map (·.1), by rw [h.plainColumns], h.distinct, fun _ => h.mem_sources_iff⟩
  listed := by
    intro index hindex
    rcases List.mem_append.mp hindex with hplain | hsource
    · rw [h.plainColumns] at hplain
      exact exists_column_of_mem_base (List.mem_filter.mp hplain).1
    · exact exists_column_of_sourced (h.mem_sources_iff.mp hsource)
  tuples := by
    rw [List.forall₂_map_right_iff]
    exact h.rows.imp fun row values hrow => h.entries ht hrow hsources

/-- The tuples of a built insert line up with its column list, and there is one for each row. -/
theorem values_line_up {calls : List Call} {statement : Statement Inserted}
    (h : (made m calls).build = .ok statement) :
    exists t l ending, m.table = .ok t ∧ LinesUp m t (calls.flatMap Call.steps) l ∧
      statement.query = l.query t ∧
      statement.query.renderSimple =
        "INSERT INTO " ++ t.qualifiedName ++ "(" ++
          ",".intercalate (l.columns.map (columnName t)) ++ ") VALUES " ++
          ",".intercalate (l.tuples.map fun entries => "(" ++ ",".intercalate (entries.map fun f =>
            (Frame.mk f (.single .root t) false).framed.renderSimple) ++ ")") ++ ending := by
  rw [made_eq_run] at h
  rcases layout_of_build h with ⟨herror, -, t, sources, htable, hsources, hquery⟩
  rcases holds_run herror with ⟨t', ht, hholds⟩
  cases hholds.table.symm.trans htable
  rcases Layout.renderSimple_query t ⟨_, _, _⟩ with ⟨ending, hending⟩
  exact ⟨t, _, ending, ht, hholds.linesUp ht hsources, hquery, hquery ▸ hending⟩

def reviewCalls : List Call := [
  .step (.into ["stars"]),
  .step (.row {} Select.Chain.fourStars),
  .step (.valueFromSequence "author" Select.Chain.author),
  .rows {} [Select.Chain.fourStars],
  .step (.valueFromSequence "author_id" Select.Chain.author)]

theorem reviews_line_up :
    exists statement, (made Select.Chain.review reviewCalls).build = .ok statement ∧
      statement.query.renderSimple =
        "INSERT INTO \"review\"(\"stars\",\"author_id\") VALUES " ++
          "(4,currval(pg_get_serial_sequence('\"author\"', 'id')))," ++
          "(4,currval(pg_get_serial_sequence('\"author\"', 'id')))" ∧
      exists t l, Select.Chain.review.table = .ok t ∧
        LinesUp Select.Chain.review t (reviewCalls.flatMap Call.steps) l ∧
        statement.query = l.query t := by
  have hbuild : exists statement, (made Select.Chain.review reviewCalls).build = .ok statement :=
    ⟨_, rfl⟩
  rcases hbuild with ⟨statement, hbuild⟩
  rcases values_line_up hbuild with ⟨t, l, ending, ht, hlines, hquery, -⟩
  refine ⟨statement, hbuild, ?_, t, l, ht, hlines, hquery⟩
  cases hbuild
  decide +kernel

end Insert
end TypedQuery
