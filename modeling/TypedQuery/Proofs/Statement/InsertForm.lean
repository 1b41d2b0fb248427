import TypedQuery.Proofs.Server.Name
import TypedQuery.Proofs.Server.Spelling
import TypedQuery.Proofs.Statement.Builder
import TypedQuery.Proofs.Statement.Layout

/-!
# Well-formed inserts

The server refuses an INSERT with an empty column list or with a column that is listed twice, and a
conflict clause that assigns without a target or assigns one column twice.  Nothing of this makes
the builder fail: it fails for the steps that do and for want of rows.  Whether what it builds is
well formed is up to the names that it is given.
-/

namespace TypedQuery
namespace Insert

variable {m : Model} {t : Table} {i : Insert} {steps : List Step}

/-!
## When an insert is built
-/

/-- What a step changes does not depend on the steps before it, so the steps succeed together when
each of them does. -/
theorem exists_foldlM_attempt_iff (ht : i.table = .ok t) :
    (exists i', steps.foldlM (Step.attempt m) i = .ok i') <->
      forall s, s ∈ steps -> exists c, s.change m t = .ok c := by
  induction steps generalizing i with
  | nil => simp
  | cons s rest ih =>
      rw [List.forall_mem_cons, List.foldlM_cons, Step.attempt, ht, Result.ok_bind]
      cases hchange : s.change m t with
      | error e =>
          constructor
          · rintro ⟨i', h⟩
            cases h
          · rintro ⟨⟨c, hc⟩, -⟩
            cases hc
      | ok c =>
          have htable : (c.apply i).table = .ok t := (Change.table_apply i c).trans ht
          constructor
          · intro h
            exact ⟨⟨c, rfl⟩, (ih htable).mp h⟩
          · rintro ⟨-, hrest⟩
            exact (ih htable).mpr hrest

theorem exists_attemptedSteps_iff : (exists i, attemptedSteps m steps = .ok i) <->
    exists t, m.table = .ok t ∧ forall s, s ∈ steps -> exists c, s.change m t = .ok c := by
  rw [attemptedSteps, Result.exists_bind_iff]
  constructor
  · rintro ⟨start, hstart, hsteps⟩
    rcases Result.map_eq_ok.mp hstart with ⟨t, ht, rfl⟩
    exact ⟨t, ht, (exists_foldlM_attempt_iff rfl).mp hsteps⟩
  · rintro ⟨t, ht, hsteps⟩
    exact ⟨_, Result.map_eq_ok.mpr ⟨t, ht, rfl⟩, (exists_foldlM_attempt_iff rfl).mpr hsteps⟩

theorem exists_build (herror : i.error = none) (ht : i.table = .ok t) (hrows : i.rows ≠ [])
    {sources : List Fragment}
    (hsources : i.sources.mapM (fun (_, source) => sourceValue source) = .ok sources) :
    exists statement, i.build = .ok statement := by
  unfold build
  rw [herror, ht]
  cases hrow : i.rows with
  | nil => exact absurd hrow hrows
  | cons row rest =>
      simp only [Result.ok_bind, hsources]
      exact ⟨_, rfl⟩

theorem Holds.rows_ne_nil_iff (h : Holds m t steps i) :
    i.rows ≠ [] <-> steps.filterMap Step.row? ≠ [] := by
  rw [<- List.length_pos_iff, <- List.length_pos_iff, h.rows.length_eq]

theorem Holds.exists_build (h : Holds m t steps i) (hrow : steps.filterMap Step.row? ≠ []) :
    exists statement, i.build = .ok statement := by
  rcases Result.exists_mapM_iff.mpr h.written with ⟨sources, hsources⟩
  exact Insert.exists_build h.error h.table (h.rows_ne_nil_iff.mpr hrow) hsources

/-- An insert is built exactly when all its steps succeed and one of them adds a row. -/
theorem exists_build_run_iff : (exists statement, (run m steps).build = .ok statement) <->
    exists t, m.table = .ok t ∧ (forall s, s ∈ steps -> exists c, s.change m t = .ok c) ∧
      steps.filterMap Step.row? ≠ [] := by
  constructor
  · rintro ⟨statement, h⟩
    rcases layout_of_build h with ⟨herror, hrows, -⟩
    rcases exists_attemptedSteps_iff.mp (error_run_eq_none_iff.mp herror) with ⟨t, ht, hsteps⟩
    rcases holds_run herror with ⟨t', ht', hholds⟩
    exact ⟨t, ht, hsteps, hholds.rows_ne_nil_iff.mp hrows⟩
  · rintro ⟨t, ht, hsteps, hrow⟩
    have herror := error_run_eq_none_iff.mpr (exists_attemptedSteps_iff.mpr ⟨t, ht, hsteps⟩)
    rcases holds_run herror with ⟨t', ht', hholds⟩
    exact hholds.exists_build hrow

/-!
## What the server asks for
-/

/-- The lists of an INSERT that the server takes. -/
structure Layout.WellFormed (t : Table) (l : Layout) : Prop where
  listed : l.columns ≠ []
  filled : forall entries, entries ∈ l.tuples -> entries ≠ []
  once : (l.columns.map (columnName t)).Nodup
  conflict : forall target assign, l.conflict = some (.update target assign) -> assign ≠ [] ->
    target ≠ [] ∧ assign.Nodup

def Step.conflictNames? : Step -> Option (Option (List String × List String))
  | onConflictDoNothing => some none
  | onConflictUpdate target assign => some (some (target, assign))
  | _ => none

/-- The steps name columns with care.  Names are compared by the columns that they lead to, so that
a field and the physical name of one column count as the same. -/
structure Careful (t : Table) (steps : List Step) : Prop where
  listed : exists index, index ∈ base t steps ∨ sourced t steps index = true
  once : forall list, latest? (Step.columns? t) steps = some list ->
    (list.filter (!sourced t steps ·)).Nodup
  conflict : forall target assign,
    latest? Step.conflictNames? steps = some (some (target, assign)) -> assign ≠ [] ->
      target ≠ [] ∧ (assign.map t.index?).Nodup

/-!
## The column list
-/

theorem nodup_insertable (t : Table) : t.insertable.Nodup := by
  rw [Table.insertable, List.Nodup, List.pairwise_filterMap]
  refine (Server.Reference.pairwise_zipIdx t.columns).imp fun {a b} hne i hi j hj => ?_
  dsimp only at hi hj
  split at hi
  · cases hi
  · split at hj
    · cases hj
    · cases hi
      cases hj
      exact hne

theorem nodup_columnName_iff (hvalid : t.validate = .ok ()) {columns : List Nat}
    (hlisted : forall index, index ∈ columns -> exists column, t.columns[index]? = some column) :
    (columns.map (columnName t)).Nodup <-> columns.Nodup := by
  constructor
  · exact List.Nodup.of_map _
  · refine List.Nodup.map_on fun i hi j hj heq => ?_
    rcases hlisted i hi with ⟨c, hc⟩
    rcases hlisted j hj with ⟨d, hd⟩
    rw [columnName, columnName, hc, hd] at heq
    exact Table.index_unique_of_validate hvalid hc hd (Server.quoteIdent_injective heq)

theorem LinesUp.nodup_columns_iff {l : Layout} (h : LinesUp m t steps l) :
    l.columns.Nodup <-> forall list, latest? (Step.columns? t) steps = some list ->
      (list.filter (!sourced t steps ·)).Nodup := by
  rcases h.columns with ⟨rest, hcolumns, hrest, hmem⟩
  -- A column with a source is left out of the list, so only the list itself can repeat one.
  have hdisjoint : ((base t steps).filter (!sourced t steps ·)).Disjoint rest := by
    intro index hplain hsource
    have hnot := (List.mem_filter.mp hplain).2
    rw [(hmem index).mp hsource] at hnot
    cases hnot
  have hplain : l.columns.Nodup <-> ((base t steps).filter (!sourced t steps ·)).Nodup := by
    rw [hcolumns, List.nodup_append']
    exact ⟨fun hall => hall.1, fun hplain => ⟨hplain, hrest, hdisjoint⟩⟩
  rw [hplain, base]
  cases latest? (Step.columns? t) steps with
  | none => simpa using (nodup_insertable t).filter _
  | some list => simp

theorem LinesUp.columns_ne_nil_iff {l : Layout} (h : LinesUp m t steps l) :
    l.columns ≠ [] <-> exists index, index ∈ base t steps ∨ sourced t steps index = true := by
  rcases h.columns with ⟨rest, hcolumns, -, hmem⟩
  have hlisted : forall index, index ∈ l.columns <->
      (index ∈ base t steps ∧ sourced t steps index = false) ∨ sourced t steps index = true := by
    intro index
    rw [hcolumns, List.mem_append, List.mem_filter, hmem, Bool.not_eq_true']
  constructor
  · intro hne
    rcases List.exists_mem_of_ne_nil _ hne with ⟨index, hindex⟩
    exact ⟨index, ((hlisted index).mp hindex).imp_left And.left⟩
  · rintro ⟨index, hindex⟩
    refine List.ne_nil_of_mem ((hlisted index).mpr ?_)
    cases hsourced : sourced t steps index with
    | true => exact Or.inr rfl
    | false => exact Or.inl ⟨hindex.resolve_right (by simp [hsourced]), rfl⟩

theorem LinesUp.filled {l : Layout} (h : LinesUp m t steps l) (hne : l.columns ≠ [])
    {entries : List Fragment} (hentries : entries ∈ l.tuples) : entries ≠ [] := by
  rintro rfl
  rcases List.mem_iff_getElem.mp hentries with ⟨k, hk, hget⟩
  rcases List.forall₂_iff_get.mp h.tuples with ⟨hlength, htuples⟩
  have hentry := htuples k (hlength ▸ hk) hk
  simp only [List.get_eq_getElem, hget, List.forall₂_nil_right_iff] at hentry
  exact hne hentry

/-!
## The conflict clause
-/

theorem latest?_map {α β : Type} {f : Step -> Option α} {g : Step -> Option β} {k : α -> β}
    (h : forall s, g s = (f s).map k) (steps : List Step) :
    latest? g steps = (latest? f steps).map k := by
  induction steps using List.reverseRecOn with
  | nil => rfl
  | append_singleton steps s ih =>
      rw [latest?_concat, latest?_concat, h, ih]
      cases f s <;> rfl

def columnNames (t : Table) (names : List String) : List String :=
  names.filterMap fun name => (t.findColumn? name).map (·.2.name)

theorem conflict?_eq (t : Table) (s : Step) :
    s.conflict? t = s.conflictNames?.map fun
      | none => .nothing
      | some (target, assign) => .update (columnNames t target) (columnNames t assign) := by
  cases s <;> rfl

theorem columnNames_ne_nil_iff {names : List String}
    (hfound : forall name, name ∈ names -> exists found, t.requireColumn name = .ok found) :
    columnNames t names ≠ [] <-> names ≠ [] := by
  rw [ne_eq, ne_eq, columnNames, List.filterMap_eq_nil_iff]
  constructor
  · rintro h rfl
    exact h fun name hname => absurd hname List.not_mem_nil
  · intro h hall
    rcases List.exists_mem_of_ne_nil _ h with ⟨name, hname⟩
    rcases hfound name hname with ⟨found, hfound⟩
    have hnone := hall name hname
    rw [Table.requireColumn_eq_ok_iff.mp hfound] at hnone
    cases hnone

theorem nodup_columnNames_iff (hvalid : t.validate = .ok ()) {names : List String}
    (hfound : forall name, name ∈ names -> exists found, t.requireColumn name = .ok found) :
    (columnNames t names).Nodup <-> (names.map t.index?).Nodup := by
  rw [columnNames, List.Nodup, List.pairwise_filterMap, List.Nodup, List.pairwise_map]
  refine List.Pairwise.iff_of_mem fun {a b} ha hb => ?_
  rcases hfound a ha with ⟨⟨i, c⟩, hc⟩
  rcases hfound b hb with ⟨⟨j, d⟩, hd⟩
  rw [Table.index?_of_requireColumn hc, Table.index?_of_requireColumn hd,
    Table.requireColumn_eq_ok_iff.mp hc, Table.requireColumn_eq_ok_iff.mp hd]
  have hci := Table.getElem?_of_requireColumn hc
  have hdj := Table.getElem?_of_requireColumn hd
  constructor
  · intro hne heq
    cases heq
    cases hci.symm.trans hdj
    exact hne _ rfl _ rfl rfl
  · rintro hne _ ⟨⟩ _ ⟨⟩ heq
    exact hne (congrArg some (Table.index_unique_of_validate hvalid hci hdj heq))

theorem exists_column_of_change {target assign : List String} {c : Change}
    (h : (Step.onConflictUpdate target assign).change m t = .ok c) :
    (forall name, name ∈ target -> exists found, t.requireColumn name = .ok found) ∧
      forall name, name ∈ assign -> exists found, t.requireColumn name = .ok found := by
  rcases Result.bind_eq_ok.mp h with ⟨targets, htargets, h⟩
  rcases Result.bind_eq_ok.mp h with ⟨assigned, hassigned, -⟩
  have hfound : forall {names found : List String},
      (names.mapM fun name => do return (<- t.requireColumn name).2.name) = .ok found ->
        forall name, name ∈ names -> exists found, t.requireColumn name = .ok found := by
    intro names found hnames name hname
    rcases Result.exists_image_of_mapM hnames hname with ⟨_, -, hcolumn⟩
    rcases Result.bind_eq_ok.mp hcolumn with ⟨column, hcolumn, -⟩
    exact ⟨column, hcolumn⟩
  exact ⟨hfound htargets, hfound hassigned⟩

theorem conflict_wellFormed_iff (hvalid : t.validate = .ok ())
    (hsteps : forall s, s ∈ steps -> exists c, s.change m t = .ok c) :
    (forall target assign, latest? (Step.conflict? t) steps = some (.update target assign) ->
        assign ≠ [] -> target ≠ [] ∧ assign.Nodup) <->
      forall target assign,
        latest? Step.conflictNames? steps = some (some (target, assign)) -> assign ≠ [] ->
          target ≠ [] ∧ (assign.map t.index?).Nodup := by
  rw [latest?_map (conflict?_eq t)]
  cases hlatest : latest? Step.conflictNames? steps with
  | none => simp
  | some given =>
      cases given with
      | none => simp
      | some names =>
          rcases List.exists_of_findSome?_eq_some hlatest with ⟨s, hmem, hs⟩
          cases s with
          | onConflictUpdate target assign =>
              cases hs
              rcases hsteps _ (List.mem_reverse.mp hmem) with ⟨c, hc⟩
              rcases exists_column_of_change hc with ⟨htarget, hassign⟩
              simp [columnNames_ne_nil_iff htarget, columnNames_ne_nil_iff hassign,
                nodup_columnNames_iff hvalid hassign]
          | _ => cases hs

/-!
## What is built
-/

/-- An insert of a valid model is built exactly when its steps succeed and one of them adds a row,
and what is built is well formed exactly when the steps name columns with care. -/
theorem wellFormed_iff_careful (hm : m.IsValid) (calls : List Call) :
    ((exists statement, (made m calls).build = .ok statement) <->
      exists t, m.table = .ok t ∧
        (forall s, s ∈ calls.flatMap Call.steps -> exists c, s.change m t = .ok c) ∧
        (calls.flatMap Call.steps).filterMap Step.row? ≠ []) ∧
    forall statement, (made m calls).build = .ok statement ->
      exists t l, m.table = .ok t ∧ LinesUp m t (calls.flatMap Call.steps) l ∧
        l.conflict = latest? (Step.conflict? t) (calls.flatMap Call.steps) ∧
        statement.query = l.query t ∧
        (l.WellFormed t <-> Careful t (calls.flatMap Call.steps)) := by
  rw [made_eq_run]
  refine ⟨exists_build_run_iff, fun statement h => ?_⟩
  rcases layout_of_build h with ⟨herror, -, t, sources, htable, hsources, hquery⟩
  rcases holds_run herror with ⟨t', ht, hholds⟩
  cases hholds.table.symm.trans htable
  rcases exists_attemptedSteps_iff.mp (error_run_eq_none_iff.mp herror) with ⟨t', ht', hsteps⟩
  cases ht.symm.trans ht'
  have hlines := hholds.linesUp ht hsources
  have hconflict := conflict_wellFormed_iff (hm t ht) hsteps
  refine ⟨t, _, ht, hlines, hholds.conflict, hquery, ?_⟩
  constructor
  · intro hform
    refine ⟨hlines.columns_ne_nil_iff.mp hform.listed, hlines.nodup_columns_iff.mp ?_,
      hconflict.mp ?_⟩
    · exact (nodup_columnName_iff (hm t ht) hlines.listed).mp hform.once
    · rw [<- hholds.conflict]
      exact hform.conflict
  · intro hcareful
    have hlisted := hlines.columns_ne_nil_iff.mpr hcareful.listed
    refine ⟨hlisted, fun entries => hlines.filled hlisted, ?_, ?_⟩
    · rw [nodup_columnName_iff (hm t ht) hlines.listed]
      exact hlines.nodup_columns_iff.mpr hcareful.once
    · rw [hholds.conflict]
      exact hconflict.mpr hcareful.conflict

def carefulCalls : List Call := reviewCalls ++ [.step (.onConflictUpdate ["author_id"] ["stars"])]

theorem reviews_wellFormed :
    Select.Chain.review.IsValid ∧
      exists statement, (made Select.Chain.review carefulCalls).build = .ok statement ∧
        exists (t : Table) (l : Layout), statement.query = l.query t ∧ l.WellFormed t := by
  have hvalid : Select.Chain.review.IsValid := Model.isValid_of_validate rfl
  have hbuild : exists statement, (made Select.Chain.review carefulCalls).build = .ok statement :=
    ⟨_, rfl⟩
  rcases hbuild with ⟨statement, hbuild⟩
  rcases (wellFormed_iff_careful hvalid carefulCalls).2 statement hbuild with
    ⟨t, l, ht, -, -, hquery, hform⟩
  cases ht
  refine ⟨hvalid, statement, hbuild, _, l, hquery, hform.mpr ⟨⟨1, Or.inl (by decide)⟩, ?_, ?_⟩⟩
  · intro list hlist
    cases hlist
    decide
  · rintro target assign ⟨⟩ -
    exact ⟨by decide, by decide⟩

def builtText (m : Model) (calls : List Call) : Result String :=
  (made m calls).build.map (·.query.renderSimple)

def counter : Model where
  name := "Counter"
  table := .ok {
    model := "Counter"
    name := "counter"
    schema := none
    columns := [
      { field := "id", name := "id", type := .bigint, primaryKey := true, autoIncrement := true }] }
  hosts := [.host (.base .int64)]

/-- Columns listed twice and not at all, and conflict clauses without a target or that assign one
column twice are built all the same. -/
theorem reviews_malformed :
    Select.Chain.review.IsValid ∧ counter.IsValid ∧
      builtText Select.Chain.review [.step (.into ["stars", "stars"]),
          .step (.row {} Select.Chain.fourStars)] =
        .ok "INSERT INTO \"review\"(\"stars\",\"stars\") VALUES (4,4)" ∧
      builtText Select.Chain.review [.step (.into ["author", "author_id"]),
          .step (.row {} Select.Chain.fourStars)] =
        .ok "INSERT INTO \"review\"(\"author_id\",\"author_id\") VALUES (2,2)" ∧
      builtText Select.Chain.review [.step (.into []), .step (.row {} Select.Chain.fourStars)] =
        .ok "INSERT INTO \"review\"() VALUES ()" ∧
      builtText counter [.step (.row {} [⟨.host (.base .int64), (1 : Int64)⟩])] =
        .ok "INSERT INTO \"counter\"() VALUES () RETURNING \"id\"" ∧
      builtText Select.Chain.review [.step (.row {} Select.Chain.fourStars),
          .step (.onConflictUpdate [] ["stars"])] =
        .ok ("INSERT INTO \"review\"(\"author_id\",\"stars\") VALUES (2,4) " ++
          "ON CONFLICT () DO UPDATE SET \"stars\" = EXCLUDED.\"stars\"") ∧
      builtText Select.Chain.review [.step (.row {} Select.Chain.fourStars),
          .step (.onConflictUpdate ["author"] ["stars", "stars"])] =
        .ok ("INSERT INTO \"review\"(\"author_id\",\"stars\") VALUES (2,4) " ++
          "ON CONFLICT (\"author_id\") DO UPDATE SET " ++
          "\"stars\" = EXCLUDED.\"stars\", \"stars\" = EXCLUDED.\"stars\"") := by
  refine ⟨Model.isValid_of_validate rfl, Model.isValid_of_validate rfl, ?_⟩
  decide +kernel

end Insert
end TypedQuery
