import TypedQuery.Proofs.Statement.Projection
import TypedQuery.Proofs.Statement.Where

/-!
# Counting the rows of a query

The rows of a query are counted in two ways.  With DISTINCT, LIMIT or OFFSET the query itself is
counted, as a derived table.  Otherwise its tables and conditions are counted as they are, and
neither its projection nor its order is compiled, so a query may be counted that cannot be built.
-/

namespace TypedQuery

namespace Select

variable {α : Type} {s : Select α}

/-!
## Tables and conditions
-/

/-- Whether joins compile does not depend on the query that they are appended to. -/
theorem exists_joinClauses_iff {query : Fragment} {slots : Nat}
    {clauses : List ((Slot × Table) × Expr)} :
    (exists result, s.joinClauses query slots clauses = .ok result) <->
      forall clause, clause ∈ clauses.zipIdx slots ->
        exists f, (s.compiler clause.2).compilePredicate clause.1.2 = .ok f := by
  induction clauses generalizing query slots with
  | nil => simp [joinClauses]
  | cons clause rest ih =>
      rcases clause with ⟨⟨slot, t⟩, on⟩
      rw [List.zipIdx_cons, List.forall_mem_cons, joinClauses, Result.exists_bind_iff]
      simp only [ih, exists_and_right]

theorem exists_filtered_iff {f : Fragment} {c : Compiler} {predicates : List Expr} :
    (exists g, f.filtered c predicates = .ok g) <->
      forall e, Expr.conjunction? predicates = some e ->
        exists g, c.compilePredicate e = .ok g := by
  unfold Fragment.filtered
  cases Expr.conjunction? predicates with
  | none => simp
  | some e =>
      dsimp only
      rw [Result.exists_bind_iff]
      constructor
      · rintro ⟨g, hg, -⟩ _ ⟨⟩
        exact ⟨g, hg⟩
      · intro h
        rcases h e rfl with ⟨g, hg⟩
        exact ⟨g, hg, _, rfl⟩

/-- The tables of a query and its conditions compile. -/
structure Restricts (s : Select α) : Prop where
  error : s.error = none
  tables : s.tables ≠ []
  joins : forall clause, clause ∈ (s.tables.tail.zip s.joins).zipIdx 2 ->
    exists f, (s.compiler clause.2).compilePredicate clause.1.2 = .ok f
  filters : forall e, Expr.conjunction? s.filters = some e ->
    exists f, (s.compiler s.tables.length).compilePredicate e = .ok f

theorem exists_clauses_iff (head : Fragment) :
    s.error = none ∧ (exists query, s.clauses head = .ok query) <-> s.Restricts := by
  unfold clauses
  cases htables : s.tables with
  | nil =>
      constructor
      · rintro ⟨-, query, h⟩
        cases h
      · intro h
        exact absurd htables h.tables
  | cons root rest =>
      dsimp only
      rw [Result.exists_bind_iff]
      constructor
      · rintro ⟨herror, joined, hjoined, hfiltered⟩
        refine ⟨herror, by simp [htables], ?_, ?_⟩
        · rw [htables]
          exact exists_joinClauses_iff.mp ⟨joined, hjoined⟩
        · rw [htables]
          exact exists_filtered_iff.mp hfiltered
      · rintro ⟨herror, -, hjoins, hfilters⟩
        rw [htables] at hjoins hfilters
        rcases exists_joinClauses_iff.mpr hjoins with ⟨joined, hjoined⟩
        exact ⟨herror, joined, hjoined, exists_filtered_iff.mpr hfilters⟩

/-!
## Projection and order
-/

def Declared (s : Select α) : Prop :=
  forall p, p ∈ s.projection -> exists n, p.Spans s.tables n

theorem declared_shapeParts {entries : List (String × ShapeEntry)}
    (h : (s.shapeParts entries).2.2 = none) {p : Projection}
    (hp : p ∈ (s.shapeParts entries).1) : exists n, p.Spans s.tables n := by
  rcases List.forall₂_iff_get.mp (spans_shapeParts h) with ⟨hlength, hspans⟩
  rcases List.mem_iff_getElem.mp hp with ⟨k, hk, rfl⟩
  exact ⟨_, hspans k hk (hlength ▸ hk)⟩

/-- Unless an error is kept, a chain projects columns of its own tables only. -/
theorem Chain.declared (c : Chain α) (herror : c.select.error = none) : c.select.Declared := by
  induction c with
  | ofModel m =>
      unfold select Select.ofModel at herror ⊢
      cases ht : m.table with
      | error e =>
          rw [ht] at herror
          cases herror
      | ok t =>
          intro p hp
          cases List.mem_singleton.mp hp
          exact ⟨_, .root t⟩
  | map c f ih => exact ih herror
  | clause c k ih =>
      rw [select, k.error_apply] at herror
      rw [Declared, select, k.tables_apply, k.projection_apply]
      exact ih herror
  | leftJoin c m on ih =>
      rcases exists_table_of_leftJoin herror with ⟨hnone, t, ht⟩
      rw [select, leftJoin_of_ok ht]
      intro p hp
      -- The parts so far keep their tables, for the slot of the joined one is not taken.
      rcases List.mem_append.mp hp with hold | hnew
      · rcases ih hnone p hold with ⟨n, hn⟩
        exact ⟨n, hn.append _⟩
      · cases List.mem_singleton.mp hnew
        exact ⟨_, .nullable (Scope.table_concat c.fresh_slot t)⟩
  | scalar c host e ih =>
      intro p hp
      cases List.mem_singleton.mp hp
      exact ⟨1, .expr e⟩
  | fields c es ih =>
      intro p hp
      rcases List.mem_map.mp hp with ⟨e, -, rfl⟩
      exact ⟨1, .expr e⟩
  | shape c entries ih =>
      rcases shapeParts_of_shape herror with ⟨-, hparts⟩
      rw [Declared, select, tables_shape, projection_shape]
      exact fun p => declared_shapeParts hparts

/-- The columns of a query and the expressions that it is ordered by compile. -/
structure Presents (s : Select α) : Prop where
  listed : exists p n, p ∈ s.projection ∧ p.Spans s.tables n ∧ n ≠ 0
  projection : forall e, .expr e ∈ s.projection ->
    exists f, (s.compiler s.tables.length).compile e = .ok f
  order : forall item, item ∈ s.orderBy ->
    exists f, (s.compiler s.tables.length).compile item.expr = .ok f

theorem exists_projected_iff {c : Compiler} {p : Projection} {n : Nat}
    (h : p.Spans c.scope.tables n) :
    (exists part, projected c p = .ok part) <->
      forall e, p = .expr e -> exists f, c.compile e = .ok f := by
  cases h with
  | columns ht =>
      refine ⟨fun _ e he => Projection.noConfusion he, fun _ => ?_⟩
      exact ⟨_, Result.bind_eq_ok.mpr ⟨_, ht, rfl⟩⟩
  | nullable ht =>
      refine ⟨fun _ e he => Projection.noConfusion he, fun _ => ?_⟩
      exact ⟨_, Result.bind_eq_ok.mpr ⟨_, ht, rfl⟩⟩
  | expr e =>
      constructor
      · rintro ⟨part, hpart⟩ _ ⟨⟩
        rcases Result.bind_eq_ok.mp hpart with ⟨f, hf, -⟩
        exact ⟨f, hf⟩
      · intro h
        rcases h e rfl with ⟨f, hf⟩
        exact ⟨_, Result.bind_eq_ok.mpr ⟨f, hf, rfl⟩⟩

theorem scope_compiler (s : Select α) : (s.compiler s.tables.length).scope.tables = s.tables :=
  List.take_length

theorem exists_parts_iff (h : s.Declared) :
    (exists parts, s.projection.mapM (projected (s.compiler s.tables.length)) = .ok parts) <->
      forall e, .expr e ∈ s.projection ->
        exists f, (s.compiler s.tables.length).compile e = .ok f := by
  rw [Result.exists_mapM_iff]
  have hspans : forall p, p ∈ s.projection ->
      exists n, p.Spans (s.compiler s.tables.length).scope.tables n := by
    rw [scope_compiler]
    exact h
  constructor
  · intro hall e he
    rcases hspans _ he with ⟨n, hn⟩
    exact (exists_projected_iff hn).mp (hall _ he) e rfl
  · intro hall p hp
    rcases hspans p hp with ⟨n, hn⟩
    exact (exists_projected_iff hn).mpr fun e he => hall e (he ▸ hp)

theorem flatMap_parts_ne_nil_iff (h : s.Declared)
    {parts : List (List Fragment × Option SqlType)}
    (hparts : s.projection.mapM (projected (s.compiler s.tables.length)) = .ok parts) :
    parts.flatMap (·.1) ≠ [] <-> exists p n, p ∈ s.projection ∧ p.Spans s.tables n ∧ n ≠ 0 := by
  constructor
  · intro hne
    rcases List.exists_mem_of_ne_nil _ hne with ⟨item, hitem⟩
    rcases List.mem_flatMap.mp hitem with ⟨⟨items, type⟩, hmem, hitem⟩
    rcases Result.exists_origin_of_mapM hparts hmem with ⟨p, hp, hpart⟩
    rcases h p hp with ⟨n, hn⟩
    have hlength := length_projected (s.scope_compiler.symm ▸ hn) hpart
    exact ⟨p, n, hp, hn, hlength ▸ Nat.ne_of_gt (List.length_pos_of_mem hitem)⟩
  · rintro ⟨p, n, hp, hspans, hn⟩ hnil
    rcases Result.exists_image_of_mapM hparts hp with ⟨⟨items, type⟩, hmem, hpart⟩
    have hlength : items.length = n := length_projected (s.scope_compiler.symm ▸ hspans) hpart
    have hempty : items = [] := List.flatMap_eq_nil_iff.mp hnil _ hmem
    rw [hempty] at hlength
    exact hn hlength.symm

theorem exists_orderItems_iff : (exists items, s.orderItems = .ok items) <->
    forall item, item ∈ s.orderBy ->
      exists f, (s.compiler s.tables.length).compile item.expr = .ok f := by
  rw [orderItems, Result.exists_mapM_iff]
  refine forall₂_congr fun item _ => ?_
  rw [Result.exists_bind_iff]
  constructor
  · rintro ⟨f, hf, -⟩
    exact ⟨f, hf⟩
  · rintro ⟨f, hf⟩
    exact ⟨f, hf, _, rfl⟩

/-!
## Building and counting
-/

theorem exists_body_iff : (exists body, s.body = .ok body) <-> s.Restricts ∧
    exists parts items, s.projection.mapM (projected (s.compiler s.tables.length)) = .ok parts ∧
      parts.flatMap (·.1) ≠ [] ∧ s.orderItems = .ok items := by
  constructor
  · rintro ⟨⟨query, single⟩, h⟩
    have herror := error_of_body h
    rcases Result.bind_eq_ok.mp h with ⟨_, -, h⟩
    rcases Result.bind_eq_ok.mp h with ⟨parts, hparts, h⟩
    dsimp only at h
    split at h
    · cases h
    · rename_i hitems
      rcases Result.bind_eq_ok.mp h with ⟨filtered, hclauses, h⟩
      rcases Result.bind_eq_ok.mp h with ⟨ordered, hordered, -⟩
      rw [ordered_eq] at hordered
      rcases Result.bind_eq_ok.mp hordered with ⟨items, horder, -⟩
      refine ⟨(exists_clauses_iff _).mp ⟨herror, filtered, hclauses⟩, parts, items, hparts, ?_,
        horder⟩
      rwa [List.isEmpty_iff] at hitems
  · rintro ⟨hrestricts, parts, items, hparts, hne, horder⟩
    have hcheck : s.check = .ok () := check_eq_ok_iff.mpr hrestricts.error
    have hitems : ¬ (parts.flatMap (·.1)).isEmpty := by rwa [List.isEmpty_iff]
    unfold body
    rw [hcheck, Result.ok_bind, hparts, Result.ok_bind]
    dsimp only
    rw [if_neg hitems]
    rcases ((exists_clauses_iff _).mpr hrestricts).2 with ⟨filtered, hclauses⟩
    refine Result.exists_bind_iff.mpr ⟨filtered, hclauses, ?_⟩
    rw [ordered_eq, horder]
    exact ⟨_, rfl⟩

theorem exists_body_iff_presents (h : s.error = none -> s.Declared) :
    (exists body, s.body = .ok body) <-> s.Restricts ∧ s.Presents := by
  rw [exists_body_iff]
  refine and_congr_right fun hrestricts => ?_
  have hdeclared := h hrestricts.error
  constructor
  · rintro ⟨parts, items, hparts, hne, horder⟩
    exact ⟨(flatMap_parts_ne_nil_iff hdeclared hparts).mp hne,
      (exists_parts_iff hdeclared).mp ⟨parts, hparts⟩, exists_orderItems_iff.mp ⟨items, horder⟩⟩
  · intro hpresents
    rcases (exists_parts_iff hdeclared).mpr hpresents.projection with ⟨parts, hparts⟩
    rcases exists_orderItems_iff.mpr hpresents.order with ⟨items, horder⟩
    exact ⟨parts, items, hparts, (flatMap_parts_ne_nil_iff hdeclared hparts).mpr hpresents.listed,
      horder⟩

theorem exists_build_iff :
    (exists statement, s.build = .ok statement) <-> exists body, s.body = .ok body := by
  unfold build
  rw [Result.exists_bind_iff]
  exact exists_congr fun body => and_iff_left ⟨_, rfl⟩

def derivesCount (s : Select α) : Bool := s.distinct || s.limit.isSome || s.offset.isSome

theorem exists_count_iff :
    (exists statement, s.count = .ok statement) <->
      if s.derivesCount then exists body, s.body = .ok body else s.Restricts := by
  unfold count derivesCount
  dsimp only
  split
  · constructor
    · rintro ⟨statement, h⟩
      rcases Result.bind_eq_ok.mp h with ⟨body, hbody, -⟩
      exact ⟨body, hbody⟩
    · rintro ⟨body, hbody⟩
      rw [hbody]
      exact ⟨_, rfl⟩
  · constructor
    · rintro ⟨statement, h⟩
      rcases Result.bind_eq_ok.mp h with ⟨_, hcheck, h⟩
      rcases Result.bind_eq_ok.mp h with ⟨query, hclauses, -⟩
      exact (exists_clauses_iff _).mp ⟨check_eq_ok_iff.mp hcheck, query, hclauses⟩
    · intro hrestricts
      have hcheck : s.check = .ok () := check_eq_ok_iff.mpr hrestricts.error
      rcases ((exists_clauses_iff _).mpr hrestricts).2 with ⟨query, hclauses⟩
      rw [hcheck, Result.ok_bind, hclauses]
      exact ⟨_, rfl⟩

/-- A query is built when its tables, its conditions, its columns and its order compile.  It is
counted when it is built, or when its tables and conditions compile and no derived table is made of
it. -/
theorem Chain.count_fails_with_build_iff (c : Chain α) :
    ((exists statement, c.select.build = .ok statement) <->
      c.select.Restricts ∧ c.select.Presents) ∧
    ((exists statement, c.select.count = .ok statement) <->
      c.select.Restricts ∧ (c.select.derivesCount -> c.select.Presents)) ∧
    (((exists e, c.select.count = .error e) <-> exists e, c.select.build = .error e) <->
      c.select.derivesCount ∨ ¬ c.select.Restricts ∨ c.select.Presents) := by
  have hbuild : (exists statement, c.select.build = .ok statement) <->
      c.select.Restricts ∧ c.select.Presents :=
    exists_build_iff.trans (exists_body_iff_presents c.declared)
  have hcount : (exists statement, c.select.count = .ok statement) <->
      c.select.Restricts ∧ (c.select.derivesCount -> c.select.Presents) := by
    rw [exists_count_iff, exists_body_iff_presents c.declared]
    cases c.select.derivesCount <;> simp
  refine ⟨hbuild, hcount, ?_⟩
  rw [Result.exists_error_iff, Result.exists_error_iff, hbuild, hcount]
  by_cases hrestricts : c.select.Restricts
  · by_cases hpresents : c.select.Presents
    · simp [hrestricts, hpresents]
    · simp [hrestricts, hpresents]
  · simp [hrestricts]

namespace Chain

def reviewLikes : Chain Int64 :=
  (ofModel review).scalar (.host (.base .int64)) (.col "likes")

def reviewsByLikes : Chain Instance :=
  (ofModel review).clause (.order ⟨.col "likes", .ascending⟩)

def reviewsOfNothing : Chain Row := (ofModel review).fields []

def countedText (c : Chain α) : Result String := c.select.count.map (·.query.renderSimple)

/-- Queries that cannot be built for their columns or their order, and are counted. -/
theorem reviews_counted_unbuilt :
    (reviewLikes.select.build = .error (.mapping (.noColumn "Review" "likes")) ∧
      reviewLikes.countedText = .ok "SELECT COUNT(*) FROM \"review\"") ∧
    (reviewsByLikes.select.build = .error (.mapping (.noColumn "Review" "likes")) ∧
      reviewsByLikes.countedText = .ok "SELECT COUNT(*) FROM \"review\"") ∧
    (reviewsOfNothing.select.build = .error (.compile .nothingToProject) ∧
      reviewsOfNothing.countedText = .ok "SELECT COUNT(*) FROM \"review\"") := by
  refine ⟨⟨rfl, ?_⟩, ⟨rfl, ?_⟩, ⟨rfl, ?_⟩⟩ <;> decide +kernel

end Chain
end Select
end TypedQuery
