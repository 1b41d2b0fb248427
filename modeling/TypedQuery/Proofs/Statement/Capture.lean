import TypedQuery.Proofs.Statement.Helped
import TypedQuery.Proofs.Statement.Where

/-!
# References that helpers capture

The SET list of an update holds the pending expressions one after the other.  A reference to a
column of the updated table is captured exactly where the elements of a query around it have a
column of the same name.
-/

namespace TypedQuery

open Server

/-!
## SET lists
-/

namespace Situation

variable {s : Situation} {r : Rendered} {regions : List Region} {levels : List (List Relation)}
  {found : List Lookup}

theorem finds_assignment {f : Fragment} {ms : List Mention} (hf : s.Finds f ms) (name : String) :
    s.Finds ((Fragment.empty.text (Text.quoteIdent name ++ " = ")).nested f) ms := by
  intro r levels regions hreaches
  have hname : Reaches s.conforming s.outer
      (s.write r [.text (Text.quoteIdent name ++ " = ")]).sql.toList
        (⟨levels, .expression⟩ :: regions) := by
    rw [toList_write_text, String.toList_append, <- List.append_assoc]
    exact (hreaches.quoteIdent name).text rfl (by cases s.conforming <;> rfl)
  have hopened : s.Opened r [.text (Text.quoteIdent name ++ " = ")]
      (⟨levels, .expression⟩ :: regions) [] :=
    ⟨hname, lookups_text s r _⟩
  have hpassed := hopened.nested hf
  exact ⟨hpassed.passes, hpassed.lookups⟩

theorem Opened.joined {f : Fragment}
    (h : s.Opened r f.parts (⟨levels, .expression⟩ :: regions) found)
    {items : List (Fragment × List Mention)} (hne : items ≠ [])
    (hitems : forall item, item ∈ items -> s.Finds item.1 item.2) :
    s.Passed r (f.joined (items.map (·.1)) ", ").parts (⟨levels, .expression⟩ :: regions)
      (found ++ (items.flatMap (·.2)).map (·.lookup levels)) := by
  have hrest : forall (rest : List (Fragment × List Mention)) (g : Fragment)
      (before : List Lookup), (forall item, item ∈ rest -> s.Finds item.1 item.2) ->
      Part.Closed g.parts ->
      s.Passed r g.parts (⟨levels, .expression⟩ :: regions) before ->
        s.Passed r
          ((rest.map (·.1)).foldl (fun f item => (f.text ", ").nested item) g).parts
          (⟨levels, .expression⟩ :: regions)
          (before ++ (rest.flatMap (·.2)).map (·.lookup levels)) := by
    intro rest
    induction rest with
    | nil =>
        intro g before _ _ hg
        simpa using hg
    | cons item more ih =>
        intro g before hitems hclosed hg
        rw [List.map_cons, List.foldl_cons, List.flatMap_cons, List.map_append,
          <- List.append_assoc]
        refine ih _ _ (fun item hitem => hitems item (List.mem_cons_of_mem _ hitem))
          (Fragment.closed_nested _ _) ?_
        have hcomma := hg.text ", " (⟨levels, .expression⟩ :: regions) rfl
          (by cases s.conforming <;> rfl)
        rw [Fragment.parts_nested, parts_text hclosed]
        exact hcomma.nested (hitems item List.mem_cons_self)
  cases items with
  | nil => exact absurd rfl hne
  | cons item rest =>
      rw [List.flatMap_cons, List.map_append, <- List.append_assoc]
      refine hrest rest _ _ (fun item hitem => hitems item (List.mem_cons_of_mem _ hitem))
        (Fragment.closed_nested _ _) ?_
      rw [Fragment.parts_nested]
      exact h.nested (hitems item List.mem_cons_self)

theorem passed_update (hreaches : Reaches s.conforming s.outer r.sql.toList
      (⟨levels, .expression⟩ :: regions))
    {t : Table} (halias : s.scopes.tableAlias? .root = none)
    (items : List (Fragment × List Mention)) (hne : items ≠ [])
    (hitems : forall item, item ∈ items -> s.Finds item.1 item.2) :
    s.Passed r ((((Fragment.empty.text "UPDATE ").table .root t).text " SET ").joined
        (items.map (·.1)) ", ").parts (⟨levels, .expression⟩ :: regions)
      ((items.flatMap (·.2)).map (·.lookup levels)) := by
  let here : Region := ⟨levels, .expression⟩
  have hstart : s.Opened r [] (here :: regions) [] := opened_nil hreaches
  have hupdate := hstart.text "UPDATE " (here :: regions) (by cases s.conforming <;> rfl)
  have htable := hupdate.table halias t
  have hset := htable.text " SET " (here :: regions) rfl (by cases s.conforming <;> rfl)
  exact Opened.joined (f := ((Fragment.empty.text "UPDATE ").table .root t).text " SET ") hset hne
    hitems

end Situation

namespace Update

def setItem (t : Table) (entry : Nat × TypedFragment) : Fragment :=
  (Fragment.empty.text ((match t.columns[entry.1]? with
    | some c => c.quoted
    | none => "") ++ " = ")).nested entry.2.query

def mentionsOf (u : Update) (t : Table) (helpers : List Helper) (index : Nat) : List Mention :=
  match t.columns[index]? with
  | some column => u.mentions index column helpers
  | none => []

/-- What the SET list mentions after helper calls, in the order of its text. -/
def mentioned (u : Update) (t : Table) (helpers : List Helper) : List Mention :=
  (u.helped helpers).assignments.flatMap fun entry => u.mentionsOf t helpers entry.1

section

variable {u : Update} {t : Table} {helpers : List Helper} (ht : u.table = .ok t)
  (hcalls : u.calls = .builtin) (hfresh : u.assignments = [])
  (hplain : forall h, h ∈ helpers -> h.value.isPlain = true)
  (hsuccess : (u.helped helpers).error = none)

include ht hcalls hfresh hplain hsuccess

theorem has_mentioned : t.Has (u.mentioned t helpers) := by
  intro m hm
  rcases List.mem_flatMap.mp hm with ⟨⟨index, f⟩, -, hm⟩
  dsimp only [mentionsOf] at hm
  split at hm
  · rename_i column hcolumn
    exact ((helped_finds ht hcalls hfresh hplain hsuccess).2 index column hcolumn).1 m hm
  · exact absurd hm List.not_mem_nil

theorem finds_set {mode : RenderMode} (hmode : mode ≠ .bound .atSign) (conforming : Bool)
    {entry : Nat × TypedFragment} (hentry : entry ∈ (u.helped helpers).assignments) :
    (t.situation mode conforming).Finds (setItem t entry) (u.mentionsOf t helpers entry.1) := by
  rcases helped_finds ht hcalls hfresh hplain hsuccess with
    ⟨⟨assignments, hrun, hdistinct, hcolumns⟩, hfinds⟩
  have hsame : (u.helped helpers).assignments = assignments := by rw [hrun]
  rw [<- hsame] at hdistinct hcolumns
  rcases hcolumns entry.1 (List.mem_map_of_mem hentry) with ⟨column, hcolumn⟩
  have hpending := (pending?_eq_some_iff hdistinct).mpr hentry
  have hcurrent : (u.helped helpers).current entry.1 column = entry.2 := by
    rw [current, hpending, Option.getD_some]
  have hvalue := (hfinds entry.1 column hcolumn).2 mode conforming hmode
  rw [hcurrent] at hvalue
  rw [setItem, mentionsOf, hcolumn]
  exact Situation.finds_assignment hvalue column.name

theorem passed_leading (hne : (u.helped helpers).assignments ≠ []) {mode : RenderMode}
    (hmode : mode ≠ .bound .atSign) (conforming : Bool) :
    (t.situation mode conforming).Passed {} ((u.helped helpers).leading t).parts
      [⟨[[t.relation none]], .expression⟩]
      ((u.mentioned t helpers).map (·.lookup [[t.relation none]])) := by
  have halias : t.ownScopes.tableAlias? .root = none := by
    simp [Table.ownScopes, Scopes.tableAlias?, Scopes.binding?, AliasMap.single, AliasMap.bind,
      AliasMap.empty, AliasMap.binding?, Binding.written?]
  have hreaches : Reaches conforming [t.relation none] "".toList
      [⟨[[t.relation none]], .expression⟩] := by
    rw [String.toList_empty]
    exact reaches_nil conforming [t.relation none]
  have h := Situation.passed_update (s := t.situation mode conforming) (r := {}) (t := t) hreaches
    halias ((u.helped helpers).assignments.map fun entry =>
      (setItem t entry, u.mentionsOf t helpers entry.1)) (by simpa using hne) ?_
  · rw [List.map_map, List.flatMap_map] at h
    exact h
  · intro item hitem
    rcases List.mem_map.mp hitem with ⟨entry, hentry, rfl⟩
    exact finds_set ht hcalls hfresh hplain hsuccess hmode conforming hentry

end

end Update

/-!
## Captured references
-/

/-- A query around the reference has a column of the same name. -/
def Mention.Captured (m : Mention) : Prop :=
  exists relation, relation ∈ m.around ∧ m.column ∈ relation.columns

/-- The search for the reference ends at the FROM list that has the table alone, at the column of
this name. -/
def Lookup.Denotes (l : Lookup) (t : Table) : Prop :=
  exists inner j, l.levels? = some (inner ++ [[t.relation none]]) ∧
    l.reference.level? (inner ++ [[t.relation none]]) = some inner.length ∧
      l.reference.resolve? [t.relation none] = some (0, j) ∧
        (t.columns[j]?).map (·.name) = some l.reference.column

/-- A reference to a column of the table is found there unless it is captured. -/
theorem Mention.denotes_iff {m : Mention} {t : Table} (hvalid : t.validate = .ok ())
    (hcolumn : m.column ∈ t.columns.map (·.name)) :
    (m.lookup [[t.relation none]]).Denotes t <-> ¬m.Captured := by
  have htaken : forall relation : Relation,
      (m.lookup [[t.relation none]]).reference.isTakenBy [relation] =
        relation.columns.contains m.column := by
    intro relation
    rw [Reference.isTakenBy]
    exact Bool.or_false _
  constructor
  · rintro ⟨inner, j, hlevels, hlevel, -⟩ ⟨relation, hrelation, hmem⟩
    have hinner : m.around.map ([·]) = inner :=
      List.append_cancel_right (Option.some.inj hlevels)
    have haround : [relation] ∈ inner := hinner ▸ List.mem_map_of_mem hrelation
    rcases List.mem_iff_getElem.mp haround with ⟨k, hk, hget⟩
    rcases List.findIdx?_eq_some_iff_getElem.mp hlevel with ⟨_, -, hbefore⟩
    have hfree := hbefore k hk
    rw [List.getElem_append_left hk, hget, htaken] at hfree
    exact hfree (List.contains_iff_mem.mpr hmem)
  · intro hfree
    rcases List.mem_iff_getElem?.mp hcolumn with ⟨j, hj⟩
    refine ⟨m.around.map ([·]), j, rfl, ?_, ?_, ?_⟩
    · refine Reference.level?_append ?_ ?_
      · intro level hlevel
        rcases List.mem_map.mp hlevel with ⟨relation, hrelation, rfl⟩
        rw [htaken, Bool.eq_false_iff]
        intro hcontains
        exact hfree ⟨relation, hrelation, List.contains_iff_mem.mp hcontains⟩
      · rw [htaken]
        exact List.contains_iff_mem.mpr hcolumn
    · refine (Reference.resolve?_eq_iff (r := t.relation none) rfl rfl
        (t.names_nodup_of_validate hvalid) hj).mpr ?_
      intro k r hr _ _
      cases k with
      | zero => rfl
      | succ k => cases hr
    · rw [<- List.getElem?_map]
      exact hj

/-- In a query over a list the column `e` is captured, in one over a JSON array the column
`value`. -/
theorem Table.Has.captured_iff {t : Table} {ms : List Mention} (h : t.Has ms) {m : Mention}
    (hm : m ∈ ms) :
    m.Captured <-> (m.column = "e" ∧ listElements ∈ m.around) ∨
      (m.column = "value" ∧ jsonElements ∈ m.around) := by
  constructor
  · rintro ⟨relation, hrelation, hcolumn⟩
    rcases (h m hm).2 relation hrelation with rfl | rfl
    · exact .inl ⟨List.mem_singleton.mp hcolumn, hrelation⟩
    · exact .inr ⟨List.mem_singleton.mp hcolumn, hrelation⟩
  · rintro (⟨hcolumn, hrelation⟩ | ⟨hcolumn, hrelation⟩)
    · exact ⟨listElements, hrelation, List.mem_singleton.mpr hcolumn⟩
    · exact ⟨jsonElements, hrelation, List.mem_singleton.mpr hcolumn⟩

namespace Update

theorem error_of_build {u : Update} {statement : Statement Nat} (h : u.build = .ok statement) :
    u.error = none := by
  cases herror : u.error with
  | none => rfl
  | some e =>
      unfold build at h
      rw [herror] at h
      cases h

theorem exists_behind_leading {u : Update} {t : Table} (ht : u.table = .ok t)
    {statement : Statement Nat} (h : u.build = .ok statement) :
    u.assignments ≠ [] ∧ exists rest, statement.query.parts =
      [.frame (.single .root t) true ((u.leading t).parts ++ rest)] := by
  have herror := error_of_build h
  have hassigned : u.assignments ≠ [] := by
    intro hnone
    unfold build at h
    rw [herror, ht, hnone] at h
    cases h
  refine ⟨hassigned, ?_⟩
  rw [build_of_table ht herror hassigned] at h
  cases hclause : Fragment.empty.filtered (u.compiler t) u.filters with
  | ok clause =>
      rw [hclause] at h
      cases h
      exact ⟨clause.parts, rfl⟩
  | error e =>
      rw [hclause] at h
      cases h

/-- The references to columns of the table in the SET list stand as the calls mention them. -/
theorem lookups_of_build {u : Update} {t : Table} (ht : u.table = .ok t)
    (hcalls : u.calls = .builtin) (hfresh : u.assignments = []) {helpers : List Helper}
    (hplain : forall h, h ∈ helpers -> h.value.isPlain = true) {statement : Statement Nat}
    (hbuild : (u.helped helpers).build = .ok statement) {mode : RenderMode}
    (hmode : mode ≠ .bound .atSign) (conforming : Bool) :
    (u.mentioned t helpers).map (·.lookup [[t.relation none]]) <+:
      statement.query.lookups ⟨mode, {}, conforming, [t.relation none]⟩ := by
  have hsuccess := error_of_build hbuild
  have htable : (u.helped helpers).table = .ok t := by
    rcases (helped_finds ht hcalls hfresh hplain hsuccess).1 with ⟨assignments, hrun, -⟩
    rw [hrun, ht]
  rcases exists_behind_leading htable hbuild with ⟨hne, rest, hparts⟩
  have hleading := passed_leading ht hcalls hfresh hplain hsuccess hne hmode conforming
  rw [Fragment.lookups, hparts, Situation.lookups_frame]
  refine ⟨(t.situation mode conforming).lookups
    ((t.situation mode conforming).write {} ((u.helped helpers).leading t).parts) rest, ?_⟩
  rw [<- hleading.lookups]
  exact (Situation.lookups_append _ _ _ _).symm

/-- Of the references to columns of the table in the SET list, those and only those go astray that
name `e` in a query over a list, or `value` in a query over a JSON array. -/
theorem helped_references_denote_iff {u : Update} {t : Table} (ht : u.table = .ok t)
    (hvalid : t.validate = .ok ()) (hcalls : u.calls = .builtin) (hfresh : u.assignments = [])
    {helpers : List Helper} (hplain : forall h, h ∈ helpers -> h.value.isPlain = true)
    {statement : Statement Nat} (hbuild : (u.helped helpers).build = .ok statement)
    {mode : RenderMode} (hmode : mode ≠ .bound .atSign) (conforming : Bool) :
    (u.mentioned t helpers).map (·.lookup [[t.relation none]]) <+:
        statement.query.lookups ⟨mode, {}, conforming, [t.relation none]⟩ ∧
      forall m, m ∈ u.mentioned t helpers ->
        ((m.lookup [[t.relation none]]).Denotes t <->
          ¬((m.column = "e" ∧ listElements ∈ m.around) ∨
            (m.column = "value" ∧ jsonElements ∈ m.around))) := by
  refine ⟨lookups_of_build ht hcalls hfresh hplain hbuild hmode conforming, ?_⟩
  intro m hm
  have hhas := has_mentioned ht hcalls hfresh hplain (error_of_build hbuild)
  rw [<- hhas.captured_iff hm]
  exact Mention.denotes_iff hvalid (hhas m hm).1

/-!
A shelf with columns that have the names which queries of helpers give to their elements.
-/

def shelfColumn (name : String) : Expr := .field [.column name]

def shelfTable : Table where
  model := "Shelf"
  name := "shelf"
  schema := some "app"
  columns := [{ field := "tags", name := "tags", type := .array .text },
    { field := "e", name := "e", type := .array .text },
    { field := "data", name := "data", type := .json none },
    { field := "value", name := "value", type := .integer }]

def shelf : Update := { table := .ok shelfTable }

def shelfCalls : List Helper := [.list .addDistinct "tags" (shelfColumn "e")]

/-- The argument of `unnest` is looked up outside of the query. -/
theorem shelf_references_denoted :
    exists statement, (shelf.helped shelfCalls).build = .ok statement ∧
      shelf.mentioned shelfTable shelfCalls =
        [⟨"tags", []⟩, ⟨"e", []⟩, ⟨"tags", [listElements]⟩] ∧
      forall m, m ∈ shelf.mentioned shelfTable shelfCalls ->
        m.lookup [[shelfTable.relation none]] ∈
            statement.query.lookups ⟨.simple, {}, true, [shelfTable.relation none]⟩ ∧
          (m.lookup [[shelfTable.relation none]]).Denotes shelfTable := by
  refine ⟨_, rfl, rfl, ?_⟩
  have hplain : forall h, h ∈ shelfCalls -> h.value.isPlain = true := by
    intro h hh
    rw [List.mem_singleton.mp hh]
    rfl
  have hmode : RenderMode.simple ≠ .bound .atSign := nofun
  rcases helped_references_denote_iff (u := shelf) (t := shelfTable) rfl rfl rfl rfl hplain rfl
    hmode true with ⟨hlookups, hdenotes⟩
  intro m hm
  refine ⟨hlookups.subset (List.mem_map_of_mem hm), (hdenotes m hm).mpr ?_⟩
  have hmentions : m ∈ [⟨"tags", []⟩, ⟨"e", []⟩, ⟨"tags", [listElements]⟩] := hm
  simp only [List.mem_cons, List.not_mem_nil, or_false] at hmentions
  rcases hmentions with rfl | rfl | rfl <;> decide

/-- The statement after helper calls has a reference that does not denote the column. -/
def Captures (u : Update) (t : Table) (helpers : List Helper) : Prop :=
  exists statement l, (u.helped helpers).build = .ok statement ∧
    l ∈ statement.query.lookups ⟨.simple, {}, true, [t.relation none]⟩ ∧ ¬l.Denotes t

theorem shelf_references_captured :
    shelf.Captures shelfTable [.list .removeAll "tags" (shelfColumn "e")] ∧
      shelf.Captures shelfTable
        [.list .addDistinct "e" (.constant ⟨.array [.text "x"], .array .text⟩)] ∧
      shelf.Captures shelfTable
        [.json .removeValue (shelfColumn "data") (shelfColumn "value")] := by
  have hcaptured : forall (h : Helper) (m : Mention) (statement : Statement Nat),
      h.value.isPlain = true -> (shelf.helped [h]).build = .ok statement ->
      m ∈ shelf.mentioned shelfTable [h] -> m.column ∈ shelfTable.columns.map (·.name) ->
      m.Captured -> shelf.Captures shelfTable [h] := by
    intro h m statement hplain hbuild hm hcolumn hcaptured
    have hmode : RenderMode.simple ≠ .bound .atSign := nofun
    have hlookups := lookups_of_build (u := shelf) (t := shelfTable) rfl rfl rfl
      (fun h' hh => List.mem_singleton.mp hh ▸ hplain) hbuild hmode true
    exact ⟨statement, _, hbuild, hlookups.subset (List.mem_map_of_mem hm),
      fun hdenotes => (Mention.denotes_iff rfl hcolumn).mp hdenotes hcaptured⟩
  refine ⟨?_, ?_, ?_⟩
  · exact hcaptured _ ⟨"e", [listElements]⟩ _ rfl rfl (List.mem_of_getElem? (i := 1) rfl)
      (by decide) ⟨listElements, by decide, by decide⟩
  · exact hcaptured _ ⟨"e", [listElements]⟩ _ rfl rfl (List.mem_of_getElem? (i := 1) rfl)
      (by decide) ⟨listElements, by decide, by decide⟩
  · exact hcaptured _ ⟨"value", [jsonElements]⟩ _ rfl rfl (List.mem_of_getElem? (i := 1) rfl)
      (by decide) ⟨jsonElements, by decide, by decide⟩

end Update
end TypedQuery
