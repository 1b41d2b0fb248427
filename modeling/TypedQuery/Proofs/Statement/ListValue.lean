import TypedQuery.Proofs.Statement.Capture
import TypedQuery.Proofs.Statement.Outcome

/-!
# Arrays that list helpers change

A column of one-dimensional arrays holds an array or NULL.  What it holds after a list helper
follows from what was pending for it: values are removed one by one by a function of the server,
and together or when they are added by a condition on every element, whose truth may be unknown.
-/

namespace TypedQuery

open Server

def Value.ofList : Option (List Value) -> Value
  | some items => .array items
  | none => .null

namespace Value

variable {clock : Clock} {a b : Value}

theorem fits_array {t : SqlType} {items : List Value}
    (h : forall v, v ∈ items -> v.fits t = true) : (array items).fits (.array t) = true := by
  rw [fits]
  induction items with
  | nil => rfl
  | cons v rest ih =>
      rcases List.forall_mem_cons.mp h with ⟨hv, hrest⟩
      rw [allFit, hv, ih hrest]
      rfl

theorem equalTo_eq_false_iff :
    a.equalTo clock b = some false <->
      a.indistinct clock b = false ∧ a.isNull = false ∧ b.isNull = false := by
  rw [equalTo, indistinct]
  cases a.isNull <;> cases b.isNull <;> simp

end Value

/-- A column of one-dimensional arrays, and a name that leads to it. -/
structure ListColumn (t : Table) where
  name : String
  index : Nat
  column : Column
  item : SqlType
  found : t.findColumn? name = some (index, column)
  type_eq : column.type = .array item
  isArray_item : item.isArray = false
  item_ne_null : item ≠ .null

def ListHelper.valueType (h : ListHelper) (item : SqlType) : SqlType :=
  match h with
  | remove => item
  | _ => .array item

namespace ListColumn

variable {t : Table} (l : ListColumn t) {u : Update}

def change (h : ListHelper) (v : Value) (u : Update) : Update :=
  (h.assignment (.constant ⟨v, h.valueType l.item⟩)).apply u l.name

def itemType : ServerType := l.item.onServer

theorem onServer_type : l.column.type.onServer = .array l.itemType := by
  have hitem := SqlType.isArray_onServer l.isArray_item
  rw [l.type_eq, SqlType.onServer, itemType]
  cases hserver : l.item.onServer with
  | array inner =>
      rw [hserver] at hitem
      cases hitem
  | _ => rfl

theorem change_eq (herror : u.error = none) (ht : u.table = .ok t) (h : ListHelper) {v : Value}
    (hfits : v.fits (h.valueType l.item) = true) :
    l.change h v u = u.withPending l.index
      ((h.assignment (.constant ⟨v, h.valueType l.item⟩)).written l.column.type
        (u.current l.index l.column) (.ofValue ⟨v, h.valueType l.item⟩)) := by
  have htarget : (h.assignment (.constant ⟨v, h.valueType l.item⟩)).target? l.column.type =
      some (h.valueType l.item) := by
    rw [l.type_eq]
    cases h <;> rfl
  have hvalue : (h.assignment (.constant ⟨v, h.valueType l.item⟩)).value
      (u.current l.index l.column) = .constant ⟨v, h.valueType l.item⟩ := by
    cases h <;> rfl
  have hcompiled := (u.compiler t).compileAs_constant (v := ⟨v, h.valueType l.item⟩) hfits
  rw [change, Assignment.apply_eq_modify, Update.modify_eq herror ht l.found, Assignment.make,
    htarget]
  dsimp only
  rw [hvalue, hcompiled]
  rfl

variable {engine : Engine} {columns : Columns}

theorem holds_change {before after v : Value} (h : ListHelper)
    (hu : u.Holds engine t columns l.index l.column before)
    (hfits : v.fits (h.valueType l.item) = true)
    (hvalue : forall tree,
      tree.denote engine (Bootstrap.routines engine) columns (.array l.itemType) = some before ->
        (h.tree tree (Typed.tree ⟨v, h.valueType l.item⟩)).denote engine
          (Bootstrap.routines engine) columns (.array l.itemType) = some after) :
    (l.change h v u).Holds engine t columns l.index l.column after := by
  rcases hu with ⟨herror, ht, tree, hreads, hbefore⟩
  rw [l.onServer_type] at hbefore
  rw [l.change_eq herror ht h hfits]
  refine ⟨herror, ht, h.tree tree (Typed.tree ⟨v, h.valueType l.item⟩), fun env => ?_, ?_⟩
  · rw [Update.current_withPending_self]
    exact (Reader.yields_listHelper h _ _ (hreads env) (Reader.yields_value _)).yields
  · rw [l.onServer_type]
    exact hvalue tree hbefore

/-!
## Removing one by one
-/

def removeEach (values : List Value) (u : Update) : Update :=
  values.foldl (fun u v => u.removeFromList l.name (.constant ⟨v, l.item⟩)) u

/-- The values are read back as items of the column. -/
def ReadsBack (engine : Engine) (values : List Value) : Prop :=
  forall v, v ∈ values -> ReadBack engine.input l.item v

theorem holds_remove {list : Option (List Value)}
    (hu : u.Holds engine t columns l.index l.column (.ofList list)) {v : Value}
    (hv : ReadBack engine.input l.item v) :
    (l.change .remove v u).Holds engine t columns l.index l.column
      (.ofList (list.map (List.filter fun x => !x.indistinct engine.clock v))) := by
  refine l.holds_change .remove hu hv.fits fun tree htree => ?_
  have hremoved : Tree.denote engine (Bootstrap.routines engine) (Typed.tree ⟨v, l.item⟩) columns
      l.itemType = some v := Tree.denote_constant l.isArray_item l.item_ne_null hv
  refine (Tree.denote_call rfl rfl (Tree.evaluated?_cons htree
    (Tree.evaluated?_cons hremoved Tree.evaluated?_nil))).trans ?_
  cases list <;> rfl

theorem holds_removeEach {list : Option (List Value)}
    (hu : u.Holds engine t columns l.index l.column (.ofList list)) {values : List Value}
    (hvalues : l.ReadsBack engine values) :
    (l.removeEach values u).Holds engine t columns l.index l.column
      (.ofList (list.map (List.filter fun x =>
        values.all fun v => !x.indistinct engine.clock v))) := by
  induction values generalizing u list with
  | nil =>
      have hall : list.map (List.filter fun x =>
          ([] : List Value).all fun v => !x.indistinct engine.clock v) = list := by
        cases list <;> simp
      rw [hall]
      exact hu
  | cons v rest ih =>
      rcases List.forall_mem_cons.mp hvalues with ⟨hv, hrest⟩
      have hnext := ih (l.holds_remove hu hv) hrest
      have hfilter : list.map (List.filter fun x =>
          (v :: rest).all fun v => !x.indistinct engine.clock v) =
            (list.map (List.filter fun x => !x.indistinct engine.clock v)).map
              (List.filter fun x => rest.all fun v => !x.indistinct engine.clock v) := by
        cases list <;> simp [List.filter_filter, Bool.and_comm]
      rw [hfilter]
      exact hnext

/-!
## Removing together
-/

theorem holds_removeAll {list : Option (List Value)}
    (hu : u.Holds engine t columns l.index l.column (.ofList list)) {values : List Value}
    (hvalues : l.ReadsBack engine values) :
    (l.change .removeAll (.array values) u).Holds engine t columns l.index l.column
      (.array ((list.getD []).filter fun x =>
        values.all fun v => decide (x.equalTo engine.clock v = some false))) := by
  have hfits : (Value.array values).fits (.array l.item) = true :=
    Value.fits_array fun v hv => (hvalues v hv).fits
  refine l.holds_change .removeAll hu hfits fun tree htree => ?_
  have hremoved : forall columns, Tree.denote engine (Bootstrap.routines engine)
      (Typed.tree ⟨.array values, .array l.item⟩) columns (.array l.itemType) =
        some (.array values) := fun _ =>
    Tree.denote_list l.isArray_item l.item_ne_null hvalues
  have hcondition : forall x, Tree.denote engine (Bootstrap.routines engine)
      (.quantified "<>" true (.column none "e") (Typed.tree ⟨.array values, .array l.item⟩))
        (columns.bind "e" l.itemType x) .boolean =
          some (Truth.all (values.map fun v => (x.equalTo engine.clock v).not)).value := by
    intro x
    exact Tree.denote_quantified "<>" true rfl (Tree.type?_bound "e" l.itemType x)
      (Tree.denote_bound "e" l.itemType x) (hremoved _)
  have helements : ElementQuery.list.elements? (.ofList list) = some (list.getD []) := by
    cases list <;> rfl
  have htruth : forall x : Value, Truth.all (values.map fun v => (x.equalTo engine.clock v).not) =
      some true <->
        (values.all fun v => decide (x.equalTo engine.clock v = some false)) = true := by
    intro x
    rw [Truth.all_eq_true_iff, List.forall_mem_map, List.all_eq_true]
    simp only [Truth.not_eq_true_iff, decide_eq_true_eq]
  rw [ListHelper.tree, Tree.denote_query]
  refine (ElementQuery.value?_list htree helements hcondition).trans ?_
  simp only [htruth, Bool.decide_eq_true]

/-- What differs from all values is distinct from them; the converse fails for NULL. -/
theorem filter_eq_iff (clock : Clock) (items values : List Value) :
    (items.filter fun x => values.all fun v => decide (x.equalTo clock v = some false)) =
        items.filter (fun x => values.all fun v => !x.indistinct clock v) <->
      forall x, x ∈ items -> (forall v, v ∈ values -> x.indistinct clock v = false) ->
        forall v, v ∈ values -> x.isNull = false ∧ v.isNull = false := by
  constructor
  · intro heq x hx hdistinct v hv
    have hkept : x ∈ items.filter (fun x => values.all fun v => !x.indistinct clock v) :=
      List.mem_filter.mpr ⟨hx, by simpa using hdistinct⟩
    rw [<- heq] at hkept
    have hknown := List.all_eq_true.mp (List.mem_filter.mp hkept).2 v hv
    exact (Value.equalTo_eq_false_iff.mp (of_decide_eq_true hknown)).2
  · intro h
    refine List.filter_congr fun x hx => ?_
    rw [Bool.eq_iff_iff, List.all_eq_true, List.all_eq_true]
    constructor
    · intro hknown v hv
      rw [(Value.equalTo_eq_false_iff.mp (of_decide_eq_true (hknown v hv))).1]
      rfl
    · intro hdistinct v hv
      have hall : forall v, v ∈ values -> x.indistinct clock v = false := fun v hv => by
        simpa using hdistinct v hv
      exact decide_eq_true (Value.equalTo_eq_false_iff.mpr ⟨hall v hv, h x hx hall v hv⟩)

/-- Values are removed together as they are removed one by one exactly when the column is not NULL
and, if an element stays that is distinct from all values, neither it nor a value is NULL. -/
theorem removed_together_iff (engine : Engine) {u : Update} {t : Table} (l : ListColumn t)
    {columns : Columns} {list : Option (List Value)}
    (hu : u.Holds engine t columns l.index l.column (.ofList list)) {values : List Value}
    (hvalues : l.ReadsBack engine values) {mode : RenderMode} (hmode : mode ≠ .bound .atSign) :
    let together := u.removeAllFromList l.name (.constant ⟨.array values, .array l.item⟩)
    let oneByOne := l.removeEach values u
    together.after? engine t mode columns l.index l.column =
        some (.array ((list.getD []).filter fun x =>
          values.all fun v => decide (x.equalTo engine.clock v = some false))) ∧
      oneByOne.after? engine t mode columns l.index l.column =
        some (.ofList (list.map (List.filter fun x =>
          values.all fun v => !x.indistinct engine.clock v))) ∧
      (together.after? engine t mode columns l.index l.column =
          oneByOne.after? engine t mode columns l.index l.column <->
        exists items, list = some items ∧
          forall x, x ∈ items ->
            (forall v, v ∈ values -> x.indistinct engine.clock v = false) ->
              forall v, v ∈ values -> x.isNull = false ∧ v.isNull = false) := by
  intro together oneByOne
  have htogether : together.after? engine t mode columns l.index l.column = _ :=
    (l.holds_removeAll hu hvalues).after?_eq hmode
  have heach : oneByOne.after? engine t mode columns l.index l.column = _ :=
    (l.holds_removeEach hu hvalues).after?_eq hmode
  refine ⟨htogether, heach, ?_⟩
  rw [heach, htogether, Option.some.injEq]
  cases list with
  | none => exact iff_of_false nofun nofun
  | some items =>
      simp only [Value.ofList, Option.map_some, Option.getD_some, Value.array.injEq,
        Option.some.injEq, exists_eq_left']
      exact filter_eq_iff engine.clock items values

/-!
The tags of a shelf.
-/

def shelfTags : ListColumn Update.shelfTable where
  name := "tags"
  index := 0
  column := { field := "tags", name := "tags", type := .array .text }
  item := .text
  found := rfl
  type_eq := rfl
  isArray_item := rfl
  item_ne_null := by decide

def shelfRow (tags : Value) : Columns :=
  Update.shelfTable.row fun name => if name = "tags" then tags else .null

theorem shelfTags_readsBack {values : List Value}
    (h : forall v, v ∈ values -> v = .null ∨ exists text, v = .text text) :
    shelfTags.ReadsBack .plain values := by
  intro v hv
  rcases h v hv with rfl | ⟨text, rfl⟩
  · exact ⟨rfl, nofun⟩
  · exact ⟨rfl, fun _ => rfl⟩

theorem shelf_holds (list : Option (List Value)) :
    Update.shelf.Holds .plain Update.shelfTable (shelfRow (.ofList list)) 0 shelfTags.column
      (.ofList list) :=
  Update.holds_of_untouched rfl rfl rfl rfl

def shelfAfter (u : Update) (tags : Value) : Option Value :=
  u.after? .plain Update.shelfTable .simple (shelfRow tags) 0 shelfTags.column

theorem shelf_removed_together :
    Update.shelf.Holds .plain Update.shelfTable
        (shelfRow (.ofList (some [.text "a", .text "b"]))) 0 shelfTags.column
        (.ofList (some [.text "a", .text "b"])) ∧
      shelfTags.ReadsBack .plain [.text "a"] ∧ RenderMode.simple ≠ .bound .atSign ∧
      shelfAfter (Update.shelf.removeAllFromList "tags"
          (.constant ⟨.array [.text "a"], .array .text⟩)) (.array [.text "a", .text "b"]) =
        shelfAfter (shelfTags.removeEach [.text "a"] Update.shelf)
          (.array [.text "a", .text "b"]) := by
  have hholds := shelf_holds (some [.text "a", .text "b"])
  have hreads : shelfTags.ReadsBack .plain [.text "a"] :=
    shelfTags_readsBack fun v hv => Or.inr ⟨"a", List.mem_singleton.mp hv⟩
  have hmode : RenderMode.simple ≠ .bound .atSign := nofun
  refine ⟨hholds, hreads, hmode, ?_⟩
  rcases removed_together_iff .plain shelfTags hholds hreads hmode with ⟨-, -, hiff⟩
  refine hiff.mpr ⟨_, rfl, fun x hx _ v hv => ?_⟩
  rw [List.mem_singleton.mp hv]
  simp only [List.mem_cons, List.not_mem_nil, or_false] at hx
  rcases hx with rfl | rfl <;> exact ⟨rfl, rfl⟩

/-- With a NULL among the values all tags go, and NULL in place of tags becomes an array. -/
theorem shelf_removed_otherwise :
    shelfAfter (Update.shelf.removeAllFromList "tags"
          (.constant ⟨.array [.text "x", .null], .array .text⟩)) (.array [.text "a", .text "x"]) =
        some (.array []) ∧
      shelfAfter (shelfTags.removeEach [.text "x", .null] Update.shelf)
          (.array [.text "a", .text "x"]) = some (.array [.text "a"]) ∧
      Value.array [] ≠ .array [.text "a"] ∧
      shelfAfter (Update.shelf.removeAllFromList "tags"
          (.constant ⟨.array [.text "x"], .array .text⟩)) .null = some (.array []) ∧
      shelfAfter (shelfTags.removeEach [.text "x"] Update.shelf) .null = some .null ∧
      Value.array [] ≠ .null := by
  have hmode : RenderMode.simple ≠ .bound .atSign := nofun
  have hlist := shelf_holds (some [.text "a", .text "x"])
  have hnull := shelf_holds none
  have hreads : forall values : List Value, values ⊆ [.text "x", .null] ->
      shelfTags.ReadsBack .plain values := by
    intro values hvalues
    refine shelfTags_readsBack fun v hv => ?_
    have hmem := hvalues hv
    simp only [List.mem_cons, List.not_mem_nil, or_false] at hmem
    exact hmem.symm.imp_right fun h => ⟨"x", h⟩
  have hone : shelfTags.ReadsBack .plain [.text "x"] := hreads _ (by simp)
  have htwo : shelfTags.ReadsBack .plain [.text "x", .null] := hreads _ (List.Subset.refl _)
  exact ⟨(shelfTags.holds_removeAll hlist htwo).after?_eq hmode,
    (shelfTags.holds_removeEach hlist htwo).after?_eq hmode, nofun,
    (shelfTags.holds_removeAll hnull hone).after?_eq hmode,
    (shelfTags.holds_removeEach hnull hone).after?_eq hmode, nofun⟩

/-!
## Adding what is missing
-/

/-- Whether an array has an element that is not distinct from a value. -/
def occurs (clock : Clock) (items : List Value) (v : Value) : Bool :=
  items.any fun x => v.indistinct clock x

/-- The values that are known to differ from all elements of the array. -/
def missing (clock : Clock) (items values : List Value) : List Value :=
  values.filter fun v => items.all fun x => decide (v.equalTo clock x = some false)

theorem truth_missing (clock : Clock) (items : List Value) (v : Value) :
    (Truth.any (items.map (v.equalTo clock))).not = some true <->
      (items.all fun x => decide (v.equalTo clock x = some false)) = true := by
  rw [Truth.not_eq_true_iff, Truth.any_eq_false_iff, List.forall_mem_map, List.all_eq_true]
  simp only [decide_eq_true_eq]

def absent (name : String) : Tree :=
  .unary "NOT" (.quantified "=" false (.column none "e")
    (.call "coalesce" [.column none name, .string "\x7b\x7d"]))

theorem denote_absent {list : Option (List Value)} {name : String} (hname : name ≠ "e")
    (hcolumn : columns name = some (.array l.itemType, .ofList list)) (v : Value) :
    (absent name).denote engine (Bootstrap.routines engine) (columns.bind "e" l.itemType v)
        .boolean =
      some (Truth.any ((list.getD []).map (v.equalTo engine.clock))).not.value := by
  let inner := columns.bind "e" l.itemType v
  have hinner : inner name = some (.array l.itemType, .ofList list) := by
    rw [<- hcolumn]
    exact if_neg hname
  have hstored : (Tree.column none name).denote engine (Bootstrap.routines engine) inner
      (.array l.itemType) = some (.ofList list) := Tree.denote_column hinner
  have hdefault : (Tree.string "\x7b\x7d").denote engine (Bootstrap.routines engine) inner
      (.array l.itemType) = some (.array []) := rfl
  have hlist : (Tree.call "coalesce" [.column none name, .string "\x7b\x7d"]).denote engine
      (Bootstrap.routines engine) inner (.array l.itemType) = some (.array (list.getD [])) := by
    rw [Tree.denote_coalesce hstored hdefault]
    cases list <;> rfl
  exact Tree.denote_not (Tree.denote_quantified "=" false rfl (Tree.type?_bound "e" l.itemType v)
    (Tree.denote_bound "e" l.itemType v) hlist)

/-- In the condition a column `e` of the table is hidden by the element, which is no array. -/
theorem denote_absent_e (v : Value) :
    (absent "e").denote engine (Bootstrap.routines engine) (columns.bind "e" l.itemType v)
      .boolean = none := by
  have hne : l.itemType ≠ .array l.itemType := by
    intro h
    have hitem := SqlType.isArray_onServer l.isArray_item
    rw [show l.item.onServer = .array l.itemType from h] at hitem
    cases hitem
  let inner := columns.bind "e" l.itemType v
  have hcolumn : (Tree.column none "e").denote engine (Bootstrap.routines engine) inner
      (.array l.itemType) = none := if_neg hne
  have hlist : (Tree.call "coalesce" [.column none "e", .string "\x7b\x7d"]).denote engine
      (Bootstrap.routines engine) inner (.array l.itemType) = none :=
    Tree.denote_call_eq_none rfl rfl (Function.evaluated?_eq_none hcolumn []
      [(Tree.denote engine (Bootstrap.routines engine) (.string "\x7b\x7d"), .array l.itemType)])
  exact Tree.denote_not_eq_none
    (Tree.denote_quantified_eq_none (Tree.type?_bound "e" l.itemType v) hlist)

theorem denote_addDistinct {list : Option (List Value)} {name : String} {values : List Value}
    (hcolumn : columns name = some (.array l.itemType, .ofList list))
    (hvalues : l.ReadsBack engine values) :
    (ListHelper.addDistinct.tree (.column none name)
      (Typed.tree ⟨.array values, .array l.item⟩)).denote engine (Bootstrap.routines engine)
        columns (.array l.itemType) =
      if name = "e" then none
      else some (.array (list.getD [] ++ missing engine.clock (list.getD []) values)) := by
  have hadded : Tree.denote engine (Bootstrap.routines engine)
      (Typed.tree ⟨.array values, .array l.item⟩) columns (.array l.itemType) =
        some (.array values) := Tree.denote_list l.isArray_item l.item_ne_null hvalues
  have hstored : (Tree.column none name).denote engine (Bootstrap.routines engine) columns
      (.array l.itemType) = some (.ofList list) := Tree.denote_column hcolumn
  split
  · rename_i hname
    subst hname
    have hrefused : (ElementQuery.list.tree (Typed.tree ⟨.array values, .array l.item⟩)
        (absent "e")).denote engine (Bootstrap.routines engine) columns (.array l.itemType) =
          none := by
      rw [Tree.denote_query]
      exact ElementQuery.value?_list_eq_none (l.denote_absent_e .null)
    exact Tree.denote_call_eq_none rfl rfl (Function.evaluated?_eq_none hrefused
      [(Tree.denote engine (Bootstrap.routines engine) (.column none "e"), .array l.itemType)] [])
  · rename_i hname
    have hcondition : forall x, (absent name).denote engine (Bootstrap.routines engine)
        (columns.bind "e" l.itemType x) .boolean = _ := l.denote_absent hname hcolumn
    have hmissing := ElementQuery.value?_list hadded rfl hcondition
    simp only [truth_missing, Bool.decide_eq_true] at hmissing
    rw [<- Tree.denote_query] at hmissing
    refine (Tree.denote_call rfl rfl (Tree.evaluated?_cons hstored
      (Tree.evaluated?_cons hmissing Tree.evaluated?_nil))).trans ?_
    cases list <;> rfl

/-- Values that are not NULL are missing exactly when they do not occur, unless an element is NULL
and some value does not occur. -/
theorem missing_eq_iff (clock : Clock) (items : List Value) {values : List Value}
    (hvalues : forall v, v ∈ values -> v.isNull = false) :
    missing clock items values = values.filter (fun v => !occurs clock items v) <->
      (forall x, x ∈ items -> x.isNull = false) ∨
        forall v, v ∈ values -> occurs clock items v = true := by
  have hknown : forall v : Value,
      (items.all fun x => decide (v.equalTo clock x = some false)) = true <->
      forall x, x ∈ items ->
        v.indistinct clock x = false ∧ v.isNull = false ∧ x.isNull = false := by
    intro v
    simp only [List.all_eq_true, decide_eq_true_eq, Value.equalTo_eq_false_iff]
  have habsent : forall v, (!occurs clock items v) = true <->
      forall x, x ∈ items -> v.indistinct clock x = false := by
    intro v
    simp [occurs]
  constructor
  · intro heq
    by_cases hitems : forall x, x ∈ items -> x.isNull = false
    · exact Or.inl hitems
    · simp only [not_forall] at hitems
      rcases hitems with ⟨x, hx, hnull⟩
      right
      intro v hv
      by_contra hoccurs
      have hmem : v ∈ missing clock items values := by
        rw [heq, List.mem_filter]
        exact ⟨hv, by simpa using hoccurs⟩
      exact hnull ((hknown v).mp (List.mem_filter.mp hmem).2 x hx).2.2
  · rintro (hitems | hoccur)
    · refine List.filter_congr fun v hv => ?_
      rw [Bool.eq_iff_iff, hknown, habsent]
      exact ⟨fun h x hx => (h x hx).1, fun h x hx => ⟨h x hx, hvalues v hv, hitems x hx⟩⟩
    · have hnone : values.filter (fun v => !occurs clock items v) = [] := by
        rw [List.filter_eq_nil_iff]
        intro v hv
        rw [hoccur v hv]
        decide
      rw [hnone, missing, List.filter_eq_nil_iff]
      intro v hv hall
      have hdistinct := (habsent v).mpr fun x hx => ((hknown v).mp hall x hx).1
      rw [hoccur v hv] at hdistinct
      cases hdistinct

theorem after?_addDistinct (herror : u.error = none) (ht : u.table = .ok t)
    (huntouched : u.pending? l.index = none) {list : Option (List Value)}
    (hstored : columns l.column.name = some (l.column.type.onServer, .ofList list))
    {values : List Value} (hvalues : l.ReadsBack engine values) {mode : RenderMode}
    (hmode : mode ≠ .bound .atSign) :
    (l.change .addDistinct (.array values) u).after? engine t mode columns l.index l.column =
      if l.column.name = "e" then none
      else some (.array (list.getD [] ++ missing engine.clock (list.getD []) values)) := by
  have hfits : (Value.array values).fits (.array l.item) = true :=
    Value.fits_array fun v hv => (hvalues v hv).fits
  have hcurrent : u.current l.index l.column =
      ⟨Fragment.empty.column .root l.column.name, l.column.type⟩ := by
    rw [Update.current, huntouched, Option.getD_none]
  have hreads : engine.Reads t
      ((l.change .addDistinct (.array values) u).current l.index l.column).query
      (ListHelper.addDistinct.tree (.column none l.column.name)
        (Typed.tree ⟨.array values, .array l.item⟩)) := by
    intro env
    rw [l.change_eq herror ht .addDistinct hfits, Update.current_withPending_self, hcurrent]
    exact (Reader.yields_listHelper .addDistinct _ _
      (Reader.yieldsAtom_column rfl l.column.name).yields (Reader.yields_value _)).yields
  rw [l.onServer_type] at hstored
  rw [Update.after?, hreads.evaluate?_eq hmode, l.onServer_type]
  exact l.denote_addDistinct hstored hvalues

/-- Adding what is missing appends exactly the values that do not occur, in their order, unless the
column is named `e`, where the server refuses the expression, or it has a NULL among its elements
and some value does not occur; then nothing is appended. -/
theorem added_distinct_iff (engine : Engine) {u : Update} {t : Table} (l : ListColumn t)
    {columns : Columns} (herror : u.error = none) (ht : u.table = .ok t)
    (huntouched : u.pending? l.index = none) {list : Option (List Value)}
    (hstored : columns l.column.name = some (l.column.type.onServer, .ofList list))
    {values : List Value} (hvalues : l.ReadsBack engine values)
    (hnotnull : forall v, v ∈ values -> v.isNull = false) {mode : RenderMode}
    (hmode : mode ≠ .bound .atSign) :
    let added := u.addToListDistinct l.name (.constant ⟨.array values, .array l.item⟩)
    let items := list.getD []
    added.after? engine t mode columns l.index l.column =
        (if l.column.name = "e" then none
          else some (.array (items ++ missing engine.clock items values))) ∧
      (added.after? engine t mode columns l.index l.column =
          some (.array (items ++ values.filter fun v => !occurs engine.clock items v)) <->
        l.column.name ≠ "e" ∧
          ((forall x, x ∈ items -> x.isNull = false) ∨
            forall v, v ∈ values -> occurs engine.clock items v = true)) := by
  intro added items
  have hafter : added.after? engine t mode columns l.index l.column =
      if l.column.name = "e" then none
      else some (.array (items ++ missing engine.clock items values)) :=
    l.after?_addDistinct herror ht huntouched hstored hvalues hmode
  refine ⟨hafter, ?_⟩
  rw [hafter]
  by_cases hname : l.column.name = "e"
  · rw [if_pos hname]
    exact iff_of_false nofun fun h => h.1 hname
  · rw [if_neg hname, Option.some.injEq, Value.array.injEq, List.append_cancel_left_eq,
      missing_eq_iff engine.clock items hnotnull]
    exact (and_iff_right hname).symm

theorem shelf_added_distinct :
    Update.shelf.error = none ∧ Update.shelf.table = .ok Update.shelfTable ∧
      Update.shelf.pending? 0 = none ∧
      shelfRow (.ofList (some [.text "a"])) "tags" =
        some (.array .text, .ofList (some [.text "a"])) ∧
      shelfTags.ReadsBack .plain [.text "b", .text "a"] ∧
      (forall v, v ∈ [Value.text "b", .text "a"] -> v.isNull = false) ∧
      RenderMode.simple ≠ .bound .atSign ∧
      shelfAfter (Update.shelf.addToListDistinct "tags"
          (.constant ⟨.array [.text "b", .text "a"], .array .text⟩)) (.array [.text "a"]) =
        some (.array [.text "a", .text "b"]) := by
  have hreads : shelfTags.ReadsBack .plain [.text "b", .text "a"] := by
    refine shelfTags_readsBack fun v hv => Or.inr ?_
    simp only [List.mem_cons, List.not_mem_nil, or_false] at hv
    exact hv.elim (fun h => ⟨"b", h⟩) fun h => ⟨"a", h⟩
  have hnotnull : forall v, v ∈ [Value.text "b", .text "a"] -> v.isNull = false := by
    intro v hv
    simp only [List.mem_cons, List.not_mem_nil, or_false] at hv
    rcases hv with rfl | rfl <;> rfl
  have hmode : RenderMode.simple ≠ .bound .atSign := nofun
  refine ⟨rfl, rfl, rfl, rfl, hreads, hnotnull, hmode, ?_⟩
  have hstored : shelfRow (.ofList (some [.text "a"])) shelfTags.column.name =
      some (shelfTags.column.type.onServer, .ofList (some [.text "a"])) := rfl
  rcases added_distinct_iff .plain shelfTags (u := Update.shelf) rfl rfl rfl hstored hreads
    hnotnull hmode with ⟨-, hiff⟩
  refine hiff.mpr ⟨by decide, Or.inl fun x hx => ?_⟩
  rw [List.mem_singleton.mp hx]
  rfl

def shelfElements : ListColumn Update.shelfTable where
  name := "e"
  index := 1
  column := { field := "e", name := "e", type := .array .text }
  item := .text
  found := rfl
  type_eq := rfl
  isArray_item := rfl
  item_ne_null := by decide

/-- Nothing is added next to a NULL, and nothing at all in a column `e`. -/
theorem shelf_added_otherwise :
    shelfAfter (Update.shelf.addToListDistinct "tags"
          (.constant ⟨.array [.text "b"], .array .text⟩)) (.array [.text "a", .null]) =
        some (.array [.text "a", .null]) ∧
      Value.array [.text "a", .null] ≠ .array [.text "a", .null, .text "b"] ∧
      (Update.shelf.addToListDistinct "e" (.constant ⟨.array [.text "b"], .array .text⟩)).after?
        .plain Update.shelfTable .simple (Update.shelfTable.row fun _ => .array []) 1
        shelfElements.column = none := by
  have hmode : RenderMode.simple ≠ .bound .atSign := nofun
  have hreads : shelfTags.ReadsBack .plain [.text "b"] :=
    shelfTags_readsBack fun v hv => Or.inr ⟨"b", List.mem_singleton.mp hv⟩
  have htags : shelfRow (.array [.text "a", .null]) shelfTags.column.name =
      some (shelfTags.column.type.onServer, .ofList (some [.text "a", .null])) := rfl
  have helements : Update.shelfTable.row (fun _ => .array []) shelfElements.column.name =
      some (shelfElements.column.type.onServer, .ofList (some [])) := rfl
  exact ⟨shelfTags.after?_addDistinct (u := Update.shelf) rfl rfl rfl htags hreads hmode, by simp,
    shelfElements.after?_addDistinct (u := Update.shelf) rfl rfl rfl helements hreads hmode⟩

end ListColumn

end TypedQuery
