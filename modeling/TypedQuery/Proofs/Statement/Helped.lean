import TypedQuery.Proofs.Statement.Composition
import TypedQuery.Proofs.Statement.Helper

/-!
# Sequences of helpers

Every call of a list or JSON helper nests the pending expression of a column and a value in a new
expression.  Which columns a pending expression mentions after a sequence of calls, and in which
queries, follows from the calls one by one.
-/

namespace TypedQuery

open Server

/-!
## Columns of the updated table
-/

namespace Table

/-- The frames of an UPDATE of the table, which leaves out the qualifiers of its columns. -/
def ownScopes (t : Table) : Scopes := ⟨[(.single .root t, true)]⟩

def situation (t : Table) (mode : RenderMode) (conforming : Bool) : Situation :=
  ⟨mode, t.ownScopes, conforming, [t.relation none]⟩

theorem qualifierName?_ownScopes (t : Table) : t.ownScopes.qualifierName? .root = none := by
  have hcontains : (AliasMap.single .root t).contains .root = true := by
    simp [AliasMap.single, AliasMap.bind, AliasMap.empty, AliasMap.contains, AliasMap.binding?]
  simp [ownScopes, Scopes.qualifierName?, hcontains]

/-- The fragment has columns of the table, and neither other tables nor frames. -/
def Names (t : Table) (f : Fragment) : Prop :=
  forall part, part ∈ f.anchors ->
    exists column, column ∈ t.columns ∧ part = .column .root column.name

structure Expresses (t : Table) (f : Fragment) : Prop where
  names : t.Names f
  reads : forall mode conforming, (t.situation mode conforming).IsExpression f

variable {t : Table} {f : Fragment}

theorem Expresses.finds (h : t.Expresses f) {mode : RenderMode} (hmode : mode ≠ .bound .atSign)
    (conforming : Bool) : (t.situation mode conforming).Finds f f.mentions := by
  refine Situation.finds_of_isExpression hmode (h.reads mode conforming) ?_
  intro part hpart
  rcases h.names part hpart with ⟨column, -, rfl⟩
  exact ⟨.root, column.name, rfl, t.qualifierName?_ownScopes⟩

def Has (t : Table) (mentions : List Mention) : Prop :=
  forall m, m ∈ mentions -> m.column ∈ t.columns.map (·.name) ∧
    forall relation, relation ∈ m.around -> relation = listElements ∨ relation = jsonElements

theorem Expresses.has (h : t.Expresses f) : t.Has f.mentions := by
  intro m hm
  rcases List.mem_map.mp hm with ⟨ref, href, rfl⟩
  rw [Fragment.columns_eq_flatMap] at href
  rcases List.mem_flatMap.mp href with ⟨part, hpart, href⟩
  rcases h.names part hpart with ⟨column, hcolumn, rfl⟩
  simp only [Part.leaves, List.filterMap_cons, Placed.column?, List.filterMap_nil,
    List.mem_singleton] at href
  rw [href]
  exact ⟨List.mem_map_of_mem hcolumn, fun _ haround => absurd haround List.not_mem_nil⟩

theorem Has.append {ms ns : List Mention} (hms : t.Has ms) (hns : t.Has ns) :
    t.Has (ms ++ ns) := by
  intro m hm
  exact (List.mem_append.mp hm).elim (hms m) (hns m)

theorem Has.inside {ms : List Mention} (h : t.Has ms) {relation : Relation}
    (hrelation : relation = listElements ∨ relation = jsonElements) :
    t.Has (ms.map (Mention.inside relation)) := by
  intro m hm
  rcases List.mem_map.mp hm with ⟨m', hm', rfl⟩
  refine ⟨(h m' hm').1, ?_⟩
  intro other hother
  rcases List.mem_append.mp hother with hinner | hlast
  · exact (h m' hm').2 other hinner
  · rwa [List.mem_singleton.mp hlast]

end Table

/-!
## Values
-/

theorem Table.expresses_column {t : Table} {column : Column} (h : column ∈ t.columns) :
    t.Expresses (Fragment.empty.column .root column.name) := by
  constructor
  · intro part hpart
    rw [Fragment.anchors_column, Fragment.anchors_empty, List.nil_append,
      List.mem_singleton] at hpart
    exact ⟨column, h, hpart⟩
  · intro mode conforming env
    refine ⟨_, (Reader.leads_column .root column.name column.type).means, ?_⟩
    dsimp only [situation, Scopes.columnTree]
    rw [t.qualifierName?_ownScopes]
    rfl

theorem Table.expresses_value (t : Table) (v : Typed) :
    t.Expresses (Fragment.empty.value v) := by
  constructor
  · exact fun part hpart => absurd hpart List.not_mem_nil
  · exact fun _ _ _ => ⟨v.tree, Reader.means_value v, v.inert_tree.isQualified⟩

theorem Table.expresses_null (t : Table) :
    t.Expresses (Fragment.empty.text "'null'::jsonb") := by
  constructor
  · exact fun part hpart => absurd hpart List.not_mem_nil
  · intro mode conforming env
    refine ⟨.cast (.string "null") (SqlType.json none).tokens,
      ⟨⟨.cast (.string "null") (SqlType.json none).tokens, []⟩, ?_,
        Spine.presents_operand (Tree.Agrees.refl rfl) rfl⟩, rfl⟩
    intro written hwritten
    rcases hwritten.of_text with ⟨_, rfl, hempty⟩
    have hnull : AtomText conforming env "'null'".toList (.string "null") :=
      Reader.atomText_literal rfl
    rw [hempty.eq_of_empty]
    exact (hnull.cast (.json none)).spine

namespace Compiler

variable {c : Compiler} {t : Table} {e : Expr} {f : TypedFragment}

theorem slot_of_table {slot : Slot} {t' : Table}
    (h : (Scope.ofTable t).table slot = .ok t') : slot = .root ∧ t' = t := by
  unfold Scope.table Scope.ofTable at h
  by_cases hslot : Slot.root = slot
  · simp [hslot] at h
    exact ⟨hslot.symm, h.symm⟩
  · simp [hslot] at h

theorem expresses_compile (hscope : c.scope = .ofTable t) (hcalls : c.calls = .builtin)
    (hplain : e.isPlain = true) (h : c.compile e = .ok f) : t.Expresses f.query := by
  constructor
  · have hcomposes : c.calls.Composes := hcalls ▸ CallRegistry.builtin_composes
    rcases (holds_compile hcomposes h).references
      (fun _ => Expr.isPathOrError_of_isPlain hplain) with ⟨-, refs, hrefs, hanchors⟩
    intro part hpart
    rcases List.mem_map.mp (hanchors.mem_iff.mp hpart) with ⟨⟨slot, name⟩, href, rfl⟩
    rcases Result.exists_origin_of_mapM hrefs href with ⟨path, -, hcolumn⟩
    rcases declares_of_columnOf hcolumn with ⟨_, t', column, htable, hmem, heq⟩
    cases heq
    rw [hscope] at htable
    rcases slot_of_table htable with ⟨rfl, rfl⟩
    exact ⟨column, hmem, rfl⟩
  · intro mode conforming env
    refine ⟨_, Reader.means_node hcalls (fold e) (Fold.isPlain_fold e hplain) h, ?_⟩
    refine isQualified_meaning (fun slot t' htable => ?_) _
    rw [hscope] at htable
    rw [(slot_of_table htable).1]
    dsimp only [Table.situation]
    rw [t.qualifierName?_ownScopes]
    rfl

theorem expresses_toJsonb (h : t.Expresses f.query) : t.Expresses f.toJsonb.query := by
  constructor
  · intro part hpart
    rw [TypedFragment.anchors_toJsonb] at hpart
    exact h.names part hpart
  · intro mode conforming env
    rcases h.reads mode conforming env with ⟨tree, hmeans, htree⟩
    refine ⟨_, hmeans.toJsonb, ?_⟩
    rw [Tree.isQualified_json]
    exact htree

theorem expresses_compileAs (hscope : c.scope = .ofTable t) (hcalls : c.calls = .builtin)
    (hplain : e.isPlain = true) {target : SqlType} (h : c.compileAs target e = .ok f) :
    t.Expresses f.query := by
  rcases compileAs_cases h with ⟨value, hf, hvalue⟩
  have hall : t.Expresses value.query := by
    rcases hvalue with hlabel | hvalue
    · unfold TypedFragment.enumLabel? at hlabel
      split at hlabel
      · cases hlabel
        exact t.expresses_value _
      · cases hlabel
    · exact expresses_compile hscope hcalls hplain hvalue
  rcases hf with rfl | rfl
  · exact hall
  · exact expresses_toJsonb hall

theorem expresses_jsonValue (hscope : c.scope = .ofTable t) (hcalls : c.calls = .builtin)
    (hplain : e.isPlain = true) (h : Update.jsonValue c e = .ok f) : t.Expresses f.query := by
  rcases Result.bind_eq_ok.mp h with ⟨value, hvalue, h⟩
  split at h
  · cases h
    exact t.expresses_null
  · cases h
    exact expresses_compileAs hscope hcalls hplain hvalue

end Compiler

/-!
## Calls
-/

inductive Helper where
  | list (h : ListHelper) (column : String) (value : Expr)
  | json (h : JsonHelper) (path value : Expr)

namespace Helper

def value : Helper -> Expr
  | list _ _ value => value
  | json _ _ value => value

def apply (u : Update) : Helper -> Update
  | list h column value => (h.assignment value).apply u column
  | json h path value => h.apply u path value

/-- The column that a call changes, and what becomes of the mentions in its pending expression;
what is pending does not decide this. -/
def effect? (u : Update) : Helper -> Result (Nat × (List Mention -> List Mention))
  | list h name value => do
      let t <- u.table
      let (index, column) <- t.requireColumn name
      match (h.assignment value).target? column.type with
      | some target => do
          let f <- (u.compiler t).compileAs target value
          return (index, fun current => h.mentions current f.query.mentions)
      | none => .error (.compile (.notArray column.name column.type))
  | json h path value => do
      let (name, steps) <- u.jsonTarget path
      let t <- u.table
      let (index, column) <- t.requireColumn name
      if column.type.isJson then do
        let f <- Update.jsonValue (u.compiler t) value
        return (index, fun current => h.mentions steps current f.query.mentions)
      else .error (.compile (.notJson column.name column.type))

/-- A new expression of a column mentions columns of the table as an effect says, if the old one
mentions columns of the table. -/
def Turns (t : Table) (effect : List Mention -> List Mention) (current f : TypedFragment) : Prop :=
  (forall ms, t.Has ms -> t.Has (effect ms)) ∧
    forall mode conforming ms, mode ≠ .bound .atSign ->
      (t.situation mode conforming).Finds current.query ms ->
        (t.situation mode conforming).Finds f.query (effect ms)

variable {t : Table}

theorem turns_list (h : ListHelper) (value : Expr) (type : SqlType) {f : TypedFragment}
    (hf : t.Expresses f.query) (current : TypedFragment) :
    Turns t (fun ms => h.mentions ms f.query.mentions) current
      ((h.assignment value).written type current f) := by
  constructor
  · intro ms hms
    cases h with
    | add => exact hms.append hf.has
    | addDistinct => exact (hms.append hf.has).append (hms.inside (Or.inl rfl))
    | remove => exact hms.append hf.has
    | removeAll => exact hms.append (hf.has.inside (Or.inl rfl))
  · intro mode conforming ms hmode hcurrent
    exact Situation.finds_listHelper h value type hcurrent (hf.finds hmode conforming)

theorem turns_json (h : JsonHelper) (steps : List JsonStep) {f : TypedFragment}
    (hf : t.Expresses f.query) (current : TypedFragment) :
    Turns t (fun ms => h.mentions steps ms f.query.mentions) current
      (h.written steps current f) := by
  constructor
  · intro ms hms
    dsimp only [JsonHelper.mentions]
    split
    · split
      · exact hf.has
      · exact hms.append hf.has
    · exact hms.append hf.has
    · split
      · exact hms.append (hf.has.inside (Or.inr rfl))
      · exact hms.append (hms.append (hf.has.inside (Or.inr rfl)))
  · intro mode conforming ms hmode hcurrent
    exact Situation.finds_jsonHelper hmode h steps hcurrent (hf.finds hmode conforming)

end Helper

/-- A change that leaves no error behind found its column and made a new expression for it. -/
theorem Update.exists_modify {u : Update} {t : Table} (herror : u.error = none)
    (ht : u.table = .ok t) {name : String}
    {make : Compiler -> Column -> TypedFragment -> Result TypedFragment}
    (hsuccess : (u.modify name make).error = none) :
    exists index column f, t.requireColumn name = .ok (index, column) ∧
      make (u.compiler t) column (u.current index column) = .ok f ∧
        u.modify name make = u.withPending index f := by
  cases hcolumn : t.findColumn? name with
  | none =>
      rcases modify_cases ht name make with hsome | ⟨index, column, f, hfound, -⟩
      · rw [hsuccess] at hsome
        cases hsome
      · rw [hcolumn] at hfound
        cases hfound
  | some found =>
      rcases found with ⟨index, column⟩
      have hmodify := modify_eq herror ht hcolumn make
      have hrequired : t.requireColumn name = .ok (index, column) := by
        rw [Table.requireColumn, hcolumn]
      cases hmake : make (u.compiler t) column (u.current index column) with
      | ok f =>
          rw [hmake] at hmodify
          exact ⟨index, column, f, hrequired, hmake, hmodify⟩
      | error e =>
          rw [hmake] at hmodify
          have hfail := isSome_error_fail u e
          rw [show u.fail e = u.modify name make from hmodify.symm, hsuccess] at hfail
          cases hfail

namespace Helper

variable {u : Update} {t : Table}

theorem error_of_apply {h : Helper} (hsuccess : (h.apply u).error = none) : u.error = none := by
  cases herror : u.error with
  | none => rfl
  | some e =>
      have hsame : h.apply u = u := by
        cases h with
        | list h name value =>
            rw [apply, Assignment.apply_eq_modify, Update.modify, herror]
        | json h path value =>
            rcases h.apply_eq_modifyJson u path value with ⟨make, hjson⟩
            rw [apply, hjson, Update.modifyJson, herror]
      rw [hsame, herror] at hsuccess
      cases hsuccess

theorem exists_target {h : JsonHelper} {path value : Expr} (herror : u.error = none)
    (hsuccess : (h.apply u path value).error = none) :
    exists name steps, u.jsonTarget path = .ok (name, steps) := by
  cases htarget : u.jsonTarget path with
  | ok target => exact ⟨target.1, target.2, rfl⟩
  | error e =>
      rcases h.apply_eq_modifyJson u path value with ⟨make, hjson⟩
      rw [hjson, Update.modifyJson, herror, htarget] at hsuccess
      have hfail := Update.isSome_error_fail u e
      rw [hsuccess] at hfail
      cases hfail

theorem exists_effect (ht : u.table = .ok t) (hcalls : u.calls = .builtin) (h : Helper)
    (hplain : h.value.isPlain = true) (hsuccess : (h.apply u).error = none) :
    exists index column effect f,
      h.effect? u = .ok (index, effect) ∧ t.columns[index]? = some column ∧
        h.apply u = u.withPending index f ∧ Turns t effect (u.current index column) f := by
  have herror := error_of_apply hsuccess
  cases h with
  | list h name value =>
      have hmodify := (h.assignment value).apply_eq_modify u name
      rw [apply, hmodify] at hsuccess ⊢
      rcases Update.exists_modify herror ht hsuccess with
        ⟨index, column, f, hcolumn, hmake, hpending⟩
      unfold Assignment.make at hmake
      cases htarget : (h.assignment value).target? column.type with
      | none =>
          rw [htarget] at hmake
          cases hmake
      | some target =>
          rw [htarget] at hmake
          rcases Result.bind_eq_ok.mp hmake with ⟨made, hmade, hf⟩
          cases hf
          have hvalue : (h.assignment value).value (u.current index column) = value := by
            cases h <;> rfl
          rw [hvalue] at hmade
          refine ⟨index, column, fun ms => h.mentions ms made.query.mentions, _, ?_,
            Table.getElem?_of_requireColumn hcolumn, hpending, turns_list h value column.type
              (Compiler.expresses_compileAs rfl hcalls hplain hmade) _⟩
          simp only [effect?, ht, Result.ok_bind, hcolumn, htarget, hmade]
          rfl
  | json h path value =>
      rw [apply] at hsuccess ⊢
      rcases exists_target herror hsuccess with ⟨name, steps, htarget⟩
      rw [h.apply_eq_modify herror htarget] at hsuccess ⊢
      rcases Update.exists_modify herror ht hsuccess with
        ⟨index, column, f, hcolumn, hmake, hpending⟩
      unfold JsonHelper.make at hmake
      split at hmake
      · rename_i hjson
        rcases Result.bind_eq_ok.mp hmake with ⟨made, hmade, hf⟩
        cases hf
        refine ⟨index, column, fun ms => h.mentions steps ms made.query.mentions, _, ?_,
          Table.getElem?_of_requireColumn hcolumn, hpending, turns_json h steps
            (Compiler.expresses_jsonValue rfl hcalls hplain hmade) _⟩
        simp only [effect?, htarget, ht, Result.ok_bind, hcolumn, hjson, hmade, if_true]
        rfl
      · cases hmake

end Helper

/-!
## Sequences of calls
-/

namespace Update

def helped (u : Update) (helpers : List Helper) : Update := helpers.foldl Helper.apply u

/-- What the pending expression of a column mentions after helper calls, in the order of its
text. -/
def mentions (u : Update) (index : Nat) (column : Column) (helpers : List Helper) :
    List Mention :=
  helpers.foldl (fun mentions h =>
    match h.effect? u with
    | .ok (i, effect) => if i = index then effect mentions else mentions
    | .error _ => mentions) [⟨column.name, []⟩]

theorem helped_concat (u : Update) (helpers : List Helper) (h : Helper) :
    u.helped (helpers ++ [h]) = h.apply (u.helped helpers) :=
  List.foldl_append

theorem mentions_concat (u : Update) (index : Nat) (column : Column) (helpers : List Helper)
    (h : Helper) :
    u.mentions index column (helpers ++ [h]) =
      match h.effect? u with
      | .ok (i, effect) =>
          if i = index then effect (u.mentions index column helpers)
          else u.mentions index column helpers
      | .error _ => u.mentions index column helpers :=
  List.foldl_append

theorem current_withPending_self (u : Update) (index : Nat) (column : Column)
    (f : TypedFragment) : (u.withPending index f).current index column = f := by
  rw [current, withPending_pending?_self, Option.getD_some]

theorem current_withPending_of_ne (u : Update) {index other : Nat} (column : Column)
    (f : TypedFragment) (hne : other ≠ index) :
    (u.withPending index f).current other column = u.current other column := by
  rw [current, withPending_pending?_of_ne u f hne, current]

variable {u : Update} {t : Table} {helpers : List Helper}

/-- Before every call, and after the last one, no column stands twice among the assignments, the
mentions of each column are of columns of the table, and its pending expression is looked up as they
say. -/
theorem helped_finds (ht : u.table = .ok t) (hcalls : u.calls = .builtin)
    (hfresh : u.assignments = []) (hplain : forall h, h ∈ helpers -> h.value.isPlain = true)
    (hsuccess : (u.helped helpers).error = none) :
    (exists assignments, u.helped helpers = { u with assignments } ∧ Distinct assignments ∧
        forall index, index ∈ assignments.map (·.1) ->
          exists column, t.columns[index]? = some column) ∧
      forall index column, t.columns[index]? = some column ->
        t.Has (u.mentions index column helpers) ∧
          forall mode conforming, mode ≠ .bound .atSign ->
            (t.situation mode conforming).Finds ((u.helped helpers).current index column).query
              (u.mentions index column helpers) := by
  induction helpers using List.reverseRecOn with
  | nil =>
      constructor
      · refine ⟨[], ?_, List.nodup_nil, fun _ hindex => absurd hindex List.not_mem_nil⟩
        rw [<- hfresh]
        rfl
      · intro index column hcolumn
        have hcurrent : (u.helped []).current index column =
            ⟨Fragment.empty.column .root column.name, column.type⟩ := by
          change u.current index column = _
          rw [current, pending?, hfresh]
          rfl
        have hexpresses := Table.expresses_column (List.mem_of_getElem? hcolumn)
        rw [hcurrent]
        exact ⟨hexpresses.has, fun mode conforming hmode => hexpresses.finds hmode conforming⟩
  | append_singleton helpers h ih =>
      rw [helped_concat] at hsuccess ⊢
      have hlast := hplain h (List.mem_append_right _ (List.mem_singleton_self h))
      rcases ih (fun h hh => hplain h (List.mem_append_left _ hh))
        (Helper.error_of_apply hsuccess) with ⟨⟨assignments, hrun, hdistinct, hcolumns⟩, hearlier⟩
      rw [hrun] at hsuccess hearlier ⊢
      rcases Helper.exists_effect (u := { u with assignments }) ht hcalls h hlast hsuccess with
        ⟨index, changed, effect, f, heffect, hchanged, happly, hhas, hfinds⟩
      have hsame : h.effect? u = .ok (index, effect) := heffect
      rw [happly]
      constructor
      · refine ⟨assigned index f assignments, rfl, distinct_assigned hdistinct index f, ?_⟩
        intro i hi
        rw [map_fst_assigned] at hi
        split at hi
        · exact hcolumns i hi
        · rcases List.mem_append.mp hi with hi | hi
          · exact hcolumns i hi
          · exact ⟨changed, by rw [List.mem_singleton.mp hi, hchanged]⟩
      · intro i column hcolumn
        rw [mentions_concat, hsame]
        dsimp only
        by_cases hi : index = i
        · subst hi
          rw [hchanged] at hcolumn
          cases hcolumn
          rw [if_pos rfl, current_withPending_self]
          rcases hearlier index changed hchanged with ⟨hms, hcurrent⟩
          exact ⟨hhas _ hms, fun mode conforming hmode =>
            hfinds mode conforming _ hmode (hcurrent mode conforming hmode)⟩
        · rw [if_neg hi, current_withPending_of_ne _ column f (Ne.symm hi)]
          exact hearlier i column hcolumn

end Update
end TypedQuery
