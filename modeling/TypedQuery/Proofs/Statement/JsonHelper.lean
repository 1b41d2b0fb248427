import TypedQuery.Proofs.Result
import TypedQuery.Proofs.Schema.Lookup
import TypedQuery.Statement.Update

/-!
# Columns that JSON helpers change

A JSON helper follows a path to a column and then assigns to the column that the physical name of
this one leads to.  The two are the same column exactly when the first is not shadowed.
-/

namespace TypedQuery
namespace Update

theorem pending?_assigned_self (u : Update) (index : Nat) (value : TypedFragment) :
    { u with assignments := assigned index value u.assignments }.pending? index = some value := by
  unfold pending?
  induction u.assignments with
  | nil => simp [assigned]
  | cons entry rest ih =>
      rcases entry with ⟨i, v⟩
      by_cases hi : i = index
      · simp [assigned, hi]
      · simpa [assigned, hi] using ih

theorem pending?_assigned_of_ne (u : Update) {index other : Nat} (value : TypedFragment)
    (hne : other ≠ index) :
    { u with assignments := assigned index value u.assignments }.pending? other =
      u.pending? other := by
  unfold pending?
  induction u.assignments with
  | nil => simp [assigned, Ne.symm hne]
  | cons entry rest ih =>
      rcases entry with ⟨i, v⟩
      by_cases hi : i = index
      · subst hi
        simp [assigned, Ne.symm hne]
      · by_cases hother : i = other
        · subst hother
          simp [assigned, hne]
        · simpa [assigned, hi, hother] using ih

theorem isSome_error_fail (u : Update) (e : Error) : (u.fail e).error.isSome := by
  unfold fail
  cases u.error <;> rfl

/-!
## One step of an update

A builder call either leaves an error behind or assigns to the one column that its name leads to.
-/

def withPending (u : Update) (index : Nat) (value : TypedFragment) : Update :=
  { u with assignments := assigned index value u.assignments }

theorem modify_cases {u : Update} {t : Table} (ht : u.table = .ok t) (column : String)
    (make : Compiler -> Column -> TypedFragment -> Result TypedFragment) :
    (u.modify column make).error.isSome ∨
      exists index descriptor value,
        t.findColumn? column = some (index, descriptor) ∧
          u.modify column make = u.withPending index value := by
  rcases u with ⟨table, assignments, filters, calls, error⟩
  change table = .ok t at ht
  subst ht
  unfold modify
  cases error with
  | some e => exact Or.inl rfl
  | none =>
      cases hfind : t.findColumn? column with
      | none =>
          left
          simp [Table.requireColumn, hfind, isSome_error_fail]
      | some found =>
          rcases found with ⟨index, descriptor⟩
          simp only [Table.requireColumn, hfind, Result.ok_bind]
          cases hmake : make (compiler _ t) descriptor _ with
          | error e =>
              left
              rw [Result.error_bind]
              exact isSome_error_fail _ e
          | ok value =>
              right
              exact ⟨index, descriptor, value, rfl, rfl⟩

theorem modifyJson_cases {u : Update} {t : Table} (ht : u.table = .ok t) {steps : List PathStep}
    {resolved : ResolvedPath} (hresolved : (u.compiler t).resolve steps = .ok resolved)
    {index : Nat} (hcolumn : resolved.column = some (.root, index))
    (make : Compiler -> TypedFragment -> List JsonStep -> Result TypedFragment) :
    (u.modifyJson (.field steps) make).error.isSome ∨
      exists c make', t.columns[index]? = some c ∧
        u.modifyJson (.field steps) make = u.modify c.name make' := by
  unfold modifyJson
  cases herror : u.error with
  | some e => exact Or.inl (by simp [herror])
  | none =>
      cases hc : t.columns[index]? with
      | none =>
          have htarget : u.jsonTarget (.field steps) = .error (.compile .jsonHelperColumn) := by
            simp only [jsonTarget, ht, Result.ok_bind, hresolved, hcolumn, if_true, hc]
            rfl
          left
          simp [htarget, isSome_error_fail]
      | some c =>
          have htarget : u.jsonTarget (.field steps) = .ok (c.name, resolved.jsonPath) := by
            simp only [jsonTarget, ht, Result.ok_bind, hresolved, hcolumn, if_true, hc]
            rfl
          right
          refine ⟨c, fun compiler descriptor current =>
            if descriptor.type.isJson then make compiler current resolved.jsonPath
            else .error (.compile (.notJson descriptor.name descriptor.type)), rfl, ?_⟩
          simp only [htarget]

end Update

/-!
## Helpers
-/

/-- The helpers that change a JSON column along a path. -/
inductive JsonHelper where
  | set
  | append
  | removeValue

namespace JsonHelper

def apply (h : JsonHelper) (u : Update) (path value : Expr) : Update :=
  match h with
  | set => u.jsonSet path value
  | append => u.jsonAppend path value
  | removeValue => u.jsonRemoveValue path value

theorem apply_eq_modifyJson (h : JsonHelper) (u : Update) (path value : Expr) :
    exists make, h.apply u path value = u.modifyJson path make := by
  cases h with
  | set => exact ⟨_, rfl⟩
  | append => exact ⟨_, rfl⟩
  | removeValue => exact ⟨_, rfl⟩

open Update in
/-- A helper whose path starts at the column with index `i` of a valid table either records an
error or gives one column a new pending expression and leaves those of all others; this is column
`i` itself exactly when column `i` is not shadowed. -/
theorem apply_changes_one_column (h : JsonHelper) {u : Update} {t : Table}
    (ht : u.table = .ok t) (hvalid : t.validate = .ok ()) {steps : List PathStep}
    {resolved : ResolvedPath} (hresolved : (u.compiler t).resolve steps = .ok resolved)
    {i : Nat} (hcolumn : resolved.column = some (.root, i)) (value : Expr) :
    (h.apply u (.field steps) value).error.isSome ∨
      exists j pending,
        (h.apply u (.field steps) value).pending? j = some pending ∧
          (forall k, k ≠ j ->
            (h.apply u (.field steps) value).pending? k = u.pending? k) ∧
          (j = i <-> ¬ t.Shadowed i) := by
  rcases h.apply_eq_modifyJson u (.field steps) value with ⟨make, hmake⟩
  rw [hmake]
  rcases modifyJson_cases ht hresolved hcolumn make with herror | ⟨c, make', hc, hmodify⟩
  · exact Or.inl herror
  · rw [hmodify]
    rcases modify_cases ht c.name make' with herror | ⟨j, d, pending, hfind, hassigned⟩
    · exact Or.inl herror
    · right
      rcases Table.findColumn?_name hvalid hc with ⟨j', d', hfind', -, hshadowed⟩
      rw [hfind] at hfind'
      cases hfind'
      rw [hassigned]
      refine ⟨j, pending, pending?_assigned_self u j pending, ?_, hshadowed⟩
      intro k hk
      exact pending?_assigned_of_ne u pending hk

def profileTable : Table where
  model := "Author"
  name := "author"
  schema := none
  columns := [
    { field := "id", name := "id", type := .bigint, primaryKey := true },
    { field := "profile", name := "profile_data", type := .json none }]

def profileUpdate : Update := { table := .ok profileTable }

def profileTags : ResolvedPath where
  expr :=
    ⟨⟨[.nested [.column .root "profile_data"], .text "->", .value ⟨.text "tags", .text⟩]⟩,
      .json none⟩
  column := some (.root, 1)
  jsonPath := [.key "tags"]

theorem resolve_profileTags :
    (profileUpdate.compiler profileTable).resolve [.column "profile", .key "tags" false] =
      .ok profileTags :=
  rfl

theorem append_changes_profile_data :
    profileTable.validate = .ok () ∧
      (profileUpdate.compiler profileTable).resolve [.column "profile", .key "tags" false] =
        .ok profileTags ∧
      ((append.apply profileUpdate
          (.field [.column "profile", .key "tags" false]) (.int 1)).error.isSome ∨
        exists j pending,
          (append.apply profileUpdate
            (.field [.column "profile", .key "tags" false]) (.int 1)).pending? j = some pending ∧
            (forall k, k ≠ j ->
              (append.apply profileUpdate
                (.field [.column "profile", .key "tags" false]) (.int 1)).pending? k =
                profileUpdate.pending? k) ∧
            (j = 1 <-> ¬ profileTable.Shadowed 1)) :=
  ⟨rfl, resolve_profileTags,
    apply_changes_one_column .append (u := profileUpdate) rfl rfl resolve_profileTags rfl (.int 1)⟩

def crossedTable : Table where
  model := "Crossed"
  name := "crossed"
  schema := none
  columns := [
    { field := "draft", name := "final", type := .json none },
    { field := "final", name := "published", type := .json none }]

def crossedUpdate : Update := { table := .ok crossedTable }

theorem apply_set_draft_changes_other_column :
    crossedTable.validate = .ok () ∧
      (exists resolved,
        (crossedUpdate.compiler crossedTable).resolve [.column "draft"] = .ok resolved ∧
          resolved.column = some (.root, 0)) ∧
      (set.apply crossedUpdate (.col "draft") Expr.null).error = none ∧
      ((set.apply crossedUpdate (.col "draft") Expr.null).pending? 0).isNone ∧
      ((set.apply crossedUpdate (.col "draft") Expr.null).pending? 1).isSome := by
  refine ⟨rfl, ⟨_, rfl, rfl⟩, ?_, ?_, ?_⟩
  · rfl
  · rfl
  · rfl

end JsonHelper
end TypedQuery
