import Mathlib.Data.List.Nodup
import TypedQuery.Proofs.Result
import TypedQuery.Schema.Registry

/-!
# Tables and their index

A registry keeps its tables in the order in which they were stored, and an index from models to
places in that order.  Where the two are in step, the index leads each model to the table that was
stored for it, and storing one more table leaves all others where they are.
-/

namespace TypedQuery
namespace Registry

/-- The registry holds one table for each of the models, in their order, and its index says where
each of them stands. -/
structure InStep (r : Registry) (models : List String) : Prop where
  index_eq : r.index = models.zipIdx.reverse
  length_eq : models.length = r.tables.length
  nodup : models.Nodup

section

variable {r : Registry} {models : List String} {model other : String} {t : Table}

theorem InStep.position?_eq_some_iff (h : r.InStep models) {position : Nat} :
    r.position? model = some position <-> models[position]? = some model := by
  unfold position?
  rw [h.index_eq]
  constructor
  · intro hfind
    rcases Option.map_eq_some_iff.mp hfind with ⟨⟨found, _⟩, hfound, rfl⟩
    have hmodel : found = model := by
      simpa using List.find?_some hfound
    have hmem := List.mem_reverse.mp (List.mem_of_find?_eq_some hfound)
    rw [<- hmodel]
    exact List.mem_zipIdx_iff_getElem?.mp hmem
  · intro hmodel
    have hmem : (model, position) ∈ models.zipIdx.reverse :=
      List.mem_reverse.mpr (List.mem_zipIdx_iff_getElem?.mpr hmodel)
    cases hfind : models.zipIdx.reverse.find? (·.1 == model) with
    | none =>
        have hne := List.find?_eq_none.mp hfind (model, position) hmem
        simp at hne
    | some found =>
        rcases found with ⟨found, place⟩
        have hfound : found = model := by
          simpa using List.find?_some hfind
        have hplace := List.mem_zipIdx_iff_getElem?.mp
          (List.mem_reverse.mp (List.mem_of_find?_eq_some hfind))
        rw [hfound, <- hmodel] at hplace
        have hlt : place < models.length := by
          rw [hmodel] at hplace
          exact (List.getElem?_eq_some_iff.mp hplace).1
        rw [Option.map_some, (List.getElem?_inj hlt h.nodup).mp hplace]

theorem InStep.lookup?_eq_none_iff (h : r.InStep models) :
    r.lookup? model = none <-> model ∉ models := by
  unfold lookup?
  constructor
  · intro hnone hmem
    rcases List.getElem?_of_mem hmem with ⟨position, hmodel⟩
    rw [h.position?_eq_some_iff.mpr hmodel, Option.bind_some, List.getElem?_eq_none_iff,
      <- h.length_eq] at hnone
    exact absurd (List.getElem?_eq_some_iff.mp hmodel).1 (Nat.not_lt.mpr hnone)
  · intro hmem
    cases hposition : r.position? model with
    | none => rfl
    | some position =>
        exact absurd (List.mem_of_getElem? (h.position?_eq_some_iff.mp hposition)) hmem

theorem inStep_empty : ({} : Registry).InStep [] := ⟨rfl, rfl, .nil⟩

theorem InStep.store (h : r.InStep models) (hmodel : model ∉ models) (t : Table) :
    (r.store model t).InStep (models ++ [model]) := by
  constructor
  · rw [Registry.store, h.index_eq, List.zipIdx_append, List.reverse_append, h.length_eq]
    simp
  · simp [Registry.store, h.length_eq]
  · rw [<- List.concat_eq_append]
    exact h.nodup.concat hmodel

theorem lookup?_store_self (r : Registry) (model : String) (t : Table) :
    (r.store model t).lookup? model = some t := by
  simp [lookup?, position?, store]

/-- A table that is stored leaves the tables of the other models where they are. -/
theorem InStep.lookup?_store (h : r.InStep models) (hne : other ≠ model) (t : Table) :
    (r.store model t).lookup? other = r.lookup? other := by
  have hposition : (r.store model t).position? other = r.position? other := by
    simp [position?, Registry.store, Ne.symm hne]
  unfold lookup?
  rw [hposition]
  cases hother : r.position? other with
  | none => rfl
  | some position =>
      have hlt : position < r.tables.length := by
        rw [<- h.length_eq]
        exact (List.getElem?_eq_some_iff.mp (h.position?_eq_some_iff.mp hother)).1
      exact List.getElem?_append_left hlt

end

theorem validate_of_validated {description : Result Table} {t : Table}
    (h : validated description = .ok t) : t.validate = .ok () := by
  rcases Result.bind_eq_ok.mp h with ⟨_, -, hvalidated⟩
  rcases Result.bind_eq_ok.mp hvalidated with ⟨_, hvalid, hsame⟩
  cases hsame
  exact hvalid

end Registry
end TypedQuery
