import Mathlib.Data.List.Nodup

/-!
# Names of columns on the server

A FROM list gives relations, each with the name it goes by and the names of its columns.  A
reference to a column has a place in it when one place fits, and only one.  Queries inside one
another are searched from the innermost outwards, and the search ends at the first FROM list that
takes the reference, whether or not it has a place there.
-/

namespace TypedQuery
namespace Server

structure Relation where
  name : String
  columns : List String
deriving DecidableEq

structure Reference where
  qualifier : Option String
  column : String
deriving DecidableEq

namespace Reference

variable (ref : Reference)

def allows (r : Relation) : Bool := ref.qualifier.all fun q => r.name == q

def columnsIn (r : Relation) : List Nat :=
  if ref.allows r then (r.columns.zipIdx.filter (·.1 == ref.column)).map (·.2) else []

def places (relations : List Relation) : List (Nat × Nat) :=
  relations.zipIdx.flatMap fun entry => (ref.columnsIn entry.1).map fun j => (entry.2, j)

/-- The only place that the reference fits; a reference that fits several is ambiguous. -/
def resolve? (relations : List Relation) : Option (Nat × Nat) :=
  match ref.places relations with
  | [place] => some place
  | _ => none

def isTakenBy (relations : List Relation) : Bool :=
  match ref.qualifier with
  | some q => relations.any (·.name == q)
  | none => relations.any (·.columns.contains ref.column)

/-- How many queries outwards the search for the reference ends. -/
def level? (levels : List (List Relation)) : Option Nat := levels.findIdx? ref.isTakenBy

/-!
## Places
-/

variable {ref : Reference} {relations : List Relation}

theorem mem_columnsIn {r : Relation} {j : Nat} :
    j ∈ ref.columnsIn r <-> ref.allows r = true ∧ r.columns[j]? = some ref.column := by
  unfold columnsIn
  split
  · rename_i hallows
    rw [List.mem_map]
    constructor
    · rintro ⟨⟨column, k⟩, hcolumn, rfl⟩
      rw [List.mem_filter, List.mk_mem_zipIdx_iff_getElem?] at hcolumn
      have hname : column = ref.column := by simpa using hcolumn.2
      exact ⟨hallows, hname ▸ hcolumn.1⟩
    · rintro ⟨-, hcolumn⟩
      refine ⟨(ref.column, j), ?_, rfl⟩
      rw [List.mem_filter, List.mk_mem_zipIdx_iff_getElem?]
      exact ⟨hcolumn, by simp⟩
  · rename_i hallows
    simp [hallows]

theorem mem_places {i j : Nat} :
    (i, j) ∈ ref.places relations <->
      exists r, relations[i]? = some r ∧ ref.allows r = true ∧ r.columns[j]? = some ref.column := by
  rw [places, List.mem_flatMap]
  constructor
  · rintro ⟨⟨r, k⟩, hr, hplace⟩
    rw [List.mk_mem_zipIdx_iff_getElem?] at hr
    rcases List.mem_map.mp hplace with ⟨n, hn, heq⟩
    cases heq
    exact ⟨r, hr, mem_columnsIn.mp hn⟩
  · rintro ⟨r, hr, hcolumn⟩
    exact ⟨(r, i), List.mk_mem_zipIdx_iff_getElem?.mpr hr,
      List.mem_map_of_mem (mem_columnsIn.mpr hcolumn)⟩

theorem pairwise_zipIdx {α : Type} (xs : List α) : xs.zipIdx.Pairwise fun a b => a.2 ≠ b.2 := by
  have hnodup := List.nodup_range' (s := 0) (n := xs.length)
  rwa [<- List.zipIdx_map_snd, List.Nodup, List.pairwise_map] at hnodup

theorem nodup_columnsIn (r : Relation) : (ref.columnsIn r).Nodup := by
  unfold columnsIn
  split
  · rw [List.Nodup, List.pairwise_map]
    exact (pairwise_zipIdx r.columns).filter _
  · exact List.nodup_nil

theorem nodup_places : (ref.places relations).Nodup := by
  rw [places, List.nodup_flatMap]
  constructor
  · rintro ⟨r, i⟩ -
    exact (nodup_columnsIn r).map fun _ _ h => (Prod.mk.inj h).2
  · refine (pairwise_zipIdx relations).imp ?_
    rintro ⟨r, i⟩ ⟨r', i'⟩ hne place hplace hplace'
    rcases List.mem_map.mp hplace with ⟨_, _, rfl⟩
    rcases List.mem_map.mp hplace' with ⟨_, _, heq⟩
    exact hne (Prod.mk.inj heq).1.symm

/-- A reference is resolved to a place exactly when no other place fits it. -/
theorem resolve?_eq_some_iff {place : Nat × Nat} :
    ref.resolve? relations = some place <->
      forall other, other ∈ ref.places relations <-> other = place := by
  unfold resolve?
  constructor
  · intro h
    split at h
    · rename_i only honly
      cases h
      intro other
      rw [honly, List.mem_singleton]
    · cases h
  · intro h
    have hperm : (ref.places relations).Perm [place] := by
      rw [List.perm_ext_iff_of_nodup nodup_places (List.nodup_singleton place)]
      intro other
      rw [h other, List.mem_singleton]
    rw [List.perm_singleton.mp hperm]

section

variable {i j : Nat} {r : Relation}

/-- A column of one relation is resolved exactly when no other relation that the qualifier allows
has a column of that name. -/
theorem resolve?_eq_iff (hr : relations[i]? = some r) (hallows : ref.allows r = true)
    (hcolumns : r.columns.Nodup) (hcolumn : r.columns[j]? = some ref.column) :
    ref.resolve? relations = some (i, j) <->
      forall k r', relations[k]? = some r' -> ref.allows r' = true -> ref.column ∈ r'.columns ->
        k = i := by
  rw [resolve?_eq_some_iff]
  constructor
  · intro h k r' hr' hallows' hmem
    rcases List.mem_iff_getElem?.mp hmem with ⟨n, hn⟩
    have hplace : (k, n) ∈ ref.places relations := mem_places.mpr ⟨r', hr', hallows', hn⟩
    exact congrArg Prod.fst ((h (k, n)).mp hplace)
  · rintro h ⟨k, n⟩
    rw [mem_places]
    constructor
    · rintro ⟨r', hr', hallows', hcolumn'⟩
      have hki := h k r' hr' hallows' (List.mem_of_getElem? hcolumn')
      subst hki
      rw [hr] at hr'
      cases hr'
      have hlength := (List.getElem?_eq_some_iff.mp hcolumn').1
      have hnj : n = j :=
        (List.getElem?_inj hlength hcolumns).mp (hcolumn'.trans hcolumn.symm)
      rw [hnj]
    · intro heq
      cases heq
      exact ⟨r, hr, hallows, hcolumn⟩

theorem resolve?_qualified {column : String} (hnames : (relations.map (·.name)).Nodup)
    (hr : relations[i]? = some r) (hcolumns : r.columns.Nodup)
    (hcolumn : r.columns[j]? = some column) :
    resolve? ⟨some r.name, column⟩ relations = some (i, j) := by
  rw [resolve?_eq_iff hr (by simp [allows]) hcolumns hcolumn]
  intro k r' hr' hallows _
  have hname : r'.name = r.name := by simpa [allows] using hallows
  have hsame : (relations.map (·.name))[k]? = (relations.map (·.name))[i]? := by
    rw [List.getElem?_map, List.getElem?_map, hr, hr', Option.map_some, Option.map_some, hname]
  have hlength := (List.getElem?_eq_some_iff.mp hr').1
  exact (List.getElem?_inj (by simpa using hlength) hnames).mp hsame

end

/-!
## Levels
-/

theorem level?_append {inner : List (List Relation)} {outer : List Relation}
    {rest : List (List Relation)}
    (hinner : forall level, level ∈ inner -> ref.isTakenBy level = false)
    (houter : ref.isTakenBy outer = true) :
    ref.level? (inner ++ outer :: rest) = some inner.length := by
  have hnone : inner.findIdx? ref.isTakenBy = none := by
    rw [List.findIdx?_eq_none_iff]
    exact hinner
  rw [level?, List.findIdx?_append, hnone, List.findIdx?_cons, houter]
  simp

end Reference
end Server
end TypedQuery
