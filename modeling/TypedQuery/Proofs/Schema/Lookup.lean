import TypedQuery.Schema.Table

/-!
# Looking up columns

A column is looked up by its field first and by its physical name second.  Among the columns of a
valid table physical names are unique, but a field may be the physical name of another column:
then the other column is shadowed, and its physical name leads elsewhere.
-/

namespace TypedQuery
namespace Table

theorem firstColumn?_eq_some_iff {t : Table} {p : Column -> Bool} {i : Nat} {c : Column} :
    t.firstColumn? p = some (i, c) <->
      t.columns[i]? = some c ∧ p c = true ∧
        forall j d, j < i -> t.columns[j]? = some d -> p d = false := by
  have hfind : t.firstColumn? p = some (i, c) <->
      t.columns.zipIdx.find? (fun entry => p entry.1) = some (c, i) := by
    unfold firstColumn?
    constructor
    · intro h
      rcases Option.map_eq_some_iff.mp h with ⟨⟨d, j⟩, hentry, heq⟩
      cases heq
      exact hentry
    · intro h
      rw [h]
      rfl
  rw [hfind, List.find?_eq_some_iff_getElem]
  constructor
  · rintro ⟨hp, k, hk, hget, hbefore⟩
    rw [List.getElem_zipIdx] at hget
    rw [List.length_zipIdx] at hk
    injection hget with hcolumn hindex
    have hki : k = i := by omega
    subst hki
    refine ⟨List.getElem?_eq_some_iff.mpr ⟨hk, hcolumn⟩, hp, ?_⟩
    intro j d hj hd
    rcases List.getElem?_eq_some_iff.mp hd with ⟨hjlen, hjd⟩
    have hnot := hbefore j hj
    rw [List.getElem_zipIdx, hjd] at hnot
    simpa using hnot
  · rintro ⟨hcolumn, hp, hbefore⟩
    rcases List.getElem?_eq_some_iff.mp hcolumn with ⟨hi, hci⟩
    refine ⟨hp, i, by rwa [List.length_zipIdx], ?_, ?_⟩
    · rw [List.getElem_zipIdx, hci, Nat.zero_add]
    · intro j hj
      rw [List.getElem_zipIdx]
      have hjd := hbefore j _ hj (List.getElem?_eq_getElem (Nat.lt_trans hj hi))
      simp [hjd]

theorem firstColumn?_eq_none_iff {t : Table} {p : Column -> Bool} :
    t.firstColumn? p = none <->
      forall (j : Nat) (d : Column), t.columns[j]? = some d -> p d = false := by
  constructor
  · intro h j d hd
    cases hp : p d with
    | false => rfl
    | true =>
        unfold firstColumn? at h
        rw [Option.map_eq_none_iff, List.find?_eq_none] at h
        rcases List.getElem?_eq_some_iff.mp hd with ⟨hj, hjd⟩
        have hmem : (d, j) ∈ t.columns.zipIdx := by
          rw [List.mk_mem_zipIdx_iff_getElem?]
          exact hd
        exact absurd hp (h (d, j) hmem)
  · intro h
    cases hfirst : t.firstColumn? p with
    | none => rfl
    | some found =>
        rcases found with ⟨i, c⟩
        rcases firstColumn?_eq_some_iff.mp hfirst with ⟨hc, hp, _⟩
        rw [h i c hc] at hp
        cases hp

theorem requireColumn_eq_ok_iff {t : Table} {name : String} {found : Nat × Column} :
    t.requireColumn name = .ok found <-> t.findColumn? name = some found := by
  unfold requireColumn
  cases t.findColumn? name <;> simp

theorem getElem?_of_requireColumn {t : Table} {name : String} {i : Nat} {c : Column}
    (h : t.requireColumn name = .ok (i, c)) : t.columns[i]? = some c := by
  unfold requireColumn findColumn? at h
  cases hfield : t.firstColumn? (·.field == name) with
  | some found =>
      rw [hfield] at h
      cases h
      exact (firstColumn?_eq_some_iff.mp hfield).1
  | none =>
      cases hname : t.firstColumn? (·.name == name) with
      | some found =>
          rw [hfield, hname] at h
          cases h
          exact (firstColumn?_eq_some_iff.mp hname).1
      | none =>
          rw [hfield, hname] at h
          cases h

theorem mem_insertable {t : Table} {index : Nat} : index ∈ t.insertable <->
    exists column, t.columns[index]? = some column ∧ column.autoIncrement = false := by
  rw [insertable, List.mem_filterMap]
  constructor
  · rintro ⟨⟨column, j⟩, hmem, hindex⟩
    dsimp only at hindex
    split at hindex
    · cases hindex
    · rename_i hauto
      cases hindex
      exact ⟨column, List.mk_mem_zipIdx_iff_getElem?.mp hmem, Bool.eq_false_iff.mpr hauto⟩
  · rintro ⟨column, hcolumn, hauto⟩
    refine ⟨(column, index), List.mk_mem_zipIdx_iff_getElem?.mpr hcolumn, ?_⟩
    dsimp only
    rw [hauto]
    rfl

/-!
## Shadowed columns
-/

/-- The physical name of the column at an index leads to another column: it is the field of an
earlier column, or the field of some column while it is not the column's own field. -/
def Shadowed (t : Table) (i : Nat) : Prop :=
  exists c, t.columns[i]? = some c ∧
    exists j d, t.columns[j]? = some d ∧ d.field = c.name ∧ (j < i ∨ c.field ≠ c.name)

theorem index_unique_of_validate {t : Table} (hvalid : t.validate = .ok ()) {i j : Nat}
    {c d : Column} (hc : t.columns[i]? = some c) (hd : t.columns[j]? = some d)
    (hname : c.name = d.name) : i = j := by
  rcases List.getElem?_eq_some_iff.mp hc with ⟨hi, rfl⟩
  rcases List.getElem?_eq_some_iff.mp hd with ⟨hj, rfl⟩
  have hnodup := names_nodup_of_validate hvalid
  have hleft := hnodup.idxOf_getElem i (by simpa using hi)
  have hright := hnodup.idxOf_getElem j (by simpa using hj)
  rw [<- hleft, <- hright, List.getElem_map, List.getElem_map, hname]

/-- In a valid table the physical name of a column leads back to the column exactly when the
column is not shadowed. -/
theorem findColumn?_name {t : Table} (hvalid : t.validate = .ok ()) {i : Nat} {c : Column}
    (hc : t.columns[i]? = some c) :
    exists j d, t.findColumn? c.name = some (j, d) ∧ t.columns[j]? = some d ∧
      (j = i <-> ¬ t.Shadowed i) := by
  unfold findColumn?
  cases hfield : t.firstColumn? (·.field == c.name) with
  | some found =>
      rcases found with ⟨j, d⟩
      rcases firstColumn?_eq_some_iff.mp hfield with ⟨hd, hdfield, hbefore⟩
      have hdname : d.field = c.name := by simpa using hdfield
      refine ⟨j, d, rfl, hd, ?_⟩
      constructor
      · rintro rfl ⟨c', hc', k, e, he, hefield, hother⟩
        rw [hc] at hd hc'
        cases hd
        cases hc'
        cases hother with
        | inl hkj =>
            have hno := hbefore k e hkj he
            simp [hefield] at hno
        | inr hne => exact hne hdname
      · intro hclear
        refine Decidable.byContradiction fun hji => hclear ⟨c, hc, ?_⟩
        by_cases hown : c.field = c.name
        · have hij : ¬ i < j := by
            intro hij
            have hno := hbefore i c hij hc
            simp [hown] at hno
          exact ⟨j, d, hd, hdname, Or.inl (by omega)⟩
        · exact ⟨j, d, hd, hdname, Or.inr hown⟩
  | none =>
      have hnone := firstColumn?_eq_none_iff.mp hfield
      have hname : t.firstColumn? (·.name == c.name) = some (i, c) := by
        refine firstColumn?_eq_some_iff.mpr ⟨hc, by simp, ?_⟩
        intro j d hj hd
        have hne : d.name ≠ c.name := by
          intro heq
          have := index_unique_of_validate hvalid hd hc heq
          omega
        simpa using hne
      refine ⟨i, c, by rw [hname]; rfl, hc, ?_⟩
      constructor
      · rintro - ⟨c', hc', k, e, he, hefield, -⟩
        rw [hc] at hc'
        cases hc'
        have hno := hnone k e he
        simp [hefield] at hno
      · intro _
        rfl

end Table
end TypedQuery
