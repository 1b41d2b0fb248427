import TypedQuery.Error

/-!
# Tables

A table descriptor binds a model to a physical table and its fields to columns.  A column is
found by its field first and by its physical name second.
-/

namespace TypedQuery

/-- A model field and the column behind it. -/
structure Column where
  field : String
  name : String
  type : SqlType
  primaryKey : Bool := false
  autoIncrement : Bool := false
  nullable : Bool := false
deriving DecidableEq, Inhabited

def Column.quoted (c : Column) : String := Text.quoteIdent c.name

structure Table where
  model : String
  name : String
  schema : Option String
  columns : List Column
deriving DecidableEq, Inhabited

namespace Table

def qualifiedName (t : Table) : String := Text.qualifiedIdent t.schema t.name

def firstColumn? (t : Table) (p : Column -> Bool) : Option (Nat × Column) :=
  (t.columns.zipIdx.find? fun (c, _) => p c).map fun (c, i) => (i, c)

def findColumn? (t : Table) (name : String) : Option (Nat × Column) :=
  (t.firstColumn? (·.field == name)).or (t.firstColumn? (·.name == name))

def requireColumn (t : Table) (name : String) : Result (Nat × Column) :=
  match t.findColumn? name with
  | some found => .ok found
  | none => .error (.mapping (.noColumn t.model name))

def primaryKey? (t : Table) : Option (Nat × Column) := t.firstColumn? (·.primaryKey)

/-- The columns a default INSERT writes: those whose value the server does not make up. -/
def insertable (t : Table) : List Nat :=
  t.columns.zipIdx.filterMap fun (c, i) => if c.autoIncrement then none else some i

/-- The first column whose name an earlier column has. -/
private def repeated? (earlier : List String) : List Column -> Option String
  | [] => none
  | c :: rest =>
      if earlier.contains c.name then some c.name else repeated? (c.name :: earlier) rest

/-- A table needs a column, no column name may come twice, and at most one column is the primary
key. -/
def validate (t : Table) : Result Unit :=
  if t.columns.isEmpty then .error (.mapping (.noColumns t.model))
  else
    match repeated? [] t.columns with
    | some column => .error (.mapping (.columnTwice t.model column))
    | none =>
        if (t.columns.filter (·.primaryKey)).length > 1 then
          .error (.mapping (.severalKeys t.model))
        else .ok ()

private theorem names_nodup_of_repeated?_eq_none {earlier : List String} {columns : List Column}
    (h : repeated? earlier columns = none) :
    (forall c, c ∈ columns -> c.name ∉ earlier) ∧ (columns.map (·.name)).Nodup := by
  induction columns generalizing earlier with
  | nil => simp
  | cons c rest ih =>
      rw [repeated?] at h
      split at h
      · cases h
      · rename_i hfresh
        have ⟨hrest, hnodup⟩ := ih h
        have hc : c.name ∉ earlier := by simpa using hfresh
        constructor
        · intro d hd
          cases hd with
          | head => exact hc
          | tail _ hd => exact fun hmem => hrest d hd (List.mem_cons_of_mem _ hmem)
        · rw [List.map_cons, List.nodup_cons]
          refine ⟨?_, hnodup⟩
          intro hmem
          have ⟨d, hd, hname⟩ := List.mem_map.mp hmem
          exact hrest d hd (hname ▸ List.mem_cons_self)

/-- No two columns of a valid table have the same name. -/
theorem names_nodup_of_validate {t : Table} (h : t.validate = .ok ()) :
    (t.columns.map (·.name)).Nodup := by
  unfold validate at h
  split at h
  · cases h
  · split at h
    · cases h
    · rename_i hnone
      exact (names_nodup_of_repeated?_eq_none hnone).2

end Table

end TypedQuery
