import TypedQuery.Schema.Declaration
import TypedQuery.Statement.Select

/-!
# Queries that builder calls make

A query starts with a model and is changed by builder calls only.  What every call keeps holds for
all of them: the slots are numbered in the order of the tables, the tables are valid, and unless an
error is kept there is one condition for each table but the first.
-/

namespace TypedQuery

def Model.IsValid (m : Model) : Prop := forall t, m.table = .ok t -> t.validate = .ok ()

theorem Model.isValid_of_validate {name : String} {t : Table} {hosts : List FieldHost}
    (h : t.validate = .ok ()) : Model.IsValid ⟨name, .ok t, hosts⟩ := by
  intro t' ht
  cases ht
  exact h

namespace Select

inductive Built : {α : Type} -> Select α -> Prop where
  | ofModel {m : Model} (hm : m.IsValid) : Built (ofModel m)
  | map {α β : Type} {s : Select α} (h : Built s) (f : α -> β) : Built (s.map f)
  | withRegistry {α : Type} {s : Select α} (h : Built s) (calls : CallRegistry) :
      Built (s.withRegistry calls)
  | filter {α : Type} {s : Select α} (h : Built s) (predicate : Expr) : Built (s.filter predicate)
  | exclude {α : Type} {s : Select α} (h : Built s) (predicate : Expr) :
      Built (s.exclude predicate)
  | leftJoin {α : Type} {s : Select α} (h : Built s) {m : Model} (hm : m.IsValid) (on : Expr) :
      Built (s.leftJoin m on)
  | scalar {α : Type} {s : Select α} (h : Built s) (host : FieldHost) (e : Expr) :
      Built (s.scalar host e)
  | fields {α : Type} {s : Select α} (h : Built s) (es : List Expr) : Built (s.fields es)
  | shape {α : Type} {s : Select α} (h : Built s) (entries : List (String × ShapeEntry)) :
      Built (s.shape entries)
  | order {α : Type} {s : Select α} (h : Built s) (item : OrderItem) : Built (s.order item)
  | withLimit {α : Type} {s : Select α} (h : Built s) (n : Nat) : Built (s.withLimit n)
  | withOffset {α : Type} {s : Select α} (h : Built s) (n : Nat) : Built (s.withOffset n)
  | distinctRows {α : Type} {s : Select α} (h : Built s) : Built s.distinctRows

structure WellFormed {α : Type} (s : Select α) : Prop where
  slots : s.tables.map (·.1) = (List.range s.tables.length).map Slot.ofPosition
  valid : forall slot t, (slot, t) ∈ s.tables -> t.validate = .ok ()
  joins : s.error = none -> s.joins.length + 1 = s.tables.length

variable {α β : Type} {s : Select α}

theorem WellFormed.slot_eq (h : s.WellFormed) {i : Nat} {slot : Slot} {t : Table}
    (hentry : s.tables[i]? = some (slot, t)) : slot = .ofPosition i := by
  have hslot : (s.tables.map (·.1))[i]? = some slot := by
    rw [List.getElem?_map, hentry]
    rfl
  rcases List.getElem?_eq_some_iff.mp hentry with ⟨hi, -⟩
  rw [h.slots, List.getElem?_map, List.getElem?_range hi] at hslot
  exact (Option.some.inj hslot).symm

/-- A call that adds no table and forgets no error keeps a query well formed. -/
theorem WellFormed.of_same_tables (h : s.WellFormed) {s' : Select β}
    (htables : s'.tables = s.tables) (hjoins : s'.joins = s.joins)
    (herror : s'.error = none -> s.error = none) : s'.WellFormed where
  slots := by
    rw [htables]
    exact h.slots
  valid := by
    rw [htables]
    exact h.valid
  joins := by
    rw [htables, hjoins]
    exact fun hnone => h.joins (herror hnone)

theorem error_fail_ne_none (s : Select α) (e : Error) : (s.fail e).error ≠ none := by
  unfold fail
  cases s.error <;> simp

theorem wellFormed_ofModel {m : Model} (hm : m.IsValid) : (ofModel m).WellFormed := by
  unfold ofModel
  split
  · rename_i t ht
    constructor
    · rfl
    · intro slot t' hmem
      cases List.mem_singleton.mp hmem
      exact hm t ht
    · intro _
      rfl
  · constructor
    · rfl
    · intro slot t hmem
      cases hmem
    · intro hnone
      cases hnone

theorem WellFormed.leftJoin (h : s.WellFormed) {m : Model} (hm : m.IsValid) (on : Expr) :
    (s.leftJoin m on).WellFormed := by
  unfold Select.leftJoin reshape
  cases ht : m.table with
  | ok t =>
      constructor
      · simp [h.slots, List.range_succ]
      · intro slot t' hmem
        rcases List.mem_append.mp hmem with hold | hnew
        · exact h.valid slot t' hold
        · cases List.mem_singleton.mp hnew
          exact hm t ht
      · intro hnone
        have hlength := h.joins hnone
        simp [hlength]
  | error e =>
      refine h.of_same_tables rfl rfl ?_
      intro hnone
      exact absurd hnone (s.error_fail_ne_none e)

theorem WellFormed.shape (h : s.WellFormed) (entries : List (String × ShapeEntry)) :
    (s.shape entries).WellFormed := by
  unfold Select.shape
  dsimp only
  split
  · refine h.of_same_tables rfl rfl ?_
    intro hnone
    exact absurd hnone (error_fail_ne_none _ _)
  · exact h.of_same_tables rfl rfl id

/-- Every query that builder calls make of valid models is well formed. -/
theorem Built.wellFormed (h : s.Built) : s.WellFormed := by
  induction h with
  | ofModel hm => exact wellFormed_ofModel hm
  | map _ f ih => exact ih.of_same_tables rfl rfl id
  | withRegistry _ calls ih => exact ih.of_same_tables rfl rfl id
  | filter _ predicate ih => exact ih.of_same_tables rfl rfl id
  | exclude _ predicate ih => exact ih.of_same_tables rfl rfl id
  | leftJoin _ hm on ih => exact ih.leftJoin hm on
  | scalar _ host e ih => exact ih.of_same_tables rfl rfl id
  | fields _ es ih => exact ih.of_same_tables rfl rfl id
  | shape _ entries ih => exact ih.shape entries
  | order _ item ih => exact ih.of_same_tables rfl rfl id
  | withLimit _ n ih => exact ih.of_same_tables rfl rfl id
  | withOffset _ n ih => exact ih.of_same_tables rfl rfl id
  | distinctRows _ ih => exact ih.of_same_tables rfl rfl id

end Select
end TypedQuery
