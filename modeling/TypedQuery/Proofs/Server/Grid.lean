import Mathlib.Algebra.Group.Nat.Defs
import TypedQuery.Sql.Value

/-!
# Rectangular arrays

An array of the server has a length in each of its dimensions, and all arrays at one depth have
the same length.  Items arranged in such a grid are the items of an array value.
-/

namespace TypedQuery

/-- Items in dimensions of the given lengths; without dimensions it is one item. -/
def Grid (α : Type) : List Nat -> Type
  | [] => α
  | length :: inner => { rows : List (Grid α inner) // rows.length = length }

namespace Grid

variable {α β : Type} {length : Nat} {inner lengths : List Nat}

def rows (g : Grid α (length :: inner)) : List (Grid α inner) := g.1

theorem length_rows (g : Grid α (length :: inner)) : g.rows.length = length := g.2

theorem rows_ne_nil (g : Grid α (length :: inner)) (h : length ≠ 0) : g.rows ≠ [] := by
  intro hnil
  rw [<- g.length_rows, hnil] at h
  exact h rfl

def map (f : α -> β) : {lengths : List Nat} -> Grid α lengths -> Grid β lengths
  | [], item => f item
  | _ :: _, g => ⟨g.rows.map (map f), by rw [List.length_map, g.length_rows]⟩

def items : {lengths : List Nat} -> Grid α lengths -> List α
  | [], item => [item]
  | _ :: _, g => g.rows.flatMap items

theorem mem_items_of_mem_rows {g : Grid α (length :: inner)} {row : Grid α inner}
    (hrow : row ∈ g.rows) {item : α} (hitem : item ∈ row.items) : item ∈ g.items :=
  List.mem_flatMap.mpr ⟨row, hrow, hitem⟩

theorem length_items : forall {lengths : List Nat} (g : Grid α lengths),
    g.items.length = lengths.prod
  | [], _ => rfl
  | length :: inner, g => by
      have hrow : forall row, row ∈ g.rows -> row.items.length = inner.prod :=
        fun row _ => row.length_items
      rw [items, List.length_flatMap, List.map_congr_left hrow, List.map_const',
        List.sum_replicate_nat, g.length_rows, List.prod_cons]

/-- As many items as the dimensions ask for fill them row by row. -/
theorem exists_items_eq : forall (lengths : List Nat) (xs : List α), xs.length = lengths.prod ->
    exists g : Grid α lengths, g.items = xs
  | [], xs, h => by
      rcases List.length_eq_one_iff.mp h with ⟨x, rfl⟩
      exact ⟨x, rfl⟩
  | length :: inner, xs, h => by
      rw [List.prod_cons] at h
      have hrows : exists rows : List (Grid α inner), rows.length = length ∧
          rows.flatMap items = xs := by
        induction length generalizing xs with
        | zero =>
            rw [Nat.zero_mul] at h
            exact ⟨[], rfl, (List.eq_nil_of_length_eq_zero h).symm⟩
        | succ count ih =>
            rw [Nat.succ_mul] at h
            have hfront : (xs.take inner.prod).length = inner.prod :=
              List.length_take_of_le (by omega)
            have hback : (xs.drop inner.prod).length = count * inner.prod := by
              rw [List.length_drop, h]
              omega
            rcases exists_items_eq inner (xs.take inner.prod) hfront with ⟨row, hrow⟩
            rcases ih (xs.drop inner.prod) hback with ⟨rows, hcount, hrows⟩
            refine ⟨row :: rows, by rw [List.length_cons, hcount], ?_⟩
            rw [List.flatMap_cons, hrow, hrows, List.take_append_drop]
      rcases hrows with ⟨rows, hcount, hitems⟩
      exact ⟨⟨rows, hcount⟩, hitems⟩

def value : {lengths : List Nat} -> Grid Value lengths -> Value
  | [], item => item
  | _ :: _, g => .array (g.rows.map value)

theorem value_eq (g : Grid Value (length :: inner)) : g.value = .array (g.rows.map value) := rfl

theorem value_of_zero (g : Grid Value (0 :: inner)) : g.value = .array [] := by
  rw [value_eq, List.eq_nil_of_length_eq_zero g.length_rows, List.map_nil]

theorem exists_value_eq (g : Grid Value [length]) :
    exists items, items.length = length ∧ g.value = .array items ∧ g.items = items :=
  ⟨g.rows, g.length_rows, congrArg Value.array (List.map_id g.rows),
    List.flatMap_singleton' g.rows⟩

theorem value_map (f : α -> Value) (g : Grid α (length :: inner)) :
    (g.map f).value = .array (g.rows.map fun row => (row.map f).value) := by
  rw [value_eq]
  exact congrArg Value.array List.map_map

theorem value_map_eq_iff (g : Grid α lengths) {f h : α -> Value} :
    (g.map f).value = (g.map h).value <-> forall item, item ∈ g.items -> f item = h item := by
  induction lengths with
  | nil =>
      change f g = h g <-> forall item, item ∈ [g] -> f item = h item
      simp
  | cons length inner ih =>
      simp only [value_map, items, Value.array.injEq, List.map_inj_left, List.mem_flatMap]
      constructor
      · rintro heq item ⟨row, hrow, hitem⟩
        exact (ih row).mp (heq row hrow) item hitem
      · intro heq row hrow
        exact (ih row).mpr fun item hitem => heq item ⟨row, hrow, hitem⟩

end Grid
end TypedQuery
