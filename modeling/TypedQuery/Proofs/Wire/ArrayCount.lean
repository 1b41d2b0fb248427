import Mathlib.Algebra.Order.BigOperators.GroupWithZero.List
import Mathlib.Tactic.Ring
import TypedQuery.Proofs.Wire.SentArray

/-!
# What the header of an array asks for

The header of an array in binary format names a length for each dimension.  The reader multiplies
them without a look at the bytes that are there, makes room for as many elements, and builds an
array for every index of all dimensions but the last.  Too few bytes are an error later on, so an
array that is read has bytes for each element that was counted; but the count wraps around, and
arrays without elements take no bytes.
-/

namespace TypedQuery

open Number

/-- The arrays in the outermost levels of a value, the value itself included. -/
def Value.arrays : Nat -> Value -> Nat
  | levels + 1, .array items => 1 + (items.map (Value.arrays levels)).sum
  | _, _ => 0

namespace Wire
namespace ArrayBytes

/-- The number of arrays for so many dimensions: the outermost one, and for each of its items as
many as the inner dimensions need. -/
def built : List Nat -> Nat
  | length :: next :: inner => 1 + length * built (next :: inner)
  | _ => 1

/-- What a header asks for is within the size of its bytes. -/
structure Header.IsBounded (h : Header) (size : Nat) : Prop where
  product_lt : h.lengths.prod < twoPow 64
  room_le : (count h.lengths).toNat ≤ size
  built_le : built h.lengths ≤ size

/-!
## Arrays that are built
-/

theorem map_cut {α : Type} {one : List Value -> Value × List Value} (f : Value -> α) {a : α}
    (hone : forall values, f (one values).1 = a) (count : Nat) (values : List Value) :
    (cut one count values).1.map f = List.replicate count a := by
  induction count generalizing values with
  | zero => rfl
  | succ count ih =>
      rw [cut, List.map_cons, hone, ih]
      rfl

theorem arrays_nest {length : Nat} {inner : List Nat} (values : List Value) :
    (nest (length :: inner) values).1.arrays (length :: inner).length =
      built (length :: inner) := by
  induction inner generalizing length values with
  | nil =>
      have hleaves : forall items : List Value, (items.map (Value.arrays 0)).sum = 0 := by
        intro items
        induction items with
        | nil => rfl
        | cons item more ih => rw [List.map_cons, List.sum_cons, ih]; cases item <;> rfl
      exact congrArg (1 + ·) (hleaves _)
  | cons next more ih =>
      have hrows := map_cut (Value.arrays (next :: more).length)
        (fun values => ih values) length values
      rw [nest, built, List.length_cons, Value.arrays, hrows, List.sum_replicate_nat]
      exact List.cons_ne_nil _ _

theorem built_le {length : Nat} {inner : List Nat}
    (hpositive : forall n, n ∈ length :: inner -> 0 < n) :
    built (length :: inner) ≤ 1 + inner.length * (length :: inner).prod := by
  induction inner generalizing length with
  | nil => exact Nat.le_add_right 1 _
  | cons next more ih =>
      have hmore := ih fun n hn => hpositive n (List.mem_cons_of_mem length hn)
      have hprod : 0 < (next :: more).prod :=
        List.prod_pos fun n hn => hpositive n (List.mem_cons_of_mem length hn)
      have houter : (length :: next :: more).prod = length * (next :: more).prod := List.prod_cons
      calc built (length :: next :: more)
          = 1 + length * built (next :: more) := rfl
        _ ≤ 1 + length * ((next :: more).prod + more.length * (next :: more).prod) :=
            Nat.add_le_add_left (Nat.mul_le_mul_left length (hmore.trans (by omega))) 1
        _ = 1 + (next :: more).length * (length :: next :: more).prod := by
            rw [houter, List.length_cons]
            ring

/-!
## Bytes that are there
-/

theorem length_flatMap_cells (cells : List Cell) :
    4 * cells.length ≤ (cells.flatMap Cell.bytes).length := by
  induction cells with
  | nil => exact Nat.le_refl 0
  | cons c more ih =>
      have hfirst := c.length_bytes_ge
      rw [List.flatMap_cons, List.length_append, List.length_cons]
      omega

theorem length_opening (l : Layout) : l.opening.length = 12 + 8 * l.extents.length := by
  have hextents : (l.extents.flatMap Extent.bytes).length = 8 * l.extents.length := by
    induction l.extents with
    | nil => rfl
    | cons e more ih =>
        rw [List.flatMap_cons, List.length_append, ih, e.length_bytes, List.length_cons]
        omega
  simp only [Layout.opening, List.length_append, length_word, length_typeWord, hextents]
  omega

/-- An array that is read has a word for every element that was counted. -/
theorem count_le_of_read {bytes : List UInt8} {h : Header} {v : Value}
    (hheader : header bytes = .ok h) (hne : h.lengths ≠ []) (hread : read bytes = .ok v) :
    12 + 8 * h.lengths.length + 4 * (count h.lengths).toNat ≤ bytes.length := by
  rcases exists_layout hread with ⟨l, rfl, hcells⟩
  rw [header_layout] at hheader
  cases hheader
  have hextents : l.extents ≠ [] := fun hnil => hne (by rw [Layout.lengths, hnil, List.map_nil])
  have hopening := length_opening l
  have hwords := length_flatMap_cells l.cells
  have hlengths : l.lengths.length = l.extents.length := List.length_map _
  rw [Layout.taken, if_neg hextents] at hcells
  rw [hcells] at hwords
  change 12 + 8 * l.lengths.length + 4 * (count l.lengths).toNat ≤ _
  rw [Layout.bytes, List.length_append, List.length_append, hopening, hlengths]
  omega

theorem arrays_of_read {bytes : List UInt8} {h : Header} {v : Value}
    (hheader : header bytes = .ok h) (hne : h.lengths ≠ []) (hread : read bytes = .ok v) :
    v.arrays h.lengths.length = built h.lengths := by
  rw [read_of_header hheader, if_neg hne] at hread
  rcases Result.bind_eq_ok.mp hread with ⟨values, -, heq⟩
  cases heq
  rcases List.exists_cons_of_ne_nil hne with ⟨length, inner, hlengths⟩
  rw [hlengths]
  exact arrays_nest values

/-- A header is bounded for the number of its bytes if the array is read, at most five lengths are
there, none of them zero, and their product is not too great. -/
theorem isBounded_of_read {bytes : List UInt8} {h : Header} {v : Value}
    (hheader : header bytes = .ok h) (hne : h.lengths ≠ []) (hread : read bytes = .ok v)
    (hproduct : h.lengths.prod < twoPow 64) (hpositive : forall n, n ∈ h.lengths -> 0 < n)
    (hfew : h.lengths.length ≤ 5) : h.IsBounded bytes.length := by
  have hsize := count_le_of_read hheader hne hread
  have hcount := toNat_count h.lengths
  rw [Nat.mod_eq_of_lt hproduct] at hcount
  refine ⟨hproduct, by omega, ?_⟩
  rcases List.exists_cons_of_ne_nil hne with ⟨length, inner, hlengths⟩
  rw [hlengths] at hpositive hfew hsize hcount ⊢
  have hbuilt := built_le hpositive
  have hlevels : inner.length * (length :: inner).prod ≤ 4 * (length :: inner).prod :=
    Nat.mul_le_mul_right _ (Nat.le_of_succ_le_succ hfew)
  omega

theorem prod_lt_of_length_le {bytes : List UInt8} {h : Header}
    (hheader : header bytes = .ok h) (hfew : h.lengths.length ≤ 2) :
    h.lengths.prod < twoPow 64 := by
  rcases exists_opening hheader with ⟨l, -, -, hlengths, -, -⟩
  rw [<- hlengths, Layout.lengths] at hfew ⊢
  rw [List.length_map] at hfew
  generalize l.extents = extents at hfew ⊢
  rcases extents with _ | ⟨a, _ | ⟨b, _ | ⟨c, more⟩⟩⟩
  · decide
  · rw [List.map_singleton, List.prod_singleton]
    exact a.length_lt.trans (by decide)
  · have hproduct : a.length * b.length < twoPow 31 * twoPow 31 :=
      Nat.mul_lt_mul'' a.length_lt b.length_lt
    rw [List.map_cons, List.map_singleton, List.prod_cons, List.prod_singleton]
    exact hproduct.trans (by decide)
  · exact absurd hfew (by simp only [List.length_cons]; omega)

/-- What the header of an array asks for, for every byte string with a header: two lengths never
overflow; too few bytes are an error; and if the array is read, a level of it has as many arrays as
the lengths outside it have indices, so what was asked for is within the size of the bytes unless a
length is zero, there are more than five, or their product does not fit. -/
theorem array_header_bounds {bytes : List UInt8} {h : Header} (hheader : header bytes = .ok h)
    (hne : h.lengths ≠ []) :
    (h.lengths.length ≤ 2 -> h.lengths.prod < twoPow 64) ∧
      (bytes.length < 12 + 8 * h.lengths.length + 4 * (count h.lengths).toNat ->
        exists e, read bytes = .error e) ∧
      forall v, read bytes = .ok v -> v.arrays h.lengths.length = built h.lengths ∧
        (h.lengths.prod < twoPow 64 -> (forall n, n ∈ h.lengths -> 0 < n) ->
          h.lengths.length ≤ 5 -> h.IsBounded bytes.length) := by
  refine ⟨prod_lt_of_length_le hheader, ?_, ?_⟩
  · intro hshort
    cases hread : read bytes with
    | error e => exact ⟨e, rfl⟩
    | ok v =>
        have hsize := count_le_of_read hheader hne hread
        omega
  · intro v hread
    exact ⟨arrays_of_read hheader hne hread, isBounded_of_read hheader hne hread⟩

def cube : Layout where
  dimensions := 3
  flags := 1
  element := 23
  extents := [.few 2 1, .few 1 1, .few 2 0]
  cells := List.replicate 4 .missing
  rest := []
  counted := by decide

theorem cube_bounds :
    exists h v, header cube.bytes = .ok h ∧ h.lengths = [2, 1, 2] ∧ read cube.bytes = .ok v ∧
      v.arrays 3 = 5 ∧ h.IsBounded cube.bytes.length := by
  have hread := read_layout cube (by decide)
  rcases array_header_bounds (header_layout cube) (List.cons_ne_nil _ _) with ⟨-, -, hbounds⟩
  rcases hbounds _ hread with ⟨harrays, hbounded⟩
  exact ⟨_, _, header_layout cube, rfl, hread, harrays,
    hbounded (by decide) (by decide) (by decide)⟩

def hollow : Layout where
  dimensions := 2
  flags := 0
  element := 23
  extents := [.few 100 1, .few 0 1]
  cells := []
  rest := []
  counted := by decide

def wrapped : Layout where
  dimensions := 3
  flags := 0
  element := 23
  extents := [⟨4194304, 1, by decide⟩, ⟨2097152, 1, by decide⟩, ⟨2097152, 1, by decide⟩]
  cells := []
  rest := []
  counted := by decide

def roomy : Layout where
  dimensions := 1
  flags := 0
  element := 23
  extents := [⟨2147483647, 1, by decide⟩]
  cells := []
  rest := []
  counted := by decide

theorem array_headers_unbounded :
    (exists h v, header hollow.bytes = .ok h ∧ hollow.bytes.length = 28 ∧
      read hollow.bytes = .ok v ∧ v.arrays h.lengths.length = 101) ∧
    (exists h v, header wrapped.bytes = .ok h ∧ h.lengths.prod = twoPow 64 ∧
      wrapped.bytes.length = 36 ∧ read wrapped.bytes = .ok v ∧
      v.arrays h.lengths.length = 8796097216513) ∧
    (exists h, header roomy.bytes = .ok h ∧ roomy.bytes.length = 20 ∧
      (count h.lengths).toNat = 2147483647) := by
  have hhollow := read_layout hollow (by decide)
  have hwrapped := read_layout wrapped (by decide)
  have hrows : built hollow.lengths = 101 := by decide
  have hplanes : built wrapped.lengths = 8796097216513 := by decide
  refine ⟨⟨_, _, header_layout hollow, by decide, hhollow, ?_⟩,
    ⟨_, _, header_layout wrapped, by decide, by decide, hwrapped, ?_⟩,
    ⟨_, header_layout roomy, by decide, by decide⟩⟩
  · rw [arrays_of_read (header_layout hollow) (List.cons_ne_nil _ _) hhollow]
    exact hrows
  · rw [arrays_of_read (header_layout wrapped) (List.cons_ne_nil _ _) hwrapped]
    exact hplanes

end ArrayBytes
end Wire
end TypedQuery
