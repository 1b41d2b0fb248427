import TypedQuery.Proofs.Server.Grid
import TypedQuery.Proofs.Wire.ArrayBytes
import TypedQuery.Proofs.Wire.ArrayText
import TypedQuery.Wire.Parameter

/-!
# Arrays that the server sends in binary format

The server sends the elements of an array in the order of its rows.  The reader arranges them by
the lengths of the dimensions, so it gives back the rows that were sent.
-/

namespace TypedQuery
namespace Wire

open Number

/-!
## Elements
-/

/-- A value of the server by its type.  Texts and labels are of any type that is not read as
something else. -/
inductive Scalar : Oid -> Type
  | bool (b : Bool) : Scalar Oid.bool
  | int2 (n : Int16) : Scalar Oid.int2
  | int4 (n : Int32) : Scalar Oid.int4
  | int8 (n : Int64) : Scalar Oid.int8
  | label {type : Oid} (text : String) (textual : type.IsTextual)
      (length_lt : text.toUTF8.data.toList.length < twoPow 31) : Scalar type
  | bytea (bytes : List UInt8) (length_lt : bytes.length < twoPow 31) : Scalar Oid.bytea
  | uuid (u : Uuid) : Scalar Oid.uuid
  | interval (i : Interval) : Scalar Oid.interval

theorem length_intervalBytes (i : Interval) : (intervalBytes i).length = 16 := by
  simp only [intervalBytes, List.length_append, BigEndian.length_ofInt]

namespace Scalar

variable {type : Oid}

def bytes : {type : Oid} -> Scalar type -> List UInt8
  | _, bool b => [if b then 1 else 0]
  | _, int2 n => BigEndian.ofInt 2 n.toInt
  | _, int4 n => BigEndian.ofInt 4 n.toInt
  | _, int8 n => BigEndian.ofInt 8 n.toInt
  | _, label text _ _ => text.toUTF8.data.toList
  | _, bytea bytes _ => bytes
  | _, uuid u => u.bytes
  | _, interval i => intervalBytes i

def value : {type : Oid} -> Scalar type -> Value
  | _, bool b => .bool b
  | _, int2 n => .int (.ofInt n.toInt)
  | _, int4 n => .int n
  | _, int8 n => .bigint n
  | _, label text _ _ => .text text
  | _, bytea bytes _ => .bytes bytes
  | _, uuid u => .uuid u
  | _, interval i => .interval i

theorem length_bytes_lt (s : Scalar type) : s.bytes.length < twoPow 31 := by
  cases s with
  | bool b => exact (by decide : 1 < twoPow 31)
  | int2 n =>
      rw [bytes, BigEndian.length_ofInt]
      decide
  | int4 n =>
      rw [bytes, BigEndian.length_ofInt]
      decide
  | int8 n =>
      rw [bytes, BigEndian.length_ofInt]
      decide
  | label text _ length_lt => exact length_lt
  | bytea bytes length_lt => exact length_lt
  | uuid u =>
      rw [bytes, u.length_eq]
      decide
  | interval i =>
      rw [bytes, length_intervalBytes]
      decide

end Scalar

theorem utf8?_toUTF8 (text : String) : utf8? text.toUTF8.data.toList = some text := by
  have hbytes : ByteArray.mk text.toUTF8.data.toList.toArray = text.toUTF8 := by
    rw [Array.toArray_toList]
  rw [utf8?, hbytes, String.fromUTF8?]
  exact dif_pos text.isValidUTF8

theorem exactly_of_length {count : Nat} {bytes : List UInt8} (h : bytes.length = count) :
    exactly count bytes = .ok bytes := if_pos h

theorem binaryElement_of_isTextual {element : Oid} (h : element.IsTextual) (bytes : List UInt8) :
    binaryElement element bytes = do return .text (<- readable (utf8? bytes)) := by
  simp only [Oid.IsTextual, Oid.interpreted, List.mem_cons, List.not_mem_nil, or_false,
    not_or] at h
  simp [binaryElement, h]

theorem toInt_int16 (n : Int16) : BigEndian.toInt (BigEndian.ofInt 2 n.toInt) = n.toInt := by
  have hlow := n.le_toInt
  have hhigh := n.toInt_lt
  exact BigEndian.toInt_ofInt (by change -(2 ^ 16 : Int) ≤ _; omega)
    (by change _ < (2 ^ 16 : Int); omega)

theorem toInt_int64 (n : Int64) : BigEndian.toInt (BigEndian.ofInt 8 n.toInt) = n.toInt := by
  have hlow := n.le_toInt
  have hhigh := n.toInt_lt
  exact BigEndian.toInt_ofInt (by change -(2 ^ 64 : Int) ≤ _; omega)
    (by change _ < (2 ^ 64 : Int); omega)

theorem intervalOfBytes_intervalBytes (i : Interval) :
    intervalOfBytes (intervalBytes i) = .ok i := by
  have hmicros : takeBytes 8 (intervalBytes i) =
      .ok (BigEndian.ofInt 8 i.microseconds.toInt, word i.days ++ word i.months) := by
    rw [intervalBytes, List.append_assoc]
    exact takeBytes_append (BigEndian.length_ofInt 8 _) _
  have hmonths := takeInt32_word i.months []
  rw [List.append_nil] at hmonths
  rw [intervalOfBytes, hmicros, Result.ok_bind]
  dsimp only
  rw [takeInt32_word, Result.ok_bind]
  dsimp only
  rw [hmonths, Result.ok_bind]
  dsimp only
  rw [toInt_int64, Int32.ofInt_toInt, Int32.ofInt_toInt, Int64.ofInt_toInt]
  rfl

/-- An element that is sent is read as its value. -/
theorem binaryElement_bytes {type : Oid} (s : Scalar type) :
    binaryElement type s.bytes = .ok s.value := by
  cases s with
  | bool b => cases b <;> rfl
  | int2 n =>
      change (exactly 2 (BigEndian.ofInt 2 n.toInt) >>= fun bytes =>
        Except.ok (Value.int (.ofInt (BigEndian.toInt bytes)))) = _
      rw [exactly_of_length (BigEndian.length_ofInt 2 _), Result.ok_bind, toInt_int16]
      rfl
  | int4 n =>
      change (exactly 4 (word n) >>= fun bytes =>
        Except.ok (Value.int (.ofInt (BigEndian.toInt bytes)))) = _
      rw [exactly_of_length (length_word n), Result.ok_bind, toInt_word, Int32.ofInt_toInt]
      rfl
  | int8 n =>
      change (exactly 8 (BigEndian.ofInt 8 n.toInt) >>= fun bytes =>
        Except.ok (Value.bigint (.ofInt (BigEndian.toInt bytes)))) = _
      rw [exactly_of_length (BigEndian.length_ofInt 8 _), Result.ok_bind, toInt_int64,
        Int64.ofInt_toInt]
      rfl
  | label text textual =>
      rw [binaryElement_of_isTextual textual, Scalar.bytes, utf8?_toUTF8]
      rfl
  | bytea bytes => rfl
  | uuid u =>
      change (exactly 16 u.bytes >>= fun bytes =>
        Except.ok (Value.uuid ((Uuid.ofBytes? bytes).getD default))) = _
      rw [exactly_of_length u.length_eq, Result.ok_bind, Uuid.ofBytes?, dif_pos u.length_eq]
      rfl
  | interval i =>
      change (intervalOfBytes (intervalBytes i) >>= fun i => Except.ok (Value.interval i)) = _
      rw [intervalOfBytes_intervalBytes, Result.ok_bind]
      rfl

/-!
## Rows
-/

namespace ArrayBytes

variable {inner : List Nat}

theorem cut_rows {one : List Value -> Value × List Value}
    (hone : forall (row : Grid Value inner) rest, one (row.items ++ rest) = (row.value, rest))
    (rows : List (Grid Value inner)) (rest : List Value) :
    cut one rows.length (rows.flatMap Grid.items ++ rest) = (rows.map Grid.value, rest) := by
  induction rows with
  | nil => rfl
  | cons row more ih =>
      rw [List.flatMap_cons, List.append_assoc, List.length_cons, cut, hone]
      dsimp only
      rw [ih]
      rfl

/-- The items of a grid, one row after the other, are arranged as its rows. -/
theorem nest_items {length : Nat} (g : Grid Value (length :: inner)) (rest : List Value) :
    nest (length :: inner) (g.items ++ rest) = (g.value, rest) := by
  induction inner generalizing length rest with
  | nil =>
      rcases g.exists_value_eq with ⟨items, hlength, hvalue, hitems⟩
      rw [nest, hvalue, hitems, List.take_left' hlength, List.drop_left' hlength]
  | cons next more ih =>
      have hrows := cut_rows ih g.rows rest
      rw [g.length_rows] at hrows
      rw [nest, Grid.items, hrows, Grid.value_eq]
      simp

theorem toNat_count (lengths : List Nat) :
    (count lengths).toNat = lengths.prod % twoPow 64 := by
  have hfold : forall start : UInt64,
      (lengths.foldl (fun count length => count * .ofNat length) start).toNat =
        start.toNat * lengths.prod % twoPow 64 := by
    induction lengths with
    | nil =>
        intro start
        rw [List.foldl_nil, List.prod_nil, Nat.mul_one]
        exact (Nat.mod_eq_of_lt start.toNat_lt).symm
    | cons length more ih =>
        intro start
        have hstep : (start * .ofNat length).toNat = start.toNat * length % twoPow 64 := by
          rw [UInt64.toNat_mul, UInt64.toNat_ofNat', Nat.mul_mod_mod]
          rfl
        rw [List.foldl_cons, ih, hstep, List.prod_cons, Nat.mod_mul_mod, Nat.mul_assoc]
  exact (hfold 1).trans (by rw [UInt64.toNat_one, Nat.one_mul])

end ArrayBytes

/-!
## Whole arrays
-/

/-- An array of the server with at least one dimension.  Its elements are in the order of the rows,
and their number fits a word of 64 bits. -/
structure SentArray (type : UInt32) where
  flags : Int32
  first : Extent
  inner : List Extent
  elements : List (Option (Scalar type.toNat))
  length_elements : elements.length = ((first :: inner).map (·.length)).prod
  dimensions_lt : (first :: inner).length < twoPow 31
  elements_lt : elements.length < twoPow 64

namespace SentArray

variable {type : UInt32}

def lengths (a : SentArray type) : List Nat := (a.first :: a.inner).map (·.length)

def sentElement : Option (Scalar type.toNat) -> Cell
  | none => .missing
  | some s => .filled s.bytes s.length_bytes_lt

def receivedElement : Option (Scalar type.toNat) -> Value
  | none => .null
  | some s => s.value

def layout (a : SentArray type) : Layout where
  dimensions := .ofNat (a.first :: a.inner).length
  flags := a.flags
  element := type
  extents := a.first :: a.inner
  cells := a.elements.map sentElement
  rest := []
  counted := by rw [toInt_ofNat a.dimensions_lt, Int.toNat_natCast]

def emptyLayout (flags : Int32) (type : UInt32) : Layout where
  dimensions := 0
  flags := flags
  element := type
  extents := []
  cells := []
  rest := []
  counted := rfl

theorem length_cells (a : SentArray type) : a.layout.cells.length = a.layout.taken := by
  have hcount := ArrayBytes.toNat_count a.lengths
  rw [lengths, <- a.length_elements, Nat.mod_eq_of_lt a.elements_lt] at hcount
  have htaken : a.layout.taken = (ArrayBytes.count a.lengths).toNat :=
    if_neg (List.cons_ne_nil a.first a.inner)
  rw [htaken]
  exact (List.length_map _).trans hcount.symm

theorem mapM_cells (elements : List (Option (Scalar type.toNat))) :
    (elements.map sentElement).mapM (Cell.value type.toNat) =
      .ok (elements.map receivedElement) := by
  induction elements with
  | nil => rfl
  | cons e more ih =>
      have hfirst : (sentElement e).value type.toNat = .ok (receivedElement e) := by
        cases e with
        | none => rfl
        | some s => exact binaryElement_bytes s
      rw [List.map_cons, List.mapM_cons, hfirst, ih]
      rfl

end SentArray

/-- For every array of the server, the bytes it is sent as are read as the array with the same
elements in the order of its rows; and those of an array without dimensions as the empty array. -/
theorem sent_arrays_read (type : UInt32) :
    (forall a : SentArray type, exists g : Grid Value a.lengths,
      g.items = a.elements.map SentArray.receivedElement ∧
        ArrayBytes.read a.layout.bytes = .ok g.value) ∧
      forall flags : Int32,
        ArrayBytes.read (SentArray.emptyLayout flags type).bytes = .ok (.array []) := by
  constructor
  · intro a
    have hlength : (a.elements.map SentArray.receivedElement).length = a.lengths.prod :=
      (List.length_map _).trans a.length_elements
    rcases Grid.exists_items_eq a.lengths _ hlength with ⟨g, hitems⟩
    refine ⟨g, hitems, ?_⟩
    have hnest : ArrayBytes.nest a.lengths (g.items ++ []) = (g.value, []) :=
      ArrayBytes.nest_items g []
    have hnested : a.layout.nested (a.elements.map SentArray.receivedElement) = g.value := by
      rw [List.append_nil, hitems] at hnest
      exact (if_neg (List.cons_ne_nil a.first a.inner)).trans (congrArg Prod.fst hnest)
    rw [ArrayBytes.read_layout a.layout a.length_cells, Layout.value]
    change (do return a.layout.nested (<- (a.elements.map SentArray.sentElement).mapM
      (Cell.value type.toNat))) = _
    rw [SentArray.mapM_cells, Result.ok_bind, hnested]
    rfl
  · intro flags
    exact ArrayBytes.read_layout (SentArray.emptyLayout flags type) rfl

/-- Two rows of two integers, one of them NULL, with indices from one. -/
def SentArray.square : SentArray 23 where
  flags := 1
  first := .few 2 1
  inner := [.few 2 1]
  elements := [some (.int4 1), none, some (.int4 (-3)), some (.int4 4)]
  length_elements := rfl
  dimensions_lt := by decide
  elements_lt := by decide

theorem square_read :
    ArrayBytes.read SentArray.square.layout.bytes =
      .ok (.array [.array [.int 1, .null], .array [.int (-3), .int 4]]) := by
  rcases (sent_arrays_read 23).1 SentArray.square with ⟨g, hitems, hread⟩
  have hnest : ArrayBytes.nest [2, 2] (g.items ++ []) = (g.value, []) :=
    ArrayBytes.nest_items g []
  rw [List.append_nil, hitems] at hnest
  exact hread.trans (congrArg Except.ok (congrArg Prod.fst hnest).symm)

end Wire
end TypedQuery
