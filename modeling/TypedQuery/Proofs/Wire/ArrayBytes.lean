import Mathlib.Algebra.Group.Nat.Defs
import TypedQuery.Proofs.Result
import TypedQuery.Wire.Array

/-!
# Arrays in binary format

An array in binary format is a row of words and bytes: the number of dimensions, flags, the type
of the elements, the length and the lower bound of each dimension, and a cell for each element.
The reader accepts the bytes of such layouts whose cells can be read, and no others; and of the
layouts that it accepts there is one for the same bytes.
-/

namespace TypedQuery
namespace Wire

open Number

/-!
## Words and bytes
-/

theorem takeBytes_append {count : Nat} {head : List UInt8} (hlength : head.length = count)
    (rest : List UInt8) : takeBytes count (head ++ rest) = .ok (head, rest) := by
  have hle : ¬ (head ++ rest).length < count := by
    rw [List.length_append]
    omega
  rw [takeBytes, if_neg hle, List.take_left' hlength, List.drop_left' hlength]

theorem takeBytes_eq_ok {count : Nat} {bytes head rest : List UInt8} :
    takeBytes count bytes = .ok (head, rest) <-> head.length = count ∧ bytes = head ++ rest := by
  constructor
  · intro h
    unfold takeBytes at h
    split at h
    · cases h
    · rename_i hlength
      cases h
      exact ⟨List.length_take_of_le (by omega), (List.take_append_drop count bytes).symm⟩
  · rintro ⟨hlength, rfl⟩
    exact takeBytes_append hlength rest

def word (n : Int32) : List UInt8 := BigEndian.ofInt 4 n.toInt

@[simp]
theorem length_word (n : Int32) : (word n).length = 4 := BigEndian.length_ofInt 4 _

theorem toInt_word (n : Int32) : BigEndian.toInt (word n) = n.toInt := by
  have hlow := n.le_toInt
  have hhigh := n.toInt_lt
  exact BigEndian.toInt_ofInt (by change -(2 ^ 32 : Int) ≤ _; omega)
    (by change _ < (2 ^ 32 : Int); omega)

theorem word_inj {n n' : Int32} (h : word n = word n') : n = n' := by
  rw [<- Int32.toInt_inj, <- toInt_word, h, toInt_word]

theorem word_append_inj {n n' : Int32} {rest rest' : List UInt8}
    (h : word n ++ rest = word n' ++ rest') : n = n' ∧ rest = rest' := by
  rcases List.append_inj h (by rw [length_word, length_word]) with ⟨hword, hrest⟩
  exact ⟨word_inj hword, hrest⟩

theorem exists_word {bytes : List UInt8} (hlength : bytes.length = 4) :
    exists n : Int32, bytes = word n := by
  have hlow : -(2 ^ 31) ≤ BigEndian.toInt bytes := by
    rw [BigEndian.toInt, hlength]
    exact Int.le_bmod (by decide)
  have hhigh : BigEndian.toInt bytes < 2 ^ 31 := by
    rw [BigEndian.toInt, hlength]
    exact Int.bmod_lt (by decide)
  refine ⟨.ofInt (BigEndian.toInt bytes), ?_⟩
  rw [word, Int32.toInt_ofInt_of_le hlow hhigh, <- hlength, BigEndian.ofInt_toInt]

theorem takeInt32_word (n : Int32) (rest : List UInt8) :
    takeInt32 (word n ++ rest) = .ok (n.toInt, rest) := by
  rw [takeInt32, takeBytes_append (length_word n), Result.ok_bind]
  dsimp only
  rw [toInt_word]
  rfl

theorem takeInt32_eq_ok {bytes rest : List UInt8} {i : Int} :
    takeInt32 bytes = .ok (i, rest) <-> exists n : Int32, i = n.toInt ∧ bytes = word n ++ rest := by
  constructor
  · intro h
    rcases Result.bind_eq_ok.mp h with ⟨⟨head, tail⟩, htake, heq⟩
    rcases takeBytes_eq_ok.mp htake with ⟨hlength, rfl⟩
    rcases exists_word hlength with ⟨n, rfl⟩
    cases heq
    exact ⟨n, toInt_word n, rfl⟩
  · rintro ⟨n, rfl, rfl⟩
    exact takeInt32_word n rest

def typeWord (type : UInt32) : List UInt8 := BigEndian.ofNat 4 type.toNat

theorem length_typeWord (type : UInt32) : (typeWord type).length = 4 := BigEndian.length_ofNat _ _

theorem toNat_typeWord (type : UInt32) : BigEndian.toNat (typeWord type) = type.toNat :=
  (BigEndian.toNat_ofNat _ _).trans (Nat.mod_eq_of_lt type.toNat_lt)

theorem typeWord_inj {type type' : UInt32} (h : typeWord type = typeWord type') :
    type = type' := by
  rw [<- UInt32.toNat_inj, <- toNat_typeWord, h, toNat_typeWord]

theorem exists_typeWord {bytes : List UInt8} (hlength : bytes.length = 4) :
    exists type : UInt32, bytes = typeWord type := by
  have hlt := BigEndian.toNat_lt bytes
  rw [hlength] at hlt
  have hnumber : (UInt32.ofNat (BigEndian.toNat bytes)).toNat = BigEndian.toNat bytes :=
    UInt32.toNat_ofNat_of_lt hlt
  refine ⟨.ofNat (BigEndian.toNat bytes), BigEndian.toNat_inj ?_ ?_⟩
  · rw [length_typeWord, hlength]
  · rw [toNat_typeWord, hnumber]

/-!
## Layouts
-/

structure Extent where
  length : Nat
  lower : Int32
  length_lt : length < twoPow 31

/-- One element: a negative word for NULL, or its bytes behind their number. -/
inductive Cell where
  | null (mark : Int32) (negative : mark.toInt < 0)
  | filled (bytes : List UInt8) (length_lt : bytes.length < twoPow 31)

def lengthWord (length : Nat) : List UInt8 := word (.ofNat length)

theorem toInt_ofNat {length : Nat} (h : length < twoPow 31) :
    (Int32.ofNat length).toInt = length :=
  Int32.toInt_ofNat_of_lt h

theorem toNat_toInt_lt (n : Int32) : n.toInt.toNat < twoPow 31 := by
  have hhigh := n.toInt_lt
  change n.toInt.toNat < 2 ^ 31
  omega

theorem lengthWord_toNat {n : Int32} (h : ¬ n.toInt < 0) : lengthWord n.toInt.toNat = word n := by
  have hnumber : Int32.ofNat n.toInt.toNat = n := by
    rw [<- Int32.toInt_inj, toInt_ofNat (toNat_toInt_lt n)]
    omega
  rw [lengthWord, hnumber]

namespace Extent

def few (length : UInt8) (lower : Int32) : Extent :=
  ⟨length.toNat, lower, Nat.lt_trans length.toNat_lt (by decide)⟩

def bytes (e : Extent) : List UInt8 := lengthWord e.length ++ word e.lower

theorem length_bytes (e : Extent) : e.bytes.length = 8 := by
  rw [bytes, lengthWord, List.length_append, length_word, length_word]

end Extent

namespace Cell

def missing : Cell := null (-1) (by decide)

def bytes : Cell -> List UInt8
  | null mark _ => word mark
  | filled bytes _ => lengthWord bytes.length ++ bytes

def value (element : Oid) : Cell -> Result Value
  | null _ _ => .ok .null
  | filled bytes _ => binaryElement element bytes

theorem length_bytes_ge (c : Cell) : 4 ≤ c.bytes.length := by
  cases c with
  | null mark => exact Nat.le_of_eq (length_word mark).symm
  | filled bytes => simp [Cell.bytes, lengthWord]

end Cell

/-- The bytes of an array, cut up: as many dimensions as are announced, then the cells, and what
is left over. -/
structure Layout where
  dimensions : Int32
  flags : Int32
  element : UInt32
  extents : List Extent
  cells : List Cell
  rest : List UInt8
  counted : extents.length = dimensions.toInt.toNat

namespace Layout

def lengths (l : Layout) : List Nat := l.extents.map (·.length)

def opening (l : Layout) : List UInt8 :=
  word l.dimensions ++ (word l.flags ++ (typeWord l.element ++ l.extents.flatMap Extent.bytes))

def bytes (l : Layout) : List UInt8 := l.opening ++ (l.cells.flatMap Cell.bytes ++ l.rest)

/-- The number of cells that the reader takes: as many as it counts, and none for an array without
dimensions. -/
def taken (l : Layout) : Nat :=
  if l.extents = [] then 0 else (ArrayBytes.count l.lengths).toNat

def nested (l : Layout) (values : List Value) : Value :=
  if l.extents = [] then .array [] else (ArrayBytes.nest l.lengths values).1

def value (l : Layout) : Result Value := do
  return l.nested (<- l.cells.mapM (Cell.value l.element.toNat))

end Layout

/-!
## Reading a layout
-/

namespace ArrayBytes

theorem lengths_extents (extents : List Extent) (rest : List UInt8) :
    lengths extents.length (extents.flatMap Extent.bytes ++ rest) =
      .ok (extents.map (·.length), rest) := by
  induction extents with
  | nil => rfl
  | cons e more ih =>
      have hlength := toInt_ofNat e.length_lt
      have hnonneg : ¬ ((e.length : Int) < 0) := by omega
      rw [List.flatMap_cons, Extent.bytes, lengthWord, List.append_assoc, List.append_assoc,
        List.length_cons, lengths, takeInt32_word, Result.ok_bind]
      dsimp only
      rw [hlength, if_neg hnonneg, takeInt32_word, Result.ok_bind]
      dsimp only
      rw [ih]
      rfl

theorem exists_extents {count : Nat} {bytes rest : List UInt8} {ns : List Nat}
    (h : lengths count bytes = .ok (ns, rest)) :
    exists extents : List Extent, extents.length = count ∧ extents.map (·.length) = ns ∧
      bytes = extents.flatMap Extent.bytes ++ rest := by
  induction count generalizing bytes ns with
  | zero =>
      cases h
      exact ⟨[], rfl, rfl, rfl⟩
  | succ count ih =>
      rw [lengths] at h
      rcases Result.bind_eq_ok.mp h with ⟨⟨i, afterLength⟩, hlength, hnext⟩
      rcases takeInt32_eq_ok.mp hlength with ⟨n, rfl, rfl⟩
      dsimp only at hnext
      by_cases hnegative : n.toInt < 0
      · rw [if_pos hnegative] at hnext
        cases hnext
      · rw [if_neg hnegative] at hnext
        rcases Result.bind_eq_ok.mp hnext with ⟨⟨j, afterLower⟩, hlower, htail⟩
        rcases takeInt32_eq_ok.mp hlower with ⟨lower, -, rfl⟩
        rcases Result.bind_eq_ok.mp htail with ⟨⟨more, tail⟩, hmore, heq⟩
        cases heq
        rcases ih hmore with ⟨extents, hcount, rfl, rfl⟩
        refine ⟨⟨n.toInt.toNat, lower, toNat_toInt_lt n⟩ :: extents,
          by rw [List.length_cons, hcount], rfl, ?_⟩
        rw [List.flatMap_cons, Extent.bytes, lengthWord_toNat hnegative, List.append_assoc,
          List.append_assoc]

theorem header_layout (l : Layout) :
    header l.bytes = .ok ⟨l.element.toNat, l.lengths, l.cells.flatMap Cell.bytes ++ l.rest⟩ := by
  have hlengths := lengths_extents l.extents (l.cells.flatMap Cell.bytes ++ l.rest)
  rw [l.counted] at hlengths
  rw [header, Layout.bytes, Layout.opening]
  simp only [List.append_assoc, takeInt32_word, Result.ok_bind,
    takeBytes_append (length_typeWord l.element), hlengths, toNat_typeWord]
  rfl

theorem exists_opening {bytes : List UInt8} {h : Header} (hread : header bytes = .ok h) :
    exists l : Layout, l.cells = [] ∧ l.bytes = bytes ∧ l.lengths = h.lengths ∧
      l.element.toNat = h.element ∧ l.rest = h.rest := by
  rw [header] at hread
  rcases Result.bind_eq_ok.mp hread with ⟨⟨i, afterCount⟩, hcount, hflags⟩
  rcases takeInt32_eq_ok.mp hcount with ⟨dimensions, rfl, rfl⟩
  rcases Result.bind_eq_ok.mp hflags with ⟨⟨j, afterFlags⟩, htake, helement⟩
  rcases takeInt32_eq_ok.mp htake with ⟨flags, -, rfl⟩
  rcases Result.bind_eq_ok.mp helement with ⟨⟨element, afterElement⟩, htake, hextents⟩
  rcases takeBytes_eq_ok.mp htake with ⟨hwidth, rfl⟩
  rcases Result.bind_eq_ok.mp hextents with ⟨⟨ns, rest⟩, hlengths, heq⟩
  cases heq
  rcases exists_extents hlengths with ⟨extents, hcounted, rfl, rfl⟩
  rcases exists_typeWord hwidth with ⟨type, rfl⟩
  refine ⟨⟨dimensions, flags, type, extents, [], rest, hcounted⟩, rfl, ?_, rfl,
    (toNat_typeWord type).symm, rfl⟩
  simp only [Layout.bytes, Layout.opening, List.append_assoc, List.flatMap_nil, List.nil_append]

theorem elements_cells (element : Oid) (cells : List Cell) (rest : List UInt8) :
    elements element cells.length (cells.flatMap Cell.bytes ++ rest) =
      cells.mapM (Cell.value element) := by
  induction cells with
  | nil => rfl
  | cons c more ih =>
      rw [List.mapM_cons, <- ih, List.flatMap_cons, List.append_assoc, List.length_cons, elements]
      cases c with
      | null mark negative =>
          rw [Cell.bytes, takeInt32_word]
          rw [Result.ok_bind]
          dsimp only
          rw [if_pos negative]
          rfl
      | filled bytes length_lt =>
          have hlength := toInt_ofNat length_lt
          have hnonneg : ¬ ((bytes.length : Int) < 0) := by omega
          rw [Cell.bytes, lengthWord, List.append_assoc, takeInt32_word, Result.ok_bind]
          dsimp only
          rw [hlength, if_neg hnonneg, Int.toNat_natCast, takeBytes_append rfl, Result.ok_bind]
          rfl

theorem exists_cells {element : Oid} {count : Nat} {bytes : List UInt8} {values : List Value}
    (h : elements element count bytes = .ok values) :
    exists (cells : List Cell) (rest : List UInt8), cells.length = count ∧
      bytes = cells.flatMap Cell.bytes ++ rest := by
  induction count generalizing bytes values with
  | zero => exact ⟨[], bytes, rfl, rfl⟩
  | succ count ih =>
      rw [elements] at h
      rcases Result.bind_eq_ok.mp h with ⟨⟨i, afterWord⟩, hword, hnext⟩
      rcases takeInt32_eq_ok.mp hword with ⟨n, rfl, rfl⟩
      dsimp only at hnext
      by_cases hnegative : n.toInt < 0
      · rw [if_pos hnegative] at hnext
        rcases Result.bind_eq_ok.mp hnext with ⟨more, hmore, -⟩
        rcases ih hmore with ⟨cells, rest, hcount, rfl⟩
        exact ⟨.null n hnegative :: cells, rest, by rw [List.length_cons, hcount],
          (List.append_assoc _ _ _).symm⟩
      · rw [if_neg hnegative] at hnext
        rcases Result.bind_eq_ok.mp hnext with ⟨⟨head, afterBytes⟩, hhead, hvalue⟩
        rcases takeBytes_eq_ok.mp hhead with ⟨hlength, rfl⟩
        rcases Result.bind_eq_ok.mp hvalue with ⟨_, -, htail⟩
        rcases Result.bind_eq_ok.mp htail with ⟨more, hmore, -⟩
        rcases ih hmore with ⟨cells, rest, hcount, rfl⟩
        have hlt : head.length < twoPow 31 := by
          rw [hlength]
          exact toNat_toInt_lt n
        refine ⟨.filled head hlt :: cells, rest, by rw [List.length_cons, hcount], ?_⟩
        rw [List.flatMap_cons, Cell.bytes, hlength, lengthWord_toNat hnegative, List.append_assoc,
          List.append_assoc]

theorem read_of_header {bytes : List UInt8} {h : Header} (hread : header bytes = .ok h) :
    read bytes =
      if h.lengths = [] then .ok (.array [])
      else do
        return (nest h.lengths (<- elements h.element (count h.lengths).toNat h.rest)).1 := by
  rw [read, hread, Result.ok_bind]
  dsimp only
  cases h.lengths with
  | nil => rfl
  | cons n more => rfl

theorem read_layout (l : Layout) (h : l.cells.length = l.taken) : read l.bytes = l.value := by
  rw [read_of_header (header_layout l), Layout.value]
  dsimp only
  by_cases hextents : l.extents = []
  · have hcells : l.cells = [] := by
      rw [Layout.taken, if_pos hextents] at h
      exact List.eq_nil_of_length_eq_zero h
    rw [if_pos (by rw [Layout.lengths, hextents, List.map_nil]), hcells, List.mapM_nil]
    exact congrArg Except.ok (if_pos hextents).symm
  · rw [Layout.taken, if_neg hextents] at h
    rw [if_neg (by rwa [Layout.lengths, List.map_eq_nil_iff]), <- h, elements_cells]
    simp only [Layout.nested, if_neg hextents]

/-- Bytes that are read are those of a layout with the cells that the reader takes. -/
theorem exists_layout {bytes : List UInt8} {v : Value} (hread : read bytes = .ok v) :
    exists l : Layout, l.bytes = bytes ∧ l.cells.length = l.taken := by
  rcases Result.bind_eq_ok.mp hread with ⟨h, hheader, -⟩
  rw [read_of_header hheader] at hread
  rcases exists_opening hheader with ⟨l, hcells, rfl, hlengths, -, hrest⟩
  by_cases hextents : l.extents = []
  · exact ⟨l, rfl, by rw [Layout.taken, if_pos hextents, hcells]; rfl⟩
  · rw [<- hlengths, if_neg (by rwa [Layout.lengths, List.map_eq_nil_iff])] at hread
    rcases Result.bind_eq_ok.mp hread with ⟨values, helements, -⟩
    rcases exists_cells helements with ⟨cells, rest, hcount, htail⟩
    refine ⟨{ l with cells := cells, rest := rest }, ?_, ?_⟩
    · rw [Layout.bytes, Layout.bytes, hcells, hrest, htail]
      rfl
    · exact hcount.trans (if_neg hextents).symm

/-- The reader accepts the bytes of layouts whose cells can be read, and nothing else. -/
theorem read_eq_ok_iff {bytes : List UInt8} {v : Value} :
    read bytes = .ok v <->
      exists l : Layout, l.bytes = bytes ∧ l.cells.length = l.taken ∧ l.value = .ok v := by
  constructor
  · intro hread
    rcases exists_layout hread with ⟨l, rfl, hcells⟩
    exact ⟨l, rfl, hcells, by rw [<- read_layout l hcells, hread]⟩
  · rintro ⟨l, rfl, hcells, hvalue⟩
    rw [read_layout l hcells, hvalue]

end ArrayBytes

/-!
## Layouts of the same bytes
-/

theorem lengthWord_inj {m n : Nat} (hm : m < twoPow 31) (hn : n < twoPow 31)
    (h : lengthWord m = lengthWord n) : m = n := by
  have hnumber := congrArg Int32.toInt (word_inj h)
  rw [toInt_ofNat hm, toInt_ofNat hn] at hnumber
  omega

theorem Extent.bytes_inj {e e' : Extent} (h : e.bytes = e'.bytes) : e = e' := by
  rcases e with ⟨length, lower, hlt⟩
  rcases e' with ⟨length', lower', hlt'⟩
  rcases List.append_inj h (by rw [lengthWord, lengthWord, length_word, length_word])
    with ⟨hlength, hlower⟩
  cases lengthWord_inj hlt hlt' hlength
  cases word_inj hlower
  rfl

/-- A cell is told from what follows it: its word says how many bytes are its own. -/
theorem Cell.bytes_append_inj {c c' : Cell} {rest rest' : List UInt8}
    (h : c.bytes ++ rest = c'.bytes ++ rest') : c = c' ∧ rest = rest' := by
  cases c with
  | null mark negative =>
      cases c' with
      | null mark' negative' =>
          rcases word_append_inj h with ⟨rfl, rfl⟩
          exact ⟨rfl, rfl⟩
      | filled bytes' hlt' =>
          rw [Cell.bytes, Cell.bytes, lengthWord, List.append_assoc] at h
          rcases word_append_inj h with ⟨rfl, -⟩
          rw [toInt_ofNat hlt'] at negative
          omega
  | filled bytes hlt =>
      rw [Cell.bytes, lengthWord, List.append_assoc] at h
      cases c' with
      | null mark' negative' =>
          rcases word_append_inj h with ⟨rfl, -⟩
          rw [toInt_ofNat hlt] at negative'
          omega
      | filled bytes' hlt' =>
          rw [Cell.bytes, lengthWord, List.append_assoc] at h
          rcases word_append_inj h with ⟨hlength, htail⟩
          have hnumber := congrArg Int32.toInt hlength
          rw [toInt_ofNat hlt, toInt_ofNat hlt'] at hnumber
          rcases List.append_inj htail (by omega) with ⟨rfl, rfl⟩
          exact ⟨rfl, rfl⟩

theorem cells_append_inj {cells cells' : List Cell} (hlength : cells.length = cells'.length)
    {rest rest' : List UInt8}
    (h : cells.flatMap Cell.bytes ++ rest = cells'.flatMap Cell.bytes ++ rest') :
    cells = cells' ∧ rest = rest' := by
  induction cells generalizing cells' with
  | nil =>
      cases List.eq_nil_of_length_eq_zero hlength.symm
      exact ⟨rfl, h⟩
  | cons c more ih =>
      cases cells' with
      | nil => cases hlength
      | cons c' more' =>
          rw [List.flatMap_cons, List.flatMap_cons, List.append_assoc, List.append_assoc] at h
          rcases Cell.bytes_append_inj h with ⟨rfl, htail⟩
          rcases ih (by simpa using hlength) htail with ⟨rfl, rfl⟩
          exact ⟨rfl, rfl⟩

theorem extents_append_inj {extents extents' : List Extent}
    (hlength : extents.length = extents'.length) {rest rest' : List UInt8}
    (h : extents.flatMap Extent.bytes ++ rest = extents'.flatMap Extent.bytes ++ rest') :
    extents = extents' ∧ rest = rest' := by
  induction extents generalizing extents' with
  | nil =>
      cases List.eq_nil_of_length_eq_zero hlength.symm
      exact ⟨rfl, h⟩
  | cons e more ih =>
      cases extents' with
      | nil => cases hlength
      | cons e' more' =>
          rw [List.flatMap_cons, List.flatMap_cons, List.append_assoc, List.append_assoc] at h
          rcases List.append_inj h (by rw [e.length_bytes, e'.length_bytes]) with ⟨hfirst, htail⟩
          cases Extent.bytes_inj hfirst
          rcases ih (by simpa using hlength) htail with ⟨rfl, rfl⟩
          exact ⟨rfl, rfl⟩

/-- Of the layouts with the cells that the reader takes, one has the given bytes. -/
theorem Layout.bytes_inj {l l' : Layout} (hcells : l.cells.length = l.taken)
    (hcells' : l'.cells.length = l'.taken) (h : l.bytes = l'.bytes) : l = l' := by
  rcases l with ⟨dimensions, flags, element, extents, cells, rest, counted⟩
  rcases l' with ⟨dimensions', flags', element', extents', cells', rest', counted'⟩
  simp only [Layout.bytes, Layout.opening, List.append_assoc] at h
  rcases word_append_inj h with ⟨rfl, hafterCount⟩
  rcases word_append_inj hafterCount with ⟨rfl, hafterFlags⟩
  rcases List.append_inj hafterFlags (by rw [length_typeWord, length_typeWord])
    with ⟨helement, hafterElement⟩
  cases typeWord_inj helement
  rcases extents_append_inj (counted.trans counted'.symm) hafterElement with ⟨rfl, hafterExtents⟩
  rcases cells_append_inj (hcells.trans hcells'.symm) hafterExtents with ⟨rfl, rfl⟩
  rfl

end Wire
end TypedQuery
