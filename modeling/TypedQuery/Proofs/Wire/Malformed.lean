import TypedQuery.Proofs.Wire.ArrayForm
import TypedQuery.Proofs.Wire.SentArray

/-!
# Malformed arrays

An array in binary format is well formed if its dimensions are not fewer than none, every NULL is
the word for it and nothing is left over; an array in text format is well formed if its braces are
balanced, no element is missing, and it is rectangular.  The readers are right about what they take
for the parts of an array, but they do not ask for all of that, and so some malformed arrays are
accepted: which ones is said here for both formats.
-/

namespace TypedQuery
namespace Wire

open Number

/-!
## Bytes
-/

/-- A layout as the server sends it: a cell for each index, the one word for NULL, and nothing
behind the cells. -/
structure Layout.IsWellFormed (l : Layout) : Prop where
  dimensions : 0 ≤ l.dimensions.toInt
  product_lt : l.extents ≠ [] -> l.lengths.prod < twoPow 64
  cells : l.cells.length = if l.extents = [] then 0 else l.lengths.prod
  marks : forall mark negative, Cell.null mark negative ∈ l.cells -> mark = -1
  rest : l.rest = []

def IsWellFormedBytes (bytes : List UInt8) : Prop :=
  exists l : Layout, l.bytes = bytes ∧ l.IsWellFormed

theorem Layout.taken_eq (l : Layout) (h : l.extents ≠ [] -> l.lengths.prod < twoPow 64) :
    l.taken = if l.extents = [] then 0 else l.lengths.prod := by
  unfold Layout.taken
  by_cases hextents : l.extents = []
  · rw [if_pos hextents, if_pos hextents]
  · rw [if_neg hextents, if_neg hextents, ArrayBytes.toNat_count, Nat.mod_eq_of_lt (h hextents)]

theorem isWellFormedBytes_iff {l : Layout} (hcells : l.cells.length = l.taken) :
    IsWellFormedBytes l.bytes <->
      0 ≤ l.dimensions.toInt ∧ (l.extents ≠ [] -> l.lengths.prod < twoPow 64) ∧
        (forall mark negative, Cell.null mark negative ∈ l.cells -> mark = -1) ∧ l.rest = [] := by
  constructor
  · rintro ⟨l', hbytes, hl'⟩
    have hcells' : l'.cells.length = l'.taken := hl'.cells.trans (l'.taken_eq hl'.product_lt).symm
    rw [<- Layout.bytes_inj hcells' hcells hbytes]
    exact ⟨hl'.dimensions, hl'.product_lt, hl'.marks, hl'.rest⟩
  · rintro ⟨hdimensions, hproduct, hmarks, hrest⟩
    exact ⟨l, rfl, hdimensions, hproduct, hcells.trans (l.taken_eq hproduct), hmarks, hrest⟩

/-!
## Braces
-/

/-- The number of open levels behind a character; a level is closed only if one is open. -/
def levelsBehind (levels : Nat) (c : Char) : Option Nat :=
  if c = '\x7b' then some (levels + 1)
  else if c = '\x7d' then (if levels = 0 then none else some (levels - 1))
  else some levels

def levelsOpen (levels : Nat) (cs : List Char) : Option Nat := cs.foldlM levelsBehind levels

def IsBalanced (cs : List Char) : Prop := levelsOpen 0 cs = some 0

instance (cs : List Char) : Decidable (IsBalanced cs) :=
  inferInstanceAs (Decidable (levelsOpen 0 cs = some 0))

theorem levelsOpen_append (levels : Nat) (cs more : List Char) :
    levelsOpen levels (cs ++ more) = (levelsOpen levels cs).bind (levelsOpen · more) :=
  List.foldlM_append

/-- The characters of an element that are neither between quotes nor behind a backslash. -/
def Leaf.exposed : Leaf -> List Char
  | bare gs => (gs.filter fun g => !g.escaped).map (·.char)
  | quoted _ => []

/-- There is nothing where the element should be, except blanks. -/
def Leaf.IsMissing : Leaf -> Prop
  | bare gs => forall g, g ∈ gs -> g.escaped = false ∧ TextArray.isServerBlank g.char = true
  | quoted _ => False

instance : (l : Leaf) -> Decidable l.IsMissing
  | .bare gs => inferInstanceAs (Decidable (forall g, g ∈ gs ->
      g.escaped = false ∧ TextArray.isServerBlank g.char = true))
  | .quoted _ => inferInstanceAs (Decidable False)

/-- Without a closing brace, as many levels are opened as there are opening braces. -/
theorem levelsOpen_of_not_mem (levels : Nat) {cs : List Char} (hcs : '\x7d' ∉ cs) :
    levelsOpen levels cs = some (levels + cs.count '\x7b') := by
  induction cs generalizing levels with
  | nil => rfl
  | cons c more ih =>
      rw [List.mem_cons, not_or] at hcs
      by_cases hc : c = '\x7b'
      · have hstep : levelsOpen levels (c :: more) = levelsOpen (levels + 1) more := by
          rw [levelsOpen, List.foldlM_cons, levelsBehind, if_pos hc]
          rfl
        rw [hstep, ih _ hcs.2, hc, List.count_cons_self, Nat.add_assoc, Nat.add_comm 1]
      · have hstep : levelsOpen levels (c :: more) = levelsOpen levels more := by
          rw [levelsOpen, List.foldlM_cons, levelsBehind, if_neg hc, if_neg (Ne.symm hcs.1)]
          rfl
        rw [hstep, ih _ hcs.2, List.count_cons_of_ne hc]

theorem not_mem_exposed {l : Leaf} (hl : l.IsValid) : '\x7d' ∉ l.exposed := by
  cases l with
  | quoted gs => exact List.not_mem_nil
  | bare gs =>
      intro hmem
      rcases List.mem_map.mp hmem with ⟨g, hg, hbrace⟩
      rcases List.mem_filter.mp hg with ⟨hmem, hescaped⟩
      have hinner := (hl.1 g hmem (by simpa using hescaped)).2
      rw [hbrace] at hinner
      exact hinner (by decide)

namespace ArrayTree

mutual

def leaves : ArrayTree -> List Leaf
  | leaf l => [l]
  | level nodes => leavesOf nodes

def leavesOf : List ArrayTree -> List Leaf
  | [] => []
  | first :: more => first.leaves ++ leavesOf more

end

def strays (ls : List Leaf) : Nat := (ls.flatMap Leaf.exposed).count '\x7b'

theorem strays_append (ls more : List Leaf) : strays (ls ++ more) = strays ls + strays more := by
  rw [strays, List.flatMap_append, List.count_append]
  rfl

theorem strays_eq_zero {ls : List Leaf} :
    strays ls = 0 <-> forall l, l ∈ ls -> '\x7b' ∉ l.exposed := by
  rw [strays, List.count_eq_zero, List.mem_flatMap]
  push Not
  rfl

/-- The braces of levels are balanced, so what is left open are the braces in elements. -/
theorem levelsOpen_behind {nodes : List ArrayTree}
    (hnodes : forall n, n ∈ nodes -> forall levels,
      levelsOpen levels (n.written Leaf.exposed) = some (levels + strays n.leaves))
    (levels : Nat) :
    levelsOpen (levels + 1) (writtenBehind Leaf.exposed nodes) =
      some (levels + strays (leavesOf nodes)) := by
  induction nodes generalizing levels with
  | nil => rfl
  | cons n more ih =>
      rcases List.forall_mem_cons.mp hnodes with ⟨hn, hmore⟩
      have hcomma : levelsOpen (levels + 1) (writtenBehind Leaf.exposed (n :: more)) =
          levelsOpen (levels + 1) (n.written Leaf.exposed ++ writtenBehind Leaf.exposed more) := rfl
      rw [hcomma, levelsOpen_append, hn, Option.bind_some, Nat.add_right_comm, ih hmore, leavesOf,
        strays_append, Nat.add_assoc]

theorem levelsOpen_written {t : ArrayTree} (ht : t.IsValid) (levels : Nat) :
    levelsOpen levels (t.written Leaf.exposed) = some (levels + strays t.leaves) := by
  induction ht generalizing levels with
  | @leaf l hl =>
      rw [written, levelsOpen_of_not_mem levels (not_mem_exposed hl), leaves, strays,
        List.flatMap_singleton]
  | @level nodes hne hnodes ih =>
      cases nodes with
      | nil => rfl
      | cons first more => exact levelsOpen_behind ih levels

/-- All levels at one depth have the same length, and elements stand in the innermost ones only. -/
inductive HasShape : List Nat -> ArrayTree -> Prop
  | leaf (l : Leaf) : HasShape [] (.leaf l)
  | level {length : Nat} {inner : List Nat} {nodes : List ArrayTree}
      (hlength : nodes.length = length) (h : forall n, n ∈ nodes -> HasShape inner n) :
      HasShape (length :: inner) (.level nodes)

end ArrayTree

namespace ArrayForm

def exposed (f : ArrayForm) : List Char := f.opening ++ f.tree.written Leaf.exposed

/-- A form as the server sends it: balanced braces, no missing elements, and a rectangle. -/
structure IsWellFormed (f : ArrayForm) : Prop where
  balanced : IsBalanced f.exposed
  elements : forall l, l ∈ f.tree.leaves -> ¬ l.IsMissing
  rectangular : exists lengths, f.tree.HasShape lengths

/-- The braces are balanced unless they are not in the bounds, or an element has one. -/
theorem isBalanced_iff {f : ArrayForm} (hf : f.IsValid) :
    IsBalanced f.exposed <->
      IsBalanced f.opening ∧ forall l, l ∈ f.tree.leaves -> '\x7b' ∉ l.exposed := by
  rw [<- ArrayTree.strays_eq_zero, IsBalanced, IsBalanced, exposed, levelsOpen_append]
  cases levelsOpen 0 f.opening with
  | none => simp
  | some levels =>
      rw [Option.bind_some, ArrayTree.levelsOpen_written hf.tree, Option.some.injEq,
        Option.some.injEq]
      omega

end ArrayForm

def IsWellFormedText (text : String) : Prop :=
  exists f : ArrayForm, f.IsValid ∧ f.text = text.toList ∧ f.IsWellFormed

theorem isWellFormedText_iff {f : ArrayForm} (hf : f.IsValid) {text : String}
    (htext : f.text = text.toList) :
    IsWellFormedText text <->
      (IsBalanced f.opening ∧ forall l, l ∈ f.tree.leaves -> '\x7b' ∉ l.exposed) ∧
        (forall l, l ∈ f.tree.leaves -> ¬ l.IsMissing) ∧
          exists lengths, f.tree.HasShape lengths := by
  rw [<- ArrayForm.isBalanced_iff hf]
  constructor
  · rintro ⟨f', hf', htext', hformed⟩
    cases ArrayText.form_unique hf' hf (htext'.trans htext.symm)
    exact ⟨hformed.balanced, hformed.elements, hformed.rectangular⟩
  · rintro ⟨hbalanced, helements, hrectangular⟩
    exact ⟨f, hf, htext, hbalanced, helements, hrectangular⟩

/-- What is accepted in either format, and when it is well formed.  Bytes are accepted if they are
those of a layout whose cells can be read; they are well formed unless the number of dimensions is
negative, the number of cells overflows, a NULL is another negative word than the one for it, or
bytes are left over.  Texts are accepted if they are those of a form whose elements can be read;
they are well formed unless the bounds have braces that are not balanced, an element has a brace,
one is missing, or the levels do not make up a rectangle. -/
theorem accepted_arrays_well_formed_iff (bytes : List UInt8) (element : Oid) (text : String) :
    (forall v, ArrayBytes.read bytes = .ok v <->
      exists l : Layout, l.bytes = bytes ∧ l.cells.length = l.taken ∧ l.value = .ok v) ∧
    (forall l : Layout, l.bytes = bytes -> l.cells.length = l.taken ->
      (IsWellFormedBytes bytes <->
        0 ≤ l.dimensions.toInt ∧ (l.extents ≠ [] -> l.lengths.prod < twoPow 64) ∧
          (forall mark negative, Cell.null mark negative ∈ l.cells -> mark = -1) ∧ l.rest = [])) ∧
    (forall v, ArrayText.read element text = .ok v <->
      exists f : ArrayForm, f.IsValid ∧ f.text = text.toList ∧ f.value element = .ok v) ∧
    (forall f : ArrayForm, f.IsValid -> f.text = text.toList ->
      (IsWellFormedText text <->
        (IsBalanced f.opening ∧ forall l, l ∈ f.tree.leaves -> '\x7b' ∉ l.exposed) ∧
          (forall l, l ∈ f.tree.leaves -> ¬ l.IsMissing) ∧
            exists lengths, f.tree.HasShape lengths)) := by
  refine ⟨fun _ => ArrayBytes.read_eq_ok_iff, ?_, fun _ => ArrayText.read_eq_ok_iff,
    fun _ hf htext => isWellFormedText_iff hf htext⟩
  rintro l rfl hcells
  exact isWellFormedBytes_iff hcells

def pair : Layout where
  dimensions := 1
  flags := 1
  element := 16
  extents := [.few 2 0]
  cells := [.filled [1] (by decide), .missing]
  rest := []
  counted := by decide

def tidy : ArrayForm where
  bounds := some ['0', ':', '1', ']']
  nodes := [.leaf (.quoted [⟨false, '\x7b'⟩, ⟨true, '"'⟩]), .leaf (.bare [⟨true, ' '⟩])]

theorem well_formed_arrays_accepted :
    ArrayBytes.read pair.bytes = .ok (.array [.bool true, .null]) ∧ IsWellFormedBytes pair.bytes ∧
      String.ofList tidy.text = "[0:1]=\x7b\"\x7b\\\"\",\\ \x7d" ∧
      ArrayText.read Oid.text (String.ofList tidy.text) = .ok (.array [.text "\x7b\"", .text ""]) ∧
      IsWellFormedText (String.ofList tidy.text) := by
  rcases accepted_arrays_well_formed_iff pair.bytes Oid.text (String.ofList tidy.text) with
    ⟨hbytes, hlayout, htexts, hform⟩
  have hvalid : tidy.IsValid := by decide
  have htext : tidy.text = (String.ofList tidy.text).toList := String.toList_ofList.symm
  refine ⟨(hbytes _).mpr ⟨pair, rfl, by decide, rfl⟩, (hlayout pair rfl (by decide)).mpr ?_,
    by decide +kernel, (htexts _).mpr ⟨tidy, hvalid, htext, rfl⟩,
    (hform tidy hvalid htext).mpr ?_⟩
  · refine ⟨by decide, fun _ => by decide, ?_, rfl⟩
    intro mark negative hmark
    simpa [pair, Cell.missing] using hmark
  · have hleaves : forall n, n ∈ tidy.nodes -> n.HasShape [] :=
      List.forall_mem_cons.mpr ⟨.leaf _, List.forall_mem_singleton.mpr (.leaf _)⟩
    exact ⟨by decide, by decide, [2], .level rfl hleaves⟩

/-!
## Arrays that are malformed and accepted
-/

def trailed : Layout where
  dimensions := 0
  flags := 0
  element := 25
  extents := []
  cells := []
  rest := [0]
  counted := by decide

def negative : Layout where
  dimensions := -1
  flags := 0
  element := 25
  extents := []
  cells := []
  rest := []
  counted := by decide

def marked : Layout where
  dimensions := 1
  flags := 1
  element := 25
  extents := [.few 1 1]
  cells := [.null (-2) (by decide)]
  rest := []
  counted := by decide

def plain (cs : List Char) : ArrayTree := .leaf (.bare (cs.map (Glyph.mk false)))

def gapped : ArrayForm := ⟨none, [plain ['a'], plain [], plain ['b']]⟩

def ragged : ArrayForm := ⟨none, [.level [plain ['a']], .level [plain ['b'], plain ['c']]]⟩

def uneven : ArrayForm := ⟨none, [plain ['a'], .level [plain ['b']]]⟩

def opened : ArrayForm := ⟨none, [plain ['a', '\x7b', 'b']]⟩

theorem exists_hasShape {f : ArrayForm} {lengths : List Nat} (h : f.tree.HasShape lengths) :
    exists inner, forall n, n ∈ f.nodes -> n.HasShape inner := by
  rcases f with ⟨bounds, nodes⟩
  cases h with
  | level hlength hnodes => exact ⟨_, hnodes⟩

theorem malformed_arrays_accepted :
    (forall l, l ∈ [trailed, negative, marked] ->
      (exists v, ArrayBytes.read l.bytes = .ok v) ∧ ¬ IsWellFormedBytes l.bytes) ∧
    [gapped, ragged, uneven, opened].map (fun f => String.ofList f.text) =
      ["\x7ba,,b\x7d", "\x7b\x7ba\x7d,\x7bb,c\x7d\x7d", "\x7ba,\x7bb\x7d\x7d", "\x7ba\x7bb\x7d"] ∧
    (forall f, f ∈ [gapped, ragged, uneven, opened] ->
      (exists v, ArrayText.read Oid.text (String.ofList f.text) = .ok v) ∧
        ¬ IsWellFormedText (String.ofList f.text)) := by
  have hread : forall l : Layout, l.cells.length = l.taken -> forall v, l.value = .ok v ->
      exists v, ArrayBytes.read l.bytes = .ok v :=
    fun l hcells v hvalue => ⟨v, ArrayBytes.read_eq_ok_iff.mpr ⟨l, rfl, hcells, hvalue⟩⟩
  have hreadText : forall f : ArrayForm, f.IsValid -> forall v, f.value Oid.text = .ok v ->
      exists v, ArrayText.read Oid.text (String.ofList f.text) = .ok v :=
    fun f hf v hvalue => ⟨v, ArrayText.read_eq_ok_iff.mpr
      ⟨f, hf, String.toList_ofList.symm, hvalue⟩⟩
  refine ⟨?_, by decide +kernel, ?_⟩
  · simp only [List.forall_mem_cons]
    refine ⟨⟨hread trailed (by decide) _ rfl, ?_⟩, ⟨hread negative (by decide) _ rfl, ?_⟩,
      ⟨hread marked (by decide) _ rfl, ?_⟩, nofun⟩
    · rw [isWellFormedBytes_iff (by decide)]
      rintro ⟨-, -, -, hrest⟩
      cases hrest
    · rw [isWellFormedBytes_iff (by decide)]
      rintro ⟨hdimensions, -⟩
      exact absurd hdimensions (by decide)
    · rw [isWellFormedBytes_iff (by decide)]
      rintro ⟨-, -, hmarks, -⟩
      exact absurd (hmarks (-2) (by decide) List.mem_cons_self) (by decide)
  · simp only [List.forall_mem_cons]
    refine ⟨⟨hreadText gapped (by decide) _ rfl, ?_⟩, ⟨hreadText ragged (by decide) _ rfl, ?_⟩,
      ⟨hreadText uneven (by decide) _ rfl, ?_⟩, ⟨hreadText opened (by decide) _ rfl, ?_⟩, nofun⟩
    · rw [isWellFormedText_iff (f := gapped) (by decide) String.toList_ofList.symm]
      rintro ⟨-, helements, -⟩
      exact absurd helements (by decide)
    · rw [isWellFormedText_iff (f := ragged) (by decide) String.toList_ofList.symm]
      rintro ⟨-, -, lengths, hshape⟩
      rcases exists_hasShape hshape with ⟨inner, hrows⟩
      simp only [ragged, List.forall_mem_cons] at hrows
      rcases hrows with ⟨hfirst, hsecond, -⟩
      cases hfirst with
      | level hone =>
          cases hsecond with
          | level htwo => exact absurd (hone.trans htwo.symm) (by decide)
    · rw [isWellFormedText_iff (f := uneven) (by decide) String.toList_ofList.symm]
      rintro ⟨-, -, lengths, hshape⟩
      rcases exists_hasShape hshape with ⟨inner, hitems⟩
      simp only [uneven, List.forall_mem_cons] at hitems
      rcases hitems with ⟨hfirst, hsecond, -⟩
      cases hfirst
      cases hsecond
    · rw [isWellFormedText_iff (f := opened) (by decide) String.toList_ofList.symm]
      rintro ⟨⟨-, hbraces⟩, -⟩
      exact absurd hbraces (by decide)

end Wire
end TypedQuery
