import TypedQuery.Proofs.Result
import TypedQuery.Proofs.Server.Grid
import TypedQuery.Wire.Array

/-!
# Arrays in text format

The server writes an array as text, and quotes the elements that would not be read back as they
are.  It goes by the blanks of ASCII.  The reader cuts all blanks from the ends of an element
without quotes, so it gives the array back unless a blank outside ASCII stands at such an end.
-/

namespace TypedQuery
namespace Wire

/-!
## What the server writes
-/

structure Dimension where
  lower : Int
  length : Nat
  positive : 0 < length

/-- An array of the server whose elements are texts or NULL. -/
inductive TextArray where
  | empty
  | filled (first : Dimension) (inner : List Dimension)
      (elements : Grid (Option String) ((first :: inner).map (·.length)))

namespace TextArray

/-- The characters that the server takes for blanks. -/
def isServerBlank (c : Char) : Bool :=
  c == ' ' || (0x09 ≤ c.toNat && c.toNat ≤ 0x0D)

def isReserved (c : Char) : Bool :=
  c == '\x7b' || c == '\x7d' || c == ',' || c == '"' || c == '\\' || isServerBlank c

def isNullWord (text : List Char) : Bool := text.map Char.toLower == ['n', 'u', 'l', 'l']

def isQuoted (text : String) : Bool :=
  text.toList.isEmpty || isNullWord text.toList || text.toList.any isReserved

def escaped (text : List Char) : List Char :=
  text.flatMap fun c => if c = '"' ∨ c = '\\' then ['\\', c] else [c]

def writtenElement : Option String -> List Char
  | none => ['N', 'U', 'L', 'L']
  | some text =>
      if isQuoted text then '"' :: (escaped text.toList ++ ['"']) else text.toList

def separated : List (List Char) -> List Char
  | [] => []
  | [text] => text
  | text :: next :: more => text ++ ',' :: separated (next :: more)

def writtenGrid : {lengths : List Nat} -> Grid (Option String) lengths -> List Char
  | [], element => writtenElement element
  | _ :: _, g => '\x7b' :: (separated (g.rows.map writtenGrid) ++ ['\x7d'])

def writtenBounds (d : Dimension) : List Char :=
  '[' :: ((toString d.lower).toList ++ ':' :: ((toString (d.lower + d.length - 1)).toList ++ [']']))

/-- The text of an array; the bounds are written unless every dimension starts at one. -/
def written : TextArray -> List Char
  | empty => ['\x7b', '\x7d']
  | filled first inner elements =>
      let bounds :=
        if (first :: inner).all (·.lower == 1) then []
        else (first :: inner).flatMap writtenBounds ++ ['=']
      bounds ++ writtenGrid elements

def text (a : TextArray) : String := String.ofList a.written

def elements : TextArray -> List (Option String)
  | empty => []
  | filled _ _ elements => elements.items

def value : TextArray -> Value
  | empty => .array []
  | filled _ _ elements => (elements.map fun
      | none => .null
      | some text => .text text).value

end TextArray

/-!
## Elements
-/

/-- Types whose elements are read as something other than their text. -/
def Oid.interpreted : List Oid :=
  [bool, int2, int4, int8, float4, float8, numeric, uuid, bytea, date, time, timestamp,
    timestamptz, interval, json, jsonb]

/-- Texts of all kinds, and the labels of types of users. -/
def Oid.IsTextual (type : Oid) : Prop := type ∉ Oid.interpreted

instance (type : Oid) : Decidable type.IsTextual := inferInstanceAs (Decidable (type ∉ _))

theorem textElement_of_isTextual {element : Oid} (h : element.IsTextual) (text : String) :
    textElement element text = .ok (.text text) := by
  simp only [Oid.IsTextual, Oid.interpreted, List.mem_cons, List.not_mem_nil, or_false,
    not_or] at h
  simp [textElement, h]

namespace ArrayText

open TextArray

def received : Option String -> Value
  | none => .null
  | some text =>
      if isQuoted text then .text text
      else if isNullWord (Text.trim text.toList) then .null
      else .text (String.ofList (Text.trim text.toList))

theorem quoted_cons {c : Char} (hquote : c ≠ '"') (hslash : c ≠ '\\') (rest : List Char) :
    quoted (c :: rest) = (quoted rest).map fun (text, rest) => (c :: text, rest) := by
  rw [quoted.eq_def]
  split <;> simp_all

theorem quoted_escaped (text rest : List Char) :
    quoted (escaped text ++ '"' :: rest) = some (text, rest) := by
  induction text with
  | nil => rfl
  | cons c more ih =>
      by_cases hc : c = '"' ∨ c = '\\'
      · have hescaped : escaped (c :: more) = '\\' :: c :: escaped more := by
          simp [escaped, hc]
        rw [hescaped, List.cons_append, List.cons_append, quoted, ih]
        rfl
      · have hescaped : escaped (c :: more) = c :: escaped more := by
          simp [escaped, hc]
        rw [not_or] at hc
        rw [hescaped, List.cons_append, quoted_cons hc.1 hc.2, ih]
        rfl

def Closes (rest : List Char) : Prop :=
  exists c more, rest = c :: more ∧ (c = ',' ∨ c = '\x7d')

theorem bare_of_closes {rest : List Char} (hrest : Closes rest) : bare rest = ([], rest) := by
  rcases hrest with ⟨c, more, rfl, rfl | rfl⟩ <;> rfl

theorem bare_cons {c : Char} (hc : isReserved c = false) (rest : List Char) :
    bare (c :: rest) = (c :: (bare rest).1, (bare rest).2) := by
  simp only [isReserved, Bool.or_eq_false_iff, beq_eq_false_iff_ne] at hc
  rw [bare.eq_def]
  split <;> simp_all

theorem bare_append {text rest : List Char} (hrest : Closes rest)
    (htext : forall c, c ∈ text -> isReserved c = false) :
    bare (text ++ rest) = (text, rest) := by
  induction text with
  | nil => exact bare_of_closes hrest
  | cons c more ih =>
      rw [List.cons_append, bare_cons (htext c List.mem_cons_self),
        ih fun d hd => htext d (List.mem_cons_of_mem c hd)]

theorem isReserved_of_mem {text : String} (h : isQuoted text = false) {c : Char}
    (hc : c ∈ text.toList) : isReserved c = false := by
  simp only [isQuoted, Bool.or_eq_false_iff, List.any_eq_false] at h
  simpa using h.2 c hc

theorem exists_first {text : String} (h : isQuoted text = false) :
    exists c more, text.toList = c :: more ∧ isReserved c = false := by
  cases htext : text.toList with
  | nil => simp [isQuoted, htext] at h
  | cons c more => exact ⟨c, more, rfl, isReserved_of_mem h (by simp [htext])⟩

theorem bareElement_eq {element : Oid} (helement : element.IsTextual) (text : List Char) :
    bareElement element text =
      .ok (if isNullWord (Text.trim text) then .null
        else .text (String.ofList (Text.trim text))) := by
  simp only [bareElement, textElement_of_isTextual helement]
  by_cases hnull : (Text.trim text).map Char.toLower = ['n', 'u', 'l', 'l']
  · simp [isNullWord, hnull]
  · simp [isNullWord, hnull]

theorem exists_first_written (e : Option String) :
    exists c more, writtenElement e = c :: more ∧ c ≠ '\x7b' ∧ c ≠ '\x7d' := by
  cases e with
  | none => exact ⟨'N', _, rfl, by decide, by decide⟩
  | some text =>
      cases hquoted : isQuoted text with
      | true =>
          exact ⟨'"', escaped text.toList ++ ['"'], by simp [writtenElement, hquoted],
            by decide, by decide⟩
      | false =>
          rcases exists_first hquoted with ⟨c, more, htext, hc⟩
          refine ⟨c, more, by simp [writtenElement, hquoted, htext], ?_, ?_⟩
          · rintro rfl
            exact absurd hc (by decide)
          · rintro rfl
            exact absurd hc (by decide)

/-- An element that does not start like a level or a quote is read up to where it closes. -/
theorem item_bare {element : Oid} (helement : element.IsTextual) (fuel : Nat) {c : Char}
    {more rest : List Char} (hc : isReserved c = false)
    (hmore : forall d, d ∈ more -> isReserved d = false) (hrest : Closes rest) :
    item element (fuel + 1) (c :: more ++ rest) =
      .ok (if isNullWord (Text.trim (c :: more)) then .null
        else .text (String.ofList (Text.trim (c :: more))), rest) := by
  have hbare : bare (c :: more ++ rest) = (c :: more, rest) := by
    refine bare_append hrest fun d hd => ?_
    rcases List.mem_cons.mp hd with rfl | hd
    · exact hc
    · exact hmore d hd
  have hitem : item element (fuel + 1) (c :: more ++ rest) = (do
      return (<- bareElement element (bare (c :: more ++ rest)).1,
        (bare (c :: more ++ rest)).2)) := by
    rw [List.cons_append, item.eq_def]
    dsimp only
    split
    · rename_i heq
      cases heq
      exact absurd hc (by decide)
    · rename_i heq
      cases heq
      exact absurd hc (by decide)
    · rfl
  rw [hitem, hbare, bareElement_eq helement]
  rfl

theorem item_writtenElement {element : Oid} (helement : element.IsTextual) (fuel : Nat)
    (e : Option String) {rest : List Char} (hrest : Closes rest) :
    item element (fuel + 1) (writtenElement e ++ rest) = .ok (received e, rest) := by
  cases e with
  | none =>
      have hletters : forall d, d ∈ ['U', 'L', 'L'] -> isReserved d = false := fun d hd =>
        Bool.eq_false_iff.mpr (List.any_eq_false.mp rfl d hd)
      exact item_bare helement fuel (by decide) hletters hrest
  | some text =>
      cases hquoted : isQuoted text with
      | true =>
          simp only [writtenElement, hquoted, received, if_true, List.cons_append,
            List.append_assoc, item, quoted_escaped,
            textElement_of_isTextual helement, String.ofList_toList]
          rfl
      | false =>
          rcases exists_first hquoted with ⟨c, more, htext, hc⟩
          have hmore : forall d, d ∈ more -> isReserved d = false := fun d hd =>
            isReserved_of_mem hquoted (by simp [htext, hd])
          simp only [writtenElement, hquoted, received, htext, Bool.false_eq_true, if_false]
          exact item_bare helement fuel hc hmore hrest

/-!
## Levels

Every character of what is read takes at most three units of fuel: one for the list of items it
stands in, one for its item and one for a level that begins there.
-/

theorem items_separated {α : Type} {element : Oid} {write : α -> List Char} {take : α -> Value}
    (hitem : forall a fuel rest, 3 * (write a).length <= fuel -> Closes rest ->
      item element fuel (write a ++ rest) = .ok (take a, rest))
    (first : α) (more : List α) {fuel : Nat}
    (hfuel : 3 * (separated ((first :: more).map write)).length < fuel) (rest : List Char) :
    items element fuel (separated ((first :: more).map write) ++ '\x7d' :: rest) =
      .ok ((first :: more).map take, rest) := by
  induction more generalizing first fuel with
  | nil =>
      cases fuel with
      | zero => omega
      | succ fuel =>
          simp only [List.map_cons, List.map_nil, separated] at hfuel ⊢
          have hfirst := hitem first fuel ('\x7d' :: rest) (by omega) ⟨_, _, rfl, .inr rfl⟩
          rw [items, hfirst]
          rfl
  | cons second more ih =>
      cases fuel with
      | zero => omega
      | succ fuel =>
          simp only [List.map_cons, separated, List.length_append, List.length_cons] at hfuel
          have hfirst := hitem first fuel
            (',' :: separated ((second :: more).map write) ++ '\x7d' :: rest) (by omega)
            ⟨_, _, rfl, .inl rfl⟩
          have hshorter : 3 * (separated ((second :: more).map write)).length < fuel := by
            simp only [List.map_cons]
            omega
          have hmore := ih second hshorter
          simp only [List.map_cons, separated, List.append_assoc, List.cons_append]
            at hfirst hmore ⊢
          rw [items, hfirst]
          change (items element fuel _ >>= _) = _
          rw [hmore]
          rfl

theorem exists_first_writtenGrid {lengths : List Nat} (g : Grid (Option String) lengths) :
    exists c more, writtenGrid g = c :: more ∧ c ≠ '\x7d' := by
  cases lengths with
  | nil =>
      rcases exists_first_written g with ⟨c, more, heq, -, hc⟩
      exact ⟨c, more, heq, hc⟩
  | cons length inner => exact ⟨'\x7b', _, rfl, by decide⟩

theorem exists_separated (c : Char) (tail : List Char) (more : List (List Char)) :
    exists opened, separated ((c :: tail) :: more) = c :: opened := by
  cases more with
  | nil => exact ⟨tail, rfl⟩
  | cons next more => exact ⟨tail ++ ',' :: separated (next :: more), rfl⟩

theorem level_opened {element : Oid} {c : Char} (hc : c ≠ '\x7d') (fuel : Nat)
    (cs : List Char) :
    level element (fuel + 1) ('\x7b' :: c :: cs) = items element fuel (c :: cs) := by
  rw [level.eq_def]
  dsimp only
  split
  · rename_i heq
    cases heq
    exact absurd rfl hc
  · rename_i heq
    cases heq
    rfl
  · rename_i hother
    exact absurd rfl (hother (c :: cs))

theorem level_writtenGrid (element : Oid) {length : Nat} {inner : List Nat}
    (hpositive : 0 < length)
    (hitem : forall (g : Grid (Option String) inner) fuel rest,
      3 * (writtenGrid g).length <= fuel -> Closes rest ->
        item element fuel (writtenGrid g ++ rest) = .ok ((g.map received).value, rest))
    (g : Grid (Option String) (length :: inner)) (fuel : Nat)
    (hfuel : 3 * (writtenGrid g).length <= fuel + 1) (rest : List Char) :
    level element fuel (writtenGrid g ++ rest) =
      .ok (g.rows.map fun row => (row.map received).value, rest) := by
  cases hrows : g.rows with
  | nil => exact absurd hrows (g.rows_ne_nil (by omega))
  | cons row more =>
      have hwritten : writtenGrid g =
          '\x7b' :: (separated ((row :: more).map writtenGrid) ++ ['\x7d']) := by
        rw [writtenGrid, hrows]
      rw [hwritten] at hfuel ⊢
      rcases exists_first_writtenGrid row with ⟨c, tail, hfirst, hc⟩
      have hopening : exists opened, separated ((row :: more).map writtenGrid) = c :: opened := by
        rw [List.map_cons, hfirst]
        exact exists_separated c tail _
      rcases hopening with ⟨opened, hopening⟩
      simp only [List.length_cons, List.length_append, List.length_nil] at hfuel
      cases fuel with
      | zero => omega
      | succ fuel =>
          have hshorter : 3 * (separated ((row :: more).map writtenGrid)).length < fuel := by omega
          have hitems := items_separated hitem row more hshorter rest
          rw [hopening] at hitems ⊢
          rw [List.cons_append, List.append_assoc, List.cons_append, List.singleton_append,
            level_opened hc]
          exact hitems

theorem item_writtenGrid {element : Oid} (helement : element.IsTextual) {lengths : List Nat}
    (hpositive : forall n, n ∈ lengths -> 0 < n) (g : Grid (Option String) lengths) (fuel : Nat)
    (rest : List Char) (hfuel : 3 * (writtenGrid g).length <= fuel) (hrest : Closes rest) :
    item element fuel (writtenGrid g ++ rest) = .ok ((g.map received).value, rest) := by
  induction lengths generalizing fuel rest with
  | nil =>
      rcases exists_first_written g with ⟨c, more, heq, -, -⟩
      change 3 * (writtenElement g).length <= fuel at hfuel
      cases fuel with
      | zero => simp [heq] at hfuel
      | succ fuel => exact item_writtenElement helement fuel g hrest
  | cons length inner ih =>
      have hlevel := level_writtenGrid element (hpositive length List.mem_cons_self)
        (fun g fuel rest =>
          ih (fun n hn => hpositive n (List.mem_cons_of_mem length hn)) g fuel rest)
        g (fuel - 1) (by omega) rest
      cases fuel with
      | zero => exact absurd hfuel (by simp [writtenGrid])
      | succ fuel =>
          rw [Nat.add_sub_cancel, writtenGrid, List.cons_append] at hlevel
          rw [writtenGrid, List.cons_append, item, hlevel, Grid.value_map]
          rfl

/-!
## Whole arrays
-/

theorem not_mem_toString (n : Int) {c : Char} (hdigit : c.isDigit = false) (hsign : c ≠ '-') :
    c ∉ (toString n).toList := by
  have hdigits : forall n : Nat, c ∉ (toString n).toList := by
    intro n hc
    rw [Number.isDigit_of_mem_toString hc] at hdigit
    cases hdigit
  cases n with
  | ofNat n => exact hdigits n
  | negSucc n =>
      have hwritten : (toString (Int.negSucc n)).toList = '-' :: (toString (n + 1)).toList :=
        String.toList_append
      rw [hwritten, List.mem_cons, not_or]
      exact ⟨hsign, hdigits (n + 1)⟩

theorem not_mem_writtenBounds (d : Dimension) : '=' ∉ writtenBounds d := by
  have hlower := not_mem_toString d.lower (c := '=') (by decide) (by decide)
  have hupper := not_mem_toString (d.lower + d.length - 1) (c := '=') (by decide) (by decide)
  simp only [writtenBounds, List.mem_cons, List.mem_append, List.not_mem_nil, not_or, or_false]
  exact ⟨by decide, hlower, by decide, hupper, by decide⟩

theorem splitAt_append {c : Char} {before : List Char} (hbefore : c ∉ before)
    (after : List Char) :
    IntervalText.splitAt c (before ++ c :: after) = (before, some after) := by
  have hall : forall d, d ∈ before -> (d != c) = true := by
    intro d hd
    rw [bne_iff_ne]
    rintro rfl
    exact hbefore hd
  unfold IntervalText.splitAt
  rw [List.dropWhile_append_of_pos hall, List.takeWhile_append_of_pos hall]
  simp

theorem read_eq_ok {element : Oid} {text : String} (more : List Char)
    (htext : text.toList = '\x7b' :: more ∨
      exists bounds, '=' ∉ bounds ∧ text.toList = '[' :: bounds ++ '=' :: '\x7b' :: more)
    {values : List Value}
    (hlevel : level element (fuel ('\x7b' :: more)) ('\x7b' :: more) = .ok (values, [])) :
    read element text = .ok (.array values) := by
  unfold read
  rcases htext with htext | ⟨bounds, hbounds, htext⟩
  · rw [htext]
    change (level element (fuel ('\x7b' :: more)) ('\x7b' :: more) >>= _) = _
    rw [hlevel]
    rfl
  · have hsplit : IntervalText.splitAt '=' ('[' :: bounds ++ '=' :: '\x7b' :: more) =
        ('[' :: bounds, some ('\x7b' :: more)) :=
      splitAt_append (by simp [hbounds]) _
    rw [List.cons_append] at htext hsplit
    simp only [htext, hsplit]
    change (level element (fuel ('\x7b' :: more)) ('\x7b' :: more) >>= _) = _
    rw [hlevel]
    rfl

/-- An array is read with every element as it is received. -/
theorem read_filled {element : Oid} (helement : element.IsTextual) (first : Dimension)
    (inner : List Dimension)
    (elements : Grid (Option String) ((first :: inner).map (·.length))) :
    read element (TextArray.filled first inner elements).text =
      .ok (elements.map received).value := by
  have hpositive : forall n, n ∈ inner.map (·.length) -> 0 < n := by
    intro n hn
    rcases List.mem_map.mp hn with ⟨d, -, rfl⟩
    exact d.positive
  let g : Grid (Option String) (first.length :: inner.map (·.length)) := elements
  have hlevel := level_writtenGrid element first.positive
    (fun g fuel rest => item_writtenGrid helement hpositive g fuel rest) g
    (fuel (writtenGrid g)) (by unfold fuel; omega) []
  have hvalue : (elements.map received).value =
      .array (g.rows.map fun row => (row.map received).value) := Grid.value_map received g
  rw [hvalue]
  rw [List.append_nil] at hlevel
  refine read_eq_ok (separated (g.rows.map writtenGrid) ++ ['\x7d']) ?_ hlevel
  rw [TextArray.text, String.toList_ofList, TextArray.written]
  cases hbounds : (first :: inner).all (·.lower == 1) with
  | true => exact Or.inl rfl
  | false =>
      right
      refine ⟨(writtenBounds first).tail ++ inner.flatMap writtenBounds, ?_, ?_⟩
      · rw [List.mem_append, List.mem_flatMap, not_or]
        refine ⟨fun h => not_mem_writtenBounds first (List.mem_of_mem_tail h), ?_⟩
        rintro ⟨d, -, hd⟩
        exact not_mem_writtenBounds d hd
      · simp only [Bool.false_eq_true, if_false, List.flatMap_cons, List.append_assoc]
        change '[' :: ((writtenBounds first).tail ++
            (inner.flatMap writtenBounds ++ '=' :: writtenGrid elements)) =
          '[' :: (((writtenBounds first).tail ++ inner.flatMap writtenBounds) ++
            '=' :: writtenGrid elements)
        rw [List.append_assoc]

end ArrayText

/-!
## What the reader gives back
-/

/-- A blank stands at an end of the text.  Where the text is written without quotes, it is one
outside ASCII. -/
def HasBlankEnd (text : String) : Prop :=
  exists c, (text.toList.head? = some c ∨ text.toList.getLast? = some c) ∧ Text.isBlank c = true

theorem trimStart_eq_self_iff {cs : List Char} :
    Text.trimStart cs = cs <-> forall c, cs.head? = some c -> Text.isBlank c = false := by
  cases cs with
  | nil => simp [Text.trimStart]
  | cons c more =>
      cases hc : Text.isBlank c with
      | false => simp [Text.trimStart, hc]
      | true =>
          have hshort := (List.dropWhile_suffix Text.isBlank (l := more)).length_le
          have hne : Text.trimStart (c :: more) ≠ c :: more := by
            intro heq
            rw [Text.trimStart, List.dropWhile_cons_of_pos hc] at heq
            rw [heq, List.length_cons] at hshort
            omega
          simp [hne, hc]

theorem trim_eq_self_iff {cs : List Char} :
    Text.trim cs = cs <-> Text.trimStart cs = cs ∧ Text.trimStart cs.reverse = cs.reverse := by
  constructor
  · intro h
    have hsuffix : forall cs, Text.trimStart cs <:+ cs := fun cs => List.dropWhile_suffix _
    have hinner := (hsuffix cs).length_le
    have houter := (hsuffix (Text.trimStart cs).reverse).length_le
    have hlength := congrArg List.length h
    rw [Text.trim, List.length_reverse] at hlength
    rw [List.length_reverse] at houter
    have hfirst : Text.trimStart cs = cs := (hsuffix cs).eq_of_length (by omega)
    rw [Text.trim, hfirst] at h
    exact ⟨hfirst, List.reverse_eq_iff.mp h⟩
  · rintro ⟨hfirst, hlast⟩
    rw [Text.trim, hfirst, hlast, List.reverse_reverse]

theorem trim_toList_iff (text : String) :
    Text.trim text.toList = text.toList <-> ¬ HasBlankEnd text := by
  rw [trim_eq_self_iff, trimStart_eq_self_iff, trimStart_eq_self_iff, List.head?_reverse]
  constructor
  · rintro ⟨hfirst, hlast⟩ ⟨c, hend | hend, hc⟩
    · rw [hfirst c hend] at hc
      cases hc
    · rw [hlast c hend] at hc
      cases hc
  · intro h
    exact ⟨fun c hend => Bool.eq_false_iff.mpr fun hc => h ⟨c, Or.inl hend, hc⟩,
      fun c hend => Bool.eq_false_iff.mpr fun hc => h ⟨c, Or.inr hend, hc⟩⟩

/-- An element without quotes is received as it is if no blank is cut from it. -/
theorem received_text_iff (text : String) :
    ArrayText.received (some text) = .text text <->
      (TextArray.isQuoted text = false -> ¬ HasBlankEnd text) := by
  rw [<- trim_toList_iff]
  cases hquoted : TextArray.isQuoted text with
  | true => simp [ArrayText.received, hquoted]
  | false =>
      have hnull : TextArray.isNullWord text.toList = false := by
        simp only [TextArray.isQuoted, Bool.or_eq_false_iff] at hquoted
        exact hquoted.1.2
      simp only [ArrayText.received, hquoted, Bool.false_eq_true, if_false, true_implies]
      constructor
      · intro h
        split at h
        · cases h
        · injection h with htext
          rw [<- String.toList_ofList (l := Text.trim text.toList), htext]
      · intro h
        rw [h, hnull, if_neg Bool.false_ne_true, String.ofList_toList]

/-- An array in text format is read as the array that was sent, exactly when no element that is
written without quotes begins or ends with a blank. -/
theorem array_text_read_iff {element : Oid} (helement : element.IsTextual) (a : TextArray) :
    ArrayText.read element a.text = .ok a.value <->
      forall text, some text ∈ a.elements -> TextArray.isQuoted text = false ->
        ¬ HasBlankEnd text := by
  cases a with
  | empty => simp [TextArray.elements]; rfl
  | filled first inner elements =>
      rw [ArrayText.read_filled helement, TextArray.value, TextArray.elements, Except.ok.injEq,
        Grid.value_map_eq_iff]
      constructor
      · intro h text htext
        exact (received_text_iff text).mp (h (some text) htext)
      · rintro h (_ | text) helement
        · rfl
        · exact (received_text_iff text).mpr (h text helement)

def spacedRows : TextArray :=
  .filled ⟨0, 2, by decide⟩ [⟨1, 2, by decide⟩]
    ⟨[⟨[some "a\u00a0b", none], rfl⟩, ⟨[some "\u00a0, \"c\"", some "null"], rfl⟩], rfl⟩

theorem spacedRows_read :
    Oid.text.IsTextual ∧
      spacedRows.text =
        "[0:1][1:2]=\x7b\x7ba\u00a0b,NULL\x7d,\x7b\"\u00a0, \\\"c\\\"\",\"null\"\x7d\x7d" ∧
      ArrayText.read Oid.text spacedRows.text = .ok (.array [.array [.text "a\u00a0b", .null],
        .array [.text "\u00a0, \"c\"", .text "null"]]) := by
  have htext : Oid.text.IsTextual := by decide
  refine ⟨htext, by decide +kernel, ?_⟩
  refine (array_text_read_iff htext spacedRows).mpr fun text hmem hquoted => ?_
  change some text ∈ [some "a\u00a0b", none, some "\u00a0, \"c\"", some "null"] at hmem
  have hcases : text = "a\u00a0b" ∨ text = "\u00a0, \"c\"" ∨ text = "null" := by
    simpa using hmem
  rcases hcases with rfl | rfl | rfl
  · exact (trim_toList_iff _).mp (by decide +kernel)
  · exact absurd hquoted (by decide +kernel)
  · exact absurd hquoted (by decide +kernel)

def spacedText : TextArray := .filled ⟨1, 1, by decide⟩ [] ⟨[some "\u00a0x"], rfl⟩

theorem spacedText_misread :
    spacedText.value = .array [.text "\u00a0x"] ∧
      ArrayText.read Oid.text spacedText.text = .ok (.array [.text "x"]) ∧
      ArrayText.read Oid.text spacedText.text ≠ .ok spacedText.value := by
  have hread : ArrayText.read Oid.text spacedText.text = .ok (.array [.text "x"]) := rfl
  refine ⟨rfl, hread, fun h => ?_⟩
  rw [hread] at h
  injection h with hvalue
  change Value.array [.text "x"] = .array [.text "\u00a0x"] at hvalue
  simp at hvalue

end Wire
end TypedQuery
