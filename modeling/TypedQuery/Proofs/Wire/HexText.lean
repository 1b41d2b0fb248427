import TypedQuery.Wire.Column

/-!
# Bytes in texts

Bytes are written as a backslash, an `x` and two hexadecimal digits for each byte.  What spells them
is said here by the place of a digit among all sixteen, without the reader.
-/

namespace TypedQuery

namespace Hex

/-!
## Digits
-/

def lowerDigits : List Char := "0123456789abcdef".toList

def upperDigits : List Char := "0123456789ABCDEF".toList

def IsDigitOf (c : Char) (n : Nat) : Prop := lowerDigits[n]? = some c ∨ upperDigits[n]? = some c

/-- Two characters for each byte: one that leads it, and the digit of its lower half. -/
inductive Spells (Leads : Char -> Nat -> Prop) : List Char -> List UInt8 -> Prop where
  | nil : Spells Leads [] []
  | byte {a b : Char} {high low : Nat} {rest : List Char} {bytes : List UInt8}
      (hhigh : Leads a high) (hlow : IsDigitOf b low) (hrest : Spells Leads rest bytes) :
      Spells Leads (a :: b :: rest) (.ofNat (16 * high + low) :: bytes)

variable {c : Char} {n : Nat} {cs : List Char} {bytes : List UInt8}

theorem digitValue?_of_isDigitOf (h : IsDigitOf c n) : digitValue? c = some n := by
  have hlower : forall n : Fin 16, digitValue? lowerDigits[n] = some n.val := by decide
  have hupper : forall n : Fin 16, digitValue? upperDigits[n] = some n.val := by decide
  rcases h with h | h
  · rcases List.getElem?_eq_some_iff.mp h with ⟨hn, rfl⟩
    exact hlower ⟨n, hn⟩
  · rcases List.getElem?_eq_some_iff.mp h with ⟨hn, rfl⟩
    exact hupper ⟨n, hn⟩

theorem range_iff_toNat {a b c : Char} :
    (a ≤ c && c ≤ b) = true <-> a.toNat ≤ c.toNat ∧ c.toNat ≤ b.toNat := by
  rw [Bool.and_eq_true, decide_eq_true_eq, decide_eq_true_eq, Char.le_def, Char.le_def,
    UInt32.le_iff_toNat_le, UInt32.le_iff_toNat_le]
  exact Iff.rfl

/-- A digit of a run of digits with consecutive codes stands as far from its first one as its code
does. -/
theorem getElem?_of_run {digits : List Char} (place first count : Nat)
    (hrun : forall k, k < count -> digits[k + place]? = some (Char.ofNat (first + k)))
    (hfirst : first ≤ c.toNat) (hlast : c.toNat < first + count) :
    digits[c.toNat - first + place]? = some c := by
  rw [hrun (c.toNat - first) (by omega), Nat.add_sub_cancel' hfirst, Char.ofNat_toNat]

theorem isDigitOf_of_digitValue? (h : digitValue? c = some n) : IsDigitOf c n := by
  unfold digitValue? at h
  -- The reader knows three runs of digits, each by the codes of its ends.
  split at h
  · rename_i hc
    have hc : 48 ≤ c.toNat ∧ c.toNat ≤ 57 := Char.isDigit_iff_toNat.mp hc
    cases h
    exact .inl (getElem?_of_run 0 48 10 (by decide) hc.1 (by omega))
  · split at h
    · rename_i hc
      have hc : 97 ≤ c.toNat ∧ c.toNat ≤ 102 := range_iff_toNat.mp hc
      cases h
      exact .inl (getElem?_of_run 10 97 6 (by decide) hc.1 (by omega))
    · split at h
      · rename_i hc
        have hc : 65 ≤ c.toNat ∧ c.toNat ≤ 70 := range_iff_toNat.mp hc
        cases h
        exact .inr (getElem?_of_run 10 65 6 (by decide) hc.1 (by omega))
      · cases h

theorem digitValue?_eq_some_iff : digitValue? c = some n <-> IsDigitOf c n :=
  ⟨isDigitOf_of_digitValue?, digitValue?_of_isDigitOf⟩

/-!
## Pairs of characters
-/

theorem Spells.mono {Leads Other : Char -> Nat -> Prop}
    (hleads : forall c n, c ∈ cs -> Leads c n -> Other c n) (h : Spells Leads cs bytes) :
    Spells Other cs bytes := by
  induction h with
  | nil => exact .nil
  | byte hhigh hlow _ ih =>
      refine .byte (hleads _ _ List.mem_cons_self hhigh) hlow (ih fun c n hc => ?_)
      exact hleads c n (List.mem_cons_of_mem _ (List.mem_cons_of_mem _ hc))

theorem ne_plus_of_isDigitOf (h : IsDigitOf c n) : c ≠ '+' := by
  rintro rfl
  cases digitValue?_of_isDigitOf h

theorem plus_not_mem_of_spells (h : Spells IsDigitOf cs bytes) : '+' ∉ cs := by
  induction h with
  | nil => exact List.not_mem_nil
  | byte hhigh hlow _ ih =>
      rw [List.mem_cons, List.mem_cons, not_or, not_or]
      exact ⟨(ne_plus_of_isDigitOf hhigh).symm, (ne_plus_of_isDigitOf hlow).symm, ih⟩

def pairs? (lead? : Char -> Option Nat) : List Char -> Option (List UInt8)
  | [] => some []
  | [_] => none
  | a :: b :: rest =>
      (lead? a).bind fun high => (digitValue? b).bind fun low =>
        (pairs? lead? rest).map fun bytes => .ofNat (16 * high + low) :: bytes

theorem pairs?_eq_some_iff {lead? : Char -> Option Nat} {Leads : Char -> Nat -> Prop}
    (hlead : forall c n, lead? c = some n <-> Leads c n) :
    pairs? lead? cs = some bytes <-> Spells Leads cs bytes := by
  constructor
  · intro h
    fun_induction pairs? lead? cs generalizing bytes with
    | case1 =>
        cases h
        exact .nil
    | case2 => cases h
    | case3 a b rest ih =>
        rcases Option.bind_eq_some_iff.mp h with ⟨high, hhigh, h⟩
        rcases Option.bind_eq_some_iff.mp h with ⟨low, hlow, h⟩
        rcases Option.map_eq_some_iff.mp h with ⟨more, hmore, rfl⟩
        exact .byte ((hlead a high).mp hhigh) (digitValue?_eq_some_iff.mp hlow) (ih hmore)
  · intro h
    induction h with
    | nil => rfl
    | byte hhigh hlow _ ih =>
        rw [pairs?, (hlead _ _).mpr hhigh, digitValue?_eq_some_iff.mpr hlow, ih]
        rfl

theorem decode?_eq_pairs? (cs : List Char) : decode? cs = pairs? digitValue? cs := by
  fun_induction decode? cs with
  | case1 => rfl
  | case2 => rfl
  | case3 a b rest ih =>
      rw [pairs?, ih]
      cases pairs? digitValue? rest <;> rfl

/-- Bytes are read from what spells them. -/
theorem decode?_eq_some_iff : decode? cs = some bytes <-> Spells IsDigitOf cs bytes := by
  rw [decode?_eq_pairs?]
  exact pairs?_eq_some_iff fun _ _ => digitValue?_eq_some_iff

end Hex

namespace Wire.HexText

open Hex

/-!
## Texts that write bytes
-/

/-- A plus sign may lead a byte, in the place of a zero. -/
def Leads (c : Char) (n : Nat) : Prop := IsDigitOf c n ∨ c = '+' ∧ n = 0

def lead? (c : Char) : Option Nat := if c = '+' then some 0 else digitValue? c

theorem lead?_eq_some_iff {c : Char} {n : Nat} : lead? c = some n <-> Leads c n := by
  have hplus : digitValue? '+' = none := by decide
  rw [lead?, Leads, <- digitValue?_eq_some_iff]
  by_cases hc : c = '+'
  · rw [if_pos hc, hc, hplus]
    simp [eq_comm]
  · rw [if_neg hc]
    simp [hc]

theorem digits?_eq_pairs? (cs : List Char) : digits? cs = pairs? lead? cs := by
  have hbyte : forall a b, byte? a b = (lead? a).bind fun high =>
      (digitValue? b).bind fun low => some (.ofNat (16 * high + low)) := by
    intro a b
    rw [byte?, lead?]
    split <;> rfl
  fun_induction digits? cs with
  | case1 => rfl
  | case2 => rfl
  | case3 a b rest ih =>
      rw [pairs?, hbyte, ih]
      cases lead? a <;> cases digitValue? b <;> cases pairs? lead? rest <;> rfl

theorem digits?_eq_some_iff {cs : List Char} {bytes : List UInt8} :
    digits? cs = some bytes <-> Spells Leads cs bytes := by
  rw [digits?_eq_pairs?]
  exact pairs?_eq_some_iff fun _ _ => lead?_eq_some_iff

def Writes (Leads : Char -> Nat -> Prop) (text : String) (bytes : List UInt8) : Prop :=
  exists digits, text.toList = '\\' :: 'x' :: digits ∧ Spells Leads digits bytes

variable {text : String} {bytes : List UInt8}

theorem Writes.leads (h : Writes IsDigitOf text bytes) : Writes Leads text bytes := by
  rcases h with ⟨digits, htext, hdigits⟩
  exact ⟨digits, htext, hdigits.mono fun _ _ _ => .inl⟩

theorem Writes.digits (hplus : '+' ∉ text.toList) (h : Writes Leads text bytes) :
    Writes IsDigitOf text bytes := by
  rcases h with ⟨digits, htext, hdigits⟩
  refine ⟨digits, htext, hdigits.mono fun c n hc hlead => hlead.resolve_right ?_⟩
  rintro ⟨rfl, -⟩
  rw [htext] at hplus
  exact hplus (List.mem_cons_of_mem _ (List.mem_cons_of_mem _ hc))

theorem plus_not_mem_of_writes (h : Writes IsDigitOf text bytes) : '+' ∉ text.toList := by
  rcases h with ⟨digits, htext, hdigits⟩
  rw [htext, List.mem_cons, List.mem_cons, not_or, not_or]
  exact ⟨by decide, by decide, plus_not_mem_of_spells hdigits⟩

/-!
## Reading
-/

theorem read_of_digits {digits : List Char} (h : text.toList = '\\' :: 'x' :: digits) :
    read text =
      match digits? digits with
      | some bytes => .ok bytes
      | none => .error (.conversion (.hexDigits text)) := by
  rw [read, h]
  rfl

theorem read_of_writes (h : Writes Leads text bytes) : read text = .ok bytes := by
  rcases h with ⟨digits, htext, hdigits⟩
  rw [read_of_digits htext, digits?_eq_some_iff.mpr hdigits]

theorem read_of_not_writes (hopening : ['\\', 'x'] <+: text.toList)
    (h : forall bytes, ¬ Writes Leads text bytes) :
    read text = .error (.conversion (.hexDigits text)) := by
  rcases hopening with ⟨digits, hdigits⟩
  have htext : text.toList = '\\' :: 'x' :: digits := hdigits.symm
  rw [read_of_digits htext]
  cases hread : digits? digits with
  | none => rfl
  | some bytes => exact absurd ⟨digits, htext, digits?_eq_some_iff.mp hread⟩ (h bytes)

theorem read_of_other (h : ¬ ['\\', 'x'] <+: text.toList) :
    read text = .error (.conversion .hexForm) := by
  rw [read]
  split
  · rename_i digits htext
    exact absurd ⟨digits, htext.symm⟩ h
  · rfl

theorem read_cases (text : String) :
    (exists bytes, Writes Leads text bytes ∧ read text = .ok bytes) ∨
      (['\\', 'x'] <+: text.toList ∧ (forall bytes, ¬ Writes Leads text bytes) ∧
        read text = .error (.conversion (.hexDigits text))) ∨
      (¬ ['\\', 'x'] <+: text.toList ∧ read text = .error (.conversion .hexForm)) := by
  by_cases hopening : ['\\', 'x'] <+: text.toList
  · by_cases hwrites : exists bytes, Writes Leads text bytes
    · rcases hwrites with ⟨bytes, hbytes⟩
      exact .inl ⟨bytes, hbytes, read_of_writes hbytes⟩
    · have hnone := not_exists.mp hwrites
      exact .inr (.inl ⟨hopening, hnone, read_of_not_writes hopening hnone⟩)
  · exact .inr (.inr ⟨hopening, read_of_other hopening⟩)

theorem read_eq_ok_iff : read text = .ok bytes <-> Writes Leads text bytes := by
  refine ⟨fun h => ?_, read_of_writes⟩
  rcases read_cases text with ⟨other, hother, hread⟩ | ⟨-, -, hread⟩ | ⟨-, hread⟩
  · rw [hread] at h
    cases h
    exact hother
  · rw [hread] at h
    cases h
  · rw [hread] at h
    cases h

theorem read_eq_hexDigits_iff : read text = .error (.conversion (.hexDigits text)) <->
    ['\\', 'x'] <+: text.toList ∧ forall bytes, ¬ Writes Leads text bytes := by
  refine ⟨fun h => ?_, fun h => read_of_not_writes h.1 h.2⟩
  rcases read_cases text with ⟨other, hother, hread⟩ | ⟨hopening, hnone, -⟩ | ⟨-, hread⟩
  · rw [hread] at h
    cases h
  · exact ⟨hopening, hnone⟩
  · rw [hread] at h
    cases h

theorem read_eq_hexForm_iff : read text = .error (.conversion .hexForm) <->
    ¬ ['\\', 'x'] <+: text.toList := by
  refine ⟨fun h => ?_, read_of_other⟩
  rcases read_cases text with ⟨other, hother, hread⟩ | ⟨-, -, hread⟩ | ⟨hopening, -⟩
  · rw [hread] at h
    cases h
  · rw [hread] at h
    cases h
  · exact hopening

theorem read_exact_iff : (forall bytes, read text = .ok bytes <-> Writes IsDigitOf text bytes) <->
    '+' ∉ text.toList ∨ forall bytes, ¬ Writes Leads text bytes := by
  constructor
  · intro h
    by_cases hwrites : exists bytes, Writes Leads text bytes
    · rcases hwrites with ⟨bytes, hbytes⟩
      exact .inl (plus_not_mem_of_writes ((h bytes).mp (read_of_writes hbytes)))
    · exact .inr (not_exists.mp hwrites)
  · intro h bytes
    rw [read_eq_ok_iff]
    rcases h with hplus | hnone
    · exact ⟨Writes.digits hplus, Writes.leads⟩
    · exact ⟨fun hbytes => absurd hbytes (hnone bytes), Writes.leads⟩

theorem textScalar?_of_digits {digits : List Char} (h : text.toList = '\\' :: 'x' :: digits) :
    textScalar? Oid.bytea text = (decode? digits).map .bytes := by
  unfold textScalar?
  rw [h]
  rfl

theorem textScalar?_of_other (h : ¬ ['\\', 'x'] <+: text.toList) :
    textScalar? Oid.bytea text = none := by
  unfold textScalar?
  simp +decide only [reduceIte]
  split
  · rename_i digits htext
    exact absurd ⟨digits, htext.symm⟩ h
  · rfl

theorem textScalar?_bytea_iff :
    textScalar? Oid.bytea text = some (.bytes bytes) <-> Writes IsDigitOf text bytes := by
  constructor
  · intro h
    by_cases hopening : ['\\', 'x'] <+: text.toList
    · rcases hopening with ⟨digits, hdigits⟩
      have htext : text.toList = '\\' :: 'x' :: digits := hdigits.symm
      rw [textScalar?_of_digits htext] at h
      rcases Option.map_eq_some_iff.mp h with ⟨other, hother, hvalue⟩
      cases hvalue
      exact ⟨digits, htext, decode?_eq_some_iff.mp hother⟩
    · rw [textScalar?_of_other hopening] at h
      cases h
  · rintro ⟨digits, htext, hdigits⟩
    rw [textScalar?_of_digits htext, decode?_eq_some_iff.mpr hdigits, Option.map_some]

/-- A text is read as bytes exactly if it is the prefix and two characters for each byte: a digit or
a plus sign, and a digit.  Of any other text the fault says whether the prefix is missing or what
follows it is wrong.  So reading takes bytes and nothing else exactly on the texts without a plus
sign and on those that it refuses; bytes that stand alone are always read so. -/
theorem bytes_read_iff (text : String) :
    (forall bytes, read text = .ok bytes <-> Writes Leads text bytes) ∧
      (read text = .error (.conversion (.hexDigits text)) <->
        ['\\', 'x'] <+: text.toList ∧ forall bytes, ¬ Writes Leads text bytes) ∧
      (read text = .error (.conversion .hexForm) <-> ¬ ['\\', 'x'] <+: text.toList) ∧
      ((forall bytes, read text = .ok bytes <-> Writes IsDigitOf text bytes) <->
        '+' ∉ text.toList ∨ forall bytes, ¬ Writes Leads text bytes) ∧
      forall bytes, textScalar? Oid.bytea text = some (.bytes bytes) <->
        Writes IsDigitOf text bytes :=
  ⟨fun _ => read_eq_ok_iff, read_eq_hexDigits_iff, read_eq_hexForm_iff, read_exact_iff,
    fun _ => textScalar?_bytea_iff⟩

theorem signedPair_read : read "\\x+f" = .ok [15] ∧
    forall bytes, ¬ Writes IsDigitOf "\\x+f" bytes :=
  ⟨rfl, fun _ h => plus_not_mem_of_writes h (by decide)⟩

end Wire.HexText
end TypedQuery
