import TypedQuery.Number.Rounding

/-!
# Decimals of 96 bits

A decimal is an integer below 2^96 in absolute value together with a scale of at most 28
fractional digits.  Addition, subtraction and multiplication round to nearest, half to even,
when the exact result needs more digits, and fail only when no scale makes it fit.
-/

namespace TypedQuery
namespace Number

/-- An unscaled integer and the number of its fractional digits. -/
structure Decimal where
  unscaled : Int
  scale : Nat
  bounded : unscaled.natAbs < twoPow 96 := by decide
  scale_le : scale ≤ 28 := by decide
deriving DecidableEq

namespace Decimal

def maxScale : Nat := 28

def zero : Decimal := { unscaled := 0, scale := 0 }

instance : Inhabited Decimal := ⟨zero⟩

/-- The decimal with the given parts, if they are in range. -/
def ofParts? (unscaled : Int) (scale : Nat) : Option Decimal :=
  if h : unscaled.natAbs < twoPow 96 ∧ scale ≤ 28 then some ⟨unscaled, scale, h.1, h.2⟩ else none

theorem ofParts?_self (d : Decimal) : ofParts? d.unscaled d.scale = some d :=
  dif_pos ⟨d.bounded, d.scale_le⟩

def isZero (d : Decimal) : Bool := d.unscaled == 0

/-!
## Fitting an exact result
-/

/-- Drops `k` or more digits of a magnitude, as few as make it fit, up to `fuel` of them. -/
private def dropDigits (magnitude scale k : Nat) : Nat -> Option (Nat × Nat)
  | 0 => none
  | fuel + 1 =>
      if scale < k then none
      else
        let rounded := divHalfEven magnitude (tenPow k)
        if rounded < twoPow 96 then some (rounded, scale - k)
        else dropDigits magnitude scale (k + 1) fuel

/-- The decimal nearest to `(-1)^negative * magnitude / 10^scale` with as many digits as fit. -/
def fit? (negative : Bool) (magnitude scale : Nat) : Option Decimal :=
  match dropDigits magnitude scale (scale - maxScale) (scale + 1) with
  | none => none
  | some (rounded, left) =>
      ofParts? (if negative then -(rounded : Int) else (rounded : Int)) left

/-!
## Arithmetic

A zero operand leaves the other operand as it is, with its own scale; a product with zero is
the plain zero.
-/

/-- The unscaled integer at a scale that is at least the decimal's own. -/
def atScale (d : Decimal) (scale : Nat) : Int := d.unscaled * tenPow (scale - d.scale)

def neg (d : Decimal) : Decimal :=
  { unscaled := -d.unscaled, scale := d.scale
    bounded := by simpa using d.bounded
    scale_le := d.scale_le }

def add? (a b : Decimal) : Option Decimal :=
  if a.isZero then some b
  else if b.isZero then some a
  else
    let scale := max a.scale b.scale
    let sum := a.atScale scale + b.atScale scale
    fit? (sum < 0) sum.natAbs scale

def sub? (a b : Decimal) : Option Decimal := add? a b.neg

/-- Products of two 32-bit integers vanish entirely when they have more than 47 fractional
digits; every other product is rounded to the nearest decimal. -/
def mul? (a b : Decimal) : Option Decimal :=
  if a.isZero || b.isZero then some zero
  else
    let product := a.unscaled * b.unscaled
    let scale := a.scale + b.scale
    if a.unscaled.natAbs < twoPow 32 && b.unscaled.natAbs < twoPow 32 && scale > 47 then some zero
    else fit? (product < 0) product.natAbs scale

/-- The power of 10000, if it is a decimal. -/
def powerOfGroup? (exponent : Int) : Option Decimal :=
  if 0 ≤ exponent then ofParts? (tenPow (4 * exponent.toNat)) 0
  else ofParts? 1 (4 * exponent.natAbs)

/-- Appends at most so many zeros, as long as they fit. -/
private def appendZeros (d : Decimal) : Nat -> Decimal
  | 0 => d
  | count + 1 =>
      match ofParts? (10 * d.unscaled) (d.scale + 1) with
      | some longer => appendZeros longer count
      | none => d

/-- The decimal with another number of fractional digits: a half is rounded away from zero, and
zeros are added as long as they fit. -/
def withScale (d : Decimal) (scale : Nat) : Decimal :=
  if d.isZero then (ofParts? 0 (min scale maxScale)).getD d
  else if d.scale ≤ scale then d.appendZeros (scale - d.scale)
  else
    let magnitude := divHalfUp d.unscaled.natAbs (tenPow (d.scale - scale))
    (ofParts? (if d.unscaled < 0 then -(magnitude : Int) else magnitude) scale).getD d

/-- Compares by value, whatever the scales. -/
def compare (a b : Decimal) : Ordering :=
  let scale := max a.scale b.scale
  Ord.compare (a.atScale scale) (b.atScale scale)

theorem isInt64_bounded {n : Int} (h : n.natAbs ≤ 9223372036854775808) : n.natAbs < twoPow 96 :=
  Nat.lt_of_le_of_lt h (by decide)

def ofInt64 (n : Int64) : Decimal :=
  { unscaled := n.toInt, scale := 0
    bounded := isInt64_bounded (by have := n.le_toInt; have := n.toInt_lt; omega)
    scale_le := by decide }

/-!
## Text

All fractional digits are written, also trailing zeros.
-/

def toText (d : Decimal) : String :=
  let digits := padded (d.scale + 1) d.unscaled.natAbs
  let whole := digits.length - d.scale
  let body :=
    if d.scale = 0 then digits
    else String.ofList (digits.toList.take whole) ++ "." ++ String.ofList (digits.toList.drop whole)
  if d.unscaled < 0 then "-" ++ body else body

private structure Reading where
  magnitude : Nat
  scale : Nat
  digits : Bool
  point : Bool

/-- Ends a reading on a digit that no longer fits, rounding a half up. -/
private def Reading.round (r : Reading) (negative : Bool) (digit : Nat) : Option Decimal :=
  let magnitude := if digit ≥ 5 then r.magnitude + 1 else r.magnitude
  if magnitude < twoPow 96 then
    ofParts? (if negative then -(magnitude : Int) else magnitude) r.scale
  else if r.scale = 0 then none
  else
    let shorter := divHalfUp magnitude 10
    ofParts? (if negative then -(shorter : Int) else shorter) (r.scale - 1)

private def Reading.go (negative : Bool) (r : Reading) : List Char -> Option Decimal
  | [] =>
      if r.digits then
        ofParts? (if negative then -(r.magnitude : Int) else r.magnitude) r.scale
      else none
  | c :: rest =>
      match digitValue? c with
      | some digit =>
          if r.point && r.scale ≥ maxScale then r.round negative digit
          else
            let next := 10 * r.magnitude + digit
            if next < twoPow 96 then
              go negative
                { magnitude := next, scale := if r.point then r.scale + 1 else 0
                  digits := true, point := r.point } rest
            else if r.point then r.round negative digit
            else none
      | none =>
          if c == '.' && !r.point then go negative { r with point := true } rest
          else if c == '_' && r.digits then go negative r rest
          else none

/-- Reads an optional sign, digits with an optional point, and underscores after the first
digit; digits that no longer fit are rounded away after the point and refused before it. -/
def ofPlain? (cs : List Char) : Option Decimal :=
  let start : Reading := { magnitude := 0, scale := 0, digits := false, point := false }
  match cs with
  | '-' :: rest => start.go true rest
  | '+' :: rest => start.go false rest
  | cs => start.go false cs

/-- Multiplies by a power of ten that is no decimal fraction; fractional digits that the factor
does not use up are kept. -/
def shiftUp? (d : Decimal) (exponent : Nat) : Option Decimal :=
  if exponent ≤ d.scale then ofParts? d.unscaled (d.scale - exponent)
  else if exponent > maxScale then none
  else ofParts? (d.unscaled * tenPow (exponent - d.scale)) 0

/-- Divides by a power of ten, by adding fractional digits. -/
def shiftDown? (d : Decimal) (exponent : Nat) : Option Decimal :=
  ofParts? d.unscaled (d.scale + exponent)

/-- Reads the digits of an exponent, with an optional plus sign. -/
private def exponent? (cs : List Char) : Option Nat := do
  let n <- readNat? (match cs with | '+' :: rest => rest | cs => cs)
  if n < twoPow 32 then some n else none

/-- Reads a plain decimal, or one that is multiplied by a power of ten after a letter `e`. -/
def ofText? (text : String) : Option Decimal :=
  let isMark (c : Char) : Bool := c == 'e' || c == 'E'
  let base := text.toList.takeWhile (!isMark ·)
  match text.toList.dropWhile (!isMark ·) with
  | [] => ofPlain? base
  | _ :: '-' :: exponent => do (<- ofPlain? base).shiftDown? (<- exponent? exponent)
  | _ :: exponent => do (<- ofPlain? base).shiftUp? (<- exponent? exponent)

/-!
A plain text is read digit by digit; as long as the digits fit, nothing is rounded.
-/

private theorem Reading.go_digit {negative : Bool} {r : Reading} {c : Char} {rest : List Char}
    (hc : c.isDigit = true) (hscale : r.point = true -> r.scale < maxScale)
    (hfit : 10 * r.magnitude + (c.toNat - '0'.toNat) < twoPow 96) :
    Reading.go negative r (c :: rest) =
      Reading.go negative ⟨10 * r.magnitude + (c.toNat - '0'.toNat),
        if r.point then r.scale + 1 else 0, true, r.point⟩ rest := by
  have hvalue : digitValue? c = some (c.toNat - '0'.toNat) := if_pos hc
  have hroom : (r.point && r.scale ≥ maxScale) = false := by
    cases hpoint : r.point with
    | false => rfl
    | true => simpa using hscale hpoint
  rw [Reading.go, hvalue]
  dsimp only
  rw [hroom, if_neg Bool.false_ne_true, if_pos hfit]

/-- Digits count for the scale behind the point only. -/
private theorem Reading.go_digits (negative : Bool) (rest : List Char) (r : Reading)
    {c : Char} {cs : List Char} (hcs : forall d, d ∈ c :: cs -> d.isDigit = true)
    (hscale : r.point = true -> r.scale + (c :: cs).length ≤ maxScale)
    (hfit : r.magnitude * tenPow (c :: cs).length + ofDigits (c :: cs) < twoPow 96) :
    Reading.go negative r (c :: cs ++ rest) =
      Reading.go negative ⟨r.magnitude * tenPow (c :: cs).length + ofDigits (c :: cs),
        if r.point then r.scale + (c :: cs).length else 0, true, r.point⟩ rest := by
  induction cs generalizing c r with
  | nil =>
      have hvalue : r.magnitude * tenPow 1 + ofDigits [c] =
          10 * r.magnitude + (c.toNat - '0'.toNat) := by
        show r.magnitude * 10 + (10 * 0 + (c.toNat - '0'.toNat)) = _
        omega
      simp only [List.length_singleton, hvalue] at hfit ⊢
      exact go_digit (hcs c (by simp)) (fun hpoint => hscale hpoint) hfit
  | cons d cs ih =>
      have hvalue : (10 * r.magnitude + (c.toNat - '0'.toNat)) * tenPow (d :: cs).length +
            ofDigits (d :: cs) =
          r.magnitude * tenPow (c :: d :: cs).length + ofDigits (c :: d :: cs) := by
        rw [ofDigits_cons c, List.length_cons, List.length_cons, List.length_cons,
          tenPow_succ (_ + 1), Nat.add_mul, Nat.add_assoc, Nat.mul_comm 10, Nat.mul_assoc]
      have hfirst : 10 * r.magnitude + (c.toNat - '0'.toNat) < twoPow 96 := by
        have hle := Nat.le_mul_of_pos_right (10 * r.magnitude + (c.toNat - '0'.toNat))
          (tenPow_pos (d :: cs).length)
        omega
      have hcounted : (if r.point then (if r.point then r.scale + 1 else 0) + (d :: cs).length
            else 0) = if r.point then r.scale + (c :: d :: cs).length else 0 := by
        cases r.point with
        | false => rfl
        | true => simp only [if_true, List.length_cons]; omega
      have hrest := ih ⟨10 * r.magnitude + (c.toNat - '0'.toNat),
          if r.point then r.scale + 1 else 0, true, r.point⟩
        (fun e he => hcs e (List.mem_cons_of_mem c he))
        (fun hpoint => by
          have hroom := hscale hpoint
          simp only [List.length_cons] at hroom hpoint ⊢
          rw [if_pos hpoint]
          omega)
        (by rw [hvalue]; exact hfit)
      dsimp only at hrest
      rw [hvalue, hcounted] at hrest
      rw [List.cons_append, go_digit (hcs c List.mem_cons_self)
        (fun hpoint => Nat.lt_of_lt_of_le (by simp) (hscale hpoint)) hfirst]
      exact hrest

/-- What is read before and behind a point; without digits behind it there is no point. -/
def pointed (whole fraction : List Char) : List Char :=
  match fraction with
  | [] => whole
  | c :: rest => whole ++ '.' :: c :: rest

private theorem Reading.go_pointed (negative : Bool) {whole fraction : List Char}
    (hne : whole ≠ []) (hdigits : forall c, c ∈ whole ++ fraction -> c.isDigit = true)
    (hscale : fraction.length ≤ maxScale) (hfit : ofDigits (whole ++ fraction) < twoPow 96) :
    Reading.go negative ⟨0, 0, false, false⟩ (pointed whole fraction) =
      ofParts? (if negative then -(ofDigits (whole ++ fraction) : Int)
        else ofDigits (whole ++ fraction)) fraction.length := by
  obtain ⟨first, more, rfl⟩ := List.exists_cons_of_ne_nil hne
  have hwhole (tail : List Char) (hfit : ofDigits (first :: more) < twoPow 96) :=
    Reading.go_digits negative tail ⟨0, 0, false, false⟩
      (fun d hd => hdigits d (List.mem_append_left _ hd)) (fun h => nomatch h)
      (by rw [Nat.zero_mul, Nat.zero_add]; exact hfit)
  simp only [Nat.zero_mul, Nat.zero_add, Bool.false_eq_true, if_false] at hwhole
  cases fraction with
  | nil =>
      have hread := hwhole [] (by simpa using hfit)
      rw [List.append_nil] at hread
      rw [pointed, hread, List.append_nil]
      rfl
  | cons d rest =>
      have hvalue := ofDigits_append (first :: more) (d :: rest)
      have hread := Reading.go_digits negative [] ⟨ofDigits (first :: more), 0, true, true⟩
        (fun e he => hdigits e (List.mem_append_right _ he))
        (fun _ => by simpa using hscale) (by rw [<- hvalue]; exact hfit)
      have hwholeFit : ofDigits (first :: more) < twoPow 96 := by
        have hle := Nat.le_mul_of_pos_right (ofDigits (first :: more))
          (tenPow_pos (d :: rest).length)
        omega
      have hpoint : digitValue? '.' = none := rfl
      rw [List.append_nil] at hread
      rw [pointed, hwhole _ hwholeFit, Reading.go, hpoint]
      refine Eq.trans hread ?_
      rw [hvalue, if_pos rfl, Nat.zero_add]
      rfl

private theorem ofPlain?_signed (negative : Bool) {whole fraction : List Char} (hne : whole ≠ [])
    (hdigits : forall c, c ∈ whole ++ fraction -> c.isDigit = true) :
    ofPlain? ((if negative then ['-'] else []) ++ pointed whole fraction) =
      Reading.go negative ⟨0, 0, false, false⟩ (pointed whole fraction) := by
  obtain ⟨first, more, rfl⟩ := List.exists_cons_of_ne_nil hne
  have hfirst : first.isDigit = true := hdigits first List.mem_cons_self
  cases negative with
  | true => rfl
  | false =>
      have hsign : first ≠ '-' ∧ first ≠ '+' := by
        constructor <;> (rintro rfl; exact absurd hfirst (by decide))
      obtain ⟨tail, htail⟩ : exists tail, pointed (first :: more) fraction = first :: tail := by
        cases fraction with
        | nil => exact ⟨more, rfl⟩
        | cons d rest => exact ⟨more ++ '.' :: d :: rest, rfl⟩
      rw [if_neg Bool.false_ne_true, List.nil_append, htail, ofPlain?.eq_def]
      split
      · rename_i heq
        cases heq
        exact absurd rfl hsign.1
      · rename_i heq
        cases heq
        exact absurd rfl hsign.2
      · rfl

theorem ofPlain?_pointed (negative : Bool) {whole fraction : List Char} (hne : whole ≠ [])
    (hdigits : forall c, c ∈ whole ++ fraction -> c.isDigit = true)
    (hscale : fraction.length ≤ maxScale)
    (hfit : ofDigits (whole ++ fraction) < twoPow 96) :
    ofPlain? ((if negative then ['-'] else []) ++ pointed whole fraction) =
      ofParts? (if negative then -(ofDigits (whole ++ fraction) : Int)
        else ofDigits (whole ++ fraction)) fraction.length := by
  rw [ofPlain?_signed negative hne hdigits]
  exact Reading.go_pointed negative hne hdigits hscale hfit

/-!
Behind the point, digits are read as long as they fit.  The first one that does not is rounded
away with all that follow it, so that the number read is off by half a unit at most, and not at
all if a decimal has the number.
-/

/-- A number is within half a unit of so many units. -/
structure IsNear (magnitude unit number : Nat) : Prop where
  le : 2 * (magnitude * unit) ≤ 2 * number + unit
  ge : 2 * number ≤ 2 * (magnitude * unit) + unit

/-- The decimal has a sign, a magnitude, and so many fractional digits. -/
structure HasParts (x : Decimal) (negative : Bool) (magnitude scale : Nat) : Prop where
  unscaled_eq : x.unscaled = if negative then -(magnitude : Int) else magnitude
  scale_eq : x.scale = scale

theorem hasParts_of_ofParts? {x : Decimal} {negative : Bool} {magnitude scale : Nat}
    (h : ofParts? (if negative then -(magnitude : Int) else magnitude) scale = some x) :
    x.HasParts negative magnitude scale := by
  generalize hunscaled : (if negative then -(magnitude : Int) else magnitude) = unscaled at h
  rw [ofParts?] at h
  split at h
  · cases h
    exact ⟨hunscaled.symm, rfl⟩
  · cases h

theorem exists_hasParts (negative : Bool) {magnitude scale : Nat} (hfit : magnitude < twoPow 96)
    (hscale : scale ≤ maxScale) :
    exists x, ofParts? (if negative then -(magnitude : Int) else magnitude) scale = some x ∧
      x.HasParts negative magnitude scale := by
  have hparts : (if negative then -(magnitude : Int) else magnitude).natAbs < twoPow 96 ∧
      scale ≤ 28 := by
    refine ⟨?_, hscale⟩
    cases negative <;> simpa using hfit
  exact ⟨⟨_, scale, hparts.1, hparts.2⟩, dif_pos hparts, rfl, rfl⟩

theorem isNear_divHalfEven (number : Nat) {unit : Nat} (hunit : 0 < unit) :
    IsNear (divHalfEven number unit) unit number := by
  have hnumber : number / unit * unit + number % unit = number := Nat.div_add_mod' number unit
  have hlt : number % unit < unit := Nat.mod_lt number hunit
  have hsucc := divHalfEven_eq_succ_iff number unit
  have hcases := divHalfEven_eq_or number unit
  generalize number / unit = quotient at hnumber hsucc hcases
  generalize hwhole : quotient * unit = whole at hnumber
  rcases hcases with h | h
  · rw [h] at hsucc ⊢
    constructor <;> (rw [hwhole]; omega)
  · rw [h, iff_true_left rfl] at hsucc
    rw [h]
    constructor <;> (rw [Nat.succ_mul quotient, hwhole]; omega)

/-- So many digits are dropped from a number with `scale` fractional digits: as few as leave the
parts of a decimal. -/
structure Drops (number scale count : Nat) : Prop where
  le : count ≤ scale
  scale_le : scale - count ≤ maxScale
  lt : divHalfEven number (tenPow count) < twoPow 96
  least : forall fewer, fewer < count -> scale - fewer ≤ maxScale ->
    twoPow 96 ≤ divHalfEven number (tenPow fewer)

private theorem dropDigits_cases {number scale k : Nat} (fuel : Nat) (hk : k ≤ scale)
    (hscale : scale - k ≤ maxScale) (hfuel : scale < k + fuel)
    (hleast : forall fewer, fewer < k -> scale - fewer ≤ maxScale ->
      twoPow 96 ≤ divHalfEven number (tenPow fewer)) :
    dropDigits number scale k fuel = none ∧
        twoPow 96 ≤ divHalfEven number (tenPow scale) ∨
      exists count, Drops number scale count ∧ dropDigits number scale k fuel =
        some (divHalfEven number (tenPow count), scale - count) := by
  induction fuel generalizing k with
  | zero => omega
  | succ fuel ih =>
      rw [dropDigits, if_neg (Nat.not_lt.mpr hk)]
      by_cases hfit : divHalfEven number (tenPow k) < twoPow 96
      · exact .inr ⟨k, ⟨hk, hscale, hfit, hleast⟩, if_pos hfit⟩
      · dsimp only
        rw [if_neg hfit]
        have hover : twoPow 96 ≤ divHalfEven number (tenPow k) := Nat.le_of_not_lt hfit
        by_cases hlast : k = scale
        · subst hlast
          refine .inl ⟨?_, hover⟩
          cases fuel with
          | zero => rfl
          | succ fuel => rw [dropDigits, if_pos (Nat.lt_succ_self k)]
        · apply ih
          · omega
          · omega
          · omega
          · intro fewer hfewer hroom
            by_cases heq : fewer = k
            · rw [heq]
              exact hover
            · exact hleast fewer (by omega) hroom

private theorem fit?_eq_bind (negative : Bool) (number scale : Nat) :
    fit? negative number scale =
      (dropDigits number scale (scale - maxScale) (scale + 1)).bind fun (rounded, left) =>
        ofParts? (if negative then -(rounded : Int) else rounded) left := by
  delta fit?
  cases dropDigits number scale (scale - maxScale) (scale + 1) <;> rfl

/-- A number does not fit even as a whole number, or it loses as few digits as it can. -/
theorem fit?_cases (negative : Bool) (number scale : Nat) :
    fit? negative number scale = none ∧ twoPow 96 ≤ divHalfEven number (tenPow scale) ∨
      exists count x, Drops number scale count ∧ fit? negative number scale = some x ∧
        x.HasParts negative (divHalfEven number (tenPow count)) (scale - count) := by
  have hroom : scale - (scale - maxScale) ≤ maxScale := by omega
  have hnone : forall fewer, fewer < scale - maxScale -> scale - fewer ≤ maxScale ->
      twoPow 96 ≤ divHalfEven number (tenPow fewer) := by
    intro fewer hfewer hscale
    omega
  rcases dropDigits_cases (scale + 1) (Nat.sub_le scale maxScale) hroom (by omega) hnone with
    ⟨hdrop, hover⟩ | ⟨count, hcount, hdrop⟩
  · refine .inl ⟨?_, hover⟩
    rw [fit?_eq_bind, hdrop, Option.bind_none]
  · rcases exists_hasParts negative hcount.lt hcount.scale_le with ⟨x, hx, hparts⟩
    refine .inr ⟨count, x, hcount, ?_, hparts⟩
    rw [fit?_eq_bind, hdrop, Option.bind_some]
    exact hx

private theorem Reading.round_near {r : Reading} {negative : Bool} {digit : Nat} {x : Decimal}
    (h : r.round negative digit = some x) (hfit : r.magnitude < twoPow 96) (hdigit : digit ≤ 9) :
    exists magnitude scale, x.HasParts negative magnitude scale ∧ scale ≤ r.scale ∧
      forall count rest, rest < tenPow count ->
        IsNear magnitude (tenPow (r.scale + (count + 1) - scale))
          (r.magnitude * tenPow (count + 1) + (digit * tenPow count + rest)) := by
  rw [Reading.round] at h
  dsimp only at h
  generalize hrounded : (if digit ≥ 5 then r.magnitude + 1 else r.magnitude) = rounded at h
  by_cases hroom : rounded < twoPow 96
  · rw [if_pos hroom] at h
    refine ⟨_, _, hasParts_of_ofParts? h, Nat.le_refl _, ?_⟩
    intro count rest hrest
    rw [Nat.add_sub_cancel_left, tenPow_succ]
    generalize tenPow count = unit at hrest ⊢
    have hunits (n : Nat) : n * (10 * unit) = 10 * (n * unit) := Nat.mul_left_comm n 10 unit
    by_cases hup : digit ≥ 5
    · rw [if_pos hup] at hrounded
      have hlow : 5 * unit ≤ digit * unit := Nat.mul_le_mul_right _ hup
      have hhigh : digit * unit ≤ 9 * unit := Nat.mul_le_mul_right _ hdigit
      have hnext : rounded * unit = r.magnitude * unit + unit := by rw [<- hrounded, Nat.succ_mul]
      constructor <;> (rw [hunits, hunits]; omega)
    · rw [if_neg hup] at hrounded
      have hhigh : digit * unit ≤ 4 * unit := Nat.mul_le_mul_right _ (by omega)
      rw [<- hrounded]
      constructor <;> (rw [hunits]; omega)
  · rw [if_neg hroom] at h
    split at h
    · cases h
    · rename_i hscale
      -- Only the greatest magnitude no longer fits when it is rounded up.
      have hup : digit ≥ 5 := by
        by_cases hup : digit ≥ 5
        · exact hup
        · rw [if_neg hup] at hrounded
          omega
      rw [if_pos hup] at hrounded
      have hrange : rounded = twoPow 96 := by omega
      have hlast : r.magnitude = 79228162514264337593543950335 := by
        have hpower : twoPow 96 = 79228162514264337593543950336 := by decide
        omega
      have hshorter : divHalfUp (twoPow 96) 10 = 7922816251426433759354395034 := by decide
      rw [hrange, hshorter] at h
      refine ⟨_, _, hasParts_of_ofParts? h, Nat.sub_le _ _, ?_⟩
      intro count rest hrest
      have hcount : r.scale + (count + 1) - (r.scale - 1) = count + 1 + 1 := by omega
      rw [hcount, hlast, tenPow_succ, tenPow_succ]
      generalize tenPow count = unit at hrest ⊢
      have hlow : 5 * unit ≤ digit * unit := Nat.mul_le_mul_right _ hup
      have hhigh : digit * unit ≤ 9 * unit := Nat.mul_le_mul_right _ hdigit
      constructor <;> omega

/-- As long as there is no point, all digits must fit. -/
private theorem Reading.go_eq_none (negative : Bool) (rest : List Char) {r : Reading}
    {cs : List Char} (hcs : forall c, c ∈ cs -> c.isDigit = true) (hpoint : r.point = false)
    (hfit : r.magnitude < twoPow 96)
    (hover : twoPow 96 ≤ r.magnitude * tenPow cs.length + ofDigits cs) :
    Reading.go negative r (cs ++ rest) = none := by
  induction cs generalizing r with
  | nil =>
      have hvalue : r.magnitude * tenPow ([] : List Char).length + ofDigits [] = r.magnitude := by
        show r.magnitude * 1 + 0 = _
        omega
      omega
  | cons c cs ih =>
      have hc : digitValue? c = some (c.toNat - '0'.toNat) := if_pos (hcs c List.mem_cons_self)
      rw [List.cons_append, Reading.go, hc]
      dsimp only
      rw [hpoint, Bool.false_and, if_neg Bool.false_ne_true]
      split
      · rename_i hnext
        refine ih (fun d hd => hcs d (List.mem_cons_of_mem c hd)) rfl hnext ?_
        rw [ofDigits_cons, List.length_cons, tenPow_succ] at hover
        dsimp only
        rw [Nat.add_mul, Nat.mul_assoc 10, Nat.mul_left_comm 10]
        omega
      · rfl

/-- What has been read behind the point. -/
private def Reading.behind (r : Reading) (digits : List Char) : Reading where
  magnitude := r.magnitude * tenPow digits.length + ofDigits digits
  scale := r.scale + digits.length
  digits := true
  point := true

private theorem Reading.behind_nil {r : Reading} (hdigits : r.digits = true)
    (hpoint : r.point = true) : r.behind [] = r := by
  rcases r with ⟨magnitude, scale, digits, point⟩
  cases hdigits
  cases hpoint
  show Reading.mk (magnitude * 1 + 0) (scale + 0) true true = _
  rw [Nat.mul_one]
  rfl

private theorem Reading.behind_cons (r : Reading) (c : Char) (digits : List Char) :
    r.behind (c :: digits) =
      Reading.behind ⟨10 * r.magnitude + (c.toNat - '0'.toNat), r.scale + 1, true, true⟩
        digits := by
  rw [Reading.behind, Reading.behind, ofDigits_cons, List.length_cons, tenPow_succ, Nat.add_mul,
    Nat.mul_assoc 10, Nat.mul_left_comm 10, Nat.add_assoc, Nat.add_assoc, Nat.add_comm 1]

/-- Reading ends with the digits, or at the first of them that does not fit. -/
private theorem Reading.go_behind (negative : Bool) {r : Reading} {cs : List Char}
    (hcs : forall c, c ∈ cs -> c.isDigit = true) (hdigits : r.digits = true)
    (hpoint : r.point = true)
    (hfit : r.magnitude < twoPow 96) (hscale : r.scale ≤ maxScale) :
    exists kept rest, cs = kept ++ rest ∧ (r.behind kept).magnitude < twoPow 96 ∧
      (r.behind kept).scale ≤ maxScale ∧
        (rest = [] ∧ Reading.go negative r cs =
            ofParts? (if negative then -((r.behind kept).magnitude : Int)
              else (r.behind kept).magnitude) (r.behind kept).scale ∨
          exists c more, rest = c :: more ∧
            ((r.behind kept).scale = maxScale ∨
              twoPow 96 ≤ 10 * (r.behind kept).magnitude + (c.toNat - '0'.toNat)) ∧
            Reading.go negative r cs = (r.behind kept).round negative (c.toNat - '0'.toNat)) := by
  induction cs generalizing r with
  | nil =>
      have hstart := behind_nil hdigits hpoint
      refine ⟨[], [], rfl, by rw [hstart]; exact hfit, by rw [hstart]; exact hscale, .inl ⟨rfl, ?_⟩⟩
      rw [hstart, Reading.go, if_pos hdigits]
  | cons c cs ih =>
      have hc := hcs c List.mem_cons_self
      have hvalue : digitValue? c = some (c.toNat - '0'.toNat) := if_pos hc
      by_cases hstop : r.scale = maxScale ∨ twoPow 96 ≤ 10 * r.magnitude + (c.toNat - '0'.toNat)
      · have hstart := behind_nil hdigits hpoint
        refine ⟨[], c :: cs, rfl, by rw [hstart]; exact hfit, by rw [hstart]; exact hscale,
          .inr ⟨c, cs, rfl, by rw [hstart]; exact hstop, ?_⟩⟩
        rw [hstart, Reading.go, hvalue]
        dsimp only
        rw [hpoint, Bool.true_and]
        split
        · rfl
        · rename_i hroom
          have hlong : ¬ 10 * r.magnitude + (c.toNat - '0'.toNat) < twoPow 96 := by
            rcases hstop with hstop | hstop
            · exact absurd (decide_eq_true (Nat.le_of_eq hstop.symm)) hroom
            · omega
          rw [if_neg hlong, if_pos rfl]
      · rw [not_or] at hstop
        have hroom : r.scale < maxScale := by omega
        have hnext : 10 * r.magnitude + (c.toNat - '0'.toNat) < twoPow 96 := by omega
        have hstep : Reading.go negative r (c :: cs) = Reading.go negative
            ⟨10 * r.magnitude + (c.toNat - '0'.toNat), r.scale + 1, true, true⟩ cs := by
          rw [go_digit hc (fun _ => hroom) hnext, hpoint, if_pos rfl]
        rcases ih (r := ⟨10 * r.magnitude + (c.toNat - '0'.toNat), r.scale + 1, true, true⟩)
          (fun d hd => hcs d (List.mem_cons_of_mem c hd)) rfl rfl hnext hroom with
          ⟨kept, rest, hsplit, hread⟩
        rw [<- behind_cons] at hread
        exact ⟨c :: kept, rest, congrArg (c :: ·) hsplit, hstep ▸ hread⟩

/-- The digits that a text with a point has, as they are read: those before the point, then those
behind it. -/
private theorem Reading.go_pointed_cases (negative : Bool) {whole fraction : List Char}
    (hne : whole ≠ []) (hdigits : forall c, c ∈ whole ++ fraction -> c.isDigit = true) :
    twoPow 96 ≤ ofDigits whole ∧
        Reading.go negative ⟨0, 0, false, false⟩ (pointed whole fraction) = none ∨
      exists kept rest, fraction = kept ++ rest ∧ ofDigits (whole ++ kept) < twoPow 96 ∧
        kept.length ≤ maxScale ∧
        (rest = [] ∧ Reading.go negative ⟨0, 0, false, false⟩ (pointed whole fraction) =
            ofParts? (if negative then -(ofDigits (whole ++ kept) : Int)
              else ofDigits (whole ++ kept)) kept.length ∨
          exists c more, rest = c :: more ∧
            (kept.length = maxScale ∨ twoPow 96 ≤ ofDigits (whole ++ kept ++ [c])) ∧
            Reading.go negative ⟨0, 0, false, false⟩ (pointed whole fraction) =
              Reading.round ⟨ofDigits (whole ++ kept), kept.length, true, true⟩ negative
                (c.toNat - '0'.toNat)) := by
  obtain ⟨first, more, rfl⟩ := List.exists_cons_of_ne_nil hne
  have hwhole : forall c, c ∈ first :: more -> c.isDigit = true := fun c hc =>
    hdigits c (List.mem_append_left _ hc)
  by_cases hfit : ofDigits (first :: more) < twoPow 96
  · right
    have hread (tail : List Char) : Reading.go negative ⟨0, 0, false, false⟩
        (first :: more ++ tail) = Reading.go negative ⟨ofDigits (first :: more), 0, true, false⟩
          tail := by
      have h := Reading.go_digits negative tail ⟨0, 0, false, false⟩ hwhole (fun h => nomatch h)
        (by rw [Nat.zero_mul, Nat.zero_add]; exact hfit)
      simpa only [Nat.zero_mul, Nat.zero_add, Bool.false_eq_true, if_false] using h
    cases fraction with
    | nil =>
        refine ⟨[], [], rfl, by rwa [List.append_nil], Nat.zero_le _, .inl ⟨rfl, ?_⟩⟩
        have hend := hread []
        rw [List.append_nil] at hend
        rw [pointed, hend, List.append_nil]
        rfl
    | cons d rest =>
        have hpoint : Reading.go negative ⟨0, 0, false, false⟩
            (pointed (first :: more) (d :: rest)) =
              Reading.go negative ⟨ofDigits (first :: more), 0, true, true⟩ (d :: rest) :=
          hread ('.' :: d :: rest)
        have hbehind (kept : List Char) :
            Reading.behind ⟨ofDigits (first :: more), 0, true, true⟩ kept =
              ⟨ofDigits (first :: more ++ kept), kept.length, true, true⟩ := by
          rw [Reading.behind, ofDigits_append, Nat.zero_add]
        have hnext (cs : List Char) (c : Char) :
            10 * ofDigits cs + (c.toNat - '0'.toNat) = ofDigits (cs ++ [c]) := by
          rw [ofDigits_append]
          show _ = ofDigits cs * 10 + (10 * 0 + (c.toNat - '0'.toNat))
          omega
        rcases Reading.go_behind negative (r := ⟨ofDigits (first :: more), 0, true, true⟩)
          (fun c hc => hdigits c (List.mem_append_right _ hc)) rfl rfl hfit (Nat.zero_le _) with
          ⟨kept, rest', hsplit, hkept, hscale, hends⟩
        simp only [hbehind, hnext] at hkept hscale hends
        rw [hpoint]
        exact ⟨kept, rest', hsplit, hkept, hscale, hends⟩
  · left
    have hover : twoPow 96 ≤ 0 * tenPow (first :: more).length + ofDigits (first :: more) := by
      rw [Nat.zero_mul, Nat.zero_add]
      exact Nat.le_of_not_lt hfit
    have hnone (tail : List Char) :
        Reading.go negative ⟨0, 0, false, false⟩ (first :: more ++ tail) = none :=
      Reading.go_eq_none negative tail hwhole rfl (by decide) hover
    refine ⟨Nat.le_of_not_lt hfit, ?_⟩
    cases fraction with
    | nil => simpa [pointed] using hnone []
    | cons d rest => exact hnone ('.' :: d :: rest)

/-- A number that is read is within half a unit of the text's. -/
theorem ofPlain?_pointed_near {negative : Bool} {whole fraction : List Char} (hne : whole ≠ [])
    (hdigits : forall c, c ∈ whole ++ fraction -> c.isDigit = true) {x : Decimal}
    (h : ofPlain? ((if negative then ['-'] else []) ++ pointed whole fraction) = some x) :
    exists magnitude scale, x.HasParts negative magnitude scale ∧ scale ≤ fraction.length ∧
      IsNear magnitude (tenPow (fraction.length - scale)) (ofDigits (whole ++ fraction)) := by
  rw [ofPlain?_signed negative hne hdigits] at h
  rcases Reading.go_pointed_cases negative hne hdigits with ⟨-, hnone⟩ | hread
  · rw [hnone] at h
    cases h
  · rcases hread with ⟨kept, rest, rfl, hfit, -, ⟨rfl, hgo⟩ | ⟨c, more, rfl, -, hgo⟩⟩
    · rw [hgo] at h
      refine ⟨_, _, hasParts_of_ofParts? h, by simp, ?_⟩
      have hunit : tenPow ((kept ++ []).length - kept.length) = 1 := by
        rw [List.append_nil, Nat.sub_self]
        rfl
      rw [hunit, List.append_nil]
      constructor <;> omega
    · rw [hgo] at h
      have hc : c.toNat - '0'.toNat ≤ 9 := by
        have hlt : ofDigits [c] < tenPow [c].length :=
          ofDigits_lt fun d hd => hdigits d (by simp_all)
        have hone : ofDigits [c] = c.toNat - '0'.toNat := by
          show 10 * 0 + (c.toNat - '0'.toNat) = _
          omega
        have hten : tenPow [c].length = 10 := rfl
        omega
      have hmore : ofDigits more < tenPow more.length :=
        ofDigits_lt fun d hd => hdigits d (by simp_all)
      rcases Reading.round_near h hfit hc with ⟨magnitude, scale, hparts, hscale, hnear⟩
      dsimp only at hscale
      have hlength : (kept ++ c :: more).length = kept.length + (more.length + 1) := by simp
      refine ⟨magnitude, scale, hparts, by omega, ?_⟩
      have hvalue : ofDigits (whole ++ (kept ++ c :: more)) =
          ofDigits (whole ++ kept) * tenPow (more.length + 1) +
            ((c.toNat - '0'.toNat) * tenPow more.length + ofDigits more) := by
        rw [<- List.append_assoc, ofDigits_append, ofDigits_cons, List.length_cons]
      rw [hlength, hvalue]
      exact hnear _ _ hmore

/-- A number that a decimal has is read as it is. -/
theorem ofPlain?_pointed_exact (negative : Bool) {whole fraction : List Char} (hne : whole ≠ [])
    (hdigits : forall c, c ∈ whole ++ fraction -> c.isDigit = true) {magnitude scale : Nat}
    (hfit : magnitude < twoPow 96) (hscale : scale ≤ maxScale) (hlength : scale ≤ fraction.length)
    (hvalue : ofDigits (whole ++ fraction) = magnitude * tenPow (fraction.length - scale)) :
    exists x read left,
      ofPlain? ((if negative then ['-'] else []) ++ pointed whole fraction) = some x ∧
      x.HasParts negative read left ∧ left ≤ fraction.length ∧
        read * tenPow (fraction.length - left) = ofDigits (whole ++ fraction) := by
  rw [ofPlain?_signed negative hne hdigits]
  have hpower (a b : Nat) : tenPow (a + b) = tenPow a * tenPow b := Nat.pow_add 10 a b
  rcases Reading.go_pointed_cases negative hne hdigits with ⟨hover, -⟩ | hread
  · -- What stands before the point is no greater than the magnitude.
    exfalso
    have hunits : tenPow (fraction.length - scale) ≤ tenPow fraction.length :=
      Nat.pow_le_pow_right (by decide) (Nat.sub_le _ _)
    rw [ofDigits_append] at hvalue
    have hlow := Nat.mul_le_mul_right (tenPow fraction.length) hover
    have hhigh := Nat.mul_lt_mul_of_lt_of_le hfit hunits (tenPow_pos _)
    omega
  · rcases hread with ⟨kept, rest, rfl, hkept, hroom, hends⟩
    rcases exists_hasParts negative hkept hroom with ⟨x, hx, hparts⟩
    rcases hends with ⟨rfl, hgo⟩ | ⟨c, more, rfl, hstop, hgo⟩
    · refine ⟨x, _, _, hgo.trans hx, hparts, by simp, ?_⟩
      rw [List.append_nil, Nat.sub_self]
      exact Nat.mul_one _
    · have hcount : (kept ++ c :: more).length = kept.length + (more.length + 1) := by simp
      have hshort : scale ≤ kept.length := by
        rcases hstop with hstop | hstop
        · omega
        · apply Nat.le_of_not_lt
          intro hlong
          have hunits : tenPow ((kept ++ c :: more).length - scale) ≤ tenPow more.length :=
            Nat.pow_le_pow_right (by decide) (by omega)
          rw [<- List.append_assoc, List.append_cons, ofDigits_append] at hvalue
          have hlow := Nat.mul_le_mul_right (tenPow more.length) hstop
          have hhigh := Nat.mul_lt_mul_of_lt_of_le hfit hunits (tenPow_pos _)
          omega
      have hunits : (kept ++ c :: more).length - scale =
          kept.length - scale + (c :: more).length := by
        rw [hcount, List.length_cons]
        omega
      rw [<- List.append_assoc] at hvalue ⊢
      rw [hunits, hpower, <- Nat.mul_assoc] at hvalue
      have hrest : forall d, d ∈ c :: more -> d.isDigit = true := fun d hd =>
        hdigits d (List.mem_append_right _ (List.mem_append_right _ hd))
      have hexact := ofDigits_of_append hrest hvalue
      have hzero : ofDigits (c :: more) = 0 := by
        rw [ofDigits_append, hexact] at hvalue
        omega
      have hdigit : c.toNat - '0'.toNat = 0 := by
        rw [ofDigits_cons] at hzero
        have hpos := tenPow_pos more.length
        rcases Nat.mul_eq_zero.mp (Nat.eq_zero_of_add_eq_zero_right hzero) with h | h
        · exact h
        · omega
      refine ⟨x, _, _, ?_, hparts, by omega, ?_⟩
      · rw [hgo, hdigit, Reading.round]
        dsimp only
        rw [if_neg (show ¬ 0 ≥ 5 by decide), if_pos hkept, hx]
      · rw [hcount, Nat.add_sub_cancel_left, ofDigits_append (whole ++ kept), hzero]
        rfl

end Decimal

end Number
end TypedQuery
