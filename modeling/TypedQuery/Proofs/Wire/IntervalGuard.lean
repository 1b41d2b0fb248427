import Mathlib.Data.List.Basic
import Mathlib.Tactic.Tauto
import TypedQuery.Proofs.Result
import TypedQuery.Wire.IntervalText

/-!
# Intervals whose numbers are checked

The numbers of an interval have 32 bits and 64 bits, and so has everything that is worked out on
the way to them.  The guarded reader goes through the same steps as the plain one and stops when a
number leaves its width, or when a text is cut inside a character.  Where it does not stop, it
gives what the plain reader gives.
-/

namespace TypedQuery
namespace Wire

open Number

namespace IntervalText

/-!
## Steps that stop a reading for good
-/

inductive Trap where
  | overflow
  | cut
deriving DecidableEq

/-- A reading that may stop, and that otherwise gives a value or a fault of the text. -/
abbrev Guarded := ExceptT Error (Except Trap)

namespace Guarded

variable {α β : Type}

def ofResult (r : Result α) : Guarded α := ExceptT.mk (.ok r)

def trap (t : Trap) : Guarded α := ExceptT.mk (.error t)

def Traps (x : Guarded α) : Prop := exists t, x = trap t

/-- Unless it stops, the guarded reading gives the result. -/
def Refines (x : Guarded α) (r : Result α) : Prop := forall r', x = ofResult r' -> r' = r

@[simp] theorem pure_eq (a : α) : (pure a : Guarded α) = ofResult (.ok a) := rfl

@[simp] theorem ok_bind (a : α) (f : α -> Guarded β) : (ofResult (.ok a) >>= f) = f a := rfl

@[simp] theorem error_bind (e : Error) (f : α -> Guarded β) :
    ((ofResult (.error e) : Guarded α) >>= f) = ofResult (.error e) := rfl

theorem cases_of (x : Guarded α) :
    (exists t, x = trap t) ∨ (exists e, x = ofResult (.error e)) ∨
      exists a, x = ofResult (.ok a) := by
  rcases x with t | e | a
  · exact .inl ⟨t, rfl⟩
  · exact .inr (.inl ⟨e, rfl⟩)
  · exact .inr (.inr ⟨a, rfl⟩)

theorem not_traps_ofResult (r : Result α) : ¬ Traps (ofResult r) := by
  rintro ⟨t, h⟩
  cases h

theorem traps_trap (t : Trap) : Traps (trap t : Guarded α) := ⟨t, rfl⟩

theorem ofResult_inj {r r' : Result α} (h : ofResult r = ofResult r') : r = r' := Except.ok.inj h

theorem ofResult_eq_iff {r r' : Result α} : ofResult r = ofResult r' <-> r = r' :=
  ⟨ofResult_inj, congrArg ofResult⟩

theorem traps_bind {x : Guarded α} {f : α -> Guarded β} :
    Traps (x >>= f) <-> Traps x ∨ exists a, x = ofResult (.ok a) ∧ Traps (f a) := by
  rcases cases_of x with ⟨t, rfl⟩ | ⟨e, rfl⟩ | ⟨a, rfl⟩
  · exact iff_of_true (traps_trap t) (.inl (traps_trap t))
  · refine iff_of_false (not_traps_ofResult _) ?_
    rintro (h | ⟨a, ha, -⟩)
    · exact not_traps_ofResult _ h
    · cases ha
  · constructor
    · intro h
      exact .inr ⟨a, rfl, h⟩
    · rintro (h | ⟨b, hb, h⟩)
      · exact absurd h (not_traps_ofResult _)
      · cases hb
        exact h

theorem refines_ofResult (r : Result α) : Refines (ofResult r) r := fun _ h => (ofResult_inj h).symm

theorem Refines.eq_of_not_traps {x : Guarded α} {r : Result α} (h : Refines x r)
    (hx : ¬ Traps x) : x = ofResult r := by
  rcases cases_of x with ⟨t, rfl⟩ | ⟨e, rfl⟩ | ⟨a, rfl⟩
  · exact absurd (traps_trap t) hx
  · exact congrArg ofResult (h _ rfl)
  · exact congrArg ofResult (h _ rfl)

theorem Refines.bind {x : Guarded α} {r : Result α} {f : α -> Guarded β} {g : α -> Result β}
    (h : Refines x r) (hf : forall a, x = ofResult (.ok a) -> Refines (f a) (g a)) :
    Refines (x >>= f) (r >>= g) := by
  intro r' hr'
  rcases cases_of x with ⟨t, rfl⟩ | ⟨e, rfl⟩ | ⟨a, rfl⟩
  · cases hr'
  · cases h _ rfl
    exact (ofResult_inj hr').symm
  · cases h _ rfl
    exact hf a rfl r' hr'

end Guarded

open Guarded

def Fits (bits : Nat) (n : Int) : Prop := -(twoPow (bits - 1) : Int) ≤ n ∧ n < twoPow (bits - 1)

instance (bits : Nat) (n : Int) : Decidable (Fits bits n) := inferInstanceAs (Decidable (_ ∧ _))

theorem fits_32_iff {n : Int} : Fits 32 n <-> -2147483648 ≤ n ∧ n < 2147483648 := by
  have hpower : (twoPow (32 - 1) : Int) = 2147483648 := by decide
  rw [Fits, hpower]

theorem fits_64_iff {n : Int} :
    Fits 64 n <-> -9223372036854775808 ≤ n ∧ n < 9223372036854775808 := by
  have hpower : (twoPow (64 - 1) : Int) = 9223372036854775808 := by decide
  rw [Fits, hpower]

def fitting (bits : Nat) (n : Int) : Guarded Int :=
  if Fits bits n then pure n else trap .overflow

theorem fitting_eq {bits : Nat} {n : Int} (h : Fits bits n) :
    fitting bits n = ofResult (.ok n) := if_pos h

theorem traps_fitting {bits : Nat} {n : Int} : Traps (fitting bits n) <-> ¬ Fits bits n := by
  by_cases h : Fits bits n
  · rw [fitting_eq h]
    exact iff_of_false (not_traps_ofResult _) (not_not_intro h)
  · exact iff_of_true ⟨_, if_neg h⟩ h

theorem eq_of_fitting {bits : Nat} {n m : Int} (h : fitting bits n = ofResult (.ok m)) : m = n := by
  by_cases hfits : Fits bits n
  · rw [fitting_eq hfits] at h
    cases h
    rfl
  · rw [fitting, if_neg hfits] at h
    cases h

theorem refines_fitting (bits : Nat) (n : Int) : Refines (fitting bits n) (.ok n) := by
  intro r h
  by_cases hfits : Fits bits n
  · rw [fitting_eq hfits] at h
    exact (ofResult_inj h).symm
  · rw [fitting, if_neg hfits] at h
    cases h

theorem traps_fitting_bind {β : Type} {bits : Nat} {n : Int} {f : Int -> Guarded β} :
    Traps (fitting bits n >>= f) <-> ¬ Fits bits n ∨ Traps (f n) := by
  by_cases h : Fits bits n
  · rw [fitting_eq h, ok_bind]
    simp only [h, not_true, false_or]
  · rw [fitting, if_neg h]
    exact iff_of_true (traps_trap _) (.inl h)

theorem refines_fitting_bind {β : Type} {bits : Nat} {n : Int} {f : Int -> Guarded β}
    {r : Result β} (h : Refines (f n) r) : Refines (fitting bits n >>= f) r :=
  (refines_fitting bits n).bind fun _ hm => eq_of_fitting hm ▸ h

/-!
## Cuts
-/

def sizeOf : List Char -> Nat
  | [] => 0
  | c :: rest => c.utf8Size + sizeOf rest

def IsBoundary (bytes : Nat) (cs : List Char) : Prop :=
  exists front, front <+: cs ∧ sizeOf front = bytes

theorem sizeOf_takeSize_le (bytes : Nat) (cs : List Char) : sizeOf (takeSize bytes cs) ≤ bytes := by
  induction cs generalizing bytes with
  | nil => exact Nat.zero_le _
  | cons c rest ih =>
      rw [takeSize]
      split
      · have hrest := ih (bytes - c.utf8Size)
        simp only [sizeOf] at hrest ⊢
        omega
      · exact Nat.zero_le _

theorem takeSize_isPrefix (bytes : Nat) (cs : List Char) : takeSize bytes cs <+: cs := by
  induction cs generalizing bytes with
  | nil => exact List.nil_prefix
  | cons c rest ih =>
      rw [takeSize]
      split
      · exact List.cons_prefix_cons.mpr ⟨rfl, ih _⟩
      · exact List.nil_prefix

theorem isBoundary_iff {bytes : Nat} {cs : List Char} :
    IsBoundary bytes cs <-> sizeOf (takeSize bytes cs) = bytes := by
  constructor
  · rintro ⟨front, hfront, hsize⟩
    induction cs generalizing bytes front with
    | nil =>
        rw [List.prefix_nil.mp hfront] at hsize
        exact hsize
    | cons c rest ih =>
        cases front with
        | nil =>
            have hle := sizeOf_takeSize_le bytes (c :: rest)
            have hzero : bytes = 0 := hsize.symm
            omega
        | cons d front =>
            rcases List.cons_prefix_cons.mp hfront with ⟨rfl, hrest⟩
            simp only [sizeOf] at hsize
            have hmore : sizeOf front = bytes - d.utf8Size := by omega
            have hkept := ih front hrest hmore
            rw [takeSize, if_pos (by omega)]
            simp only [sizeOf] at hkept ⊢
            omega
  · intro h
    exact ⟨_, takeSize_isPrefix bytes cs, h⟩

instance (bytes : Nat) (cs : List Char) : Decidable (IsBoundary bytes cs) :=
  decidable_of_iff _ isBoundary_iff.symm

/-!
## Clock times
-/

def filled (fraction : List Char) : List Char :=
  fraction ++ List.replicate (6 - fraction.length) '0'

def guardedFraction (fraction : List Char) : Guarded Int :=
  if fraction.isEmpty then pure 0
  else if IsBoundary 6 (filled fraction) then
    ofResult (parsed "interval fraction" (takeSize 6 (filled fraction)) readInt64?)
  else trap .cut

theorem refines_guardedFraction (fraction : List Char) :
    Refines (guardedFraction fraction) (fractionMicros fraction) := by
  rw [guardedFraction, fractionMicros]
  split
  · exact refines_ofResult _
  · split
    · exact refines_ofResult _
    · intro r h
      cases h

theorem traps_guardedFraction {fraction : List Char} :
    Traps (guardedFraction fraction) <-> fraction ≠ [] ∧ ¬ IsBoundary 6 (filled fraction) := by
  rw [guardedFraction]
  split
  · rename_i hempty
    refine iff_of_false (not_traps_ofResult _) ?_
    rintro ⟨hne, -⟩
    exact hne (List.isEmpty_iff.mp hempty)
  · rename_i hne
    split
    · rename_i hboundary
      exact iff_of_false (not_traps_ofResult _) fun h => h.2 hboundary
    · rename_i hboundary
      exact iff_of_true (traps_trap _) ⟨fun h => hne (List.isEmpty_iff.mpr h), hboundary⟩

theorem guardedFraction_eq {fraction : List Char} (h : ¬ Traps (guardedFraction fraction)) :
    guardedFraction fraction = ofResult (fractionMicros fraction) :=
  (refines_guardedFraction fraction).eq_of_not_traps h

/-- The texts of a clock time: its sign, hours, minutes, seconds and their fraction. -/
structure ClockText where
  negative : Bool
  hours : List Char
  minutes : List Char
  whole : List Char
  fraction : List Char

def ClockText.ofToken (token : List Char) : ClockText :=
  let (negative, clock) := takeSign token
  let (hours, rest) := splitAt ':' clock
  let (minutes, rest) := splitAt ':' (rest.getD [])
  let (whole, fraction) := splitAt '.' (rest.getD ['0'])
  ⟨negative, hours, minutes, whole, fraction.getD []⟩

def guardedSum (negative : Bool) (hours minutes whole fraction : Int) : Guarded Int := do
  let minutes <- fitting 64 ((<- fitting 64 (hours * 60)) + minutes)
  let seconds <- fitting 64 ((<- fitting 64 (minutes * 60)) + whole)
  let total <- fitting 64 ((<- fitting 64 (seconds * 1000000)) + fraction)
  if negative then fitting 64 (-total) else pure total

def guardedClock (token : List Char) : Guarded Int := do
  let t := ClockText.ofToken token
  let hours <- ofResult (parsed "interval hours" t.hours readInt64?)
  let minutes <- ofResult (parsed "interval minutes" t.minutes readInt64?)
  let whole <- ofResult (parsed "interval seconds" t.whole readInt64?)
  let fraction <- guardedFraction t.fraction
  guardedSum t.negative hours minutes whole fraction

def clockSum (negative : Bool) (hours minutes whole fraction : Int) : Int :=
  let total := ((hours * 60 + minutes) * 60 + whole) * 1000000 + fraction
  if negative then -total else total

/-- All that is worked out for a clock time, in turn. -/
def clockSteps (negative : Bool) (hours minutes whole fraction : Int) : List Int :=
  [hours * 60, hours * 60 + minutes, (hours * 60 + minutes) * 60,
    (hours * 60 + minutes) * 60 + whole, ((hours * 60 + minutes) * 60 + whole) * 1000000,
    ((hours * 60 + minutes) * 60 + whole) * 1000000 + fraction,
    clockSum negative hours minutes whole fraction]

theorem clockMicros_eq (token : List Char) :
    clockMicros token = (do
      let t := ClockText.ofToken token
      let hours <- parsed "interval hours" t.hours readInt64?
      let minutes <- parsed "interval minutes" t.minutes readInt64?
      let whole <- parsed "interval seconds" t.whole readInt64?
      let fraction <- fractionMicros t.fraction
      return clockSum t.negative hours minutes whole fraction) := rfl

theorem refines_guardedSum (negative : Bool) (hours minutes whole fraction : Int) :
    Refines (guardedSum negative hours minutes whole fraction)
      (.ok (clockSum negative hours minutes whole fraction)) := by
  rw [guardedSum]
  iterate 6 refine refines_fitting_bind ?_
  cases negative with
  | true => exact refines_fitting 64 _
  | false => exact refines_ofResult _

def guardedAddClock (micros : Int) (token : List Char) : Guarded Int := do
  fitting 64 (micros + (<- guardedClock token))

theorem refines_guardedAddClock (micros : Int) (token : List Char) :
    Refines (guardedAddClock micros token) (do return micros + (<- clockMicros token)) := by
  have hclock : Refines (guardedClock token) (clockMicros token) := by
    rw [guardedClock, clockMicros_eq]
    refine (refines_ofResult _).bind fun hours _ => ?_
    refine (refines_ofResult _).bind fun minutes _ => ?_
    refine (refines_ofResult _).bind fun whole _ => ?_
    exact (refines_guardedFraction _).bind fun fraction _ => refines_guardedSum _ _ _ _ _
  exact hclock.bind fun n _ => refines_fitting 64 (micros + n)

theorem traps_addSum {micros : Int} {negative : Bool} {hours minutes whole fraction : Int} :
    Traps (do fitting 64 (micros + (<- guardedSum negative hours minutes whole fraction))) <->
      exists n, n ∈ clockSteps negative hours minutes whole fraction ++
        [micros + clockSum negative hours minutes whole fraction] ∧ ¬ Fits 64 n := by
  rw [guardedSum]
  simp only [bind_assoc, traps_fitting_bind, clockSteps, List.mem_append, List.mem_cons,
    List.not_mem_nil, or_false, or_and_right, exists_or, exists_eq_left]
  cases negative with
  | true =>
      simp only [if_true, traps_fitting_bind, traps_fitting, clockSum]
      tauto
  | false =>
      simp only [Bool.false_eq_true, if_false, pure_eq, ok_bind, traps_fitting, clockSum]
      tauto

theorem parsed_eq_ok {α : Type} {kind : String} {text : List Char}
    {reader : List Char -> Option α} {a : α} :
    parsed kind text reader = .ok a <-> reader text = some a := by
  rw [parsed]
  cases reader text with
  | none => constructor <;> (intro h; cases h)
  | some b =>
      constructor
      · intro h
        exact congrArg some (Except.ok.inj h)
      · intro h
        exact congrArg Except.ok (Option.some.inj h)

/-- A clock time whose numbers can be read, and whose fraction is cut inside a character, or of
which a step leaves its width; the last step adds it to what there is. -/
def ClockOverruns (micros : Int) (token : List Char) : Prop :=
  let t := ClockText.ofToken token
  exists hours minutes whole, readInt64? t.hours = some hours ∧
    readInt64? t.minutes = some minutes ∧ readInt64? t.whole = some whole ∧
      (t.fraction ≠ [] ∧ ¬ IsBoundary 6 (filled t.fraction) ∨
        exists fraction, fractionMicros t.fraction = .ok fraction ∧
          exists n, n ∈ clockSteps t.negative hours minutes whole fraction ++
              [micros + clockSum t.negative hours minutes whole fraction] ∧ ¬ Fits 64 n)

theorem traps_guardedAddClock {micros : Int} {token : List Char} :
    Traps (guardedAddClock micros token) <-> ClockOverruns micros token := by
  rw [guardedAddClock, guardedClock, ClockOverruns]
  simp only [bind_assoc, traps_bind, not_traps_ofResult, false_or, ofResult_eq_iff, parsed_eq_ok,
    exists_and_left]
  refine exists_congr fun hours => and_congr_right fun _ => ?_
  refine exists_congr fun minutes => and_congr_right fun _ => ?_
  refine exists_congr fun whole => and_congr_right fun _ => ?_
  rw [<- traps_guardedFraction]
  by_cases hcut : Traps (guardedFraction (ClockText.ofToken token).fraction)
  · exact iff_of_true (.inl hcut) (.inl hcut)
  · simp only [hcut, false_or]
    refine exists_congr fun fraction => ?_
    rw [guardedFraction_eq hcut, ofResult_eq_iff, <- traps_addSum, traps_bind]

/-!
## Sums
-/

inductive Period where
  | year
  | month
  | day

namespace Period

def ofUnit? (unit : List Char) : Option Period :=
  match String.ofList unit with
  | "year" | "years" => some year
  | "mon" | "mons" => some month
  | "day" | "days" => some day
  | _ => none

def add (p : Period) (amount : Int) (sum : Sum) : Sum :=
  match p with
  | year => { sum with months := sum.months + amount * 12 }
  | month => { sum with months := sum.months + amount }
  | day => { sum with days := sum.days + amount }

def guardedAdd (p : Period) (amount : Int) (sum : Sum) : Guarded Sum :=
  match p with
  | year => do
      let months <- fitting 32 (sum.months + (<- fitting 32 (amount * 12)))
      return { sum with months }
  | month => do
      let months <- fitting 32 (sum.months + amount)
      return { sum with months }
  | day => do
      let days <- fitting 32 (sum.days + amount)
      return { sum with days }

/-- All that is worked out when an amount is added. -/
def steps (p : Period) (amount : Int) (sum : Sum) : List Int :=
  match p with
  | year => [amount * 12, sum.months + amount * 12]
  | month => [sum.months + amount]
  | day => [sum.days + amount]

theorem refines_guardedAdd (p : Period) (amount : Int) (sum : Sum) :
    Refines (p.guardedAdd amount sum) (.ok (p.add amount sum)) := by
  cases p with
  | year => exact refines_fitting_bind (refines_fitting_bind (refines_ofResult _))
  | month => exact refines_fitting_bind (refines_ofResult _)
  | day => exact refines_fitting_bind (refines_ofResult _)

theorem traps_guardedAdd {p : Period} {amount : Int} {sum : Sum} :
    Traps (p.guardedAdd amount sum) <-> exists n, n ∈ p.steps amount sum ∧ ¬ Fits 32 n := by
  cases p <;>
    simp only [guardedAdd, steps, traps_fitting_bind, pure_eq, not_traps_ofResult, or_false,
      List.mem_cons, List.not_mem_nil, exists_eq_or_imp, exists_eq_left]

end Period

variable (text : List Char)

def unreadable {α : Type} : Result α :=
  .error (.conversion (.malformedText "interval" (String.ofList text)))

def addPart (sum : Sum) (token : List Char) (rest : List (List Char)) :
    Result (Sum × List (List Char)) :=
  if token.contains ':' then do
    let micros := sum.micros + (<- clockMicros token)
    return ({ sum with micros }, rest)
  else do
    let amount <- parsed "interval" token readInt32?
    match rest with
    | [] => unreadable text
    | unit :: rest =>
        match Period.ofUnit? unit with
        | some p => return (p.add amount sum, rest)
        | none => unreadable text

theorem addUp_cons (sum : Sum) (token : List Char) (rest : List (List Char)) :
    addUp text sum (token :: rest) =
      addPart text sum token rest >>= fun r => addUp text r.1 r.2 := by
  rw [addUp, addPart]
  split
  · cases clockMicros token <;> rfl
  · cases parsed "interval" token readInt32? with
    | error e => rfl
    | ok amount =>
        simp only [Result.ok_bind]
        cases rest with
        | nil => rfl
        | cons unit rest =>
            dsimp only
            rw [Period.ofUnit?]
            split
            case h_7 =>
              split
              case h_2 => rfl
              case h_1 => simp_all
            all_goals simp_all [Period.add]

def guardedPart (sum : Sum) (token : List Char) (rest : List (List Char)) :
    Guarded (Sum × List (List Char)) :=
  if token.contains ':' then do
    let micros <- guardedAddClock sum.micros token
    return ({ sum with micros }, rest)
  else do
    let amount <- ofResult (parsed "interval" token readInt32?)
    match rest with
    | [] => ofResult (unreadable text)
    | unit :: rest =>
        match Period.ofUnit? unit with
        | some p => return (<- p.guardedAdd amount sum, rest)
        | none => ofResult (unreadable text)

def guardedAddUp (sum : Sum) : List (List Char) -> Guarded Sum
  | [] => pure sum
  | token :: rest =>
      if token.contains ':' then do
        let micros <- guardedAddClock sum.micros token
        guardedAddUp { sum with micros } rest
      else do
        let amount <- ofResult (parsed "interval" token readInt32?)
        match rest with
        | [] => ofResult (unreadable text)
        | unit :: rest =>
            match Period.ofUnit? unit with
            | some p => do guardedAddUp (<- p.guardedAdd amount sum) rest
            | none => ofResult (unreadable text)

theorem guardedAddUp_cons (sum : Sum) (token : List Char) (rest : List (List Char)) :
    guardedAddUp text sum (token :: rest) =
      guardedPart text sum token rest >>= fun r => guardedAddUp text r.1 r.2 := by
  rw [guardedAddUp, guardedPart]
  split
  · simp only [bind_assoc, pure_bind]
  · rw [bind_assoc]
    congr 1
    funext amount
    cases rest with
    | nil => rfl
    | cons unit rest =>
        dsimp only
        cases Period.ofUnit? unit with
        | none => rfl
        | some p => simp only [bind_assoc, pure_bind]

def guardedInterval : Guarded Interval := do
  let sum <- guardedAddUp text {} (Text.words text)
  return ⟨.ofInt sum.months, .ofInt sum.days, .ofInt sum.micros⟩

theorem refines_guardedPart (sum : Sum) (token : List Char) (rest : List (List Char)) :
    Refines (guardedPart text sum token rest) (addPart text sum token rest) := by
  rw [guardedPart, addPart]
  split
  · have hclock := (refines_guardedAddClock sum.micros token).bind fun micros _ =>
      refines_ofResult (.ok ({ sum with micros }, rest))
    cases hread : clockMicros token with
    | error e =>
        rw [hread] at hclock
        exact hclock
    | ok n =>
        rw [hread] at hclock
        exact hclock
  · refine (refines_ofResult _).bind fun amount _ => ?_
    cases rest with
    | nil => exact refines_ofResult _
    | cons unit rest =>
        dsimp only
        cases Period.ofUnit? unit with
        | none => exact refines_ofResult _
        | some p =>
            exact (p.refines_guardedAdd amount sum).bind fun s _ => refines_ofResult (.ok (s, rest))

/-- The part that stands first can be read, and its fraction is cut inside a character, or
something that is worked out for it does not fit. -/
def Overruns (sum : Sum) (token : List Char) (rest : List (List Char)) : Prop :=
  if token.contains ':' then ClockOverruns sum.micros token
  else exists amount unit more p, readInt32? token = some amount ∧ rest = unit :: more ∧
    Period.ofUnit? unit = some p ∧ exists n, n ∈ p.steps amount sum ∧ ¬ Fits 32 n

theorem traps_guardedPart {sum : Sum} {token : List Char} {rest : List (List Char)} :
    Traps (guardedPart text sum token rest) <-> Overruns sum token rest := by
  rw [guardedPart, Overruns]
  split
  · simp only [traps_bind, traps_guardedAddClock, pure_eq, not_traps_ofResult, and_false,
      exists_false, or_false]
  · simp only [traps_bind, not_traps_ofResult, false_or, ofResult_eq_iff, parsed_eq_ok,
      exists_and_left]
    refine exists_congr fun amount => and_congr_right fun _ => ?_
    cases rest with
    | nil =>
        refine iff_of_false (not_traps_ofResult _) ?_
        rintro ⟨unit, more, h, -⟩
        cases h
    | cons unit more =>
        cases hunit : Period.ofUnit? unit with
        | none =>
            dsimp only
            rw [hunit]
            refine iff_of_false (not_traps_ofResult _) ?_
            rintro ⟨unit', more', h, p, hp, -⟩
            cases h
            cases hunit.symm.trans hp
        | some p =>
            dsimp only
            rw [hunit]
            simp only [traps_bind, Period.traps_guardedAdd, pure_eq, not_traps_ofResult, and_false,
              exists_false, or_false]
            constructor
            · intro h
              exact ⟨unit, more, rfl, p, hunit, h⟩
            · rintro ⟨unit', more', h, p', hp, hsteps⟩
              cases h
              cases hunit.symm.trans hp
              exact hsteps

theorem exists_units_of_addPart {sum s : Sum} {token : List Char} {rest more : List (List Char)}
    (h : addPart text sum token rest = .ok (s, more)) :
    exists units, rest = units ++ more ∧
      forall tail, addPart text sum token (units ++ tail) = .ok (s, tail) := by
  rw [addPart] at h
  split at h
  · rename_i hclock
    rcases Result.bind_eq_ok.mp h with ⟨n, hn, heq⟩
    cases heq
    refine ⟨[], rfl, fun tail => ?_⟩
    rw [addPart, if_pos hclock, hn]
    rfl
  · rename_i hclock
    rcases Result.bind_eq_ok.mp h with ⟨amount, hamount, heq⟩
    cases rest with
    | nil => cases heq
    | cons unit rest =>
        dsimp only at heq
        split at heq
        · rename_i p hp
          cases heq
          refine ⟨[unit], rfl, fun tail => ?_⟩
          rw [addPart, if_neg hclock, hamount]
          simp only [Result.ok_bind, List.singleton_append, hp, Result.pure_eq_ok]
        · cases heq

theorem length_lt_of_addPart {sum s : Sum} {token : List Char} {rest more : List (List Char)}
    (h : addPart text sum token rest = .ok (s, more)) : more.length < (token :: rest).length := by
  rcases exists_units_of_addPart text h with ⟨units, rfl, -⟩
  rw [List.length_cons, List.length_append]
  omega

/-- Induction over the parts of an interval: a part leaves fewer words behind it. -/
theorem parts_induction {motive : Sum -> List (List Char) -> Prop}
    (nil : forall sum, motive sum [])
    (cons : forall sum token rest,
      (forall s more, addPart text sum token rest = .ok (s, more) -> motive s more) ->
        motive sum (token :: rest))
    (sum : Sum) (tokens : List (List Char)) : motive sum tokens := by
  induction hlength : tokens.length using Nat.strongRecOn generalizing sum tokens with
  | ind length ih =>
      cases tokens with
      | nil => exact nil sum
      | cons token rest =>
          refine cons sum token rest fun s more hpart => ?_
          exact ih _ (hlength ▸ length_lt_of_addPart text hpart) s more rfl

theorem refines_guardedAddUp (sum : Sum) (tokens : List (List Char)) :
    Refines (guardedAddUp text sum tokens) (addUp text sum tokens) := by
  induction sum, tokens using parts_induction text with
  | nil sum => exact refines_ofResult _
  | cons sum token rest ih =>
      rw [guardedAddUp_cons, addUp_cons]
      refine (refines_guardedPart text sum token rest).bind fun r hr => ?_
      exact ih _ _ (refines_guardedPart text sum token rest _ hr).symm

/-- A reading stops at the first part that overruns the sum of the parts before it. -/
theorem traps_guardedAddUp {sum : Sum} {tokens : List (List Char)} :
    Traps (guardedAddUp text sum tokens) <->
      exists before token rest s, tokens = before ++ token :: rest ∧
        addUp text sum before = .ok s ∧ Overruns s token rest := by
  induction sum, tokens using parts_induction text with
  | nil sum =>
      refine iff_of_false (not_traps_ofResult _) ?_
      rintro ⟨before, token, rest, s, h, -⟩
      exact absurd h (by simp)
  | cons sum token rest ih =>
      rw [guardedAddUp_cons, traps_bind, traps_guardedPart]
      constructor
      · rintro (h | ⟨⟨s, more⟩, hr, h⟩)
        · exact ⟨[], token, rest, sum, rfl, rfl, h⟩
        · have hpart := (refines_guardedPart text sum token rest _ hr).symm
          rcases (ih s more hpart).mp h with ⟨before, token', rest', s', hmore, hsum, hover⟩
          rcases exists_units_of_addPart text hpart with ⟨units, hunits, hany⟩
          refine ⟨token :: (units ++ before), token', rest', s', ?_, ?_, hover⟩
          · rw [hunits, hmore, List.cons_append, List.append_assoc]
          · rw [addUp_cons, hany before]
            exact hsum
      · rintro ⟨before, token', rest', s', htokens, hsum, hover⟩
        cases before with
        | nil =>
            cases htokens
            cases hsum
            exact .inl hover
        | cons first before =>
            cases htokens
            rw [addUp_cons] at hsum
            rcases Result.bind_eq_ok.mp hsum with ⟨⟨s, more⟩, hpart, hmore⟩
            rcases exists_units_of_addPart text hpart with ⟨units, rfl, hany⟩
            -- the first part is the same with all that stands behind the overrunning part
            have hwhole := hany (more ++ token' :: rest')
            rw [<- List.append_assoc] at hwhole
            by_cases htraps : Overruns sum token (units ++ more ++ token' :: rest')
            · exact .inl htraps
            · right
              rw [<- traps_guardedPart text] at htraps
              have hguarded := (refines_guardedPart text _ _ _).eq_of_not_traps htraps
              rw [hwhole] at hguarded
              refine ⟨_, hguarded, ?_⟩
              exact (ih _ _ hwhole).mpr ⟨more, token', rest', s', rfl, hmore, hover⟩

/-- Where the guarded reader does not stop, it gives what the plain reader gives. -/
theorem refines_guardedInterval : Refines (guardedInterval text) (readInterval text) :=
  (refines_guardedAddUp text {} (Text.words text)).bind fun _ _ => refines_ofResult _

theorem traps_guardedInterval :
    Traps (guardedInterval text) <->
      exists before token rest sum, Text.words text = before ++ token :: rest ∧
        addUp text {} before = .ok sum ∧ Overruns sum token rest := by
  rw [guardedInterval, traps_bind, traps_guardedAddUp]
  simp only [pure_eq, not_traps_ofResult, and_false, exists_false, or_false]

/-!
## Faults of a text
-/

def IsConversion {α : Type} (r : Result α) : Prop :=
  forall e, r = .error e -> exists fault, e = .conversion fault

theorem isConversion_ok {α : Type} (a : α) : IsConversion (.ok a) := by
  intro e h
  cases h

theorem isConversion_error {α : Type} (fault : ConversionFault) :
    IsConversion (.error (.conversion fault) : Result α) := by
  rintro e ⟨⟩
  exact ⟨fault, rfl⟩

theorem IsConversion.bind {α β : Type} {r : Result α} {f : α -> Result β} (hr : IsConversion r)
    (hf : forall a, r = .ok a -> IsConversion (f a)) : IsConversion (r >>= f) := by
  cases r with
  | error e =>
      intro e' h
      cases h
      exact hr e rfl
  | ok a => exact hf a rfl

theorem isConversion_parsed {α : Type} (kind : String) (text : List Char)
    (reader : List Char -> Option α) : IsConversion (parsed kind text reader) := by
  rw [parsed]
  split
  · exact isConversion_ok _
  · exact isConversion_error _

theorem isConversion_clockMicros (token : List Char) : IsConversion (clockMicros token) := by
  rw [clockMicros_eq]
  refine (isConversion_parsed _ _ _).bind fun hours _ => ?_
  refine (isConversion_parsed _ _ _).bind fun minutes _ => ?_
  refine (isConversion_parsed _ _ _).bind fun whole _ => ?_
  refine IsConversion.bind ?_ fun fraction _ => isConversion_ok _
  rw [fractionMicros]
  split
  · exact isConversion_ok _
  · exact isConversion_parsed _ _ _

theorem isConversion_addPart (sum : Sum) (token : List Char) (rest : List (List Char)) :
    IsConversion (addPart text sum token rest) := by
  rw [addPart]
  split
  · exact (isConversion_clockMicros token).bind fun n _ => isConversion_ok _
  · refine (isConversion_parsed _ _ _).bind fun amount _ => ?_
    cases rest with
    | nil => exact isConversion_error _
    | cons unit rest =>
        dsimp only
        split
        · exact isConversion_ok _
        · exact isConversion_error _

theorem isConversion_addUp (sum : Sum) (tokens : List (List Char)) :
    IsConversion (addUp text sum tokens) := by
  induction sum, tokens using parts_induction text with
  | nil sum => exact isConversion_ok _
  | cons sum token rest ih =>
      rw [addUp_cons]
      exact (isConversion_addPart text sum token rest).bind fun r hr => ih _ _ hr

theorem isConversion_readInterval : IsConversion (readInterval text) :=
  (isConversion_addUp text {} (Text.words text)).bind fun _ _ => isConversion_ok _

end IntervalText
end Wire
end TypedQuery
