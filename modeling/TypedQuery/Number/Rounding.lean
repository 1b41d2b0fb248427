import TypedQuery.Number.Power

/-!
# Rounding of quotients

A quotient of naturals is rounded to the nearest natural.  The two rules differ only on exact
halves: one goes to the even neighbour, the other goes up.
-/

namespace TypedQuery
namespace Number

/-- The nearest natural to `n / d`, a half going to the even neighbour. -/
def divHalfEven (n d : Nat) : Nat :=
  let quotient := n / d
  let twice := 2 * (n % d)
  if twice > d || (twice == d && quotient % 2 == 1) then quotient + 1 else quotient

/-- The nearest natural to `n / d`, a half going up. -/
def divHalfUp (n d : Nat) : Nat :=
  let quotient := n / d
  if 2 * (n % d) ≥ d then quotient + 1 else quotient

theorem divHalfEven_mul_left (q : Nat) {d : Nat} (hd : 0 < d) : divHalfEven (d * q) d = q := by
  have hne : (0 : Nat) ≠ d := by omega
  simp [divHalfEven, Nat.mul_div_cancel_left q hd, hne]

theorem divHalfEven_eq_or (n d : Nat) : divHalfEven n d = n / d ∨ divHalfEven n d = n / d + 1 := by
  unfold divHalfEven
  dsimp only
  split
  · exact .inr rfl
  · exact .inl rfl

theorem divHalfEven_eq_succ_iff (n d : Nat) :
    divHalfEven n d = n / d + 1 <-> d < 2 * (n % d) ∨ 2 * (n % d) = d ∧ n / d % 2 = 1 := by
  unfold divHalfEven
  simp only [Bool.or_eq_true, decide_eq_true_eq, Bool.and_eq_true, beq_iff_eq]
  split
  · rename_i h
    exact ⟨fun _ => h, fun _ => rfl⟩
  · rename_i h
    constructor
    · intro heq
      omega
    · intro hup
      exact absurd hup h

/-- A quotient is rounded up to an even bound, or beyond it, from half a unit below it on. -/
theorem le_divHalfEven_iff {bound n d : Nat} (hd : 0 < d) (heven : bound % 2 = 0) :
    bound ≤ divHalfEven n d <-> 2 * (bound * d) ≤ 2 * n + d := by
  have hn : d * (n / d) + n % d = n := Nat.div_add_mod n d
  have hlt : n % d < d := Nat.mod_lt n hd
  have hsucc := divHalfEven_eq_succ_iff n d
  have hcases := divHalfEven_eq_or n d
  generalize hq : n / d = quotient at hn hsucc hcases
  rw [Nat.mul_comm] at hn
  rcases Nat.lt_trichotomy bound (quotient + 1) with h | h | h
  · have hle : bound * d ≤ quotient * d := Nat.mul_le_mul_right d (by omega)
    constructor <;> omega
  · have heq : bound * d = quotient * d + d := by rw [h, Nat.succ_mul]
    constructor <;> omega
  · have hle : (quotient + 1 + 1) * d ≤ bound * d := Nat.mul_le_mul_right d h
    rw [Nat.succ_mul, Nat.succ_mul] at hle
    constructor <;> omega

def digitValue? (c : Char) : Option Nat :=
  if c.isDigit then some (c.toNat - '0'.toNat) else none

/-- Splits off the leading decimal digits of a text. -/
def takeDigits : List Char -> List Char × List Char
  | [] => ([], [])
  | c :: rest =>
      if c.isDigit then
        let (digits, tail) := takeDigits rest
        (c :: digits, tail)
      else ([], c :: rest)

def ofDigits (digits : List Char) : Nat :=
  digits.foldl (fun n c => 10 * n + (c.toNat - '0'.toNat)) 0

theorem foldl_digits (n : Nat) (cs : List Char) :
    cs.foldl (fun n c => 10 * n + (c.toNat - '0'.toNat)) n =
      n * tenPow cs.length + ofDigits cs := by
  induction cs generalizing n with
  | nil => show n = n * 1 + 0; omega
  | cons c rest ih =>
      have hfirst : ofDigits (c :: rest) =
          (10 * 0 + (c.toNat - '0'.toNat)) * tenPow rest.length + ofDigits rest := ih _
      rw [List.foldl_cons, ih, hfirst, List.length_cons, tenPow_succ, Nat.add_mul, Nat.mul_zero,
        Nat.zero_add, <- Nat.mul_assoc, Nat.mul_comm 10 n, Nat.add_assoc]

theorem ofDigits_append (cs cs' : List Char) :
    ofDigits (cs ++ cs') = ofDigits cs * tenPow cs'.length + ofDigits cs' := by
  show (cs ++ cs').foldl _ 0 = _
  rw [List.foldl_append, foldl_digits]
  rfl

theorem ofDigits_cons (c : Char) (cs : List Char) :
    ofDigits (c :: cs) = (c.toNat - '0'.toNat) * tenPow cs.length + ofDigits cs := by
  rw [<- Nat.zero_add (c.toNat - '0'.toNat)]
  exact foldl_digits (10 * 0 + (c.toNat - '0'.toNat)) cs

theorem ofDigits_lt {cs : List Char} (h : forall c, c ∈ cs -> c.isDigit = true) :
    ofDigits cs < tenPow cs.length := by
  induction cs with
  | nil => decide
  | cons c rest ih =>
      have hrest := ih fun d hd => h d (List.mem_cons_of_mem c hd)
      have hdigit : c.toNat - '0'.toNat + 1 ≤ 10 := by
        have hc := h c List.mem_cons_self
        simp only [Char.isDigit, Bool.and_eq_true, decide_eq_true_eq] at hc
        have hnine : c.toNat ≤ 57 := hc.2
        have hzero : '0'.toNat = 48 := rfl
        omega
      calc ofDigits (c :: rest)
          = (c.toNat - '0'.toNat) * tenPow rest.length + ofDigits rest := ofDigits_cons c rest
        _ < (c.toNat - '0'.toNat) * tenPow rest.length + tenPow rest.length := by omega
        _ = (c.toNat - '0'.toNat + 1) * tenPow rest.length := (Nat.succ_mul _ _).symm
        _ ≤ 10 * tenPow rest.length := Nat.mul_le_mul_right _ hdigit
        _ = tenPow (c :: rest).length := (tenPow_succ rest.length).symm

/-- The number that is left when as many digits are cut off as it is a power of ten too great. -/
theorem ofDigits_of_append {cs rest : List Char} {n : Nat}
    (hrest : forall c, c ∈ rest -> c.isDigit = true)
    (h : ofDigits (cs ++ rest) = n * tenPow rest.length) : ofDigits cs = n := by
  have hlt := ofDigits_lt hrest
  rw [ofDigits_append] at h
  have hdiv := congrArg (· / tenPow rest.length) h
  simpa [Nat.mul_comm _ (tenPow rest.length), Nat.mul_add_div (tenPow_pos rest.length),
    Nat.div_eq_of_lt hlt, Nat.mul_div_cancel_left n (tenPow_pos rest.length)] using hdiv

def readNat? (cs : List Char) : Option Nat :=
  match cs with
  | [] => none
  | _ => if cs.all Char.isDigit then some (ofDigits cs) else none

/-- Decimal digits of a number, padded on the left with zeros to `width`. -/
def padded (width : Nat) (n : Nat) : String :=
  let text := toString n
  String.ofList (List.replicate (width - text.length) '0') ++ text

theorem toList_toString (n : Nat) : (toString n).toList = Nat.toDigits 10 n := by
  rw [Nat.toString_eq_repr, Nat.repr_eq_ofList_toDigits, String.toList_ofList]

theorem toString_ne_nil (n : Nat) : (toString n).toList ≠ [] := by
  rw [toList_toString]
  exact Nat.toDigits_ne_nil

theorem isDigit_of_mem_toString {n : Nat} {c : Char} (h : c ∈ (toString n).toList) :
    c.isDigit = true := by
  rw [toList_toString] at h
  exact Nat.isDigit_of_mem_toDigits (by decide) (by decide) h

theorem ofDigits_toString (n : Nat) : ofDigits (toString n).toList = n := by
  rw [toList_toString]
  exact Nat.ofDigitChars_ten_toDigits

theorem toList_padded (width n : Nat) :
    (padded width n).toList =
      List.replicate (width - (toString n).length) '0' ++ (toString n).toList := by
  rw [padded, String.toList_append, String.toList_ofList]

theorem isDigit_of_mem_padded {width n : Nat} {c : Char} (h : c ∈ (padded width n).toList) :
    c.isDigit = true := by
  rw [toList_padded, List.mem_append] at h
  rcases h with h | h
  · rw [List.eq_of_mem_replicate h]
    rfl
  · exact isDigit_of_mem_toString h

theorem ofDigits_zeros (count : Nat) : ofDigits (List.replicate count '0') = 0 := by
  induction count with
  | zero => rfl
  | succ count ih => rw [List.replicate_succ, ofDigits_cons, ih, Nat.sub_self, Nat.zero_mul]

theorem ofDigits_padded (width n : Nat) : ofDigits (padded width n).toList = n := by
  rw [toList_padded, ofDigits_append, ofDigits_zeros, ofDigits_toString, Nat.zero_mul, Nat.zero_add]

theorem length_padded {width n : Nat} (hwidth : 0 < width) (hn : n < tenPow width) :
    (padded width n).toList.length = width := by
  have hlength : (toString n).length ≤ width := by
    rw [<- String.length_toList, toList_toString]
    exact (Nat.length_toDigits_le_iff (by decide) hwidth).mpr hn
  rw [toList_padded, List.length_append, List.length_replicate, String.length_toList]
  omega

end Number
end TypedQuery
