import TypedQuery.Number.Power

/-!
# Big-endian numbers

Whole numbers as bytes, the most significant first; signed numbers in two's complement.
-/

namespace TypedQuery
namespace Number
namespace BigEndian

def toNat (bytes : List UInt8) : Nat := bytes.foldl (fun n b => 256 * n + b.toNat) 0

def toInt (bytes : List UInt8) : Int := Int.bmod (toNat bytes) (twoPow (8 * bytes.length))

def ofNat : Nat -> Nat -> List UInt8
  | 0, _ => []
  | count + 1, n => UInt8.ofNat (n / twoPow (8 * count)) :: ofNat count n

def ofInt (count : Nat) (n : Int) : List UInt8 := ofNat count (n.emod (twoPow (8 * count))).toNat

@[simp]
theorem length_ofNat (count n : Nat) : (ofNat count n).length = count := by
  induction count with
  | zero => rfl
  | succ count ih => simp [ofNat, ih]

@[simp]
theorem length_ofInt (count : Nat) (n : Int) : (ofInt count n).length = count :=
  length_ofNat count _

theorem foldl_eq (bytes : List UInt8) (n : Nat) :
    bytes.foldl (fun n b => 256 * n + b.toNat) n = n * twoPow (8 * bytes.length) + toNat bytes := by
  induction bytes generalizing n with
  | nil => show n = n * 1 + 0; omega
  | cons b rest ih =>
      have hbyte : toNat (b :: rest) =
          (256 * 0 + b.toNat) * twoPow (8 * rest.length) + toNat rest :=
        ih (256 * 0 + b.toNat)
      rw [List.foldl_cons, ih, hbyte, List.length_cons, twoPow_byte, Nat.add_mul, Nat.zero_add,
        <- Nat.mul_assoc, Nat.mul_comm 256 n, Nat.add_assoc]

theorem toNat_cons (b : UInt8) (rest : List UInt8) :
    toNat (b :: rest) = b.toNat * twoPow (8 * rest.length) + toNat rest := by
  rw [<- Nat.zero_add b.toNat]
  exact foldl_eq rest (256 * 0 + b.toNat)

theorem toNat_lt (bytes : List UInt8) : toNat bytes < twoPow (8 * bytes.length) := by
  induction bytes with
  | nil => decide
  | cons b rest ih =>
      have hb : b.toNat + 1 ≤ 256 := b.toNat_lt
      calc toNat (b :: rest) = b.toNat * twoPow (8 * rest.length) + toNat rest := toNat_cons b rest
        _ < b.toNat * twoPow (8 * rest.length) + twoPow (8 * rest.length) := by omega
        _ = (b.toNat + 1) * twoPow (8 * rest.length) := (Nat.succ_mul _ _).symm
        _ ≤ 256 * twoPow (8 * rest.length) := Nat.mul_le_mul_right _ hb
        _ = twoPow (8 * (b :: rest).length) := by rw [List.length_cons, twoPow_byte]

/-- Bytes of one length are told apart by their numbers. -/
theorem toNat_inj {bytes bytes' : List UInt8} (hlength : bytes.length = bytes'.length)
    (h : toNat bytes = toNat bytes') : bytes = bytes' := by
  induction bytes generalizing bytes' with
  | nil => exact (List.eq_nil_of_length_eq_zero hlength.symm).symm
  | cons b rest ih =>
      cases bytes' with
      | nil => simp at hlength
      | cons b' rest' =>
          have hrest : rest.length = rest'.length := by simpa using hlength
          have hlt := toNat_lt rest
          have hlt' := toNat_lt rest'
          rw [toNat_cons, toNat_cons, <- hrest] at h
          rw [<- hrest] at hlt'
          have hpos := twoPow_pos (8 * rest.length)
          have hhead : b.toNat = b'.toNat := by
            have hdiv := congrArg (· / twoPow (8 * rest.length)) h
            simpa [Nat.mul_comm _ (twoPow (8 * rest.length)), Nat.mul_add_div hpos,
              Nat.div_eq_of_lt hlt, Nat.div_eq_of_lt hlt'] using hdiv
          have htail : toNat rest = toNat rest' := by rw [hhead] at h; omega
          rw [UInt8.toNat_inj.mp hhead, ih hrest htail]

theorem toNat_ofNat (count n : Nat) : toNat (ofNat count n) = n % twoPow (8 * count) := by
  induction count with
  | zero => show 0 = n % 1; omega
  | succ count ih =>
      have hdigit : (UInt8.ofNat (n / twoPow (8 * count))).toNat = n / twoPow (8 * count) % 256 :=
        UInt8.toNat_ofNat'
      rw [ofNat, toNat_cons, hdigit, length_ofNat, ih, twoPow_byte, Nat.mul_comm 256,
        Nat.mod_mul, Nat.mul_comm, Nat.add_comm]

theorem toInt_ofInt {count : Nat} {n : Int} (hlow : -(twoPow (8 * count) : Int) ≤ 2 * n)
    (hhigh : 2 * n < twoPow (8 * count)) : toInt (ofInt count n) = n := by
  have hpos := twoPow_pos (8 * count)
  have hnonneg : 0 ≤ n % (twoPow (8 * count) : Int) := Int.emod_nonneg _ (by omega)
  have hlt : n % (twoPow (8 * count) : Int) < twoPow (8 * count) := Int.emod_lt_of_pos _ (by omega)
  have hword : toNat (ofInt count n) = (n % (twoPow (8 * count) : Int)).toNat := by
    show toNat (ofNat count (n % (twoPow (8 * count) : Int)).toNat) = _
    rw [toNat_ofNat, Nat.mod_eq_of_lt (by omega)]
  rw [toInt, hword, ofInt, length_ofNat, Int.toNat_of_nonneg hnonneg, Int.emod_bmod]
  exact Int.bmod_eq_of_le_mul_two (by omega) (by omega)

theorem ofInt_toInt (bytes : List UInt8) : ofInt bytes.length (toInt bytes) = bytes := by
  have hlt := toNat_lt bytes
  have hword : (toInt bytes).emod (twoPow (8 * bytes.length)) = toNat bytes := by
    show Int.bmod (toNat bytes) (twoPow (8 * bytes.length)) % (twoPow (8 * bytes.length) : Int) = _
    rw [Int.bmod_emod]
    exact Int.emod_eq_of_lt (by omega) (by omega)
  refine toNat_inj (length_ofNat _ _) ?_
  rw [ofInt, hword, Int.toNat_natCast, toNat_ofNat, Nat.mod_eq_of_lt hlt]

end BigEndian
end Number
end TypedQuery
