/-!
# Powers of two and of ten

The bounds of numbers of so many bits, and the units of numbers with so many decimal digits.
-/

namespace TypedQuery
namespace Number

/-- Two to a power: the number of values of so many bits. -/
def twoPow (bits : Nat) : Nat := Nat.pow 2 bits

def tenPow (digits : Nat) : Nat := Nat.pow 10 digits

theorem twoPow_pos (bits : Nat) : 0 < twoPow bits := Nat.pow_pos (by decide)

theorem tenPow_pos (digits : Nat) : 0 < tenPow digits := Nat.pow_pos (by decide)

theorem tenPow_succ (digits : Nat) : tenPow (digits + 1) = 10 * tenPow digits :=
  (Nat.pow_succ 10 digits).trans (Nat.mul_comm _ _)

/-- Numbers of one more byte. -/
theorem twoPow_byte (count : Nat) : twoPow (8 * (count + 1)) = 256 * twoPow (8 * count) :=
  (Nat.pow_add 2 (8 * count) 8).trans (Nat.mul_comm _ _)

end Number
end TypedQuery
