/-!
# Magnitudes of binary floating point

The magnitude of a double is its bit pattern without the sign: a number below `infinity` for the
finite values, `infinity` itself, and above it what is not a number. Magnitudes are ordered as the
values they stand for, so rounding a quotient to the nearest value is arithmetic on natural numbers.
Factors that are powers of two are written as shifts.

* `fraction` gives the value of a finite magnitude as a quotient.
* `nearest` gives the magnitude nearest to a quotient; a tie goes to the even magnitude.
-/

namespace Worksheet.Number

/-- The magnitude of an infinite value. -/
def infinity : Nat := 0x7ff0000000000000

/-- The number of magnitudes with the same exponent; as a mantissa, the smallest of 53 bits. -/
def binade : Nat := 0x10000000000000

/-- The mantissa and the binary exponent of a finite magnitude. Its value is the mantissa times two
to the power of the exponent. -/
def components (magnitude : Nat) : Nat × Int :=
  if magnitude < binade then (magnitude, -1074)
  else (binade + magnitude % binade, (magnitude / binade : Nat) - 1075)

/-- The value of a finite magnitude, as numerator and denominator. -/
def fraction (magnitude : Nat) : Nat × Nat :=
  let (m, q) := components magnitude
  (m <<< q.toNat, 1 <<< (-q).toNat)

/-- A quotient rounded to the nearest natural number; a half goes to the even neighbour. -/
def roundDiv (num den : Nat) : Nat :=
  let quotient := num / den
  let remainder := num % den
  if 2 * remainder < den then quotient
  else if den < 2 * remainder then quotient + 1
  else quotient + quotient % 2

/-- The binary exponent of the leading bit of a positive quotient. -/
def leadingBit (num den : Nat) : Int :=
  let k : Int := (num.log2 : Int) - den.log2
  if den <<< k.toNat ≤ num <<< (-k).toNat then k else k - 1

/-- The magnitude nearest to a quotient. The last place has 53 bits above it or is the smallest
there is, whichever is larger. -/
def nearest (num den : Nat) : Nat :=
  if num = 0 then 0
  else
    let q := max (leadingBit num den - 52) (-1074)
    let m := roundDiv (num <<< (-q).toNat) (den <<< q.toNat)
    min ((q + 1074).toNat * binade + m) infinity

@[simp] theorem nearest_zero (den : Nat) : nearest 0 den = 0 := rfl

/-- A quotient without remainder is not changed by rounding. -/
theorem roundDiv_mul (n den : Nat) (h : 0 < den) : roundDiv (n * den) den = n := by
  simp [roundDiv, Nat.mul_div_cancel _ h, h]

/-- A quotient below one half is rounded to zero. -/
theorem roundDiv_eq_zero {num den : Nat} (h : 2 * num < den) : roundDiv num den = 0 := by
  unfold roundDiv
  rw [Nat.div_eq_of_lt (by omega), Nat.mod_eq_of_lt (by omega), if_pos h]

/-- Expanding a quotient does not change what it is rounded to. -/
theorem roundDiv_mul_right (num den : Nat) {c : Nat} (hc : 0 < c) :
    roundDiv (num * c) (den * c) = roundDiv num den := by
  have hless : ∀ a b : Nat, a * c < b * c ↔ a < b := fun a b => Nat.mul_lt_mul_right hc
  unfold roundDiv
  rw [Nat.mul_div_mul_right _ _ hc, Nat.mul_mod_mul_right]
  simp only [← Nat.mul_assoc, hless]

end Worksheet.Number
