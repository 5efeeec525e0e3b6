import Worksheet.Number.Binary

/-!
# Decimal numbers

A decimal number is a whole number of units of a power of ten. `Decimal.nearest` rounds it to the
nearest magnitude of binary floating point, exactly, however long it is.
-/

namespace Worksheet.Number

/-- A power of ten. -/
def tenTo (n : Nat) : Nat := Nat.pow 10 n

/-- The number `digits * 10 ^ exponent`. -/
structure Decimal where
  digits : Nat
  exponent : Int
deriving Repr, DecidableEq

namespace Decimal

/-- The decimal number as numerator and denominator. -/
def fraction (d : Decimal) : Nat × Nat :=
  (d.digits * tenTo d.exponent.toNat, tenTo (-d.exponent).toNat)

/-- The magnitude nearest to a decimal number. Numbers of more than 350 digits before the point are
beyond every finite magnitude, and numbers with 400 zeros behind it are below half of the smallest;
neither power of ten is computed. -/
def nearest (d : Decimal) : Nat :=
  if d.digits = 0 then 0
  else if 350 < d.exponent then infinity
  else if d.exponent + d.digits.log2 < -400 then 0
  else Number.nearest d.fraction.1 d.fraction.2

@[simp] theorem nearest_zero (e : Int) : nearest ⟨0, e⟩ = 0 := rfl

end Decimal
end Worksheet.Number
