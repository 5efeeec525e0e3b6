import Worksheet.Number.Binary

/-!
# Doubles by sign and magnitude

A double is given by its sign and its magnitude, the bits without the sign.
-/

namespace Worksheet.Number

/-- The bit of the sign. -/
def signBit : Nat := 0x8000000000000000

/-- The magnitude of a double: its bits without the sign. -/
def magnitude (x : Float) : Nat := x.toBits.toNat % signBit

/-- Whether the sign of a double is set. It may be set for a zero. -/
def isNegative (x : Float) : Bool := decide (signBit ≤ x.toBits.toNat)

/-- The double of a sign and a magnitude. -/
def ofMagnitude (negative : Bool) (magnitude : Nat) : Float :=
  Float.ofBits (UInt64.ofNat (if negative then signBit + magnitude else magnitude))

/-- Whether a double is neither infinite nor without a value. -/
def isFinite (x : Float) : Bool := decide (magnitude x < infinity)

/-- Whether a double is a zero of either sign. -/
def isZero (x : Float) : Bool := decide (magnitude x = 0)

end Worksheet.Number
