import Worksheet.Number.Decimal

/-!
# Shortest decimal numbers

`shortest` finds the decimal number of the fewest digits that rounds to a given magnitude. For
1, 2, … 17 digits it tries the two neighbours of the value among the decimal numbers of that many
digits; the first count with a hit wins, of two hits the nearer one, and of two equally near the
even one.

* `nearest_of_candidate`: what a candidate search returns reads back as the magnitude.
-/

namespace Worksheet.Number

/-- The decimal exponent of the leading digit of a positive quotient. -/
def leadingDigit (num den : Nat) : Int :=
  let guess : Int := (((num.log2 : Int) - den.log2) * 30103) / 100000
  let atLeast (p : Int) : Bool := den * tenTo p.toNat ≤ num * tenTo (-p).toNat
  if atLeast (guess + 1) then guess + 1 else if atLeast guess then guess else guess - 1

/-- The better of the two neighbours of a value among the multiples of a power of ten, if one of
them rounds to the magnitude. -/
def candidate (magnitude : Nat) (exponent : Int) : Option Decimal :=
  let (num, den) := fraction magnitude
  let num := num * tenTo (-exponent).toNat
  let den := den * tenTo exponent.toNat
  let below := num / den
  let low : Decimal := ⟨below, exponent⟩
  let high : Decimal := ⟨below + 1, exponent⟩
  if low.nearest = magnitude then
    if high.nearest = magnitude then
      let twice := 2 * (num % den)
      some (if twice < den then low else if den < twice then high
        else if below % 2 = 0 then low else high)
    else some low
  else if high.nearest = magnitude then some high
  else none

/-- The value of a finite magnitude written out in full. -/
def exact (magnitude : Nat) : Decimal :=
  let (m, q) := components magnitude
  if 0 ≤ q then ⟨m <<< q.toNat, 0⟩ else ⟨m * Nat.pow 5 (-q).toNat, q⟩

/-- The shortest decimal number that rounds to a finite magnitude, nearest to its value. -/
def shortest (magnitude : Nat) : Decimal :=
  let (num, den) := fraction magnitude
  let lead := leadingDigit num den
  ((List.range 17).findSome? (fun n : Nat => candidate magnitude (lead - n))).getD (exact magnitude)

/-- A candidate reads back as the magnitude. -/
theorem nearest_of_candidate {magnitude : Nat} {exponent : Int} {d : Decimal}
    (h : candidate magnitude exponent = some d) : d.nearest = magnitude := by
  unfold candidate at h
  grind

end Worksheet.Number
