/-!
# Sets of code points

A property of characters given by a standard is written down as an increasing list of ranges of
code points. `Ranges.holds` looks a number up in such a list.
-/

namespace Worksheet.Text

/-- Ranges of code points, first and last included, in increasing order. -/
abbrev Ranges := List (Nat × Nat)

namespace Ranges

/-- Whether `n` lies in one of the ranges. The search stops at the first range beyond `n`. -/
def holds : Ranges → Nat → Bool
  | [], _ => false
  | (first, last) :: rest, n =>
    if n < first then false else if n ≤ last then true else holds rest n

end Ranges
end Worksheet.Text
