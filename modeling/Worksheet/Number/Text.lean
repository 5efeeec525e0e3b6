import Worksheet.Number.Double
import Worksheet.Number.Numeral
import Worksheet.Number.Shortest
import Worksheet.Text.Blank

/-!
# Numbers as text

How the numbers of a sheet are written and read. A number is written with the fewest digits that
read back as the same number: in positional form when its leading digit stands between the fourth
place behind the point and the sixteenth before it, with an exponent otherwise.

* `text` writes a number for a cell or a formula: a whole number has no fraction.
* `shown` writes a number as a value: a whole number in positional form ends in `.0`.
* `read?` reads the text of a cell. Only finite numbers are numbers.
-/

namespace Worksheet.Number

open Worksheet.Text (isMargin)

/-! ### Writing -/

/-- An exponent of ten: a sign and at least two digits. -/
def exponentText (e : Int) : List Char :=
  let digits := Nat.toDigits 10 e.natAbs
  'e' :: (if e < 0 then '-' else '+') :: (if digits.length < 2 then '0' :: digits else digits)

/-- Digits laid out around the point, where the first of them stands for units of `10 ^ lead`.
`unit` is written behind the point of a whole number in positional form. -/
def layout (unit : List Char) (digits : List Char) (lead : Int) : List Char :=
  if -4 ≤ lead ∧ lead < 16 then
    if lead < 0 then
      '0' :: '.' :: List.replicate (-lead - 1).toNat '0' ++ digits
    else if digits.length ≤ lead.toNat + 1 then
      digits ++ List.replicate (lead.toNat + 1 - digits.length) '0' ++ unit
    else
      digits.take (lead.toNat + 1) ++ '.' :: digits.drop (lead.toNat + 1)
  else
    match digits with
    | [] => []
    | [d] => d :: exponentText lead
    | d :: ds => d :: '.' :: ds ++ exponentText lead

/-- The digits of a decimal number without trailing zeros, and the power of ten of the first. -/
def significand (d : Decimal) : List Char × Int :=
  let digits := Nat.toDigits 10 d.digits
  let stripped := (digits.reverse.dropWhile (· == '0')).reverse
  (if stripped = [] then ['0'] else stripped, d.exponent + digits.length - 1)

/-- A finite magnitude as text. -/
def magnitudeText (unit : List Char) (magnitude : Nat) : List Char :=
  if magnitude = 0 then '0' :: unit
  else
    let (digits, lead) := significand (shortest magnitude)
    layout unit digits lead

/-- A number as text, where `unit` is written behind a whole number in positional form. -/
def render (unit : List Char) (x : Float) : List Char :=
  if infinity < magnitude x then ['n', 'a', 'n']
  else
    let body := if magnitude x = infinity then ['i', 'n', 'f'] else magnitudeText unit (magnitude x)
    if isNegative x then '-' :: body else body

/-- A number as it is written in a cell or a formula. -/
def text (x : Float) : String := String.ofList (render [] x)

/-- A number as it is shown as a value. -/
def shown (x : Float) : String := String.ofList (render ['.', '0'] x)

/-! ### Reading -/

/-- The double nearest to a decimal number with a sign. -/
def ofDecimal (negative : Bool) (d : Decimal) : Float := ofMagnitude negative d.nearest

/-- A text without the white space around it. -/
def trim (cs : List Char) : List Char :=
  ((cs.dropWhile isMargin).reverse.dropWhile isMargin).reverse

/-- The finite number that a text stands for: a numeral with an optional sign, white space around
it aside. -/
def read? (cs : List Char) : Option Float :=
  let (sign, rest) := Exponent.splitSign (trim cs)
  match Numeral.scan rest with
  | some (n, []) =>
    let x := ofDecimal (sign == ['-']) n.decimal
    if isFinite x then some x else none
  | _ => none

/-- What is read is finite. -/
theorem isFinite_of_read? {cs : List Char} {x : Float} (h : read? cs = some x) :
    isFinite x = true := by
  unfold read? at h
  grind

end Worksheet.Number
