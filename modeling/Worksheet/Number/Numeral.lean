import Worksheet.Number.Decimal
import Worksheet.Text.Digit

/-!
# Numerals

A numeral is digits with an optional fraction and an optional exponent: `12`, `1.`, `.5`, `1.5e-3`.
Its digits may be those of any script. `Numeral.scan` takes the longest numeral at the head of a
text; `text_append_of_scan` says that nothing is lost in doing so.
-/

namespace Worksheet.Number

open Worksheet.Text (digit? isDecimal)

/-- The exponent of a numeral: its mark, its sign if it has one, and its digits. -/
structure Exponent where
  mark : Char
  sign : List Char
  digits : List Char
deriving Repr, DecidableEq

/-- A numeral as it is written. -/
structure Numeral where
  /-- The digits before the point. -/
  whole : List Char
  /-- The point, if there is one. -/
  point : List Char
  /-- The digits behind the point. -/
  fraction : List Char
  exponent : Option Exponent
deriving Repr, DecidableEq

/-- The number that a row of digits stands for. -/
def natOfDigits (ds : List Char) : Nat :=
  ds.foldl (fun n c => 10 * n + (digit? c).getD 0) 0

namespace Exponent

/-- The exponent as it is written. -/
def text (e : Exponent) : List Char := e.mark :: e.sign ++ e.digits

/-- The power of ten that the exponent stands for. -/
def value (e : Exponent) : Int :=
  if e.sign = ['-'] then -(natOfDigits e.digits : Int) else natOfDigits e.digits

/-- The sign at the head of a text, or none, with what follows. -/
def splitSign : List Char → List Char × List Char
  | '+' :: cs => (['+'], cs)
  | '-' :: cs => (['-'], cs)
  | cs => ([], cs)

/-- The two parts make up the text. -/
theorem splitSign_append (cs : List Char) : (splitSign cs).1 ++ (splitSign cs).2 = cs := by
  unfold splitSign
  split <;> rfl

/-- The exponent at the head of a text: `e` or `E`, an optional sign, and at least one digit. -/
def scan : List Char → Option Exponent × List Char
  | [] => (none, [])
  | c :: cs =>
    let (sign, rest) := splitSign cs
    let digits := rest.takeWhile isDecimal
    if (c = 'e' ∨ c = 'E') ∧ digits ≠ [] then (some ⟨c, sign, digits⟩, rest.dropWhile isDecimal)
    else (none, c :: cs)

/-- The exponent, if there is one, and what is left make up the text. -/
theorem text_append_of_scan (cs : List Char) :
    ((scan cs).1.map text).getD [] ++ (scan cs).2 = cs := by
  cases cs with
  | nil => rfl
  | cons c cs =>
    simp only [scan]
    split
    · simp only [Option.map_some, Option.getD_some, text, List.cons_append, List.append_assoc,
        List.takeWhile_append_dropWhile, splitSign_append]
    · rfl

end Exponent

namespace Numeral

/-- The numeral as it is written. -/
def text (n : Numeral) : List Char :=
  n.whole ++ n.point ++ n.fraction ++ (n.exponent.map Exponent.text).getD []

/-- The decimal number that a numeral stands for. -/
def decimal (n : Numeral) : Decimal where
  digits := natOfDigits (n.whole ++ n.fraction)
  exponent := (n.exponent.map Exponent.value).getD 0 - n.fraction.length

/-- What follows a decimal point at the head of a text. The point needs a digit on one side. -/
def afterPoint? (whole : List Char) : List Char → Option (List Char)
  | '.' :: rest => if whole ≠ [] ∨ rest.head?.any isDecimal then some rest else none
  | _ => none

theorem eq_cons_of_afterPoint? {whole cs rest : List Char} (h : afterPoint? whole cs = some rest) :
    cs = '.' :: rest := by
  unfold afterPoint? at h
  split at h
  · split at h <;> simp_all
  · simp at h

/-- The longest numeral at the head of a text, with what is left. -/
def scan (cs : List Char) : Option (Numeral × List Char) :=
  let whole := cs.takeWhile isDecimal
  let rest := cs.dropWhile isDecimal
  match afterPoint? whole rest with
  | some rest =>
    let (exponent, left) := Exponent.scan (rest.dropWhile isDecimal)
    some (⟨whole, ['.'], rest.takeWhile isDecimal, exponent⟩, left)
  | none =>
    if whole = [] then none
    else
      let (exponent, left) := Exponent.scan rest
      some (⟨whole, [], [], exponent⟩, left)

/-- A numeral and what is left after it make up the text. -/
theorem text_append_of_scan {cs rest : List Char} {n : Numeral} (h : scan cs = some (n, rest)) :
    n.text ++ rest = cs := by
  simp only [scan] at h
  split at h
  · next r hr =>
    simp only [Option.some.injEq, Prod.mk.injEq] at h
    obtain ⟨rfl, rfl⟩ := h
    have hx := Exponent.text_append_of_scan (r.dropWhile isDecimal)
    simp only [text, List.append_assoc, hx, List.takeWhile_append_dropWhile]
    rw [List.singleton_append, ← eq_cons_of_afterPoint? hr, List.takeWhile_append_dropWhile]
  · split at h
    · simp at h
    · simp only [Option.some.injEq, Prod.mk.injEq] at h
      obtain ⟨rfl, rfl⟩ := h
      have hx := Exponent.text_append_of_scan (cs.dropWhile isDecimal)
      simp only [text, List.append_assoc, List.nil_append, hx, List.takeWhile_append_dropWhile]

/-- A numeral is not empty. -/
theorem length_lt_of_scan {cs rest : List Char} {n : Numeral} (h : scan cs = some (n, rest)) :
    rest.length < cs.length := by
  have htext := congrArg List.length (text_append_of_scan h)
  have hpos : 0 < n.text.length := by
    simp only [scan] at h
    split at h
    · simp only [Option.some.injEq, Prod.mk.injEq] at h
      rw [← h.1]
      simp only [text, List.length_append, List.length_cons]
      omega
    · split at h
      · simp at h
      · next hw =>
        simp only [Option.some.injEq, Prod.mk.injEq] at h
        rw [← h.1]
        have := List.length_pos_iff.mpr hw
        simp only [text, List.length_append]
        omega
  simp only [List.length_append] at htext
  omega

end Numeral
end Worksheet.Number
