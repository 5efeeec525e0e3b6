import Worksheet.Number.Numeral
import Worksheet.Proofs.Text.Runs

/-!
# Numerals in a text

Which texts are numerals, and which of them is found at the head of a text.

* `Numeral.Formed`: the numerals, whatever the script of their digits.
* `Numeral.formed_of_scan`, `Numeral.exists_scan_append`: what is found is a numeral, and no numeral
  at the head of the text is longer.
* `Numeral.scan_text_append`: a numeral is found in front of what does not continue it.
-/

namespace Worksheet.Number

open Worksheet.Text (isDecimal Stops stops_nil stops_cons takeWhile_run dropWhile_run
  dropWhile_of_stops)

/-- An exponent as it may be written: `e` or `E`, perhaps a sign, and digits. -/
structure Exponent.Formed (e : Exponent) : Prop where
  mark : e.mark = 'e' ∨ e.mark = 'E'
  sign : e.sign = [] ∨ e.sign = ['+'] ∨ e.sign = ['-']
  digits : ∀ c ∈ e.digits, isDecimal c = true
  digits_ne : e.digits ≠ []

/-- A numeral as it may be written: digits with at most one point among or beside them, and perhaps
an exponent. -/
structure Numeral.Formed (n : Numeral) : Prop where
  whole : ∀ c ∈ n.whole, isDecimal c = true
  point : n.point = ['.'] ∨ n.point = [] ∧ n.fraction = []
  fraction : ∀ c ∈ n.fraction, isDecimal c = true
  digits_ne : n.whole ≠ [] ∨ n.fraction ≠ []
  exponent : ∀ e ∈ n.exponent, e.Formed

/-- Whether a character continues a numeral. -/
def continues (c : Char) : Bool := isDecimal c || c == '.' || c == 'e' || c == 'E'

theorem stops_isDecimal {rest : List Char} (h : Stops continues rest) : Stops isDecimal rest := by
  intro c hc
  have := h c hc
  simp_all [continues]

/-! ### Exponents

An exponent is optional, and its mark may also begin a word. So a scan either takes a whole exponent
or leaves the text as it is.
-/

namespace Exponent

/-- The exponent that a numeral may end with, as it is written. -/
def optionText (exponent : Option Exponent) : List Char := (exponent.map text).getD []

/-- An exponent ends the digits before it. -/
theorem Formed.stops {e : Exponent} (h : e.Formed) (rest : List Char) :
    Stops isDecimal (e.text ++ rest) := by
  apply stops_cons
  rcases h.mark with hmark | hmark <;> rw [hmark] <;> decide

theorem Formed.splitSign {e : Exponent} (h : e.Formed) (rest : List Char) :
    splitSign (e.sign ++ (e.digits ++ rest)) = (e.sign, e.digits ++ rest) := by
  rcases h.sign with hsign | hsign | hsign
  · obtain ⟨d, ds, hds⟩ := List.exists_cons_of_ne_nil h.digits_ne
    have hd := h.digits d (hds ▸ List.mem_cons_self)
    rw [hsign, hds]
    unfold Exponent.splitSign
    split
    · next heq =>
      cases heq
      exact absurd hd (by decide)
    · next heq =>
      cases heq
      exact absurd hd (by decide)
    · rfl
  · rw [hsign]
    rfl
  · rw [hsign]
    rfl

/-- An exponent at the head of a text is found with all digits that follow it. -/
theorem Formed.scan_append {e : Exponent} (h : e.Formed) (rest : List Char) :
    scan (e.text ++ rest)
      = (some { e with digits := e.digits ++ rest.takeWhile isDecimal },
        rest.dropWhile isDecimal) := by
  have htext : e.text ++ rest = e.mark :: (e.sign ++ (e.digits ++ rest)) := by simp [text]
  have hne : e.digits ++ rest.takeWhile isDecimal ≠ [] := by simp [h.digits_ne]
  rw [htext, scan, h.splitSign]
  simp only [List.takeWhile_append_of_pos h.digits, List.dropWhile_append_of_pos h.digits]
  exact if_pos ⟨h.mark, hne⟩

/-- Where no numeral goes on there is no exponent. -/
theorem scan_of_stops {rest : List Char} (hrest : Stops continues rest) :
    scan rest = (none, rest) := by
  cases rest with
  | nil => rfl
  | cons c rest =>
    have hc := hrest c rfl
    simp only [continues, Bool.or_eq_false_iff, beq_eq_false_iff_ne] at hc
    exact if_neg fun h => by simp_all

theorem length_scan_le (cs : List Char) : (scan cs).2.length ≤ cs.length := by
  have hlength := congrArg List.length (text_append_of_scan cs)
  rw [List.length_append] at hlength
  omega

theorem formed_of_scan {cs : List Char} {e : Exponent} (h : (scan cs).1 = some e) : e.Formed := by
  cases cs with
  | nil => cases h
  | cons c cs =>
    simp only [scan] at h
    split at h
    · next hfound =>
      cases h
      refine ⟨hfound.1, ?_, fun d hd => List.mem_takeWhile_imp hd, hfound.2⟩
      unfold splitSign
      split <;> simp
    · cases h

end Exponent

/-! ### Numerals

A numeral is whole digits, perhaps a point and digits behind it, and perhaps an exponent. The two
ways to write it, with a point and without, are scanned in two ways, and are treated one after the
other.
-/

namespace Numeral

open Exponent (optionText)

section
variable {exponent : Option Exponent} (h : ∀ e ∈ exponent, e.Formed)
include h

/-- The exponent is found again behind a numeral, or it is found that there is none. -/
theorem scan_exponent {rest : List Char} (hrest : Stops continues rest) :
    Exponent.scan (optionText exponent ++ rest) = (exponent, rest) := by
  cases exponent with
  | none => exact Exponent.scan_of_stops hrest
  | some e =>
    have hstops := stops_isDecimal hrest
    rw [optionText, Option.map_some, Option.getD_some, (h e rfl).scan_append,
      Text.takeWhile_of_stops hstops, dropWhile_of_stops hstops, List.append_nil]

theorem stops_exponent {rest : List Char} (hrest : Stops isDecimal rest) :
    Stops isDecimal (optionText exponent ++ rest) := by
  cases exponent with
  | none => exact hrest
  | some e => exact (h e rfl).stops rest

/-- Whatever follows an exponent, no more than that is left behind it. -/
theorem length_scan_exponent_le (rest : List Char) :
    (Exponent.scan ((optionText exponent ++ rest).dropWhile isDecimal)).2.length ≤ rest.length := by
  cases exponent with
  | none =>
    calc (Exponent.scan (rest.dropWhile isDecimal)).2.length
        ≤ (rest.dropWhile isDecimal).length := Exponent.length_scan_le _
      _ ≤ rest.length := (List.dropWhile_sublist _).length_le
  | some e =>
    have htext : optionText (some e) = e.text := rfl
    rw [htext, dropWhile_of_stops ((h e rfl).stops rest), (h e rfl).scan_append]
    exact (List.dropWhile_sublist _).length_le

/-- A point behind the digits of a numeral that has none itself stands behind the whole numeral. -/
theorem afterPoint?_exponent {whole rest left : List Char}
    (hafter : afterPoint? whole ((optionText exponent ++ rest).dropWhile isDecimal) = some left) :
    left.length ≤ rest.length := by
  have hpoint := eq_cons_of_afterPoint? hafter
  cases exponent with
  | none =>
    have hlength : (rest.dropWhile isDecimal).length ≤ rest.length :=
      (List.dropWhile_sublist _).length_le
    have hrest : rest.dropWhile isDecimal = '.' :: left := hpoint
    rw [hrest, List.length_cons] at hlength
    omega
  | some e =>
    have htext : optionText (some e) = e.text := rfl
    rw [htext, dropWhile_of_stops ((h e rfl).stops rest)] at hpoint
    have hmark : e.mark = '.' := (List.cons.inj hpoint).1
    rcases (h e rfl).mark with he | he <;> rw [he] at hmark <;> cases hmark

end

variable {n : Numeral}

/-- How a numeral with a point is written. -/
theorem text_append_of_point {whole fraction : List Char} {exponent : Option Exponent}
    (rest : List Char) : text ⟨whole, ['.'], fraction, exponent⟩ ++ rest
      = whole ++ '.' :: (fraction ++ (optionText exponent ++ rest)) := by
  simp [text, optionText]

theorem text_append_of_noPoint {whole : List Char} {exponent : Option Exponent}
    (rest : List Char) : text ⟨whole, [], [], exponent⟩ ++ rest
      = whole ++ (optionText exponent ++ rest) := by
  simp [text, optionText]

/-- Behind a point the digits go on. -/
theorem afterPoint?_point {whole fraction : List Char} (hne : whole ≠ [] ∨ fraction ≠ [])
    (hfraction : ∀ c ∈ fraction, isDecimal c = true) (rest : List Char) :
    afterPoint? whole ('.' :: (fraction ++ rest)) = some (fraction ++ rest) := by
  refine if_pos ?_
  rcases hne with hne | hne
  · exact .inl hne
  · obtain ⟨d, ds, rfl⟩ := List.exists_cons_of_ne_nil hne
    exact .inr (hfraction d List.mem_cons_self)

/-- Where a text begins with a numeral, a numeral is found that is not shorter. -/
theorem exists_scan_append (h : n.Formed) (rest : List Char) :
    ∃ found left, scan (n.text ++ rest) = some (found, left) ∧ left.length ≤ rest.length := by
  obtain ⟨whole, point, fraction, exponent⟩ := n
  obtain ⟨hwhole, hpoint, hfraction, hne, hexponent⟩ := h
  have hle := length_scan_exponent_le hexponent rest
  rcases hpoint with rfl | ⟨rfl, rfl⟩
  · have hdot : Stops isDecimal ('.' :: (fraction ++ (optionText exponent ++ rest))) :=
      stops_cons (by decide)
    rw [text_append_of_point, scan, takeWhile_run hwhole hdot, dropWhile_run hwhole hdot]
    simp only [afterPoint?_point hne hfraction, List.dropWhile_append_of_pos hfraction]
    exact ⟨_, _, rfl, hle⟩
  · have hne : whole ≠ [] := hne.resolve_right fun hne => hne rfl
    rw [text_append_of_noPoint, scan]
    simp only [List.takeWhile_append_of_pos hwhole, List.dropWhile_append_of_pos hwhole]
    split
    · next left hafter =>
      refine ⟨_, _, rfl, ?_⟩
      calc (Exponent.scan (left.dropWhile isDecimal)).2.length
          ≤ (left.dropWhile isDecimal).length := Exponent.length_scan_le _
        _ ≤ left.length := (List.dropWhile_sublist _).length_le
        _ ≤ rest.length := afterPoint?_exponent hexponent hafter
    · rw [if_neg (by simp [hne])]
      exact ⟨_, _, rfl, hle⟩

/-- A numeral is found in front of a text that does not continue it. -/
theorem scan_text_append (h : n.Formed) {rest : List Char} (hrest : Stops continues rest) :
    scan (n.text ++ rest) = some (n, rest) := by
  obtain ⟨whole, point, fraction, exponent⟩ := n
  obtain ⟨hwhole, hpoint, hfraction, hne, hexponent⟩ := h
  have hstops := stops_exponent hexponent (stops_isDecimal hrest)
  have hscan := scan_exponent hexponent hrest
  rcases hpoint with rfl | ⟨rfl, rfl⟩
  · have hdot : Stops isDecimal ('.' :: (fraction ++ (optionText exponent ++ rest))) :=
      stops_cons (by decide)
    rw [text_append_of_point, scan, takeWhile_run hwhole hdot, dropWhile_run hwhole hdot]
    simp only [afterPoint?_point hne hfraction, takeWhile_run hfraction hstops,
      dropWhile_run hfraction hstops, hscan]
  · have hne : whole ≠ [] := hne.resolve_right fun hne => hne rfl
    have hafter : afterPoint? whole (optionText exponent ++ rest) = none := by
      cases exponent with
      | some e =>
        unfold afterPoint?
        rcases (hexponent e rfl).mark with hmark | hmark <;>
          simp [optionText, Exponent.text, hmark]
      | none =>
        cases rest with
        | nil => rfl
        | cons c rest =>
          have hc := hrest c rfl
          simp only [continues, Bool.or_eq_false_iff, beq_eq_false_iff_ne] at hc
          unfold afterPoint?
          simp [optionText, hc.1.1.2]
    rw [text_append_of_noPoint, scan, takeWhile_run hwhole hstops, dropWhile_run hwhole hstops]
    simp only [hafter, hne, if_false, hscan]

/-- What is found is a numeral. -/
theorem formed_of_scan {cs rest : List Char} (h : scan cs = some (n, rest)) : n.Formed := by
  simp only [scan] at h
  split at h
  · next left hafter =>
    cases h
    refine ⟨fun c hc => List.mem_takeWhile_imp hc, .inl rfl, fun c hc => List.mem_takeWhile_imp hc,
      ?_, fun e he => Exponent.formed_of_scan he⟩
    rw [eq_cons_of_afterPoint? hafter, afterPoint?] at hafter
    split at hafter
    · next hdigits =>
      refine hdigits.imp_right fun hhead => ?_
      cases left with
      | nil => cases hhead
      | cons d left =>
        have hd : isDecimal d = true := hhead
        simp [hd]
    · cases hafter
  · split at h
    · cases h
    · next hne =>
      cases h
      exact ⟨fun c hc => List.mem_takeWhile_imp hc, .inr ⟨rfl, rfl⟩,
        fun c hc => absurd hc List.not_mem_nil, .inl hne, fun e he => Exponent.formed_of_scan he⟩

end Numeral
end Worksheet.Number
