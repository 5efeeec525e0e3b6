import Worksheet.Proofs.Number.Double
import Worksheet.Proofs.Number.Numeral

/-!
# Numbers read back

The text of a finite number is a numeral that reads back as the same number, by itself as the text
of a cell and in front of other symbols of a formula.

* `Numeral.Plain`: the numerals that numbers are written as.
* `exists_numeral_layout`: digits laid out around the point are such a numeral.
* `read?_render`: reading the text of a finite number gives the number, down to the sign of a zero.
-/

namespace Worksheet.Number

open Worksheet.Text (digit? isDecimal isMargin stops_nil dropWhile_of_stops)

/-! ### Digits

The digits of a number and the number of digits are inverse to each other up to zeros: those in
front do not count, and those behind are powers of ten.
-/

/-- Digits of plain text. -/
def Digits (ds : List Char) : Prop := ∀ c ∈ ds, c.isDigit = true

theorem Digits.isDecimal {ds : List Char} (h : Digits ds) : ∀ c ∈ ds, isDecimal c = true := by
  intro c hc
  simp [Text.isDecimal, h c hc]

theorem Digits.append {ds es : List Char} (hds : Digits ds) (hes : Digits es) :
    Digits (ds ++ es) := by
  intro c hc
  rcases List.mem_append.mp hc with hc | hc
  · exact hds c hc
  · exact hes c hc

theorem digits_replicate (k : Nat) : Digits (List.replicate k '0') := by
  intro c hc
  rw [List.eq_of_mem_replicate hc]
  rfl

theorem digits_toDigits (n : Nat) : Digits (Nat.toDigits 10 n) := fun _ hc =>
  Nat.isDigit_of_mem_toDigits (by decide) (by decide) hc

/-- The number of some digits is that of the library. -/
theorem natOfDigits_eq {ds : List Char} (h : Digits ds) :
    natOfDigits ds = Nat.ofDigitChars 10 ds 0 := by
  rw [natOfDigits, Nat.ofDigitChars_eq_foldl]
  refine List.foldl_ext _ _ 0 ?_
  intro n c hc
  rw [Text.digit?_of_isDigit (h c hc)]
  rfl

/-- The digits of a number are those of the number. -/
theorem natOfDigits_toDigits (n : Nat) : natOfDigits (Nat.toDigits 10 n) = n := by
  rw [natOfDigits_eq (digits_toDigits n), Nat.ofDigitChars_ten_toDigits]

/-- Zeros in front do not count. -/
theorem natOfDigits_zeros_append (k : Nat) {ds : List Char} (h : Digits ds) :
    natOfDigits (List.replicate k '0' ++ ds) = natOfDigits ds := by
  rw [natOfDigits_eq ((digits_replicate k).append h), natOfDigits_eq h, Nat.ofDigitChars_append,
    Nat.ofDigitChars_replicate_zero, Nat.mul_zero]

/-- Zeros behind multiply by ten. -/
theorem natOfDigits_append_zeros (k : Nat) {ds : List Char} (h : Digits ds) :
    natOfDigits (ds ++ List.replicate k '0') = natOfDigits ds * tenTo k := by
  rw [natOfDigits_eq (h.append (digits_replicate k)), natOfDigits_eq h, Nat.ofDigitChars_append,
    Nat.ofDigitChars_replicate_zero, Nat.mul_comm]
  rfl

/-! ### Numerals as numbers are written

Numbers are written with numerals of a plain kind: digits, a point, and an exponent with its sign.
These can be scanned, and none of their characters is taken for white space or for a sign of the
whole.
-/

/-- An exponent as numbers are written with it. -/
structure Exponent.Plain (e : Exponent) : Prop where
  mark : e.mark = 'e'
  sign : e.sign = ['+'] ∨ e.sign = ['-']
  digits : Digits e.digits
  digits_ne : e.digits ≠ []

/-- A numeral as numbers are written. -/
structure Numeral.Plain (n : Numeral) : Prop where
  whole : Digits n.whole
  whole_ne : n.whole ≠ []
  point : n.point = ['.'] ∨ n.point = [] ∧ n.fraction = []
  fraction : Digits n.fraction
  exponent : ∀ e ∈ n.exponent, e.Plain

/-- What is written can be scanned. -/
theorem Exponent.Plain.formed {e : Exponent} (h : e.Plain) : e.Formed :=
  ⟨.inl h.mark, .inr h.sign, h.digits.isDecimal, h.digits_ne⟩

theorem Numeral.Plain.formed {n : Numeral} (h : n.Plain) : n.Formed :=
  ⟨h.whole.isDecimal, h.point, h.fraction.isDecimal, .inl h.whole_ne,
    fun e he => (h.exponent e he).formed⟩

/-- A plain numeral begins with a digit. -/
theorem Numeral.Plain.exists_cons {n : Numeral} (h : n.Plain) :
    ∃ c cs, n.text = c :: cs ∧ c.isDigit = true := by
  obtain ⟨whole, point, fraction, exponent⟩ := n
  obtain ⟨c, cs, rfl⟩ := List.exists_cons_of_ne_nil h.whole_ne
  exact ⟨c, _, rfl, h.whole c List.mem_cons_self⟩

/-! ### Layout

Where the point stands depends on the exponent, but the decimal number does not. Zeros that the
layout adds in front or behind are made up for by the exponent.
-/

/-- A plain exponent says which power of ten it stands for. -/
theorem exists_exponent (k : Int) :
    ∃ e : Exponent, e.Plain ∧ e.text = exponentText k ∧ e.value = k := by
  have hdigits := digits_toDigits k.natAbs
  have hnat := natOfDigits_toDigits k.natAbs
  generalize hds : Nat.toDigits 10 k.natAbs = ds at hdigits hnat
  -- An exponent of one digit is written with a zero before it.
  have hpad : Digits (if ds.length < 2 then '0' :: ds else ds)
      ∧ natOfDigits (if ds.length < 2 then '0' :: ds else ds) = k.natAbs
      ∧ (if ds.length < 2 then '0' :: ds else ds) ≠ [] := by
    split
    · exact ⟨(digits_replicate 1).append hdigits, (natOfDigits_zeros_append 1 hdigits).trans hnat,
        List.cons_ne_nil _ _⟩
    · exact ⟨hdigits, hnat, fun h => Nat.toDigits_ne_nil (hds.trans h)⟩
  have htext : exponentText k
      = 'e' :: (if k < 0 then '-' else '+') :: (if ds.length < 2 then '0' :: ds else ds) := by
    rw [exponentText, hds]
  generalize (if ds.length < 2 then '0' :: ds else ds) = padded at hpad htext
  obtain ⟨hplain, hvalue, hne⟩ := hpad
  by_cases hk : k < 0
  · rw [if_pos hk] at htext
    refine ⟨⟨'e', ['-'], padded⟩, ⟨rfl, .inr rfl, hplain, hne⟩, htext.symm, ?_⟩
    simp only [Exponent.value, if_true, hvalue]
    omega
  · rw [if_neg hk] at htext
    refine ⟨⟨'e', ['+'], padded⟩, ⟨rfl, .inl rfl, hplain, hne⟩, htext.symm, ?_⟩
    have hsign : (['+'] : List Char) ≠ ['-'] := by decide
    simp only [Exponent.value, if_neg hsign, hvalue]
    omega

/-- Digits laid out around the point are a numeral that stands for them. -/
theorem exists_numeral_layout {digits : List Char} (hdigits : Digits digits) (hne : digits ≠ [])
    (lead : Int) :
    ∃ n : Numeral, n.Plain ∧ n.text = layout [] digits lead
      ∧ n.decimal.nearest = Decimal.nearest ⟨natOfDigits digits, lead + 1 - digits.length⟩ := by
  unfold layout
  split
  · next hpositional =>
    split
    · next hneg =>
      -- The digits stand behind the point, after some zeros.
      have hfraction := (digits_replicate (-lead - 1).toNat).append hdigits
      refine ⟨⟨['0'], ['.'], List.replicate (-lead - 1).toNat '0' ++ digits, none⟩,
        ⟨digits_replicate 1, by simp, .inl rfl, hfraction, by simp⟩, by simp [Numeral.text], ?_⟩
      have hvalue : natOfDigits (['0'] ++ (List.replicate (-lead - 1).toNat '0' ++ digits))
          = natOfDigits digits :=
        (natOfDigits_zeros_append 1 hfraction).trans (natOfDigits_zeros_append _ hdigits)
      have hexponent : (0 : Int) - ((List.replicate (-lead - 1).toNat '0' ++ digits).length : Nat)
          = lead + 1 - digits.length := by
        rw [List.length_append, List.length_replicate]
        omega
      simp only [Numeral.decimal, Option.map_none, Option.getD_none]
      rw [hvalue, hexponent]
    · next hneg =>
      split
      · next hlength =>
        -- The digits stand before the point, followed by some zeros.
        refine ⟨⟨digits ++ List.replicate (lead.toNat + 1 - digits.length) '0', [], [], none⟩,
          ⟨hdigits.append (digits_replicate _), by simp [hne], .inr ⟨rfl, rfl⟩, by simp [Digits],
            by simp⟩, by simp [Numeral.text], ?_⟩
        simp only [Numeral.decimal, Option.map_none, Option.getD_none, List.append_nil,
          List.length_nil, natOfDigits_append_zeros _ hdigits]
        have hshift := Decimal.nearest_shift (natOfDigits digits) (lead + 1 - digits.length)
          (lead.toNat + 1 - digits.length)
        rw [← hshift]
        congr 2
        omega
      · next hlength =>
        -- The point stands between the digits.
        have htake : Digits (digits.take (lead.toNat + 1)) := fun c hc =>
          hdigits c (List.mem_of_mem_take hc)
        have hdrop : Digits (digits.drop (lead.toNat + 1)) := fun c hc =>
          hdigits c (List.mem_of_mem_drop hc)
        refine ⟨⟨digits.take (lead.toNat + 1), ['.'], digits.drop (lead.toNat + 1), none⟩,
          ⟨htake, by simp [hne], .inl rfl, hdrop, by simp⟩, by simp [Numeral.text], ?_⟩
        simp only [Numeral.decimal, Option.map_none, Option.getD_none, List.take_append_drop,
          List.length_drop]
        congr 2
        omega
  · obtain ⟨e, he, htext, hvalue⟩ := exists_exponent lead
    cases digits with
    | nil => exact absurd rfl hne
    | cons d ds =>
      have hd : Digits [d] := fun c hc => hdigits c (List.mem_singleton.mp hc ▸ List.mem_cons_self)
      cases ds with
      | nil =>
        refine ⟨⟨[d], [], [], some e⟩, ⟨hd, by simp, .inr ⟨rfl, rfl⟩, by simp [Digits],
          by simp [he]⟩, by simp [Numeral.text, htext], ?_⟩
        simp [Numeral.decimal, hvalue]
      | cons d' ds =>
        refine ⟨⟨[d], ['.'], d' :: ds, some e⟩, ⟨hd, by simp, .inl rfl,
          fun c hc => hdigits c (List.mem_cons_of_mem _ hc), by simp [he]⟩,
          by simp [Numeral.text, htext], ?_⟩
        simp only [Numeral.decimal, Option.map_some, Option.getD_some, hvalue,
          List.singleton_append, List.length_cons]
        congr 2
        omega

/-! ### Significant digits -/

/-- A text is its head and the zeros at its end. -/
theorem strip_append_zeros (ds : List Char) :
    (ds.reverse.dropWhile (· == '0')).reverse
      ++ List.replicate (ds.reverse.takeWhile (· == '0')).length '0' = ds := by
  have hzeros : List.replicate (ds.reverse.takeWhile (· == '0')).length '0'
      = (ds.reverse.takeWhile (· == '0')).reverse := by
    refine (List.eq_replicate_iff.mpr ⟨List.length_reverse, ?_⟩).symm
    intro c hc
    simpa using List.mem_takeWhile_imp (List.mem_reverse.mp hc)
  rw [hzeros, ← List.reverse_append, List.takeWhile_append_dropWhile, List.reverse_reverse]

/-- The significant digits of a decimal number and the place of the first determine the number. -/
theorem significand_spec {d : Decimal} (hd : d.digits ≠ 0) :
    Digits (significand d).1 ∧ (significand d).1 ≠ []
      ∧ Decimal.nearest ⟨natOfDigits (significand d).1,
          (significand d).2 + 1 - (significand d).1.length⟩ = d.nearest := by
  have hsplit := strip_append_zeros (Nat.toDigits 10 d.digits)
  have hall := digits_toDigits d.digits
  have hnat := natOfDigits_toDigits d.digits
  unfold significand
  dsimp only
  generalize ((Nat.toDigits 10 d.digits).reverse.takeWhile (· == '0')).length = k at hsplit
  generalize ((Nat.toDigits 10 d.digits).reverse.dropWhile (· == '0')).reverse = stripped at hsplit ⊢
  have hstripped : Digits stripped := fun c hc =>
    hall c (hsplit ▸ List.mem_append_left _ hc)
  -- The zeros that were stripped count as powers of ten.
  have hvalue : natOfDigits stripped * tenTo k = d.digits := by
    rw [← natOfDigits_append_zeros k hstripped, hsplit, hnat]
  have hne : stripped ≠ [] := by
    rintro rfl
    apply hd
    rw [← hvalue]
    exact Nat.zero_mul _
  have hlength := congrArg List.length hsplit
  rw [List.length_append, List.length_replicate] at hlength
  rw [if_neg hne]
  refine ⟨hstripped, hne, ?_⟩
  rw [← Decimal.nearest_shift _ _ k, hvalue]
  obtain ⟨digits, exponent⟩ := d
  congr 2
  dsimp only at hlength ⊢
  omega

/-! ### Doubles -/

/-- The text of a finite magnitude is a numeral that stands for it. -/
theorem exists_numeral_magnitudeText {magnitude : Nat} (h : magnitude < infinity) :
    ∃ n : Numeral, n.Plain ∧ n.text = magnitudeText [] magnitude
      ∧ n.decimal.nearest = magnitude := by
  unfold magnitudeText
  split
  · next hzero =>
    refine ⟨⟨['0'], [], [], none⟩, ⟨digits_replicate 1, by simp, .inr ⟨rfl, rfl⟩, by simp [Digits],
      by simp⟩, rfl, ?_⟩
    rw [hzero]
    rfl
  · next hzero =>
    have hnearest := nearest_shortest h
    have hdigits : (shortest magnitude).digits ≠ 0 := by
      intro hdigits
      apply hzero
      rw [← hnearest, Decimal.nearest, if_pos hdigits]
    obtain ⟨hplain, hne, hvalue⟩ := significand_spec hdigits
    obtain ⟨n, hn, htext, hsame⟩ := exists_numeral_layout hplain hne (significand _).2
    exact ⟨n, hn, htext, by rw [hsame, hvalue, hnearest]⟩

/-- The text of a finite double is that of a numeral that stands for it, behind a sign if the double
has one. -/
theorem exists_numeral_render {x : Float} (h : isFinite x = true) :
    ∃ n : Numeral, n.Plain ∧ ofDecimal (isNegative x) n.decimal = x
      ∧ render [] x = if isNegative x then '-' :: n.text else n.text := by
  simp only [isFinite, decide_eq_true_eq] at h
  obtain ⟨n, hn, htext, hvalue⟩ := exists_numeral_magnitudeText h
  refine ⟨n, hn, ?_, ?_⟩
  · rw [ofDecimal, hvalue, ofMagnitude_magnitude]
  · rw [render, if_neg (by omega), if_neg (Nat.ne_of_lt h), htext]

theorem isMargin_of_isDigit {c : Char} (h : c.isDigit = true) : isMargin c = false := by
  simp only [Char.isDigit, Bool.and_eq_true, decide_eq_true_eq, ge_iff_le, UInt32.le_iff_toNat_le]
    at h
  have hn : 48 ≤ c.toNat ∧ c.toNat ≤ 57 := h
  simp [isMargin, Text.isBlank]
  omega

/-- A plain numeral holds no white space. -/
theorem Numeral.Plain.isMargin {n : Numeral} (h : n.Plain) :
    ∀ c ∈ n.text, isMargin c = false := by
  have hdigits : ∀ ds, Digits ds → ∀ c ∈ ds, Text.isMargin c = false := fun _ hds c hc =>
    isMargin_of_isDigit (hds c hc)
  intro c hc
  rw [Numeral.text] at hc
  simp only [List.mem_append] at hc
  rcases hc with ((hc | hc) | hc) | hc
  · exact hdigits _ h.whole c hc
  · rcases h.point with hpoint | ⟨hpoint, -⟩
    · rw [hpoint, List.mem_singleton] at hc
      subst hc
      decide
    · rw [hpoint] at hc
      cases hc
  · exact hdigits _ h.fraction c hc
  · cases hexponent : n.exponent with
    | none =>
      rw [hexponent] at hc
      cases hc
    | some e =>
      have he := h.exponent e hexponent
      rw [hexponent, Option.map_some, Option.getD_some, Exponent.text, List.cons_append,
        List.mem_cons, List.mem_append] at hc
      rcases hc with rfl | hc | hc
      · rw [he.mark]
        decide
      · rcases he.sign with hsign | hsign <;> rw [hsign, List.mem_singleton] at hc <;> subst hc <;>
          decide
      · exact hdigits _ he.digits c hc

/-- A text without white space is trimmed to itself. -/
theorem trim_eq_self {cs : List Char} (h : ∀ c ∈ cs, isMargin c = false) : trim cs = cs := by
  have hdrop : ∀ ds : List Char, (∀ c ∈ ds, isMargin c = false) → ds.dropWhile isMargin = ds :=
    fun ds hds => dropWhile_of_stops fun c hc => hds c (List.mem_of_mem_head? hc)
  rw [trim, hdrop cs h, hdrop _ fun c hc => h c (List.mem_reverse.mp hc), List.reverse_reverse]

theorem Numeral.Plain.splitSign {n : Numeral} (h : n.Plain) :
    Exponent.splitSign n.text = ([], n.text) := by
  obtain ⟨whole, point, fraction, exponent⟩ := n
  cases whole with
  | nil => exact absurd rfl h.whole_ne
  | cons c whole =>
    have hc := h.whole c List.mem_cons_self
    unfold Exponent.splitSign
    split
    · next heq =>
      cases heq
      cases hc
    · next heq =>
      cases heq
      cases hc
    · rfl

/-- Reading the text of a finite number gives the number, down to the sign of a zero. -/
theorem read?_render {x : Float} (h : isFinite x = true) : read? (render [] x) = some x := by
  obtain ⟨n, hn, hvalue, htext⟩ := exists_numeral_render h
  have hscan := Numeral.scan_text_append hn.formed stops_nil
  rw [List.append_nil] at hscan
  unfold read?
  rw [htext]
  cases hnegative : isNegative x with
  | true =>
    have hmargin : ∀ c ∈ '-' :: n.text, isMargin c = false := by
      intro c hc
      rcases List.mem_cons.mp hc with rfl | hc
      · decide
      · exact hn.isMargin c hc
    rw [hnegative] at hvalue
    rw [if_pos rfl, trim_eq_self hmargin]
    simp [Exponent.splitSign, hscan, hvalue, h]
  | false =>
    rw [hnegative] at hvalue
    rw [if_neg (by decide), trim_eq_self hn.isMargin, hn.splitSign]
    simp [hscan, hvalue, h]

end Worksheet.Number
