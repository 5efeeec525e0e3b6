import Worksheet.Number.Shortest

/-!
# Laws of the nearest magnitude

What the nearest magnitude of a quotient depends on, and that numbers read back.

* `nearest_congr`: equal quotients have the same nearest magnitude.
* `nearest_fraction`: a finite magnitude is nearest to its own value.
* `Decimal.nearest_eq`: the magnitude nearest to a decimal number is that nearest to its value.
* `Decimal.nearest_shift`: zeros behind the digits may be written out or counted by the exponent.
* `nearest_shortest`: the shortest decimal number of a finite magnitude reads back as it.
-/

namespace Worksheet.Number

/-! ### The leading bit

The leading bit of a quotient is the power of two from which the next one is too large. It is found
by comparing products, without dividing.
-/

/-- Multiplying by a power of two keeps a number above zero. -/
theorem shiftLeft_pos {n : Nat} (hn : n ≠ 0) (k : Nat) : 0 < n <<< k := by
  rw [Nat.shiftLeft_eq]
  exact Nat.mul_pos (Nat.pos_of_ne_zero hn) (Nat.two_pow_pos k)

/-- A quotient lies between the power of two of its leading bit and the next one. -/
theorem leadingBit_spec {num den : Nat} {k : Int} (hnum : num ≠ 0) (hden : den ≠ 0)
    (h : leadingBit num den = k) :
    den <<< k.toNat ≤ num <<< (-k).toNat
      ∧ num <<< (-(k + 1)).toNat < den <<< (k + 1).toNat := by
  have hup := Nat.lt_log2_self (n := num)
  have hlow := Nat.log2_self_le hden
  unfold leadingBit at h
  simp only [Nat.shiftLeft_eq] at h ⊢
  split at h
  · next hle =>
    rw [h] at hle
    refine ⟨hle, ?_⟩
    have hexp : num.log2 + 1 + (-(k + 1)).toNat = den.log2 + (k + 1).toNat := by omega
    calc num * 2 ^ (-(k + 1)).toNat
        < 2 ^ (num.log2 + 1) * 2 ^ (-(k + 1)).toNat :=
          Nat.mul_lt_mul_of_pos_right hup (Nat.two_pow_pos _)
      _ = 2 ^ den.log2 * 2 ^ (k + 1).toNat := by rw [← Nat.pow_add, hexp, Nat.pow_add]
      _ ≤ den * 2 ^ (k + 1).toNat := Nat.mul_le_mul_right _ hlow
  · next hnot =>
    have hnext : (num.log2 : Int) - den.log2 = k + 1 := by omega
    rw [hnext] at hnot
    refine ⟨?_, Nat.lt_of_not_le hnot⟩
    have hexp : den.log2 + 1 + k.toNat = num.log2 + (-k).toNat := by omega
    calc den * 2 ^ k.toNat
        ≤ 2 ^ (den.log2 + 1) * 2 ^ k.toNat :=
          Nat.mul_le_mul_right _ (Nat.le_of_lt Nat.lt_log2_self)
      _ = 2 ^ num.log2 * 2 ^ (-k).toNat := by rw [← Nat.pow_add, hexp, Nat.pow_add]
      _ ≤ num * 2 ^ (-k).toNat := Nat.mul_le_mul_right _ (Nat.log2_self_le hnum)

/-- The leading bit of a quotient that lies between two neighbouring powers of two. -/
theorem leadingBit_eq {num den : Nat} {k : Int} (hden : den ≠ 0)
    (hlow : den <<< k.toNat ≤ num <<< (-k).toNat)
    (hhigh : num <<< (-(k + 1)).toNat < den <<< (k + 1).toNat) : leadingBit num den = k := by
  have hnum : num ≠ 0 := by
    rintro rfl
    rw [Nat.zero_shiftLeft] at hlow
    exact Nat.not_le_of_lt (shiftLeft_pos hden _) hlow
  rw [Nat.shiftLeft_eq, Nat.shiftLeft_eq] at hlow hhigh
  have hup : k ≤ (num.log2 : Int) - den.log2 := by
    have h : 2 ^ (den.log2 + k.toNat) < 2 ^ (num.log2 + 1 + (-k).toNat) := by
      rw [Nat.pow_add, Nat.pow_add]
      exact Nat.lt_of_le_of_lt
        (Nat.le_trans (Nat.mul_le_mul_right _ (Nat.log2_self_le hden)) hlow)
        (Nat.mul_lt_mul_of_pos_right Nat.lt_log2_self (Nat.two_pow_pos _))
    have := (Nat.pow_lt_pow_iff_right (by decide)).mp h
    omega
  have hdown : (num.log2 : Int) - den.log2 ≤ k + 1 := by
    have h : 2 ^ (num.log2 + (-(k + 1)).toNat) < 2 ^ (den.log2 + 1 + (k + 1).toNat) := by
      rw [Nat.pow_add, Nat.pow_add]
      exact Nat.lt_trans
        (Nat.lt_of_le_of_lt (Nat.mul_le_mul_right _ (Nat.log2_self_le hnum)) hhigh)
        (Nat.mul_lt_mul_of_pos_right Nat.lt_log2_self (Nat.two_pow_pos _))
    have := (Nat.pow_lt_pow_iff_right (by decide)).mp h
    omega
  unfold leadingBit
  simp only [Nat.shiftLeft_eq]
  by_cases hk : k = (num.log2 : Int) - den.log2
  · subst hk
    rw [if_pos hlow]
  · have hnext : k + 1 = (num.log2 : Int) - den.log2 := by omega
    rw [hnext] at hhigh
    rw [if_neg (Nat.not_le_of_lt hhigh)]
    omega

/-- The leading bit belongs to the quotient, not to the fraction. -/
theorem leadingBit_mul_right {num den c : Nat} (hnum : num ≠ 0) (hden : den ≠ 0) (hc : 0 < c) :
    leadingBit (num * c) (den * c) = leadingBit num den := by
  obtain ⟨hlow, hhigh⟩ := leadingBit_spec hnum hden rfl
  rw [Nat.shiftLeft_eq, Nat.shiftLeft_eq] at hlow hhigh
  apply leadingBit_eq (Nat.mul_ne_zero hden (Nat.ne_of_gt hc))
  · rw [Nat.shiftLeft_eq, Nat.shiftLeft_eq, Nat.mul_right_comm, Nat.mul_right_comm num]
    exact Nat.mul_le_mul_right _ hlow
  · rw [Nat.shiftLeft_eq, Nat.shiftLeft_eq, Nat.mul_right_comm, Nat.mul_right_comm den]
    exact Nat.mul_lt_mul_of_pos_right hhigh hc

/-- The leading bit of a number times a quotient of powers of two. -/
theorem leadingBit_shiftLeft {m : Nat} (a b : Nat) (hm : m ≠ 0) :
    leadingBit (m <<< a) (1 <<< b) = m.log2 + a - b := by
  generalize hk : (m.log2 : Int) + a - b = k
  apply leadingBit_eq (Nat.ne_of_gt (shiftLeft_pos (by decide) b))
  · have hexp : b + k.toNat = m.log2 + (a + (-k).toNat) := by omega
    rw [← Nat.shiftLeft_add, ← Nat.shiftLeft_add, hexp, Nat.shiftLeft_add, Nat.shiftLeft_eq,
      Nat.shiftLeft_eq, Nat.shiftLeft_eq, Nat.one_mul]
    exact Nat.mul_le_mul_right _ (Nat.log2_self_le hm)
  · have hexp : b + (k + 1).toNat = m.log2 + 1 + (a + (-(k + 1)).toNat) := by omega
    rw [← Nat.shiftLeft_add, ← Nat.shiftLeft_add, hexp, Nat.shiftLeft_add 1, Nat.shiftLeft_eq,
      Nat.shiftLeft_eq, Nat.shiftLeft_eq, Nat.one_mul]
    exact Nat.mul_lt_mul_of_pos_right Nat.lt_log2_self (Nat.two_pow_pos _)

/-! ### Quotients -/

/-- The magnitude nearest to a quotient is that nearest to the expanded quotient. -/
theorem nearest_mul_right (num : Nat) {den c : Nat} (hden : den ≠ 0) (hc : 0 < c) :
    nearest (num * c) (den * c) = nearest num den := by
  by_cases hnum : num = 0
  · subst hnum
    rw [Nat.zero_mul, nearest_zero, nearest_zero]
  unfold nearest
  rw [if_neg hnum, if_neg (Nat.mul_ne_zero hnum (Nat.ne_of_gt hc)),
    leadingBit_mul_right hnum hden hc]
  simp only [Nat.shiftLeft_eq, Nat.mul_right_comm _ c, roundDiv_mul_right _ _ hc]

/-- Equal quotients have the same nearest magnitude. -/
theorem nearest_congr {num den num' den' : Nat} (hden : den ≠ 0) (hden' : den' ≠ 0)
    (h : num * den' = num' * den) : nearest num den = nearest num' den' := by
  rw [← nearest_mul_right num hden (Nat.pos_of_ne_zero hden'),
    ← nearest_mul_right num' hden' (Nat.pos_of_ne_zero hden), h, Nat.mul_comm den]

/-- A quotient with a leading bit from 1025 on is beyond every finite magnitude. -/
theorem nearest_eq_infinity {num den b : Nat} (hden : den ≠ 0) (hb : 1025 ≤ b)
    (h : den <<< b ≤ num) : nearest num den = infinity := by
  have hnum : num ≠ 0 := by
    have := shiftLeft_pos hden b
    omega
  obtain ⟨-, hhigh⟩ := leadingBit_spec hnum hden rfl
  rw [Nat.shiftLeft_eq] at h
  rw [Nat.shiftLeft_eq, Nat.shiftLeft_eq] at hhigh
  have hlead : b ≤ leadingBit num den := by
    have hlt : den * 2 ^ b < den * 2 ^ (leadingBit num den + 1).toNat :=
      Nat.lt_of_le_of_lt (Nat.le_trans h (Nat.le_mul_of_pos_right _ (Nat.two_pow_pos _))) hhigh
    have := (Nat.pow_lt_pow_iff_right (by decide)).mp (Nat.lt_of_mul_lt_mul_left hlt)
    omega
  unfold nearest
  rw [if_neg hnum]
  simp only [infinity, binade]
  omega

/-- A quotient below half of the smallest magnitude is nearest to zero. -/
theorem nearest_eq_zero {num den b : Nat} (hnum : num ≠ 0) (hb : 1077 ≤ b)
    (h : 1 <<< (num.log2 + b) ≤ den) : nearest num den = 0 := by
  have hlt := Nat.lt_log2_self (n := num)
  have hden : den ≠ 0 := by
    have := shiftLeft_pos (n := 1) (by decide) (num.log2 + b)
    omega
  rw [Nat.shiftLeft_eq, Nat.one_mul] at h
  obtain ⟨hlow, -⟩ := leadingBit_spec hnum hden rfl
  rw [Nat.shiftLeft_eq, Nat.shiftLeft_eq] at hlow
  have hlead : leadingBit num den < 1 - b := by
    have hpow : 2 ^ (num.log2 + b + (leadingBit num den).toNat)
        < 2 ^ (num.log2 + 1 + (-leadingBit num den).toNat) := by
      rw [Nat.pow_add _ (num.log2 + b), Nat.pow_add _ (num.log2 + 1)]
      exact Nat.lt_of_le_of_lt (Nat.le_trans (Nat.mul_le_mul_right _ h) hlow)
        (Nat.mul_lt_mul_of_pos_right hlt (Nat.two_pow_pos _))
    have := (Nat.pow_lt_pow_iff_right (by decide)).mp hpow
    omega
  have hscaled : ∀ t, t + 2 ≤ b → 2 * num <<< t < den := by
    intro t ht
    rw [Nat.shiftLeft_eq]
    calc 2 * (num * 2 ^ t) < 2 * (2 ^ (num.log2 + 1) * 2 ^ t) :=
          Nat.mul_lt_mul_of_pos_left (Nat.mul_lt_mul_of_pos_right hlt (Nat.two_pow_pos _))
            (by decide)
      _ = 2 ^ (num.log2 + 1 + t + 1) := by rw [← Nat.pow_add, ← Nat.pow_succ']
      _ ≤ 2 ^ (num.log2 + b) := Nat.pow_le_pow_right (by decide) (by omega)
      _ ≤ den := h
  have hlast : max (leadingBit num den - 52) (-1074) = -1074 := by omega
  unfold nearest
  rw [if_neg hnum]
  simp only [hlast]
  rw [roundDiv_eq_zero]
  · rfl
  · rw [show (-1074 : Int).toNat = 0 from rfl, Nat.shiftLeft_zero]
    exact hscaled _ (by omega)

/-! ### Values of magnitudes -/

/-- Mantissa and exponent of a finite magnitude: the mantissa has 53 bits unless the exponent is the
smallest there is, and the magnitude counts both. -/
theorem components_spec {magnitude m : Nat} {q : Int} (h : components magnitude = (m, q)) :
    -1074 ≤ q ∧ m < 2 * binade ∧ (q = -1074 ∨ binade ≤ m)
      ∧ (q + 1074).toNat * binade + m = magnitude := by
  have hbinade : binade = 2 ^ 52 := rfl
  unfold components at h
  split at h <;> simp only [Prod.mk.injEq] at h <;> obtain ⟨rfl, rfl⟩ := h <;> rw [hbinade] at * <;>
    omega

/-- A finite magnitude is the nearest one to its value. -/
theorem nearest_of_components {magnitude m : Nat} {q : Int} (hfinite : magnitude < infinity)
    (h : components magnitude = (m, q)) :
    nearest (m <<< q.toNat) (1 <<< (-q).toNat) = magnitude := by
  obtain ⟨hq, hm, hnormal, hsum⟩ := components_spec h
  rw [show binade = 2 ^ 52 from rfl] at hm hnormal hsum
  by_cases hzero : m = 0
  · subst hzero
    rw [Nat.zero_shiftLeft, nearest_zero]
    omega
  have hlast : max (leadingBit (m <<< q.toNat) (1 <<< (-q).toNat) - 52) (-1074) = q := by
    rw [leadingBit_shiftLeft _ _ hzero]
    have hless : m.log2 < 53 := (Nat.log2_lt hzero).mpr hm
    have hmore : 2 ^ 52 ≤ m → 52 ≤ m.log2 := (Nat.le_log2 hzero).mpr
    omega
  have hone : 1 <<< (-q).toNat <<< q.toNat ≠ 0 :=
    Nat.ne_of_gt (shiftLeft_pos (Nat.ne_of_gt (shiftLeft_pos (by decide) _)) _)
  have hsame : m <<< q.toNat <<< (-q).toNat = m * 1 <<< (-q).toNat <<< q.toNat := by
    rw [← Nat.shiftLeft_add, ← Nat.shiftLeft_add, Nat.add_comm, Nat.shiftLeft_eq, Nat.shiftLeft_eq,
      Nat.one_mul]
  unfold nearest
  rw [if_neg (Nat.ne_of_gt (shiftLeft_pos hzero _))]
  simp only [hlast]
  rw [hsame, roundDiv_mul _ _ (Nat.pos_of_ne_zero hone), show binade = 2 ^ 52 from rfl, hsum]
  omega

/-- A finite magnitude is nearest to its own value. -/
theorem nearest_fraction {magnitude : Nat} (h : magnitude < infinity) :
    nearest (fraction magnitude).1 (fraction magnitude).2 = magnitude :=
  nearest_of_components h rfl

/-! ### Decimal numbers

A decimal number with a large exponent is beyond all doubles, and one with a small exponent is below
them. These are rounded without multiplying, which is why the cases are treated apart.
-/

theorem tenTo_add (i j : Nat) : tenTo (i + j) = tenTo i * tenTo j :=
  Nat.pow_add 10 i j

theorem tenTo_ne_zero (n : Nat) : tenTo n ≠ 0 :=
  Nat.ne_of_gt (Nat.pow_pos (by decide))

/-- Three bits are less than a digit. -/
theorem one_shiftLeft_le_tenTo {i j : Nat} (h : i ≤ 3 * j) : 1 <<< i ≤ tenTo j := by
  rw [Nat.shiftLeft_eq, Nat.one_mul]
  calc 2 ^ i ≤ 2 ^ (3 * j) := Nat.pow_le_pow_right (by decide) h
    _ = 8 ^ j := Nat.pow_mul 2 3 j
    _ ≤ 10 ^ j := Nat.pow_le_pow_left (by decide) j

namespace Decimal

/-- A decimal number of more than 350 digits before the point is beyond every finite magnitude. -/
theorem nearest_fraction_of_large {d : Decimal} (hdigits : d.digits ≠ 0) (h : 350 < d.exponent) :
    Number.nearest d.fraction.1 d.fraction.2 = infinity := by
  have hden : (-d.exponent).toNat = 0 := by omega
  simp only [fraction, hden]
  apply nearest_eq_infinity (b := 3 * d.exponent.toNat) (tenTo_ne_zero 0) (by omega)
  exact Nat.le_trans (one_shiftLeft_le_tenTo (Nat.le_refl _))
    (Nat.le_mul_of_pos_left _ (Nat.pos_of_ne_zero hdigits))

/-- A decimal number with 400 zeros behind the point is below half of the smallest magnitude. -/
theorem nearest_fraction_of_small {d : Decimal} (hdigits : d.digits ≠ 0)
    (h : d.exponent + d.digits.log2 < -400) :
    Number.nearest d.fraction.1 d.fraction.2 = 0 := by
  have hnum : d.exponent.toNat = 0 := by omega
  simp only [fraction, hnum]
  rw [show tenTo 0 = 1 from rfl, Nat.mul_one]
  exact nearest_eq_zero hdigits (Nat.le_refl 1077) (one_shiftLeft_le_tenTo (by omega))

/-- The magnitude nearest to a decimal number is that nearest to its value as a quotient. -/
theorem nearest_eq (d : Decimal) : d.nearest = Number.nearest d.fraction.1 d.fraction.2 := by
  unfold nearest
  split
  · next h => simp [fraction, h]
  · next h =>
    split
    · next hlarge => rw [nearest_fraction_of_large h hlarge]
    · split
      · next hsmall => rw [nearest_fraction_of_small h hsmall]
      · rfl

/-- What is too large for a finite magnitude is rounded to the infinite one. -/
theorem nearest_le_infinity (d : Decimal) : d.nearest ≤ infinity := by
  rw [nearest_eq, Number.nearest]
  split
  · exact Nat.zero_le _
  · exact Nat.min_le_right _ _

/-- Zeros behind the digits may be written out or counted by the exponent. -/
theorem nearest_shift (n : Nat) (e : Int) (k : Nat) :
    nearest ⟨n * tenTo k, e - k⟩ = nearest ⟨n, e⟩ := by
  have hexp : k + (e - k).toNat + (-e).toNat = e.toNat + (-(e - k)).toNat := by omega
  rw [nearest_eq, nearest_eq]
  apply nearest_congr (tenTo_ne_zero _) (tenTo_ne_zero _)
  simp only [fraction, Nat.mul_assoc, ← tenTo_add]
  rw [← hexp, Nat.add_assoc]

end Decimal

/-! ### Shortest decimal numbers -/

/-- The value of a finite magnitude, written out in full, reads back as the magnitude. -/
theorem nearest_exact {magnitude : Nat} (h : magnitude < infinity) :
    (exact magnitude).nearest = magnitude := by
  rcases hmq : components magnitude with ⟨m, q⟩
  refine Eq.trans ?_ (nearest_of_components h hmq)
  rw [Decimal.nearest_eq]
  have htwo : 1 <<< (-q).toNat ≠ 0 := Nat.ne_of_gt (shiftLeft_pos (by decide) _)
  simp only [exact, hmq]
  split
  · next hpos =>
    have hden : (-q).toNat = 0 := by omega
    apply nearest_congr (tenTo_ne_zero _) htwo
    rw [hden]
    exact Nat.mul_one _
  · next hneg =>
    have hnum : q.toNat = 0 := by omega
    apply nearest_congr (tenTo_ne_zero _) htwo
    simp only [Decimal.fraction, hnum, tenTo, Nat.pow_eq, Nat.shiftLeft_eq, Nat.pow_zero,
      Nat.mul_one, Nat.one_mul]
    rw [Nat.mul_assoc, ← Nat.mul_pow]

/-- The shortest decimal number reads back as the magnitude. -/
theorem nearest_shortest {magnitude : Nat} (h : magnitude < infinity) :
    (shortest magnitude).nearest = magnitude := by
  unfold shortest
  simp only
  generalize hfound : (List.range 17).findSome? _ = found
  cases found with
  | none => exact nearest_exact h
  | some d =>
    obtain ⟨n, -, hn⟩ := List.exists_of_findSome?_eq_some hfound
    exact nearest_of_candidate hn

end Worksheet.Number
