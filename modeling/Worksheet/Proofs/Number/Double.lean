import Mathlib
import Worksheet.Number.Text
import Worksheet.Proofs.Number.Nearest

/-!
# Laws of doubles

Doubles, their bits, and their signs and magnitudes determine one another.

* `ofBits_toBits`, `toBits_ofBits`: a double is given by its bits.
* `ofMagnitude_magnitude`: sign and magnitude determine a double.
* `magnitude_ofMagnitude`, `isNegative_ofMagnitude`: every sign and every magnitude up to `infinity`
  are those of a double.
* `ofDecimal_shortest`: a finite double is nearest to its shortest decimal number.
-/

namespace Worksheet.Number

open Float.Model Float.Model.UnpackedFloat

/-! ### Bits

The bits of a double are unpacked into sign, mantissa and exponent and packed again without loss,
unless they stand for what is not a number: of those bits only one row is that of a double. -/

/-- Bits are put together again from their parts. -/
theorem packComponents_unpack (b : BitVec Format.binary64.numBits) :
    packComponents Format.binary64 (Sign.ofBitVec (unpackSign b)) (unpackExponent b)
      (unpackMantissa b) = b := by
  have hsign : (Sign.ofBitVec (unpackSign b)).toBitVec = unpackSign b := by
    generalize unpackSign b = s
    revert s
    decide
  have hor : ∀ x y k, y < 2 ^ k → x <<< k ||| y = x * 2 ^ k + y := by
    intro x y k h
    rw [Nat.shiftLeft_eq, Nat.mul_comm, Nat.two_pow_add_eq_or_of_lt h]
  have hlt := b.isLt
  unfold packComponents
  rw [hsign]
  apply BitVec.eq_of_toNat_eq
  simp only [unpackSign, unpackExponent, unpackMantissa, BitVec.toNat_append, BitVec.toNat_cast,
    BitVec.extractLsb_toNat, Nat.shiftRight_eq_div_pow]
  rw [hor _ _ _ (Nat.mod_lt _ (by decide)), hor _ _ _ (Nat.mod_lt _ (by decide))]
  simp only [Format.numBits] at *
  omega

/-- Packing a normal number gives back the bits it was unpacked from. -/
theorem pack_unpack_of_normal (b : BitVec Format.binary64.numBits)
    (he : unpackExponent b ≠ -BitVec.ofNat Format.binary64.exponentBits 1)
    (hz : unpackExponent b ≠ BitVec.ofNat Format.binary64.exponentBits 0) :
    UnpackedFloat.pack Format.binary64 (UnpackedFloat.unpack Format.binary64 b) = b := by
  have hexp : (unpackExponent b).toNat < 2 ^ 11 := (unpackExponent b).isLt
  have hm : (unpackMantissa b).toNat < 2 ^ 52 := (unpackMantissa b).isLt
  have hne : (unpackExponent b).toNat ≠ 2047 := by
    intro h
    exact he (BitVec.eq_of_toNat_eq (by simpa using h))
  have hcons : (BitVec.ofNat 1 1 ++ unpackMantissa b).toNat
      = 2 ^ 52 + (unpackMantissa b).toNat := by
    have hor := Nat.two_pow_add_eq_or_of_lt (i := 52) hm 1
    rw [Nat.mul_one] at hor
    rw [BitVec.toNat_append, Nat.shiftLeft_eq, show (BitVec.ofNat 1 1).toNat = 1 from rfl,
      Nat.one_mul]
    exact hor.symm
  have hlog : (2 ^ 52 + (unpackMantissa b).toNat).log2 = 52 := by
    rw [Nat.log2_eq_iff (by omega)]
    omega
  have hbias : ((unpackExponent b).toNat : Int)
      - ((Format.binary64.exponentBias : Int) + (Format.binary64.mantissaBitsWithoutImplicit : Int))
      + (Format.binary64.exponentBias : Int) + (Format.binary64.mantissaBitsWithoutImplicit : Int)
      = (unpackExponent b).toNat := by
    omega
  have hmantissa : BitVec.ofNat Format.binary64.mantissaBitsWithoutImplicit
      (2 ^ 52 + (unpackMantissa b).toNat) = unpackMantissa b := by
    apply BitVec.eq_of_toNat_eq
    rw [BitVec.toNat_ofNat]
    show (2 ^ 52 + (unpackMantissa b).toNat) % 2 ^ 52 = _
    rw [Nat.add_mod_left, Nat.mod_eq_of_lt hm]
  unfold UnpackedFloat.unpack
  rw [if_neg he, if_neg hz]
  simp only [UnpackedFloat.pack, hbias, hcons, hlog]
  rw [if_neg (by simp only [Int.toNat_natCast]; omega), if_pos (by rfl), Int.toNat_natCast,
    BitVec.ofNat_toNat, BitVec.setWidth_eq, hmantissa]
  exact packComponents_unpack b

/-- Packing a number below the normal ones gives back the bits it was unpacked from. -/
theorem pack_unpack_of_subnormal (b : BitVec Format.binary64.numBits)
    (hz : unpackExponent b = BitVec.ofNat Format.binary64.exponentBits 0) :
    UnpackedFloat.pack Format.binary64 (UnpackedFloat.unpack Format.binary64 b) = b := by
  have hb := packComponents_unpack b
  have he : unpackExponent b ≠ -BitVec.ofNat Format.binary64.exponentBits 1 := by
    rw [hz]
    decide
  unfold UnpackedFloat.unpack
  rw [if_neg he, if_pos hz]
  rw [hz] at hb
  split
  · next hm =>
    rw [hm] at hb
    exact hb
  · next hm =>
    have hpos : (unpackMantissa b).toNat ≠ 0 := by
      intro h
      exact hm (BitVec.eq_of_toNat_eq (by simpa using h))
    have hlog : (unpackMantissa b).toNat.log2 < 52 :=
      (Nat.log2_lt hpos).mpr (unpackMantissa b).isLt
    have hexp : (unpackExponent b).toNat = 0 := by
      rw [hz]
      rfl
    simp only [UnpackedFloat.pack, Format.exponentBias, Format.mantissaBits, hexp]
    rw [if_neg (by decide), if_neg (by omega), BitVec.ofNat_toNat, BitVec.setWidth_eq]
    exact hb

/-- Packing gives back the bits of a double. -/
theorem pack_unpack (b : BitVec Format.binary64.numBits) (h : Format.binary64.Valid b) :
    UnpackedFloat.pack Format.binary64 (UnpackedFloat.unpack Format.binary64 b) = b := by
  by_cases he : unpackExponent b = -BitVec.ofNat Format.binary64.exponentBits 1
  · have hb := packComponents_unpack b
    unfold UnpackedFloat.unpack
    rw [if_pos he]
    split
    · next hm =>
      rw [he, hm] at hb
      exact hb
    · next hm => exact (h.eq_packedNaN he hm).symm
  · by_cases hz : unpackExponent b = BitVec.ofNat Format.binary64.exponentBits 0
    · exact pack_unpack_of_subnormal b hz
    · exact pack_unpack_of_normal b he hz

/-- A double is given by its bits. -/
theorem ofBits_toBits (x : Float) : Float.ofBits x.toBits = x := by
  obtain ⟨⟨bits, valid⟩⟩ := x
  have h := pack_unpack bits.toBitVec valid
  simp only [Float.toBits, Float.ofBits, Float.Model.ofBits, Float.Model.pack, h]

/-- Valid bits are those of a double. -/
theorem toBits_ofBits {bits : UInt64} (valid : Format.binary64.Valid bits.toBitVec) :
    (Float.ofBits bits).toBits = bits := by
  have h := pack_unpack bits.toBitVec valid
  simp only [Float.toBits, Float.ofBits, Float.Model.ofBits, Float.Model.pack, h]

/-- Bits whose magnitude is at most infinite are valid. -/
theorem valid_of_le {bits : UInt64} (h : bits.toNat % 2 ^ 63 ≤ infinity) :
    Format.binary64.Valid bits.toBitVec := by
  refine ⟨fun he hm => absurd ?_ hm⟩
  have hexp := congrArg BitVec.toNat he
  apply BitVec.eq_of_toNat_eq
  simp only [unpackExponent, unpackMantissa, BitVec.extractLsb_toNat, BitVec.toNat_cast,
    Nat.shiftRight_eq_div_pow, UInt64.toNat_toBitVec] at hexp ⊢
  have hexp : bits.toNat / 2 ^ 52 % 2 ^ 11 = 2047 := hexp
  show bits.toNat / 2 ^ 0 % 2 ^ 52 = 0
  simp only [infinity] at h
  omega

/-! ### Sign and magnitude -/

/-- Sign and magnitude determine a double. -/
@[simp] theorem ofMagnitude_magnitude (x : Float) :
    ofMagnitude (isNegative x) (magnitude x) = x := by
  have hlt := x.toBits.toNat_lt
  have hbits : UInt64.ofNat (if isNegative x then signBit + magnitude x else magnitude x)
      = x.toBits := by
    apply UInt64.toNat_inj.mp
    rw [UInt64.toNat_ofNat', magnitude, isNegative, show signBit = 2 ^ 63 from rfl]
    simp only [decide_eq_true_eq]
    split <;> omega
  rw [ofMagnitude, hbits, ofBits_toBits]

/-- The bits of a number are its sign and its magnitude. -/
theorem toNat_toBits_ofMagnitude (negative : Bool) {m : Nat} (h : m ≤ infinity) :
    (ofMagnitude negative m).toBits.toNat = if negative then signBit + m else m := by
  have hsign : signBit = 2 ^ 63 := rfl
  have hm : m < 2 ^ 63 := Nat.lt_of_le_of_lt h (by decide)
  have hnat : (UInt64.ofNat (if negative then signBit + m else m)).toNat
      = if negative then signBit + m else m := by
    rw [UInt64.toNat_ofNat']
    split <;> omega
  have hvalid : Format.binary64.Valid
      (UInt64.ofNat (if negative then signBit + m else m)).toBitVec := by
    apply valid_of_le
    rw [hnat]
    split <;> omega
  rw [ofMagnitude, toBits_ofBits hvalid, hnat]

/-- A double has the magnitude that it is made of. -/
theorem magnitude_ofMagnitude (negative : Bool) {m : Nat} (h : m ≤ infinity) :
    magnitude (ofMagnitude negative m) = m := by
  have hm : m < 2 ^ 63 := Nat.lt_of_le_of_lt h (by decide)
  rw [magnitude, toNat_toBits_ofMagnitude negative h, show signBit = 2 ^ 63 from rfl]
  split <;> omega

/-- A double has the sign that it is made of. -/
theorem isNegative_ofMagnitude (negative : Bool) {m : Nat} (h : m ≤ infinity) :
    isNegative (ofMagnitude negative m) = negative := by
  have hm : m < signBit := Nat.lt_of_le_of_lt h (by decide)
  rw [isNegative, toNat_toBits_ofMagnitude negative h]
  cases negative
  · simpa using hm
  · simp

/-- A finite double is nearest to its shortest decimal number. -/
theorem ofDecimal_shortest {x : Float} (h : isFinite x = true) :
    ofDecimal (isNegative x) (shortest (magnitude x)) = x := by
  simp only [isFinite, decide_eq_true_eq] at h
  rw [ofDecimal, nearest_shortest h, ofMagnitude_magnitude]

end Worksheet.Number
