import Mathlib
import TileCost.Estimate

/-! Positive finite doubles are one interval of bit patterns: zero lies just below
it and infinity just above. Subnormal numbers are inside, both zeros, whatever is
negative, infinity and NaN are outside. -/
namespace TileCost.Positive
open Float.Model (UnpackedFloat)
open Float.Model.UnpackedFloat (unpackExponent unpackMantissa unpackSign Sign)

abbrev exponent (word : BitVec 64) : BitVec 11 := @unpackExponent .binary64 word

abbrev mantissa (word : BitVec 64) : BitVec 52 := @unpackMantissa .binary64 word

abbrev sign (word : BitVec 64) : BitVec 1 := @unpackSign .binary64 word

theorem exponentValue (word : BitVec 64) :
    (exponent word).toNat = word.toNat / 2 ^ 52 % 2 ^ 11 := by
  simp [unpackExponent, BitVec.extractLsb, Nat.shiftRight_eq_div_pow]

theorem mantissaValue (word : BitVec 64) : (mantissa word).toNat = word.toNat % 2 ^ 52 := by
  simp [unpackMantissa, BitVec.extractLsb]

theorem signValue (word : BitVec 64) : (sign word).toNat = word.toNat / 2 ^ 63 := by
  have bound := word.isLt
  simp only [unpackSign, BitVec.extractLsb, BitVec.toNat_cast, BitVec.extractLsb'_toNat,
    Nat.shiftRight_eq_div_pow]
  omega

/- Only a number with the positive sign is above zero; of the rest of the fields
some values are kept for what is no number and for zero. -/
theorem fields (word : BitVec 64) :
    ((UnpackedFloat.unpack .binary64 word).isFinite = true ∧
      UnpackedFloat.lt (.zero .positive) (.unpack .binary64 word) = true) ↔
    exponent word ≠ -1#_ ∧ sign word = 0#_ ∧ ¬ (exponent word = 0#_ ∧ mantissa word = 0#_) := by
  by_cases positive : sign word = 0#_ <;>
  · unfold UnpackedFloat.unpack
    dsimp only
    split
    · split <;> simp_all [UnpackedFloat.isFinite]
    · split
      · split <;>
          simp_all [UnpackedFloat.isFinite, UnpackedFloat.lt, UnpackedFloat.compare, Sign.ofBitVec]
      · simp_all [UnpackedFloat.isFinite, UnpackedFloat.lt, UnpackedFloat.compare, Sign.ofBitVec]

theorem interval (word : BitVec 64) :
    (exponent word ≠ -1#_ ∧ sign word = 0#_ ∧ ¬ (exponent word = 0#_ ∧ mantissa word = 0#_)) ↔
    1 ≤ word.toNat ∧ word.toNat ≤ 0x7fefffffffffffff := by
  have bound := word.isLt
  have ones : (-1#11 : BitVec 11).toNat = 2047 := rfl
  simp only [ne_eq, ← BitVec.toNat_inj, exponentValue, mantissaValue, signValue, ones,
    BitVec.toNat_ofNat]
  omega

theorem aboveZero (x : Float) :
    0 < x ↔ UnpackedFloat.lt (.zero .positive) x.toModel.unpack = true := by
  change decide _ = true ↔ _
  rw [decide_eq_true_eq]
  rfl

theorem positiveFinite (x : Float) :
    x.isFinite = true ∧ 0 < x ↔ 1 ≤ x.toBits.toNat ∧ x.toBits.toNat ≤ 0x7fefffffffffffff := by
  rw [aboveZero]
  exact (fields x.toBits.toBitVec).trans (interval x.toBits.toBitVec)

end TileCost.Positive
