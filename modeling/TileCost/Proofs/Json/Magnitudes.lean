import TileCost.Json.Kinds
import TileCost.Proofs.Decimal.Range
import TileCost.Proofs.Outcome

/-! Sizes of JSON numbers. Whatever numeral is read, its number has one: a double that would
be out of range is refused. Narrowing makes no such test. -/
namespace TileCost.Json
open Decimal (Within Reaches Clipped)
open Float.Model (Format UnpackedFloat totalExponent)
open Float.Model.UnpackedFloat (unpack pack)

def Number.size : Number → Option ℚ
  | natural value => some value.toNat
  | negative size => some size.toNat
  | real value => Decimal.size value.toModel.unpack

theorem Number.narrowed {number : Number} {x : ℚ} (given : number.size = some x) :
    Clipped .binary32 number.toFloat32.toModel.unpack x := by
  cases number with
  | natural value =>
    cases given
    exact Decimal.naturalClipped (by decide) value.toNat
  | negative size =>
    cases given
    exact (Decimal.naturalClipped (by decide) size.toNat).neg (by decide)
  | real value => exact Decimal.narrowClipped given

/- Up to 10^22 the powers come from a table; the others are rounded. They are named, since
nothing is to be gained from their digits. -/
theorem tenToLarge {n m : ℕ} (large : 22 < n) (bound : n ≤ 308) (power : (10 ^ n) <<< 53 = m) :
    (tenTo n).toModel.unpack = unpack .binary64 (pack .binary64
      (UnpackedFloat.roundWithAccuracy .binary64 .positive m (-53) .exact)) := by
  have model : tenTo n = Float.ofModel (Float.Model.ofScientific 1 n) := by
    unfold tenTo Float.ofScientific
    rw [dif_neg (by omega)]
    rfl
  have most : ¬ (n : ℤ) > 2 ^ 11 := by omega
  have least : ¬ (n : ℤ) < -(2 ^ 11 + (Nat.log2 1 : ℤ)) := by omega
  have product : m = (1 <<< 53) * 10 ^ n := by
    rw [← power, Nat.shiftLeft_eq, Nat.one_shiftLeft, mul_comm]
  rw [model, product]
  change unpack .binary64 (pack .binary64 (UnpackedFloat.ofScientific .binary64 1 n)) = _
  rw [UnpackedFloat.ofScientific, dif_neg one_ne_zero, if_neg most, if_neg least,
    if_pos (Int.natCast_nonneg n)]
  rfl

theorem largestPower : (10 : ℚ) ^ 308 < Decimal.limit .binary64 := by
  have digits : 10 ^ 308 < (2 ^ 54 - 1) * 2 ^ 970 := by decide +kernel
  have bound : Decimal.limit .binary64 = ((2 ^ 54 - 1) * 2 ^ 970 : ℕ) := by
    rw [Nat.cast_mul, Nat.cast_pow]
    rfl
  rw [bound]
  calc (10 : ℚ) ^ 308
    _ = (10 ^ 308 : ℕ) := by rw [Nat.cast_pow, Nat.cast_ofNat]
    _ < _ := Nat.cast_lt.mpr digits

theorem powerLog {n m : ℕ} (power : (10 ^ n) <<< 53 = m) : m.log2 = (10 ^ n).log2 + 53 :=
  power ▸ Decimal.logShifted (Nat.pow_pos (by decide)) 53

theorem powerInside {n m : ℕ} (bound : n ≤ 308) (power : (10 ^ n) <<< 53 = m) :
    Within (Decimal.top .binary64)
      (UnpackedFloat.roundWithAccuracy .binary64 .positive m (-53) .exact) := by
  have positive : 0 < m := by
    rw [← power, Nat.shiftLeft_eq]
    positivity
  have size : (m : ℚ) * 2 ^ (-53 : ℤ) = 10 ^ n := by
    rw [← power, Nat.shiftLeft_eq, Nat.cast_mul, Nat.cast_pow, Nat.cast_pow, mul_assoc]
    norm_num
  have long : -53 ≤ Format.binary64.targetExponent (totalExponent m (-53)) := by
    have log := powerLog power
    have bits : Format.binary64.mantissaBits = 53 := rfl
    unfold Format.targetExponent totalExponent
    omega
  rw [Decimal.roundedExact .positive (by decide) positive long, size]
  exact (pow_le_pow_right₀ (by norm_num) bound).trans_lt largestPower

theorem tenToWhole {n : ℕ} (bound : n ≤ 308) : Reaches (-52) (tenTo n).toModel.unpack := by
  rcases le_or_gt n 22 with small | large
  · have table : ∀ n < 23, Reaches (-52) (tenTo n).toModel.unpack := by decide +kernel
    exact table n (by omega)
  · obtain ⟨m, power⟩ : ∃ m, (10 ^ n) <<< 53 = m := ⟨_, rfl⟩
    have bits : Format.binary64.mantissaBits = 53 := rfl
    have least : Format.binary64.minExponent = -1074 := rfl
    have log := powerLog power
    generalize (10 ^ n).log2 = k at log
    have digits : m.log2 + 1 = Format.binary64.mantissaBits + (k + 1) := by omega
    have reached := Decimal.roundedReaches .positive .exact digits (by omega)
      (powerInside bound power)
    rw [tenToLarge large bound power]
    exact reached.mono (by omega)

theorem quotientTen {n : ℕ} (bound : n ≤ 308) {x : Float} {most : ℤ} (least : -1000 ≤ most)
    (room : most + 53 ≤ 971) (within : Within most x.toModel.unpack) :
    Within (most + 53) (x / tenTo n).toModel.unpack := by
  have regular : Format.binary64.minExponent = -1074 := rfl
  exact Decimal.packedWithin (by omega) room
    (Decimal.quotientWithin within (tenToWhole bound) (by omega))

theorem productTen {n : ℕ} (bound : n ≤ 308) {x : Float} (finite : x.isFinite = true)
    (bounded : (x * tenTo n).isInf = false) : (x * tenTo n).isFinite = true := by
  have product : (UnpackedFloat.mul .binary64 x.toModel.unpack (tenTo n).toModel.unpack).isFinite :=
    Decimal.productFinite finite (tenToWhole bound).finite
  exact Decimal.finiteOther (Decimal.packedTop (by decide) product).1 bounded

theorem signedFinite {x : Float} (finite : x.isFinite = true) (minus : Bool) :
    (signedFloat minus x).isFinite = true := by
  cases minus with
  | false => exact finite
  | true =>
    have within := (@Decimal.unpackTop .binary64 (by decide) _).mp finite
    have opposite : Within (Decimal.top .binary64) x.toModel.unpack.neg := by
      change Within _ x.toModel.unpack at within
      revert within
      cases x.toModel.unpack <;> exact id
    exact (Decimal.packedWithin (by decide) le_rfl opposite).finite

theorem scaledFinite {fuel : ℕ} {most : ℤ} {x y : Float} {exponent : ℤ} (least : -1000 ≤ most)
    (room : most + 53 * fuel ≤ 971) (within : Within most x.toModel.unpack)
    (ok : scaled fuel x exponent = some y) : y.isFinite = true := by
  induction fuel generalizing most x exponent with
  | zero =>
    cases ok
    rfl
  | succ fuel ih =>
    have next : most + 53 + 53 * fuel ≤ 971 := by push_cast at room; omega
    unfold scaled at ok
    split at ok
    · rename_i bound
      split at ok
      · dsimp only at ok
        split at ok
        · cases ok
        · rename_i bounded
          cases ok
          exact productTen (by omega) within.finite (Bool.eq_false_of_not_eq_true bounded)
      · cases ok
        exact (quotientTen bound least (by omega) within).finite
    · split at ok
      · cases ok
        exact within.finite
      · split at ok
        · cases ok
        · exact ih (by omega) next (quotientTen le_rfl least (by omega) within) ok

theorem wholeWithin (value : UInt64) : Within 12 value.toFloat.toModel.unpack := by
  have digits : value.toNat.log2 < 64 := by
    rw [Nat.log2_eq_log_two]
    exact Nat.log_lt_of_lt_pow' (by decide) value.toNat_lt
  have room : (value.toNat.log2 + 1 : ℤ) < 12 + Format.binary64.mantissaBits := by
    change (value.toNat.log2 + 1 : ℤ) < 12 + 53
    omega
  exact Decimal.packedWithin (by decide) (by decide) (Decimal.naturalWithin (by decide) room)

theorem unmarkedFinite {minus : Bool} {significand : ℕ} {shift : ℤ} {rest : List Char} {x : Float}
    (ok : realValue minus significand shift none rest = .ok x) : x.isFinite = true := by
  unfold realValue at ok
  dsimp only at ok
  split at ok
  · rename_i y scaled
    cases ok
    exact signedFinite (scaledFinite (by decide) (by decide) (wholeWithin _) scaled) minus
  · cases ok

theorem realFinite {minus : Bool} {significand : ℕ} {shift : ℤ}
    {exponent : Option (Bool × List Char)} {rest : List Char} {x : Float}
    (ok : realValue minus significand shift exponent rest = .ok x) : x.isFinite = true := by
  rcases exponent with _ | ⟨down, digits⟩
  · exact unmarkedFinite ok
  · unfold realValue at ok
    dsimp only at ok
    split at ok
    · exact unmarkedFinite ok
    · split at ok
      · cases ok
      · cases ok
        exact signedFinite rfl minus

theorem integerSized (minus : Bool) (significand : ℕ) :
    ∃ x, (Number.ofInteger minus significand).size = some x := by
  unfold Number.ofInteger
  split
  · exact ⟨_, rfl⟩
  · split
    · exact ⟨_, rfl⟩
    · exact Decimal.sizeFinite.mp (signedFinite (wholeWithin _).finite true)

theorem valueSized {n : Numeral} {rest : List Char} {number : Number}
    (ok : n.value rest = .ok number) : ∃ x, number.size = some x := by
  unfold Numeral.value at ok
  dsimp only at ok
  split at ok
  · cases ok
    exact integerSized _ _
  · obtain ⟨x, real, rfl⟩ := Outcome.mapOk.mp ok
    exact Decimal.sizeFinite.mp (realFinite real)

theorem numberSized {text rest : List Char} {value : Number}
    (ok : number text = .ok (value, rest)) : ∃ x, value.size = some x := by
  unfold number at ok
  simp only [Outcome.bindOk] at ok
  obtain ⟨⟨n, tail⟩, _, value', valued, same⟩ := ok
  cases same
  exact valueSized valued

end TileCost.Json
