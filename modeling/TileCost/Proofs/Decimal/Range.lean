import TileCost.Proofs.Decimal.Rounding

/-! Ranges of the two widths. A number that is rounded to a width stays one if its size is
below the limit of the width and is an infinity otherwise; it is never what is no number. -/
namespace TileCost.Decimal
open Float.Model (Format UnpackedFloat totalExponent)
open Float.Model.UnpackedFloat

def size : UnpackedFloat → Option ℚ
  | .zero _ => some 0
  | .finite _ m e _ => some (m * 2 ^ e)
  | _ => none

structure Clipped (format : Format) (f : UnpackedFloat) (x : ℚ) : Prop where
  number : f.isNaN = false
  finite : f.isFinite = true ↔ x < limit format

variable {format : Format}

theorem sizeFinite {f : UnpackedFloat} : f.isFinite = true ↔ ∃ x, size f = some x := by
  cases f <;> simp [isFinite, size]

theorem limitPositive (format : Format) : 0 < limit format :=
  (zpow_pos two_pos _).trans_le (limitBounds format).1

theorem onesInfinite {word : BitVec format.numBits} (ones : unpackExponent word = -1#_) :
    (unpack format word).isFinite = false := by
  unfold unpack
  dsimp only
  rw [if_pos ones]
  split <;> rfl

theorem unpackTop (regular : format.minExponent ≤ top format) {word : BitVec format.numBits} :
    (unpack format word).isFinite = true ↔ Within (top format) (unpack format word) := by
  refine ⟨fun finite => ?_, Within.finite⟩
  rw [unpackWithin regular le_rfl]
  have count := exponentCount format
  have bound := (unpackExponent word).isLt
  have other : unpackExponent word ≠ -1#_ := by
    intro ones
    rw [onesInfinite ones] at finite
    cases finite
  rw [Ne, exponentOnes] at other
  unfold top
  omega

theorem packedTop (regular : format.minExponent ≤ top format) {f : UnpackedFloat}
    (finite : f.isFinite = true) :
    let g := unpack format (pack format f)
    g.isNaN = false ∧ (g.isFinite = true ↔ Within (top format) f) := by
  intro g
  by_cases within : Within (top format) f
  · have kept : Within (top format) g := packedWithin regular le_rfl within
    refine ⟨?_, iff_of_true kept.finite within⟩
    revert kept
    cases g <;> first | exact fun _ => rfl | exact False.elim
  · cases f with
    | finite s m e h =>
      have infinite : g.isInf = true := packedBeyond (not_le.mp within)
      revert infinite
      cases g <;> simp [isNaN, isInf, isFinite, within]
    | zero => exact absurd trivial within
    | infinity => cases finite
    | notANumber => cases finite

theorem packedClipped (regular : format.minExponent ≤ top format) {f : UnpackedFloat} {x : ℚ}
    (finite : f.isFinite = true) (fits : Within (top format) f ↔ x < limit format) :
    Clipped format (unpack format (pack format f)) x :=
  have packed := packedTop regular finite
  ⟨packed.1, packed.2.trans fits⟩

theorem roundFinite (s : Sign) (m : ℕ) (e : ℤ) (accuracy : Accuracy) :
    (roundWithAccuracy format s m e accuracy).isFinite = true := by
  unfold roundWithAccuracy
  dsimp only
  split <;> rfl

theorem roundedClipped (regular : format.minExponent ≤ top format) {f : UnpackedFloat} {x : ℚ}
    (given : size f = some x) :
    Clipped format (unpack format (pack format (rounded format f))) x := by
  cases f with
  | zero s =>
    cases given
    exact packedClipped regular rfl (iff_of_true trivial (limitPositive format))
  | finite s m e positive =>
    cases given
    exact packedClipped regular (roundFinite s _ _ _) (roundExact s regular positive)
  | infinity => cases given
  | notANumber => cases given

theorem naturalRound {n : ℕ} (positive : 0 < n) :
    ofNat format n = round format .positive n 0 := by
  have more : compare (n : ℤ) 0 = .gt := by simpa [compare_gt_iff_gt] using positive
  simp only [ofNat, ofInt, UnpackedFloat.normalize, more, Int.toNat_natCast]

theorem naturalWithin {most : ℤ} {n : ℕ} (least : format.minExponent ≤ most)
    (room : n.log2 + 1 < most + format.mantissaBits) : Within most (ofNat format n) := by
  rcases Nat.eq_zero_or_pos n with rfl | positive
  · trivial
  · rw [naturalRound positive]
    exact roundWithin .positive positive least (by unfold totalExponent; omega)

theorem naturalClipped (regular : format.minExponent ≤ top format) (n : ℕ) :
    Clipped format (unpack format (pack format (ofNat format n))) n := by
  rcases Nat.eq_zero_or_pos n with rfl | positive
  · have fits : Within (top format) (ofNat format 0) ↔ ((0 : ℕ) : ℚ) < limit format :=
      iff_of_true trivial (by simpa using limitPositive format)
    exact packedClipped regular rfl fits
  · rw [naturalRound positive]
    exact packedClipped regular (roundFinite _ _ _ _)
      (by simpa using roundExact .positive (e := 0) regular positive)

theorem infinityKept (format : Format) (s : Sign) :
    let g := unpack format (pack format (.infinity s))
    g.isNaN = false ∧ g.isFinite = false := by
  intro g
  have infinite : g.isInf = true := infinityUnpacked s
  revert infinite
  cases g <;> simp [isNaN, isInf, isFinite]

theorem Clipped.neg (regular : format.minExponent ≤ top format) {word : BitVec format.numBits}
    {x : ℚ} (clipped : Clipped format (unpack format word) x) :
    Clipped format (unpack format (pack format (unpack format word).neg)) x := by
  obtain ⟨number, finite⟩ := clipped
  rw [unpackTop regular] at finite
  cases unpacked : unpack format word with
  | finite s m e h =>
    rw [unpacked] at finite
    exact packedClipped regular rfl finite
  | zero s =>
    rw [unpacked] at finite
    exact packedClipped regular rfl finite
  | infinity s =>
    rw [unpacked] at finite
    obtain ⟨number', infinite⟩ := infinityKept format (-s)
    refine ⟨number', ?_⟩
    rw [← finite]
    exact iff_of_false (by simp [UnpackedFloat.neg, infinite]) id
  | notANumber => rw [unpacked] at number; cases number

theorem finiteOther {f : UnpackedFloat} (number : f.isNaN = false) (bounded : f.isInf = false) :
    f.isFinite = true := by
  cases f <;> first | rfl | contradiction

theorem productFinite {f g : UnpackedFloat} (finite : f.isFinite = true)
    (finite' : g.isFinite = true) : (mul format f g).isFinite = true := by
  cases f <;> cases finite <;> cases g <;> cases finite' <;> first | rfl | exact roundFinite _ _ _ _

theorem quotientWithin {most : ℤ} {f : BitVec format.numBits} {g : UnpackedFloat}
    (small : Within most (unpack format f))
    (whole : Reaches (-format.mantissaBitsWithoutImplicit) g)
    (least : format.minExponent ≤ most + format.mantissaBits) :
    Within (most + format.mantissaBits) (div format (unpack format f) g) := by
  cases g with
  | zero => exact whole.elim
  | infinity => exact whole.elim
  | notANumber => exact whole.elim
  | finite s' m' e' h' =>
    have unit : -format.mantissaBitsWithoutImplicit ≤ e' := whole
    cases given : unpack format f with
    | zero s => trivial
    | infinity s => rw [given] at small; exact small.elim
    | notANumber => rw [given] at small; exact small.elim
    | finite s m e h =>
      rw [given] at small
      have small : e ≤ most := small
      have bits : format.mantissaBits = 1 + format.mantissaBitsWithoutImplicit := rfl
      simp only [div, divCore]
      generalize format.targetExponent _ = target
      generalize place : min (e - e') target = point
      have short : (m <<< (e - e' - point).toNat / m').log2 ≤ m.log2 + (e - e' - point).toNat := by
        rw [← logShifted h]
        exact logMono (Nat.div_le_self _ _)
      have few : m.log2 < format.mantissaBits := (Nat.log2_lt h.ne').mpr (unpackFinite given)
      refine roundedWithin _ _ least (by omega) ?_
      unfold totalExponent
      omega

theorem narrowClipped {x : Float} {r : ℚ} (given : size x.toModel.unpack = some r) :
    Clipped .binary32 (narrow x).toModel.unpack r :=
  roundedClipped (by decide) given

theorem widenFinite (x : Float32) : (widen x).isFinite = x.isFinite := by
  change (unpack .binary64 (pack .binary64 (rounded .binary64 x.toModel.unpack))).isFinite =
    x.toModel.unpack.isFinite
  cases given : x.toModel.unpack with
  | finite s m e positive =>
    have within : Within (top .binary32) x.toModel.unpack :=
      (unpackTop (by decide)).mp (congrArg isFinite given)
    rw [given] at within
    have most : e ≤ 104 := within
    have few : m.log2 < 24 := (Nat.log2_lt positive.ne').mpr (unpackFinite given)
    have room : totalExponent m e < top .binary64 + Format.binary64.mantissaBits := by
      change (m.log2 + 1 + e : ℤ) < 971 + 53
      omega
    exact (packedWithin (by decide) le_rfl (roundWithin s positive (by decide) room)).finite
  | zero s => cases s <;> rfl
  | infinity s => exact (infinityKept _ s).2
  | notANumber => exact onesInfinite unpackExponent_packComponents

end TileCost.Decimal
