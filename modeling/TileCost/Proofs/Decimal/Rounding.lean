import Mathlib
import TileCost.Decimal.Width

/-! Where rounding to a format leaves its range. A rounded number has an exponent, and the
format has a largest one; beyond it the number is packed as an infinity. How far rounding
can raise the exponent is known of every number; for an exact one, what it takes to leave
the range is known to the last bit, which is half a unit above the largest number. -/
namespace TileCost.Decimal
open Float.Model (Format UnpackedFloat totalExponent)
open Float.Model.UnpackedFloat

def Within (most : ℤ) : UnpackedFloat → Prop
  | .zero _ => True
  | .finite _ _ e _ => e ≤ most
  | _ => False

def Reaches (least : ℤ) : UnpackedFloat → Prop
  | .finite _ _ e _ => least ≤ e
  | _ => False

def top (format : Format) : ℤ := format.exponentBias - format.mantissaBitsWithoutImplicit

variable {format : Format} {most : ℤ}

theorem leastExponent (format : Format) :
    format.minExponent = 1 - format.exponentBias - format.mantissaBitsWithoutImplicit := by
  have power : 1 ≤ 2 ^ (format.exponentBits - 1) := Nat.one_le_two_pow
  unfold Format.minExponent Format.exponentBias Format.mantissaBits
  push_cast [Nat.cast_sub power]
  ring

theorem exponentCount (format : Format) :
    2 ^ format.exponentBits = 2 * format.exponentBias + 2 := by
  have power : 1 ≤ 2 ^ (format.exponentBits - 1) := Nat.one_le_two_pow
  have twice : 2 ^ format.exponentBits = 2 * 2 ^ (format.exponentBits - 1) :=
    (mul_pow_sub_one format.he.ne' 2).symm
  unfold Format.exponentBias
  omega

theorem exponentOnes (exponent : BitVec format.exponentBits) :
    exponent = -1#_ ↔ exponent.toNat = 2 * format.exponentBias + 1 := by
  rw [← BitVec.toNat_inj, BitVec.neg_one_eq_allOnes, BitVec.toNat_allOnes, exponentCount]
  rfl

theorem Within.finite {f : UnpackedFloat} (within : Within most f) : f.isFinite = true := by
  cases f <;> first | rfl | exact within.elim

theorem Reaches.finite {least : ℤ} {f : UnpackedFloat} (reaches : Reaches least f) :
    f.isFinite = true := by
  cases f <;> first | rfl | exact reaches.elim

theorem Reaches.mono {least less : ℤ} {f : UnpackedFloat} (reaches : Reaches least f)
    (le : less ≤ least) : Reaches less f := by
  cases f <;> first | exact le_trans (b := least) le reaches | exact reaches

instance (least : ℤ) (f : UnpackedFloat) : Decidable (Reaches least f) :=
  match f with
  | .finite _ _ e _ => inferInstanceAs (Decidable (least ≤ e))
  | .zero _ | .infinity _ | .notANumber => inferInstanceAs (Decidable False)

/- Read off the exponent as it is packed, where every subnormal number has the least one. -/
theorem unpackWithin (least : format.minExponent ≤ most) (bound : most ≤ top format)
    {word : BitVec format.numBits} :
    Within most (unpack format word) ↔ ((unpackExponent word).toNat : ℤ) ≤
      most + format.exponentBias + format.mantissaBitsWithoutImplicit := by
  rw [leastExponent] at least
  unfold top at bound
  unfold unpack
  dsimp only
  split
  · rename_i ones
    have value := (exponentOnes _).mp ones
    split <;>
    · simp only [Within, value, false_iff, not_le]
      omega
  · split
    · rename_i none
      split <;>
      · simp only [Within, none, BitVec.toNat_zero, true_iff]
        omega
    · simp only [Within]
      omega

theorem unpackFinite {word : BitVec format.numBits} {s m e h}
    (unpacked : unpack format word = .finite s m e h) : m < 2 ^ format.mantissaBits := by
  have bits := (unpackMantissa word).isLt
  unfold unpack at unpacked
  dsimp only at unpacked
  unfold Format.mantissaBits
  split at unpacked
  · split at unpacked <;> cases unpacked
  · split at unpacked
    · split at unpacked <;> cases unpacked
      rw [Nat.add_comm, pow_succ]
      omega
    · cases unpacked
      exact (1#1 ++ unpackMantissa word).isLt

theorem packedWithin (least : format.minExponent ≤ most) (bound : most ≤ top format)
    {f : UnpackedFloat} (within : Within most f) :
    Within most (unpack format (pack format f)) := by
  have count := exponentCount format
  rw [unpackWithin least bound]
  rw [leastExponent] at least
  unfold top at bound
  cases f with
  | finite s m e h =>
    have within : e ≤ most := within
    unfold pack
    dsimp only
    split
    · omega
    · rename_i fits
      split
      · rw [unpackExponent_packComponents, BitVec.toNat_ofNat, Nat.mod_eq_of_lt (by omega)]
        omega
      · rw [unpackExponent_packComponents, BitVec.toNat_ofNat, Nat.zero_mod]
        omega
  | zero s =>
    rw [pack, packedZero, unpackExponent_packComponents, BitVec.ofNat_eq_ofNat, BitVec.toNat_ofNat,
      Nat.zero_mod]
    omega
  | infinity s => exact within.elim
  | notANumber => exact within.elim

theorem packedReaches {s m e h} {least : ℤ} (digits : m.log2 + 1 = format.mantissaBits)
    (normal : format.minExponent ≤ least) (reached : least ≤ e) (bound : e ≤ top format) :
    Reaches least (unpack format (pack format (.finite s m e h))) := by
  have count := exponentCount format
  rw [leastExponent] at normal
  unfold top at bound
  have fits : ¬ 2 ^ format.exponentBits ≤
      (e + format.exponentBias + format.mantissaBitsWithoutImplicit).toNat + 1 := by omega
  rw [pack, if_neg fits, if_pos digits]
  generalize place : (e + format.exponentBias + format.mantissaBitsWithoutImplicit).toNat = n
  have value : (BitVec.ofNat format.exponentBits n).toNat = n := by
    rw [BitVec.toNat_ofNat, Nat.mod_eq_of_lt (by omega)]
  have other : BitVec.ofNat format.exponentBits n ≠ -1#_ := by
    rw [Ne, exponentOnes, value]
    omega
  have some : BitVec.ofNat format.exponentBits n ≠ 0#_ := by
    rw [Ne, ← BitVec.toNat_inj, value, BitVec.toNat_ofNat, Nat.zero_mod]
    omega
  have same : (n : ℤ) - (format.exponentBias + format.mantissaBitsWithoutImplicit) = e := by omega
  simp only [unpack, unpackExponent_packComponents, if_neg other, if_neg some, value, same]
  exact reached

theorem infinityUnpacked (sign : Sign) :
    (unpack format (packedInfinity format sign)).isInf = true := by
  simp [unpack, packedInfinity, isInf]

theorem packedBeyond {s m e h} (beyond : top format < e) :
    (unpack format (pack format (.finite s m e h))).isInf = true := by
  have count := exponentCount format
  unfold top at beyond
  have full : 2 ^ format.exponentBits ≤
      (e + format.exponentBias + format.mantissaBitsWithoutImplicit).toNat + 1 := by omega
  rw [pack, if_pos full]
  exact infinityUnpacked s

theorem logMono {m n : ℕ} (le : m ≤ n) : m.log2 ≤ n.log2 := by
  simpa only [Nat.log2_eq_log_two] using Nat.log_mono_right le

theorem logShifted {m : ℕ} (positive : 0 < m) (n : ℕ) : (m <<< n).log2 = m.log2 + n := by
  rw [Nat.shiftLeft_eq, Nat.log2_eq_iff (Nat.mul_pos positive (Nat.two_pow_pos n)).ne']
  have low := Nat.log2_self_le positive.ne'
  have high : m < 2 ^ (m.log2 + 1) := Nat.lt_log2_self
  rw [add_right_comm, pow_add, pow_add _ _ n]
  constructor
  · gcongr
  · gcongr

/-! Shifting to the right, told in halves of the unit that is left. -/

def halves (em : ExtendedMantissa) : ℕ := 2 * em.mantissa + em.roundBit.toNat

theorem halvesMantissa (em : ExtendedMantissa) : halves em / 2 = em.mantissa := by
  have bit := em.roundBit.toNat_le
  unfold halves
  omega

theorem halvesShifted (em : ExtendedMantissa) (n : ℕ) : halves (em >>> n) = halves em / 2 ^ n := by
  have step (em : ExtendedMantissa) : halves em.shiftRightOne = halves em / 2 := by
    rw [halvesMantissa]
    rcases Nat.mod_two_eq_zero_or_one em.mantissa with even | odd
    · simp [halves, ExtendedMantissa.shiftRightOne, even]
      omega
    · simp [halves, ExtendedMantissa.shiftRightOne, odd]
      omega
  change halves (n.repeat ExtendedMantissa.shiftRightOne em) = _
  induction n with
  | zero => rw [pow_zero, Nat.div_one, Nat.repeat]
  | succ n ih => rw [Nat.repeat, step, ih, Nat.div_div_eq_div_mul, pow_succ]

def shifted (m : ℕ) (accuracy : Accuracy) (n : ℕ) : ExtendedMantissa :=
  (.ofMantissaAndAccuracy m accuracy : ExtendedMantissa) >>> n

theorem shiftedMantissa (m : ℕ) (accuracy : Accuracy) (n : ℕ) :
    (shifted m accuracy n).mantissa = m / 2 ^ n := by
  have start : (ExtendedMantissa.ofMantissaAndAccuracy m accuracy).mantissa = m := by
    rcases accuracy with _ | _ | _ | _ <;> rfl
  rw [shifted, ← halvesMantissa, halvesShifted, Nat.div_right_comm, halvesMantissa, start]

theorem shiftedExact (m n : ℕ) : halves (shifted m .exact n) = 2 * m / 2 ^ n := by
  rw [shifted, halvesShifted]
  rfl

theorem roundedBounds (em : ExtendedMantissa) :
    em.mantissa ≤ em.roundedMantissa ∧ em.roundedMantissa ≤ (halves em + 1) / 2 := by
  obtain ⟨m, round, sticky⟩ := em
  cases round <;> cases sticky <;>
  · simp only [halves, ExtendedMantissa.roundedMantissa, ExtendedMantissa.accuracy,
      Accuracy.roundToNearestEven, Bool.toNat_true, Bool.toNat_false]
    omega

theorem roundedOdd {em : ExtendedMantissa} (odd : em.mantissa % 2 = 1) :
    em.roundedMantissa = (halves em + 1) / 2 := by
  obtain ⟨m, round, sticky⟩ := em
  cases round <;> cases sticky <;>
  · simp only [halves, ExtendedMantissa.roundedMantissa, ExtendedMantissa.accuracy,
      Accuracy.roundToNearestEven, Bool.toNat_true, Bool.toNat_false] at odd ⊢
    omega

theorem shiftedRounded {m n j : ℕ} (accuracy : Accuracy) (bound : m < 2 ^ (j + n)) :
    (shifted m accuracy n).roundedMantissa ≤ 2 ^ j := by
  have few : (shifted m accuracy n).mantissa < 2 ^ j := by
    rwa [shiftedMantissa, Nat.div_lt_iff_lt_mul (Nat.two_pow_pos n), ← pow_add]
  have rounded := (roundedBounds (shifted m accuracy n)).2
  have mantissa := halvesMantissa (shifted m accuracy n)
  omega

def places (format : Format) (m : ℕ) (e : ℤ) : ℕ :=
  (format.targetExponent (totalExponent m e) - e).toNat

theorem roundedForm (s : Sign) {m n r n' : ℕ} {e : ℤ} {accuracy : Accuracy}
    (first : places format m e = n) (rounded : (shifted m accuracy n).roundedMantissa = r)
    (second : places format r (e + n) = n') :
    roundWithAccuracy format s m e accuracy =
      if h : r / 2 ^ n' = 0 then .zero s
      else .finite s (r / 2 ^ n') (e + n + n') (Nat.pos_of_ne_zero h) := by
  subst first rounded second
  simp only [← shiftedMantissa _ .exact]
  rfl

theorem roundedWithin {m : ℕ} {e : ℤ} (s : Sign) (accuracy : Accuracy)
    (least : format.minExponent ≤ most) (low : e ≤ most)
    (room : totalExponent m e < most + format.mantissaBits) :
    Within most (roundWithAccuracy format s m e accuracy) := by
  obtain ⟨n, first⟩ : ∃ n, places format m e = n := ⟨_, rfl⟩
  rw [roundedForm s first rfl rfl]
  split
  · trivial
  · have digits : 0 < format.mantissaBits := by unfold Format.mantissaBits; omega
    have bound : m < 2 ^ (m.log2 + 1 - n + n) :=
      Nat.lt_log2_self.trans_le (Nat.pow_le_pow_right two_pos (by omega))
    have log : (shifted m accuracy n).roundedMantissa.log2 ≤ m.log2 + 1 - n := by
      simpa only [Nat.log2_two_pow] using logMono (shiftedRounded accuracy bound)
    simp only [Within, places, Format.targetExponent, totalExponent] at *
    omega

/- A number that fills the mantissa is shifted by the digits it has too many; rounding makes it
longer only if nothing but ones is left. -/
theorem roundedNormal (s : Sign) {m n : ℕ} {e : ℤ} (accuracy : Accuracy)
    (digits : m.log2 + 1 = format.mantissaBits + n) (normal : format.minExponent ≤ e + n) :
    ∃ m' h, m'.log2 + 1 = format.mantissaBits ∧
      roundWithAccuracy format s m e accuracy =
        .finite s m' (if (shifted m accuracy n).roundedMantissa < 2 ^ format.mantissaBits
          then e + n else e + n + 1) h := by
  generalize rounded : (shifted m accuracy n).roundedMantissa = r
  have implicit := format.hm
  have bits : format.mantissaBits = format.mantissaBitsWithoutImplicit + 1 := Nat.add_comm _ _
  have some : m ≠ 0 := by rintro rfl; simp at digits; omega
  have first : places format m e = n := by
    simp only [places, Format.targetExponent, totalExponent]
    omega
  have least : 2 ^ format.mantissaBitsWithoutImplicit ≤ r := by
    calc 2 ^ format.mantissaBitsWithoutImplicit
      _ ≤ m / 2 ^ n := by
        rw [Nat.le_div_iff_mul_le (Nat.two_pow_pos n), ← pow_add, ← Nat.le_log2 some]
        omega
      _ ≤ r := rounded ▸ shiftedMantissa m accuracy n ▸ (roundedBounds _).1
  have most : r ≤ 2 ^ format.mantissaBits := by
    refine rounded ▸ shiftedRounded accuracy ?_
    rw [← Nat.log2_lt some]
    omega
  have nonzero : r ≠ 0 := by have := Nat.two_pow_pos format.mantissaBitsWithoutImplicit; omega
  by_cases short : r < 2 ^ format.mantissaBits
  · have log : r.log2 = format.mantissaBitsWithoutImplicit :=
      (Nat.log2_eq_iff nonzero).mpr ⟨least, bits ▸ short⟩
    have second : places format r (e + n) = 0 := by
      simp only [places, Format.targetExponent, totalExponent]
      omega
    refine ⟨r, Nat.pos_of_ne_zero nonzero, by omega, ?_⟩
    simp [roundedForm s first rounded second, short, nonzero]
  · have full : r = 2 ^ format.mantissaBits := by omega
    have second : places format r (e + n) = 1 := by
      simp only [places, Format.targetExponent, totalExponent, full, Nat.log2_two_pow]
      omega
    have half : r / 2 ^ 1 = 2 ^ format.mantissaBitsWithoutImplicit := by
      rw [full, bits, pow_one, pow_succ, Nat.mul_div_cancel _ two_pos]
    refine ⟨_, Nat.two_pow_pos _, by rw [Nat.log2_two_pow, bits], ?_⟩
    simp only [roundedForm s first rounded second, half, short, if_false, Nat.cast_one]
    exact dif_neg (Nat.two_pow_pos _).ne'

theorem roundedReaches (s : Sign) {m n : ℕ} {e : ℤ} (accuracy : Accuracy)
    (digits : m.log2 + 1 = format.mantissaBits + n) (normal : format.minExponent ≤ e + n)
    (within : Within (top format) (roundWithAccuracy format s m e accuracy)) :
    Reaches (e + n) (unpack format (pack format (roundWithAccuracy format s m e accuracy))) := by
  obtain ⟨m', h, filled, rounded⟩ := roundedNormal s accuracy digits normal
  rw [rounded] at within ⊢
  exact packedReaches filled normal (by split <;> omega) within

theorem roundedCarry {em : ExtendedMantissa} {full : ℕ} (short : em.mantissa < 2 * full) :
    em.roundedMantissa < 2 * full ↔ halves em + 1 < 4 * full := by
  have mantissa := halvesMantissa em
  by_cases last : em.mantissa + 1 = 2 * full
  · rw [roundedOdd (by omega)]
    omega
  · have bounds := (roundedBounds em).2
    omega

theorem sizeBounds {m : ℕ} (e : ℤ) (positive : 0 < m) :
    (2 : ℚ) ^ (totalExponent m e - 1) ≤ m * 2 ^ e ∧ m * (2 : ℚ) ^ e < 2 ^ totalExponent m e := by
  have two : (2 : ℚ) ≠ 0 := two_ne_zero
  have power : (0 : ℚ) < 2 ^ e := zpow_pos two_pos e
  have low : totalExponent m e - 1 = m.log2 + e := by unfold totalExponent; ring
  have high : totalExponent m e = (m.log2 + 1 : ℕ) + e := by unfold totalExponent; push_cast; ring
  rw [low, high, zpow_add₀ two, zpow_add₀ two, zpow_natCast, zpow_natCast]
  constructor
  · gcongr
    exact_mod_cast Nat.log2_self_le positive.ne'
  · gcongr
    exact_mod_cast Nat.lt_log2_self

def limit (format : Format) : ℚ :=
  (2 ^ (format.mantissaBits + 1) - 1 : ℕ) * 2 ^ (top format - 1)

theorem limitBounds (format : Format) :
    (2 : ℚ) ^ (top format + format.mantissaBits - 1) ≤ limit format ∧
      limit format < 2 ^ (top format + format.mantissaBits) := by
  have two : (2 : ℚ) ≠ 0 := two_ne_zero
  have power : (0 : ℚ) < 2 ^ (top format - 1) := zpow_pos two_pos _
  have least : top format + format.mantissaBits - 1 =
      (format.mantissaBits : ℤ) + (top format - 1) := by ring
  have most : top format + format.mantissaBits =
      (format.mantissaBits + 1 : ℕ) + (top format - 1) := by push_cast; ring
  rw [least, most, zpow_add₀ two, zpow_add₀ two, zpow_natCast, zpow_natCast]
  have ones : 2 ^ format.mantissaBits ≤ 2 ^ (format.mantissaBits + 1) - 1 ∧
      2 ^ (format.mantissaBits + 1) - 1 < 2 ^ (format.mantissaBits + 1) := by
    have some := Nat.two_pow_pos format.mantissaBits
    rw [pow_succ]
    omega
  constructor
  · unfold limit
    gcongr
    exact_mod_cast ones.1
  · unfold limit
    gcongr
    exact_mod_cast ones.2

theorem roundedTop (s : Sign) {m n : ℕ} {e : ℤ} (regular : format.minExponent ≤ top format)
    (digits : m.log2 + 1 = format.mantissaBits + n) (high : e + n = top format) :
    Within (top format) (roundWithAccuracy format s m e .exact) ↔ m * 2 ^ e < limit format := by
  have two : (2 : ℚ) ≠ 0 := two_ne_zero
  have power : (0 : ℚ) < 2 ^ (e - 1) := zpow_pos two_pos _
  have full : 2 ^ format.mantissaBits = 2 * 2 ^ format.mantissaBitsWithoutImplicit := by
    rw [Format.mantissaBits, pow_add, pow_one]
  have short : m / 2 ^ n < 2 ^ format.mantissaBits := by
    rw [Nat.div_lt_iff_lt_mul (Nat.two_pow_pos n), ← pow_add, ← digits]
    exact Nat.lt_log2_self
  have size : (m : ℚ) * 2 ^ e = (2 * m : ℕ) * 2 ^ (e - 1) := by
    rw [zpow_sub_one₀ two]
    push_cast
    ring
  have bound : limit format =
      ((2 ^ (format.mantissaBits + 1) - 1) * 2 ^ n : ℕ) * 2 ^ (e - 1) := by
    have top : top format - 1 = n + (e - 1) := by omega
    rw [limit, top, zpow_add₀ two, zpow_natCast]
    push_cast
    ring
  calc Within (top format) (roundWithAccuracy format s m e .exact)
    _ ↔ (shifted m .exact n).roundedMantissa < 2 ^ format.mantissaBits := by
      obtain ⟨_, _, _, rounded⟩ := roundedNormal s .exact digits (high ▸ regular)
      rw [rounded]
      dsimp only [Within]
      split <;> rename_i carry <;> simp only [carry, iff_true, iff_false] <;> omega
    _ ↔ 2 * m / 2 ^ n < 2 ^ (format.mantissaBits + 1) - 1 := by
      rw [← shiftedMantissa m .exact, full] at short
      rw [full, roundedCarry short, shiftedExact, pow_succ, full]
      omega
    _ ↔ m * 2 ^ e < limit format := by
      rw [Nat.div_lt_iff_lt_mul (Nat.two_pow_pos n), size, bound, mul_lt_mul_iff_left₀ power,
        Nat.cast_lt]

theorem roundedExact (s : Sign) {m : ℕ} {e : ℤ} (regular : format.minExponent ≤ top format)
    (positive : 0 < m) (long : e ≤ format.targetExponent (totalExponent m e)) :
    Within (top format) (roundWithAccuracy format s m e .exact) ↔ m * 2 ^ e < limit format := by
  obtain ⟨below, above⟩ := sizeBounds e positive
  obtain ⟨least, most⟩ := limitBounds format
  have step {i j : ℤ} (le : i ≤ j) : (2 : ℚ) ^ i ≤ 2 ^ j := zpow_le_zpow_right₀ one_le_two le
  have digits : 0 < format.mantissaBits := by unfold Format.mantissaBits; omega
  unfold Format.targetExponent at long
  rcases lt_or_ge (totalExponent m e) (top format + format.mantissaBits) with low | high
  · refine iff_of_true (roundedWithin s .exact regular (by omega) low) ?_
    exact (above.trans_le (step (by omega))).trans_le least
  · have place : totalExponent m e = m.log2 + 1 + e := rfl
    obtain ⟨n, digits⟩ : ∃ n, m.log2 + 1 = format.mantissaBits + n :=
      Nat.exists_eq_add_of_le (by omega)
    rcases high.eq_or_lt with same | beyond
    · exact roundedTop s regular digits (by omega)
    · refine iff_of_false ?_ (not_lt.mpr (most.le.trans ((step (by omega)).trans below)))
      have normal : format.minExponent ≤ e + n := by omega
      obtain ⟨_, _, _, rounded⟩ := roundedNormal s .exact digits normal
      rw [rounded]
      dsimp only [Within]
      split <;> omega

theorem roundSource (format : Format) (s : Sign) {m : ℕ} (e : ℤ) (positive : 0 < m) :
    ∃ m' e', round format s m e = roundWithAccuracy format s m' e' .exact ∧ 0 < m' ∧
      totalExponent m' e' = totalExponent m e ∧
      e' ≤ format.targetExponent (totalExponent m e) ∧ (m' : ℚ) * 2 ^ e' = m * 2 ^ e := by
  generalize step : (e - format.targetExponent (totalExponent m e)).toNat = n
  refine ⟨m <<< n, e - n, ?_, ?_, ?_, by omega, ?_⟩
  · rw [← step]
    rfl
  · rw [Nat.shiftLeft_eq]
    exact Nat.mul_pos positive (Nat.two_pow_pos n)
  · unfold totalExponent
    rw [logShifted positive]
    omega
  · rw [Nat.shiftLeft_eq, zpow_sub₀ two_ne_zero, zpow_natCast]
    push_cast
    field_simp

theorem roundWithin (s : Sign) {m : ℕ} {e : ℤ} (positive : 0 < m)
    (least : format.minExponent ≤ most) (room : totalExponent m e < most + format.mantissaBits) :
    Within most (round format s m e) := by
  obtain ⟨m', e', same, _, total, long, _⟩ := roundSource format s e positive
  rw [same]
  unfold Format.targetExponent at long
  exact roundedWithin s .exact least (by omega) (total ▸ room)

theorem roundExact (s : Sign) {m : ℕ} {e : ℤ} (regular : format.minExponent ≤ top format)
    (positive : 0 < m) :
    Within (top format) (round format s m e) ↔ m * 2 ^ e < limit format := by
  obtain ⟨m', e', same, positive', total, long, size⟩ := roundSource format s e positive
  rw [same, ← size]
  exact roundedExact s regular positive' (total ▸ long)

end TileCost.Decimal
