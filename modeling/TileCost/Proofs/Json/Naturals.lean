import TileCost.Proofs.Json.Determined

/-! Natural numbers as they are written: decimal digits without a zero in front. Read
digit by digit the value comes back, as long as it fits the width that is asked for. -/
namespace TileCost.Json

theorem writtenDigit (n : Nat) : ∀ c ∈ writeNat n, c.isDigit = true :=
  fun _ member => Nat.isDigit_of_mem_toDigits (by decide) (by decide) member

theorem writtenTenth {n : Nat} (large : 10 ≤ n) :
    writeNat n = writeNat (n / 10) ++ [Nat.digitChar (n % 10)] :=
  Nat.toDigits_of_base_le (by decide) large

theorem writtenSmall {n : Nat} (small : n < 10) : writeNat n = [Nat.digitChar n] :=
  Nat.toDigits_of_lt_base small

theorem writtenAlike {m n : Nat} (same : writeNat m = writeNat n) : m = n := by
  have values := congrArg (Nat.ofDigitChars 10 · 0) same
  simpa only [writeNat, Nat.ofDigitChars_ten_toDigits] using values

theorem digitCharValue : ∀ n < 10, digitValue (Nat.digitChar n) = n := by decide

theorem digitCharZero : ∀ n < 10, Nat.digitChar n = '0' → n = 0 := by decide

theorem absorbNext (significand : Nat) (c : Char) (rest : List Char) :
    absorb significand (c :: rest) =
      if significand * 10 + digitValue c < 2 ^ 64 then
        absorb (significand * 10 + digitValue c) rest
      else (significand, c :: rest) := rfl

theorem absorbAppend {value : Nat} {front : List Char} {significand : Nat}
    (all : absorb significand front = (value, [])) (back : List Char) :
    absorb significand (front ++ back) = absorb value back := by
  induction front generalizing significand with
  | nil =>
      cases all
      rfl
  | cons c front ih =>
      rw [List.cons_append, absorbNext]
      rw [absorbNext] at all
      split at all
      · rename_i fits
        rw [if_pos fits]
        exact ih all
      · cases all

theorem absorbDigit {value digit : Nat} (small : digit < 10)
    (fits : value * 10 + digit < 2 ^ 64) :
    absorb value [Nat.digitChar digit] = (value * 10 + digit, []) := by
  rw [absorbNext, digitCharValue digit small]
  exact if_pos fits

theorem absorbWritten {n : Nat} (fits : n < 2 ^ 64) : absorb 0 (writeNat n) = (n, []) := by
  induction n using Nat.strongRecOn with
  | _ n ih =>
      by_cases small : n < 10
      · rw [writtenSmall small, absorbDigit small (by omega), Nat.zero_mul, Nat.zero_add]
      · have tenth := ih (n / 10) (by omega) (by omega)
        have whole : n / 10 * 10 + n % 10 = n := by omega
        rw [writtenTenth (by omega), absorbAppend tenth, absorbDigit (by omega) (by omega), whole]

theorem charOfDigit {c : Char} (digit : c.isDigit = true) : ∃ d < 10, c = Nat.digitChar d := by
  have codes : ∀ d < 10, Nat.digitChar d = Char.ofNat (48 + d) := by decide
  have bounds : 48 ≤ c.toNat ∧ c.toNat ≤ 57 := by
    simp only [Char.isDigit, Bool.and_eq_true, decide_eq_true_eq] at digit
    exact digit
  refine ⟨c.toNat - 48, by omega, ?_⟩
  rw [codes _ (by omega), Nat.add_sub_cancel' bounds.1, Char.ofNat_toNat]

theorem absorbedDigits {digits : List Char} (all : ∀ c ∈ digits, c.isDigit = true) {n value : Nat}
    (positive : 0 < n) (absorbed : absorb n digits = (value, [])) :
    writeNat value = writeNat n ++ digits := by
  induction digits generalizing n with
  | nil =>
      cases absorbed
      rw [List.append_nil]
  | cons c digits ih =>
      obtain ⟨digit, others⟩ := List.forall_mem_cons.mp all
      obtain ⟨d, small, rfl⟩ := charOfDigit digit
      rw [absorbNext, digitCharValue d small] at absorbed
      split at absorbed
      · have tenth : (n * 10 + d) / 10 = n ∧ (n * 10 + d) % 10 = d := by omega
        rw [ih others (by omega) absorbed, writtenTenth (by omega), tenth.1, tenth.2]
        exact List.append_assoc ..
      · cases absorbed

theorem absorbedBound {digits rest : List Char} {n value : Nat} (bound : n < 2 ^ 64)
    (absorbed : absorb n digits = (value, rest)) : value < 2 ^ 64 := by
  induction digits generalizing n with
  | nil =>
      cases absorbed
      exact bound
  | cons c digits ih =>
      rw [absorbNext] at absorbed
      split at absorbed
      · rename_i fits
        exact ih fits absorbed
      · cases absorbed
        exact bound

theorem writtenNonzero {n : Nat} (positive : 0 < n) :
    ∃ c rest, writeNat n = c :: rest ∧ c ≠ '0' := by
  induction n using Nat.strongRecOn with
  | _ n ih =>
      by_cases small : n < 10
      · refine ⟨_, [], writtenSmall small, fun zero => ?_⟩
        have := digitCharZero n small zero
        omega
      · obtain ⟨c, rest, tenth, nonzero⟩ := ih (n / 10) (by omega) (by omega)
        refine ⟨c, rest ++ [Nat.digitChar (n % 10)], ?_, nonzero⟩
        rw [writtenTenth (by omega), tenth]
        rfl

theorem runDigits {digits : List Char} (all : ∀ c ∈ digits, c.isDigit = true) :
    run digits = (digits, []) := by
  induction digits with
  | nil => rfl
  | cons c digits ih =>
      obtain ⟨digit, others⟩ := List.forall_mem_cons.mp all
      simp [digit, ih others]

theorem wholePartWritten (ended : Cause) (n : Nat) :
    wholePart ended (writeNat n) = .ok (writeNat n, []) := by
  rcases Nat.eq_zero_or_pos n with zero | positive
  · subst zero
    rfl
  · obtain ⟨c, rest, written, nonzero⟩ := writtenNonzero positive
    have all := runDigits (writtenDigit n)
    have digit : c.isDigit = true := writtenDigit n c (by simp [written])
    rw [written] at all ⊢
    simp [wholePart, digit, all]

theorem writtenStart (n : Nat) : startsDigit (writeNat n) = true := by
  have digit := writtenDigit n
  cases written : writeNat n with
  | nil => exact absurd written Nat.toDigits_ne_nil
  | cons c rest => exact digit c (by simp [written])

theorem numberWritten {n : Nat} (fits : n < 2 ^ 64) :
    number (writeNat n) = .ok (.natural n.toUInt64, []) := by
  have unsigned : minus (writeNat n) = (false, writeNat n) := by
    have start := writtenStart n
    unfold minus
    split
    · rename_i same
      rw [same] at start
      contradiction
    · rfl
  have digits : numeral .endOfValue (writeNat n) = .ok (⟨false, writeNat n, none, none⟩, []) := by
    simp [numeral, unsigned, wholePartWritten, fractionPart, exponentPart, bind, Except.bind, pure,
      Except.pure]
  simp [number, digits, Numeral.value, absorbWritten fits, Number.ofInteger, bind, Except.bind, pure,
      Except.pure]

theorem digitNotSpace {c : Char} (digit : c.isDigit = true) : isSpace c = false := by
  cases blank : isSpace c with
  | false => rfl
  | true =>
      simp only [isSpace, Bool.or_eq_true, decide_eq_true_eq] at blank
      rcases blank with ((rfl | rfl) | rfl) | rfl <;> contradiction

theorem spaceDigit {text : List Char} (start : startsDigit text = true) : space text = text := by
  cases text with
  | nil => rfl
  | cons c rest => exact List.dropWhile_cons_of_neg (by simp [digitNotSpace start])

theorem unsignedWritten {most : UInt64} {n : Nat} (within : n ≤ most.toNat) (expected : String) :
    unsigned most expected (writeNat n) = .ok (n.toUInt64, []) := by
  have fits : n < 2 ^ 64 := Nat.lt_of_le_of_lt within most.toNat_lt
  have start := writtenStart n
  have accepted : n.toUInt64 ≤ most := by
    rw [UInt64.le_iff_toNat_le, Nat.toUInt64, UInt64.toNat_ofNat_of_lt' fits]
    exact within
  apply someNumberExact.mpr
  rw [spaceDigit start]
  exact ⟨by simp [startsNumber, start], _, numberWritten fits, if_pos accepted⟩

theorem natural16Written (n : UInt16) : natural16 (writeNat n.toNat) = .ok (n, []) := by
  have within : n.toNat ≤ (0xffff : UInt64).toNat := Nat.le_of_lt_succ n.toNat_lt
  simp [natural16, unsignedWritten within, bind, Except.bind, pure, Except.pure]

theorem natural32Written (n : UInt32) : natural32 (writeNat n.toNat) = .ok (n, []) := by
  have within : n.toNat ≤ (0xffffffff : UInt64).toNat := Nat.le_of_lt_succ n.toNat_lt
  simp [natural32, unsignedWritten within, bind, Except.bind, pure, Except.pure]

end TileCost.Json
