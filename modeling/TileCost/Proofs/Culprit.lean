import TileCost.Proofs.TileText

/-! What is said of a text that is no tile. Without three parts it is only its shape; with
three it is the leftmost part that is no extent. A part that starts with more digits than an
extent holds is too large, whatever stands behind them, and no other part is. -/
namespace TileCost.Extents
open Outcome (eachError mapError mapErrorError)

def unsign : List Char → List Char
  | '+' :: rest => rest
  | text => text

def leading (part : List Char) : Nat := Nat.ofDigitChars 10 ((unsign part).takeWhile Char.isDigit) 0

inductive Broken : List Char → Nat → Prop where
  | mk {sign digits rest : List Char} {c : Char} (signed : sign = [] ∨ sign = ['+'])
      (some : digits ≠ []) (all : ∀ d ∈ digits, d.isDigit = true) (other : c.isDigit = false) :
      Broken (sign ++ (digits ++ c :: rest)) (Nat.ofDigitChars 10 digits 0)

structure Culprit (parts : List (List Char)) (part : List Char) (why : Reason) : Prop where
  leftmost : ∃ front back, parts = front ++ part :: back ∧ ∀ p ∈ front, ∃ value, Written value p
  unfit : ∀ value, ¬ Written value part
  empty : why = .empty ↔ part = []
  large : why = .large ↔ 2 ^ 64 - 1 < leading part
  digit : why = .digit ↔ part ≠ [] ∧ leading part ≤ 2 ^ 64 - 1
  broken : ∀ value, Broken part value → why = if value ≤ 2 ^ 64 - 1 then .digit else .large

/- The value so far fits after every digit, and once it does not it never does again: so
only the digits in front of the first other character count. -/
theorem digitsLeading {value : Nat} (fits : value < 2 ^ 64) (text : List Char) :
    digits value text =
      if Nat.ofDigitChars 10 (text.takeWhile Char.isDigit) value < 2 ^ 64 then
        if text.all Char.isDigit then .ok (Nat.ofDigitChars 10 text value) else .error .digit
      else .error .large := by
  induction text generalizing value with
  | nil =>
      rw [List.takeWhile_nil, Nat.ofDigitChars_nil, if_pos fits]
      rfl
  | cons c rest ih =>
      rw [digitsNext]
      by_cases digit : c.isDigit = true
      · rw [if_pos digit, List.takeWhile_cons_of_pos digit, Nat.ofDigitChars_cons,
          Nat.ofDigitChars_cons, Nat.mul_comm 10 value, List.all_cons, digit, Bool.true_and]
        split
        · rename_i next
          exact ih next
        · rename_i large
          have grown := digitsGrow (rest.takeWhile Char.isDigit)
            (value * 10 + (c.toNat - '0'.toNat))
          rw [if_neg (by omega)]
      · have stopped : (c :: rest).all Char.isDigit = false := by simp [digit]
        rw [if_neg digit, List.takeWhile_cons_of_neg digit, Nat.ofDigitChars_nil, if_pos fits,
          stopped]
        rfl

theorem unsignedLeading {text : List Char} (some : text ≠ []) :
    unsigned text =
      if Nat.ofDigitChars 10 (text.takeWhile Char.isDigit) 0 < 2 ^ 64 then
        if text.all Char.isDigit then .ok (Nat.ofDigitChars 10 text 0) else .error .digit
      else .error .large := by
  obtain ⟨c, rest, rfl⟩ := List.exists_cons_of_ne_nil some
  exact digitsLeading (by decide) _

theorem extentUnsigned {part : List Char} (some : part ≠ []) :
    extent part = (unsigned (unsign part)).map Nat.toUInt64 := by
  obtain ⟨c, rest, rfl⟩ := List.exists_cons_of_ne_nil some
  unfold extent unsign
  split <;> simp_all

theorem extentError {part : List Char} {why : Reason} (refused : extent part = .error why) :
    (why = .empty ↔ part = []) ∧ (why = .large ↔ 2 ^ 64 - 1 < leading part) ∧
      (why = .digit ↔ part ≠ [] ∧ leading part ≤ 2 ^ 64 - 1) := by
  by_cases nothing : part = []
  · subst nothing
    cases refused
    simp [leading, unsign]
  · rw [extentUnsigned nothing, mapError] at refused
    have reason : why = if leading part < 2 ^ 64 then .digit else .large := by
      unfold leading
      by_cases bare : unsign part = []
      · rw [bare] at refused ⊢
        cases refused
        rfl
      · rw [unsignedLeading bare] at refused
        split at refused
        · rename_i fits
          split at refused
          · contradiction
          · cases refused
            rw [if_pos fits]
        · rename_i large
          cases refused
          rw [if_neg large]
    rw [reason]
    split <;> simp [nothing] <;> omega

theorem leadingBroken {part : List Char} {value : Nat} (broken : Broken part value) :
    part ≠ [] ∧ leading part = value := by
  obtain ⟨signed, some, all, other⟩ := broken
  rename_i sign digits rest c
  have taken : (digits ++ c :: rest).takeWhile Char.isDigit = digits := by
    rw [List.takeWhile_append_of_pos all, List.takeWhile_cons_of_neg (by simp [other]),
      List.append_nil]
  refine ⟨by simp, ?_⟩
  unfold leading
  rcases signed with rfl | rfl
  · obtain ⟨d, others, rfl⟩ := List.exists_cons_of_ne_nil some
    have unsigned : unsign (d :: others ++ c :: rest) = d :: others ++ c :: rest := by
      unfold unsign
      split
      · rename_i plus
        cases plus
        exact absurd (all '+' List.mem_cons_self) (by decide)
      · rfl
    rw [List.nil_append, unsigned, taken]
  · exact congrArg (Nat.ofDigitChars 10 · 0) taken

theorem partError {part : List Char} {f : Fault} :
    Extents.part part = .error f ↔ ∃ why, extent part = .error why ∧ .extent part why = f :=
  mapErrorError

theorem refusedUnfit {part : List Char} :
    (∃ why, extent part = .error why) ↔ ∀ value, ¬ Written value part := by
  simp only [← extentExact]
  cases extent part <;> simp

theorem readError {text : List Char} {f : Fault} :
    let parts := (Text.parts ',' text).map Text.trimmed
    read text = .error f ↔
      (parts.length ≠ 3 ∧ f = .shape) ∨ (parts.length = 3 ∧ parts.mapM part = .error f) := by
  intro parts
  unfold read
  split
  · rename_i m n k three
    have split : parts = [m, n, k] := three
    rw [split]
    simp [pure, Except.pure]
  · rename_i other
    have differs : parts.length ≠ 3 := by
      intro three
      obtain ⟨m, n, k, split⟩ := List.length_eq_three.mp three
      exact other m n k split
    simp [differs, eq_comm]

theorem Culprit.reason {parts part why why'} (culprit : Culprit parts part why)
    (refused : extent part = .error why') : why' = why := by
  obtain ⟨empty, large, digit⟩ := extentError refused
  cases why with
  | empty => exact empty.mpr (culprit.empty.mp rfl)
  | large => exact large.mpr (culprit.large.mp rfl)
  | digit => exact digit.mpr (culprit.digit.mp rfl)

theorem culpritExact {parts : List (List Char)} {f : Fault} :
    parts.mapM part = .error f ↔ ∃ part why, Culprit parts part why ∧ f = .extent part why := by
  have accepted (p : List Char) : (∃ value, part p = .ok value) ↔ ∃ value, Written value p := by
    simp only [part, Outcome.mapErrorOk, extentExact]
  simp only [eachError, partError, accepted]
  constructor
  · rintro ⟨front, part, back, split, taken, why, refused, rfl⟩
    obtain ⟨empty, large, digit⟩ := extentError refused
    refine ⟨part, why, ⟨⟨front, back, split, taken⟩, refusedUnfit.mp ⟨why, refused⟩, empty, large,
      digit, fun value broken => ?_⟩, rfl⟩
    obtain ⟨some, same⟩ := leadingBroken broken
    rw [same] at large digit
    split
    · rename_i fits
      exact digit.mpr ⟨some, fits⟩
    · rename_i beyond
      exact large.mpr (by omega)
  · rintro ⟨part, why, culprit, rfl⟩
    obtain ⟨front, back, split, taken⟩ := culprit.leftmost
    obtain ⟨why', refused⟩ := refusedUnfit.mpr culprit.unfit
    exact ⟨front, part, back, split, taken, why', refused, by rw [culprit.reason refused]⟩

end TileCost.Extents

namespace TileCost
open Extents (Culprit)

theorem Tile.culpritNamed (text : String) (f : Extents.Fault) :
    let parts := (Text.parts ',' text.toList).map Text.trimmed
    Tile.ofText text = .error f ↔
      (parts.length ≠ 3 ∧ f = .shape ∧
        f.message text.toList = s!"expected M,N,K but got {Text.quoted text.toList}") ∨
      (parts.length = 3 ∧ ∃ part why, Culprit parts part why ∧ f = .extent part why ∧
        f.message text.toList =
          s!"invalid extent {Text.quoted part} in {Text.quoted text.toList}: {why.message}") := by
  intro parts
  have refused : Tile.ofText text = .error f ↔ _ := Extents.readError
  rw [refused, Extents.culpritExact]
  constructor
  · rintro (⟨differs, rfl⟩ | ⟨three, part, why, culprit, rfl⟩)
    · exact .inl ⟨differs, rfl, rfl⟩
    · exact .inr ⟨three, part, why, culprit, rfl, rfl⟩
  · rintro (⟨differs, shape, _⟩ | ⟨three, part, why, culprit, extent, _⟩)
    · exact .inl ⟨differs, shape⟩
    · exact .inr ⟨three, part, why, culprit, extent⟩

example : Tile.ofText "1, 18446744073709551615x18446744073709551616 ,-" =
    .error (.extent "18446744073709551615x18446744073709551616".toList .digit) := by decide +kernel
example : Tile.ofText "1,+18446744073709551616x,-" =
    .error (.extent "+18446744073709551616x".toList .large) := by decide +kernel

end TileCost
