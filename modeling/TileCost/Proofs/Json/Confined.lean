import TileCost.Proofs.Json.Passing
import TileCost.Proofs.Json.Spelling

/-! Readers that keep to the values of the grammar: of a value they take the whole, and what
they find in it is the same wherever it stands. The first character of a value says which
reader has a use for it. -/
namespace TileCost.Json
open Outcome (bindOk)

variable {α β : Type}

structure Confined (read : Reader α) : Prop where
  spaced : ∀ text, read (space text) = read text
  kept : ∀ {value x after rest}, Valid .value value → Ends after →
    read (value ++ after) = .ok (x, rest) →
      rest = after ∧ ∀ after', Ends after' → read (value ++ after') = .ok (x, after')

namespace Confined

theorem gapped {read : Reader α} (confined : Confined read) {gap : List Char}
    (blank : space gap = []) (text : List Char) : read (gap ++ text) = read text := by
  rw [← confined.spaced, spaceBlank blank, confined.spaced]

theorem spells {read : Reader α} (confined : Confined read) {value after rest : List Char} {x : α}
    (valid : Valid .value value) (ends : Ends after) (ok : read (value ++ after) = .ok (x, rest)) :
    Spells read value x := by
  intro after' ends'
  exact ⟨[], rfl, (confined.kept valid ends ok).2 after' ends'⟩

theorem document {read : Reader α} (confined : Confined read) {gap value gap' : List Char}
    (blank : space gap = []) (blank' : space gap' = []) (valid : Valid .value value)
    {text : String} (same : text.toList = gap ++ (value ++ gap')) {x : α} :
    document read text = .ok x ↔ Spells read value x := by
  have ends := blankEnds blank'
  rw [documentExact, same, confined.gapped blank]
  constructor
  · intro ok
    obtain ⟨rest, taken, _⟩ := ok
    exact confined.spells valid ends taken
  · intro spelled
    obtain ⟨gap'', blank'', taken⟩ := spelled gap' ends
    exact ⟨_, taken, by simp [blank'', blank']⟩

theorem mapped {read : Reader α} (confined : Confined read) (f : α → β) :
    Confined fun text => do
      let (x, rest) ← read text
      return (f x, rest) where
  spaced text := by rw [confined.spaced]
  kept valid ends ok := by
    obtain ⟨⟨x, tail⟩, taken, same⟩ := bindOk.mp ok
    cases same
    obtain ⟨rfl, anywhere⟩ := confined.kept valid ends taken
    exact ⟨rfl, fun after' ends' => bindOk.mpr ⟨_, anywhere after' ends', rfl⟩⟩

end Confined

theorem valueSpace {value : List Char} (valid : Valid .value value) (after : List Char) :
    space (value ++ after) = value ++ after := by
  obtain ⟨c, rest, rfl, mark, _⟩ := valueStart valid
  exact spaceStopped mark (rest ++ after)

@[simp] theorem startsNumberExact {c : Char} {rest : List Char} :
    startsNumber (c :: rest) = true ↔ c = '-' ∨ c.isDigit = true := by
  simp [startsNumber, startsDigit]

theorem valueNumber {value : List Char} {c : Char} {rest : List Char}
    (valid : Valid .value value) (same : value = c :: rest) (start : c = '-' ∨ c.isDigit = true) :
    ∃ n : Numeral, n.Spelled value := by
  have starts : startsNumber value = true := by simpa [same] using start
  cases valid with
  | number spelled => exact ⟨_, spelled⟩
  | word one =>
      simp only [words, List.mem_cons, List.not_mem_nil, or_false] at one
      rcases one with rfl | rfl | rfl <;> contradiction
  | string all => contradiction
  | @opened frame text inside => cases frame <;> contradiction

theorem valueString {value rest : List Char} (valid : Valid .value value)
    (same : value = '"' :: rest) : Letters rest := by
  cases valid with
  | string all =>
      cases same
      exact all
  | number spelled =>
      obtain ⟨c, others, rfl, start⟩ := spelledStart spelled
      cases same
      rcases start with start | start <;> contradiction
  | word one =>
      simp only [words, List.mem_cons, List.not_mem_nil, or_false] at one
      rcases one with rfl | rfl | rfl <;> simp at same
  | @opened frame text inside => cases frame <;> simp [Frame.opening] at same

theorem openingKind {frame frame' : Frame} (same : frame.opening = frame'.opening) :
    frame = frame' := by
  cases frame <;> cases frame' <;> first | rfl | simp [Frame.opening] at same

theorem valueOpened {value rest : List Char} {frame : Frame} (valid : Valid .value value)
    (same : value = frame.opening :: rest) : Valid (.entries frame true) rest := by
  cases valid with
  | @opened frame' text inside =>
      obtain ⟨bracket, rfl⟩ := List.cons.inj same
      rwa [← openingKind bracket]
  | number spelled =>
      obtain ⟨c, others, rfl, start⟩ := spelledStart spelled
      obtain ⟨_, list, object, _⟩ := numberMark start
      cases frame with
      | list => exact absurd (List.cons.inj same).1 list
      | object => exact absurd (List.cons.inj same).1 object
  | word one =>
      simp only [words, List.mem_cons, List.not_mem_nil, or_false] at one
      cases frame <;> rcases one with rfl | rfl | rfl <;> simp [Frame.opening] at same
  | string all => cases frame <;> simp [Frame.opening] at same

theorem numberSpelled {expected : String} {take : Number → Except Cause α} {text : List Char}
    {n : Numeral} {number : Number} {x : α} (spelled : n.Spelled text)
    (known : n.value [] = .ok number) (accepted : take number = .ok x) {after : List Char}
    (ends : Ends after) : someNumber expected take (text ++ after) = .ok (x, after) := by
  obtain ⟨c, others, same, start⟩ := spelledStart spelled
  rw [someNumberExact, valueSpace (.number spelled)]
  refine ⟨by rw [same]; exact startsNumberExact.mpr start, number, bindOk.mpr ?_, accepted⟩
  exact ⟨_, numeralComplete spelled ends _, bindOk.mpr ⟨_, valuePlaceless known _, rfl⟩⟩

theorem numberSource {expected : String} {take : Number → Except Cause α}
    {text after rest : List Char} {x : α} (valid : Valid .value text) (ends : Ends after)
    (ok : someNumber expected take (text ++ after) = .ok (x, rest)) :
    rest = after ∧ ∃ (n : Numeral) (number : Number),
      n.Spelled text ∧ n.value [] = .ok number ∧ take number = .ok x := by
  obtain ⟨starts, number, taken, accepted⟩ := someNumberExact.mp ok
  rw [valueSpace valid] at starts taken
  obtain ⟨c, others, same, _⟩ := valueStart valid
  rw [same, List.cons_append, startsNumberExact] at starts
  obtain ⟨n, spelled⟩ := valueNumber valid same starts
  obtain ⟨⟨n', tail⟩, digits, ok⟩ := bindOk.mp taken
  rw [numeralComplete spelled ends] at digits
  cases digits
  obtain ⟨v, known, found⟩ := bindOk.mp ok
  cases found
  exact ⟨rfl, n, number, spelled, valuePlaceless known [], accepted⟩

theorem someNumberConfined (expected : String) (take : Number → Except Cause α) :
    Confined (someNumber expected take) where
  spaced := (someNumberBegins expected take).spaced
  kept valid ends ok := by
    obtain ⟨same, n, number, spelled, known, accepted⟩ := numberSource valid ends ok
    exact ⟨same, fun after' ends' => numberSpelled spelled known accepted ends'⟩

theorem unsignedConfined (most : UInt64) (expected : String) : Confined (unsigned most expected) :=
  someNumberConfined _ _

theorem numberExact {expected : String} {take : Number → Except Cause α} {text : List Char} {x : α}
    (valid : Valid .value text) :
    Spells (someNumber expected take) text x ↔ ∃ (n : Numeral) (number : Number),
      n.Spelled text ∧ n.value [] = .ok number ∧ take number = .ok x := by
  constructor
  · intro spelled
    have ends : Ends [] := trivial
    obtain ⟨gap, _, ok⟩ := spelled [] ends
    exact (numberSource valid ends ok).2
  · intro source
    obtain ⟨n, number, spelled, known, accepted⟩ := source
    exact fun after ends => ⟨[], rfl, numberSpelled spelled known accepted ends⟩

theorem writtenWhole (n : Nat) : Whole (writeNat n) := by
  rcases Nat.eq_zero_or_pos n with zero | positive
  · subst zero
    exact .zero
  · obtain ⟨c, rest, written, start⟩ := writtenNonzero positive
    have all := writtenDigit n
    rw [written] at all ⊢
    exact .digits start ⟨List.cons_ne_nil c rest, all⟩

theorem writtenSpelled (n : Nat) :
    Numeral.Spelled ⟨false, writeNat n, none, none⟩ (writeNat n) := by
  have parts := @Numeral.Spelled.parts false _ none none [] [] (writtenWhole n) .absent .absent
  simpa using parts

theorem writtenValid (n : Nat) : Valid .value (writeNat n) := .number (writtenSpelled n)

theorem wholeWritten {whole : List Char} (digits : Whole whole) {value : Nat}
    (absorbed : absorb 0 whole = (value, [])) : whole = writeNat value ∧ value < 2 ^ 64 := by
  refine ⟨?_, absorbedBound (by decide) absorbed⟩
  cases digits with
  | zero =>
      cases absorbed
      rfl
  | @digits c rest start all =>
      obtain ⟨digit, others⟩ := List.forall_mem_cons.mp all.2
      obtain ⟨d, small, rfl⟩ := charOfDigit digit
      have positive : 0 < d := Nat.pos_of_ne_zero fun zero => start (by rw [zero]; rfl)
      rw [absorbNext, digitCharValue d small, Nat.zero_mul, Nat.zero_add,
        if_pos (by omega)] at absorbed
      rw [absorbedDigits others positive absorbed, writtenSmall small]
      rfl

theorem naturalInteger {negative : Bool} {significand : Nat} {value : UInt64}
    (natural : Number.ofInteger negative significand = .natural value) :
    negative = false ∧ significand.toUInt64 = value := by
  unfold Number.ofInteger at natural
  split at natural
  · rename_i unsigned
    exact ⟨by simpa using unsigned, Number.natural.inj natural⟩
  · split at natural <;> contradiction

theorem naturalWritten {n : Numeral} {text : List Char} {value : UInt64}
    (spelled : n.Spelled text) (known : n.value [] = .ok (.natural value)) :
    text = writeNat value.toNat := by
  obtain @⟨negative, whole, fraction, exponent, point, power, digits, behind, scaled⟩ := spelled
  unfold Numeral.value at known
  dsimp only at known
  split at known
  · rename_i _ _ dropped
    cases behind
    cases scaled
    obtain ⟨same, bound⟩ := wholeWritten digits (Prod.ext rfl dropped)
    obtain ⟨rfl, rfl⟩ := naturalInteger (Except.ok.inj known)
    rw [Nat.toUInt64, UInt64.toNat_ofNat_of_lt' bound, ← same]
    simp
  · obtain ⟨x, _, real⟩ := Outcome.mapOk.mp known
    contradiction

theorem naturalExact {most : UInt64} {expected : String} {text : List Char}
    (valid : Valid .value text) {n : UInt64} :
    Spells (unsigned most expected) text n ↔ n ≤ most ∧ text = writeNat n.toNat := by
  constructor
  · intro spelled
    obtain ⟨numeral, number, digits, known, accepted⟩ := (numberExact valid).mp spelled
    cases number with
    | natural found =>
        dsimp only at accepted
        split at accepted
        · rename_i small
          cases accepted
          exact ⟨small, naturalWritten digits known⟩
        · contradiction
    | negative size => contradiction
    | real x => contradiction
  · intro here
    obtain ⟨small, rfl⟩ := here
    have written := unsignedWritten (UInt64.le_iff_toNat_le.mp small) expected
    rw [Nat.toUInt64, UInt64.ofNat_toNat] at written
    exact .ofRead (unsignedDetermined most expected) written

theorem natural64Exact {text : List Char} (valid : Valid .value text) {n : UInt64} :
    Spells natural64 text n ↔ text = writeNat n.toNat := by
  have within : n ≤ 0xffffffffffffffff := UInt64.le_iff_toNat_le.mpr (Nat.le_of_lt_succ n.toNat_lt)
  rw [natural64, naturalExact valid, and_iff_right within]

theorem natural16Exact {text : List Char} (valid : Valid .value text) {n : UInt16} :
    Spells natural16 text n ↔ text = writeNat n.toNat := by
  constructor
  · intro spelled
    have determined := unsignedDetermined 0xffff "u16"
    obtain ⟨value, taken, rfl⟩ := (Spells.mappedExact determined).mp spelled
    obtain ⟨small, same⟩ := (naturalExact valid).mp taken
    have least : value.toNat < 2 ^ 16 := Nat.lt_succ_of_le (UInt64.le_iff_toNat_le.mp small)
    rw [same, UInt64.toNat_toUInt16, Nat.mod_eq_of_lt least]
  · rintro rfl
    exact .ofRead natural16Determined (natural16Written n)

theorem lettersQuoted {letters after value rest} (all : Letters letters)
    (quoted : Quoted (letters ++ after) value rest) : rest = after ∧ Quoted letters value [] := by
  obtain ⟨letters', all', exact, same⟩ := quotedLetters quoted
  have left := skipStringComplete all after
  rw [same, skipStringComplete all'] at left
  cases left
  exact ⟨rfl, List.append_cancel_right same ▸ exact⟩

theorem quotedStringConfined (expected : String) : Confined (quotedString expected) where
  spaced text := by
    unfold quotedString
    rw [spaceTwice]
  kept {value x after rest} valid ends ok := by
    obtain ⟨c, others, same, _⟩ := valueStart valid
    unfold quotedString at ok ⊢
    rw [valueSpace valid, same] at ok
    split at ok
    · rename_i tail here
      obtain ⟨rfl, rfl⟩ := List.cons.inj here
      obtain ⟨rfl, exact⟩ := lettersQuoted (valueString valid same) (stringExact.mp ok)
      refine ⟨rfl, fun after' _ => ?_⟩
      rw [valueSpace valid, same]
      exact stringExact.mpr (quotedContinued exact after')
    · contradiction

end TileCost.Json
