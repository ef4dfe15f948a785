import TileCost.Tile.Extents
import TileCost.Proofs.Outcome
import TileCost.Proofs.Text.Pieces

/-! The written form of a tile as a grammar, and the reader as exactly that grammar: it
accepts what the grammar describes, with the values it describes, and nothing else. Zeros
in front and white space around an extent are free; one past the last extent is not. -/
namespace TileCost

namespace Extents
open Outcome (bindOk mapOk mapErrorOk)
open Text (Trimmed isBlank trimmedExact partsThree)

structure Numeral (digits : List Char) (value : UInt64) : Prop where
  some : digits ≠ []
  all : ∀ c ∈ digits, c.isDigit = true
  size : Nat.ofDigitChars 10 digits 0 = value.toNat

inductive Written (value : UInt64) : List Char → Prop where
  | plain {digits} (numeral : Numeral digits value) : Written value digits
  | signed {digits} (numeral : Numeral digits value) : Written value ('+' :: digits)

def Spells (part : List Char) (value : UInt64) : Prop :=
  ∃ core, Trimmed part core ∧ Written value core

inductive Grammar : List Char → Tile → Prop where
  | mk {m n k : List Char} {t : Tile} (apart : ',' ∉ m ∧ ',' ∉ n ∧ ',' ∉ k)
      (first : Spells m t.m) (second : Spells n t.n) (third : Spells k t.k) :
      Grammar (m ++ ',' :: (n ++ ',' :: k)) t

theorem digitsGrow (digits : List Char) (value : Nat) :
    value ≤ Nat.ofDigitChars 10 digits value := by
  rw [Nat.ofDigitChars_eq_ofDigitChars_zero]
  have scale : 1 ≤ 10 ^ digits.length := Nat.one_le_pow _ _ (by decide)
  calc value = 1 * value := (Nat.one_mul value).symm
    _ ≤ 10 ^ digits.length * value := Nat.mul_le_mul_right value scale
    _ ≤ _ := Nat.le_add_right _ _

@[simp] theorem digitsNext (value : Nat) (c : Char) (rest : List Char) :
    digits value (c :: rest) =
      if c.isDigit then
        if value * 10 + (c.toNat - '0'.toNat) < 2 ^ 64 then
          digits (value * 10 + (c.toNat - '0'.toNat)) rest
        else .error .large
      else .error .digit := rfl

/- The value only grows, so one that is too large after some digit stays so. -/
theorem digitsExact {value n : Nat} {text : List Char} (fits : value < 2 ^ 64) :
    digits value text = .ok n ↔
      (∀ c ∈ text, c.isDigit = true) ∧ Nat.ofDigitChars 10 text value = n ∧ n < 2 ^ 64 := by
  induction text generalizing value with
  | nil =>
      change Except.ok value = Except.ok n ↔ _
      rw [Nat.ofDigitChars_nil, Except.ok.injEq]
      constructor
      · intro same
        subst same
        exact ⟨by simp, rfl, fits⟩
      · intro read
        exact read.2.1
  | cons c rest ih =>
      rw [digitsNext, Nat.ofDigitChars_cons, Nat.mul_comm 10 value, List.forall_mem_cons]
      by_cases digit : c.isDigit = true
      · rw [if_pos digit]
        split
        · rename_i next
          rw [ih next]
          simp [digit]
        · rename_i large
          refine iff_of_false (by simp) ?_
          intro read
          obtain ⟨_, same, small⟩ := read
          have grown := digitsGrow rest (value * 10 + (c.toNat - '0'.toNat))
          omega
      · rw [if_neg digit]
        exact iff_of_false (by simp) fun read => digit read.1.1

theorem unsignedExact {text : List Char} {value : UInt64} :
    (unsigned text).map Nat.toUInt64 = .ok value ↔ Numeral text value := by
  rw [mapOk]
  cases text with
  | nil => exact iff_of_false (by simp [unsigned]) fun numeral => numeral.some rfl
  | cons c rest =>
      constructor
      · intro read
        obtain ⟨n, taken, same⟩ := read
        obtain ⟨all, size, small⟩ := (digitsExact (by decide)).mp taken
        refine ⟨by simp, all, size.trans ?_⟩
        rw [← same, Nat.toUInt64, UInt64.toNat_ofNat_of_lt' small]
      · intro numeral
        refine ⟨value.toNat, ?_, UInt64.ofNat_toNat⟩
        exact (digitsExact (by decide)).mpr ⟨numeral.all, numeral.size, value.toNat_lt⟩

theorem plusNumeral {rest : List Char} {value : UInt64} : ¬ Numeral ('+' :: rest) value := by
  intro numeral
  exact absurd (numeral.all '+' List.mem_cons_self) (by decide)

theorem extentExact {text : List Char} {value : UInt64} :
    extent text = .ok value ↔ Written value text := by
  unfold extent
  split
  · refine iff_of_false (by simp) ?_
    intro written
    cases written with
    | plain numeral => exact numeral.some rfl
  · rw [unsignedExact]
    constructor
    · exact .signed
    · intro written
      cases written with
      | plain numeral => exact absurd numeral plusNumeral
      | signed numeral => exact numeral
  · rename_i unsigned
    rw [unsignedExact]
    constructor
    · exact .plain
    · intro written
      cases written with
      | plain numeral => exact numeral
      | signed numeral => exact absurd rfl (unsigned _)

theorem partExact {text : List Char} {value : UInt64} :
    part (Text.trimmed text) = .ok value ↔ Spells text value := by
  rw [part, mapErrorOk, extentExact]
  constructor
  · intro written
    exact ⟨_, Text.trimmedIs text, written⟩
  · intro spells
    obtain ⟨core, trimmed, written⟩ := spells
    rw [trimmedExact.mpr trimmed]
    exact written

theorem readThree {text m n k : List Char} (split : Text.parts ',' text = [m, n, k]) :
    read text = do
      return ⟨← part (Text.trimmed m), ← part (Text.trimmed n), ← part (Text.trimmed k)⟩ := by
  rw [read, split]
  rfl

theorem readSplit {text : List Char} {t : Tile} (ok : read text = .ok t) :
    ∃ m n k, Text.parts ',' text = [m, n, k] := by
  unfold read at ok
  split at ok
  · rename_i three
    simp only [List.map_eq_cons_iff, List.map_eq_nil_iff] at three
    obtain ⟨m, _, split, _, n, _, rfl, _, k, _, rfl, _, rfl⟩ := three
    exact ⟨m, n, k, split⟩
  · contradiction

theorem readExact {text : List Char} {t : Tile} : read text = .ok t ↔ Grammar text t := by
  constructor
  · intro ok
    obtain ⟨m, n, k, split⟩ := readSplit ok
    rw [readThree split] at ok
    simp only [bindOk, partExact, pure, Except.pure, Except.ok.injEq] at ok
    obtain ⟨_, first, _, second, _, third, rfl⟩ := ok
    obtain ⟨rfl, apart⟩ := partsThree.mp split
    exact .mk apart first second third
  · intro grammar
    cases grammar with
    | @mk m n k t apart first second third =>
        rw [readThree (partsThree.mpr ⟨rfl, apart⟩), partExact.mpr first, partExact.mpr second,
          partExact.mpr third]
        rfl

theorem digitSolid {c : Char} (digit : c.isDigit = true) : isBlank c = false := by
  have bounds : 48 ≤ c.toNat ∧ c.toNat ≤ 57 := Char.isDigit_iff_toNat.mp digit
  simp only [isBlank, Text.blankRanges, List.any_cons, List.any_nil, Bool.or_false,
    Bool.or_eq_false_iff, Bool.and_eq_false_iff, decide_eq_false_iff_not]
  omega

theorem Written.letters {value : UInt64} {core : List Char} (written : Written value core) :
    core ≠ [] ∧ ∀ c ∈ core, c = '+' ∨ c.isDigit = true := by
  cases written with
  | plain numeral => exact ⟨numeral.some, fun c member => .inr (numeral.all c member)⟩
  | signed numeral =>
      refine ⟨by simp, List.forall_mem_cons.mpr ⟨.inl rfl, ?_⟩⟩
      exact fun c member => .inr (numeral.all c member)

theorem Spells.letters {part : List Char} {value : UInt64} (spells : Spells part value) :
    part ≠ [] ∧ ∀ c ∈ part, isBlank c = true ∨ c = '+' ∨ c.isDigit = true := by
  obtain ⟨core, trimmed, written⟩ := spells
  obtain ⟨front, back, rfl, blankFront, blankBack⟩ := trimmed.around
  obtain ⟨some, letters⟩ := written.letters
  refine ⟨by simp [some], ?_⟩
  intro c member
  simp only [List.mem_append] at member
  rcases member with (first | inner) | last
  · exact .inl (blankFront c first)
  · exact .inr (letters c inner)
  · exact .inl (blankBack c last)

theorem Grammar.undashed {text : List Char} {t : Tile} (grammar : Grammar text t) :
    text.head? ≠ some '-' := by
  cases grammar with
  | @mk m n k t apart first second third =>
      obtain ⟨some, letters⟩ := first.letters
      obtain ⟨c, rest, rfl⟩ := List.exists_cons_of_ne_nil some
      intro dash
      cases dash
      exact absurd (letters '-' List.mem_cons_self) (by decide)

theorem Spells.apart {part : List Char} {value : UInt64} (spells : Spells part value) :
    ',' ∉ part := by
  intro member
  exact absurd (spells.letters.2 ',' member) (by decide)

theorem spellsAround {front back core : List Char} {value : UInt64}
    (blankFront : ∀ c ∈ front, isBlank c = true) (blankBack : ∀ c ∈ back, isBlank c = true)
    (numeral : Numeral core value) : Spells (front ++ core ++ back) value := by
  refine ⟨core, ⟨⟨front, back, rfl, blankFront, blankBack⟩, ?_, ?_⟩, .plain numeral⟩
  · intro c first
    exact digitSolid (numeral.all c (List.mem_of_mem_head? first))
  · intro c last
    exact digitSolid (numeral.all c (List.mem_of_getLast? last))

theorem decimalNumeral (value : UInt64) : Numeral (Nat.toDigits 10 value.toNat) value where
  some := Nat.toDigits_ne_nil
  all _ member := Nat.isDigit_of_mem_toDigits (by decide) (by decide) member
  size := Nat.ofDigitChars_ten_toDigits

structure Padding where
  front : List Char
  back : List Char
  blankFront : ∀ c ∈ front, isBlank c = true
  blankBack : ∀ c ∈ back, isBlank c = true

def Padding.around (p : Padding) (value : UInt64) : List Char :=
  p.front ++ Nat.toDigits 10 value.toNat ++ p.back

theorem Padding.spells (p : Padding) (value : UInt64) : Spells (p.around value) value :=
  spellsAround p.blankFront p.blankBack (decimalNumeral value)

end Extents

open Extents (Padding Grammar)

theorem Tile.textGrammar :
    (∀ (text : String) (t : Tile), Tile.ofText text = .ok t ↔ Grammar text.toList t) ∧
    ∀ (t : Tile) (m n k : Padding), Tile.ofText (String.ofList
      (m.around t.m ++ ',' :: (n.around t.n ++ ',' :: k.around t.k))) = .ok t := by
  have exact (text : String) (t : Tile) : Tile.ofText text = .ok t ↔ Grammar text.toList t :=
    Extents.readExact
  refine ⟨exact, ?_⟩
  intro t m n k
  have first := m.spells t.m
  have second := n.spells t.n
  have third := k.spells t.k
  rw [exact, String.toList_ofList]
  exact .mk ⟨first.apart, second.apart, third.apart⟩ first second third

example : Tile.ofText " +0064\u2003,16,18446744073709551615" = .ok ⟨64, 16, 2 ^ 64 - 1⟩ := by
  decide +kernel

end TileCost
