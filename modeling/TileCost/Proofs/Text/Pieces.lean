import Mathlib
import TileCost.Text.Blank
import TileCost.Text.Split

/-! Splitting and trimming, told from the text alone: the parts are what a separator that
is in none of them joins to the text, and what is trimmed begins and ends with no white
space and has nothing but white space around it. -/
namespace TileCost.Text

variable {separator : Char}

@[simp] theorem partsPlain {text : List Char} (plain : separator ∉ text) :
    parts separator text = [text] := by
  induction text with
  | nil => rfl
  | cons c rest ih =>
      obtain ⟨first, others⟩ := not_or.mp (List.mem_cons.not.mp plain)
      rw [parts, if_neg (Ne.symm first), ih others]

theorem partsAppended {part : List Char} (plain : separator ∉ part) (rest : List Char) :
    parts separator (part ++ separator :: rest) = part :: parts separator rest := by
  induction part with
  | nil => exact if_pos rfl
  | cons c part ih =>
      obtain ⟨first, others⟩ := not_or.mp (List.mem_cons.not.mp plain)
      rw [List.cons_append, parts, if_neg (Ne.symm first), ih others]

theorem partsBetween (front back : List Char) :
    parts separator (front ++ separator :: back) =
      parts separator front ++ parts separator back := by
  induction front with
  | nil => exact if_pos rfl
  | cons c front ih =>
      obtain ⟨first, others, split⟩ := List.exists_cons_of_ne_nil (partsNonempty separator front)
      rw [split] at ih
      rw [List.cons_append, parts, parts, ih, split]
      by_cases same : c = separator
      · rw [if_pos same, if_pos same]
        rfl
      · rw [if_neg same, if_neg same]
        rfl

theorem partsApart (separator : Char) (text : List Char) :
    ∀ part ∈ parts separator text, separator ∉ part := by
  induction text with
  | nil => simp [parts]
  | cons c rest ih =>
      obtain ⟨first, others, split⟩ := List.exists_cons_of_ne_nil (partsNonempty separator rest)
      rw [split] at ih
      obtain ⟨firstApart, othersApart⟩ := List.forall_mem_cons.mp ih
      rw [parts, split]
      by_cases same : c = separator
      · rw [if_pos same]
        exact List.forall_mem_cons.mpr ⟨List.not_mem_nil, ih⟩
      · rw [if_neg same]
        refine List.forall_mem_cons.mpr ⟨?_, othersApart⟩
        exact List.not_mem_cons_of_ne_of_not_mem (Ne.symm same) firstApart

theorem partsThree {text a b c : List Char} :
    parts separator text = [a, b, c] ↔
      text = a ++ separator :: (b ++ separator :: c) ∧
        separator ∉ a ∧ separator ∉ b ∧ separator ∉ c := by
  constructor
  · intro split
    have joined := partsJoined separator text
    have apart := partsApart separator text
    rw [split] at joined apart
    refine ⟨?_, apart a (by simp), apart b (by simp), apart c (by simp)⟩
    rw [← joined]
    simp [List.intercalate]
  · intro written
    obtain ⟨rfl, first, second, third⟩ := written
    rw [partsAppended first, partsAppended second, partsPlain third]

structure Trimmed (text core : List Char) : Prop where
  around : ∃ front back, text = front ++ core ++ back ∧
    (∀ c ∈ front, isBlank c = true) ∧ ∀ c ∈ back, isBlank c = true
  starts : ∀ c ∈ core.head?, isBlank c = false
  ends : ∀ c ∈ core.getLast?, isBlank c = false

theorem trimmedTwice (text : List Char) :
    trimmed text = (text.dropWhile isBlank).rdropWhile isBlank := rfl

theorem dropped {text : List Char} : ∀ c ∈ (text.dropWhile isBlank).head?, isBlank c = false := by
  intro c first
  have stopped := List.head?_dropWhile_not isBlank text
  rw [Option.mem_def] at first
  rw [first] at stopped
  exact stopped

theorem undropped {text : List Char} (starts : ∀ c ∈ text.head?, isBlank c = false) :
    text.dropWhile isBlank = text := by
  cases text with
  | nil => rfl
  | cons c rest => exact List.dropWhile_cons_of_neg (by simp [starts c rfl])

theorem trimmedIs (text : List Char) : Trimmed text (trimmed text) where
  around := by
    refine ⟨text.takeWhile isBlank, (text.dropWhile isBlank).rtakeWhile isBlank, ?_,
      fun _ member => List.mem_takeWhile_imp member,
      fun _ member => List.mem_rtakeWhile_imp member⟩
    rw [trimmedTwice, List.append_assoc, List.rdropWhile_append_rtakeWhile,
      List.takeWhile_append_dropWhile]
  starts := by
    intro c first
    obtain ⟨back, joined⟩ := List.rdropWhile_prefix isBlank (l := text.dropWhile isBlank)
    have start : c ∈ (text.dropWhile isBlank).head? := by
      rw [← joined, List.head?_append, ← trimmedTwice, Option.mem_def.mp first]
      rfl
    exact dropped c start
  ends := by
    intro c last
    rw [trimmed, List.getLast?_reverse] at last
    exact dropped c last

theorem trimmedOf {text core : List Char} (is : Trimmed text core) : trimmed text = core := by
  obtain ⟨⟨front, back, rfl, blankFront, blankBack⟩, starts, ends⟩ := is
  rw [trimmedTwice, List.append_assoc, List.dropWhile_append_of_pos blankFront]
  cases core with
  | nil =>
      rw [List.nil_append, List.dropWhile_eq_nil_iff.mpr blankBack]
      rfl
  | cons c core =>
      have last : ∀ d ∈ (c :: core).reverse.head?, isBlank d = false := by
        rw [List.head?_reverse]
        exact ends
      have first : ∀ d ∈ (c :: core ++ back).head?, isBlank d = false := starts
      rw [undropped first, List.rdropWhile, List.reverse_append,
        List.dropWhile_append_of_pos (by simpa using blankBack), undropped last,
        List.reverse_reverse]

theorem trimmedExact {text core : List Char} : trimmed text = core ↔ Trimmed text core :=
  ⟨fun same => same ▸ trimmedIs text, trimmedOf⟩

end TileCost.Text
