/-! The parts of a text between the occurrences of one character. A text without it
is one part, and joining the parts gives the text back. -/
namespace TileCost.Text

def parts (separator : Char) : List Char → List (List Char)
  | [] => [[]]
  | c :: rest =>
      if c = separator then [] :: parts separator rest
      else match parts separator rest with
        | [] => [[c]]
        | part :: others => (c :: part) :: others

@[simp] theorem partsNonempty (separator : Char) (text : List Char) : parts separator text ≠ [] := by
  cases text with
  | nil => simp [parts]
  | cons c rest =>
    unfold parts
    split
    · simp
    · split <;> simp

theorem partsJoined (separator : Char) (text : List Char) :
    [separator].intercalate (parts separator text) = text := by
  induction text with
  | nil => rfl
  | cons c rest ih =>
    unfold parts
    split
    · rename_i same
      obtain ⟨part, others, found⟩ := List.exists_cons_of_ne_nil (partsNonempty separator rest)
      rw [found] at ih ⊢
      simpa [List.intercalate, same] using ih
    · split
      · rename_i none
        exact absurd none (partsNonempty separator rest)
      · rename_i part others found
        rw [found] at ih
        cases others with
        | nil => simpa [List.intercalate] using ih
        | cons next others => simpa [List.intercalate] using ih

end TileCost.Text
