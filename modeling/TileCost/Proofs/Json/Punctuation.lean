import TileCost.Json.Document

/-! The marks between values, and the white space around them: what has to stand in
the text for a list or an object to go on, or to be over. -/
namespace TileCost.Json

theorem spaceContinued {text : List Char} (stopped : space text ≠ []) (more : List Char) :
    space (text ++ more) = space text ++ more := by
  unfold space at *
  rw [List.dropWhile_append, if_neg (by simpa using stopped)]

theorem spaceAt {text rest : List Char} {c : Char} (here : space text = c :: rest)
    (more : List Char) : space (text ++ more) = c :: (rest ++ more) := by
  rw [spaceContinued (by simp [here]), here]
  rfl

@[simp] theorem spaceBlank {text : List Char} (blank : space text = []) (more : List Char) :
    space (text ++ more) = space more := by
  unfold space at *
  rw [List.dropWhile_append, blank]
  rfl

@[simp] theorem spaceStopped {c : Char} (mark : isSpace c = false) (rest : List Char) :
    space (c :: rest) = c :: rest := List.dropWhile_cons_of_neg (by simp [mark])

@[simp] theorem spaceMark {gap : List Char} (blank : space gap = []) {c : Char} (mark : isSpace c = false)
    (rest : List Char) : space (gap ++ c :: rest) = c :: rest := by
  simp [blank, mark]

inductive Upcoming (first : Bool) (text : List Char) : Next → Prop where
  | closed {rest} (bracket : space text = ']' :: rest) : Upcoming first text (.closed rest)
  | item {c rest} (start : first = true) (here : space text = c :: rest) (inside : c ≠ ']') :
      Upcoming first text (.item (c :: rest))
  | next {tail c rest} (later : first = false) (comma : space text = ',' :: tail)
      (here : space tail = c :: rest) (inside : c ≠ ']') : Upcoming first text (.item (c :: rest))

theorem nextItemExact {first text next} :
    nextItem first text = .ok next ↔ Upcoming first text next := by
  constructor
  · intro ok
    unfold nextItem at ok
    split at ok
    · contradiction
    · rename_i bracket
      cases ok
      exact .closed bracket
    · rename_i c rest inside here
      split at ok
      · rename_i start
        cases ok
        exact .item start here inside
      · rename_i later
        split at ok
        · rename_i comma
          subst comma
          split at ok
          · contradiction
          · contradiction
          · rename_i none bracket
            cases ok
            cases there : space rest with
            | nil => exact absurd there none
            | cons d tail =>
                refine .next (by simpa using later) here there ?_
                intro same
                subst same
                exact bracket tail there
        · contradiction
  · intro upcoming
    cases upcoming with
    | closed bracket => simp [nextItem, bracket]
    | item start here inside => simp [nextItem, start, here]
    | next later comma here inside => simp [nextItem, later, comma, here, inside]

inductive Record.Awaited (first : Bool) (text : List Char) : Record.Member → Prop where
  | closed {rest} (brace : space text = '\x7d' :: rest) : Awaited first text (.closed rest)
  | key {rest} (start : first = true) (quote : space text = '"' :: rest) :
      Awaited first text (.key rest)
  | next {tail rest} (later : first = false) (comma : space text = ',' :: tail)
      (quote : space tail = '"' :: rest) : Awaited first text (.key rest)

theorem Record.nextMemberExact {first text member} :
    nextMember first text = .ok member ↔ Awaited first text member := by
  constructor
  · intro ok
    unfold nextMember at ok
    split at ok
    · contradiction
    · rename_i brace
      cases ok
      exact .closed brace
    · rename_i c rest inside here
      split at ok
      · rename_i start
        split at ok
        · rename_i quote
          subst quote
          cases ok
          exact .key start here
        · contradiction
      · rename_i later
        split at ok
        · rename_i comma
          subst comma
          split at ok
          · contradiction
          · rename_i quote
            cases ok
            exact .next (by simpa using later) here quote
          · contradiction
          · contradiction
        · contradiction
  · intro awaited
    cases awaited with
    | closed brace => simp [nextMember, brace]
    | key start quote => simp [nextMember, start, quote]
    | next later comma quote => simp [nextMember, later, comma, quote]

theorem closeListExact {text rest} : closeList text = .ok rest ↔ space text = ']' :: rest := by
  unfold closeList
  split
  · rename_i none
    simp [none]
  · rename_i bracket
    simp [bracket]
  · rename_i comma
    split <;> simp [comma]
  · rename_i other _
    simpa using (other rest)

theorem colonExact {text rest} : Record.colon text = .ok rest ↔ space text = ':' :: rest := by
  unfold Record.colon
  split
  · rename_i none
    simp [none]
  · rename_i mark
    simp [mark]
  · rename_i other
    simpa using other rest

end TileCost.Json
