import TileCost.Proofs.Json.Members

/-! Whatever is read is a value of the grammar, also where nobody wants the value: no reader
accepts a text that is not JSON. What was taken from a text is put together from its end, so
each step has the rest of its list or object in hand. -/
namespace TileCost.Json
open Outcome (bindOk mapOk)

variable {α β : Type}

def Leading (text rest : List Char) : Prop :=
  ∃ gap value, space gap = [] ∧ Valid .value value ∧ text = gap ++ (value ++ rest)

def Entries (frame : Frame) (first : Bool) (text rest : List Char) : Prop :=
  ∃ inside, Valid (.entries frame first) inside ∧ text = inside ++ rest

theorem spaceFront (text : List Char) : ∃ gap, space gap = [] ∧ text = gap ++ space text := by
  refine ⟨text.takeWhile isSpace, ?_, (List.takeWhile_append_dropWhile).symm⟩
  exact List.dropWhile_eq_nil_iff.mpr fun _ member => List.mem_takeWhile_imp member

theorem leadFollowed {first lead gap} (between : Lead first lead) (blank : space gap = []) :
    Lead first (lead ++ gap) := by
  cases between with
  | first blank' => exact .first (by simp [blank', blank])
  | @later gap₁ gap₂ blank₁ blank₂ =>
      rw [List.append_assoc, List.cons_append]
      exact .later blank₁ (by simp [blank₂, blank])

theorem leadFirst {text rest : List Char} {c : Char} (here : space text = c :: rest) :
    ∃ lead, Lead true lead ∧ text = lead ++ c :: rest := by
  obtain ⟨gap, blank, same⟩ := spaceFront text
  exact ⟨gap, .first blank, here ▸ same⟩

theorem leadLater {text tail rest : List Char} {c : Char} (comma : space text = ',' :: tail)
    (here : space tail = c :: rest) : ∃ lead, Lead false lead ∧ text = lead ++ c :: rest := by
  obtain ⟨gap, blank, same⟩ := spaceFront text
  obtain ⟨gap', blank', same'⟩ := spaceFront tail
  refine ⟨_, .later blank blank', ?_⟩
  rw [same, comma, List.append_assoc, List.cons_append, ← here, ← same']

theorem leadingHere {text value rest : List Char} (valid : Valid .value value)
    (here : space text = value ++ rest) : Leading text rest := by
  obtain ⟨gap, blank, same⟩ := spaceFront text
  exact ⟨gap, value, blank, valid, by rw [same, here]⟩

theorem leadingOpened (frame : Frame) {text inside rest : List Char}
    (here : space text = frame.opening :: inside) (entries : Entries frame true inside rest) :
    Leading text rest := by
  obtain ⟨inside, valid, rfl⟩ := entries
  exact leadingHere (.opened valid) here

theorem entriesClosed {frame : Frame} {text rest : List Char}
    (here : space text = frame.closing :: rest) (first : Bool) : Entries frame first text rest := by
  obtain ⟨gap, blank, same⟩ := spaceFront text
  exact ⟨gap ++ [frame.closing], .closed blank, by rw [same, here, List.append_assoc]; rfl⟩

theorem entriesItem {first lead text mid rest} (between : Lead first lead)
    (one : Leading text mid) (others : Entries .list false mid rest) :
    Entries .list first (lead ++ text) rest := by
  obtain ⟨gap, value, blank, valid, rfl⟩ := one
  obtain ⟨inside, entries, rfl⟩ := others
  exact ⟨_, .item (leadFollowed between blank) valid entries, by simp⟩

theorem entriesMember {first lead letters text tail mid rest} (between : Lead first lead)
    (key : Letters letters) (colon : space text = ':' :: tail) (one : Leading tail mid)
    (others : Entries .object false mid rest) :
    Entries .object first (lead ++ '"' :: (letters ++ text)) rest := by
  obtain ⟨gap, blank, same⟩ := spaceFront text
  obtain ⟨gap', value, blank', valid, rfl⟩ := one
  obtain ⟨inside, entries, rfl⟩ := others
  refine ⟨_, .member between key blank blank' valid entries, ?_⟩
  rw [same, colon]
  simp

theorem wordSound {letters text rest} (ok : word letters text = .ok rest) :
    text = letters ++ rest := by
  induction letters generalizing text with
  | nil =>
      cases ok
      rfl
  | cons letter letters ih =>
      cases text with
      | nil => contradiction
      | cons c text =>
          simp only [word] at ok
          split at ok
          · rename_i same
            rw [same, ih ok, List.cons_append]
          · contradiction

theorem wordValid {c : Char} {letters text rest} (one : c :: letters ∈ words)
    (ok : word letters text = .ok rest) : ∃ value, Valid .value value ∧ c :: text = value ++ rest :=
  ⟨c :: letters, .word one, by rw [wordSound ok, List.cons_append]⟩

theorem skipScalarSound {text rest} (ok : skipScalar text = .ok rest) :
    ∃ value, Valid .value value ∧ text = value ++ rest := by
  unfold skipScalar at ok
  split at ok
  · exact wordValid (by simp [words]) ok
  · exact wordValid (by simp [words]) ok
  · exact wordValid (by simp [words]) ok
  · obtain ⟨letters, all, rfl⟩ := skipStringSound ok
    exact ⟨_, .string all, rfl⟩
  · split at ok
    · obtain ⟨⟨n, tail⟩, taken, rfl⟩ := mapOk.mp ok
      obtain ⟨digits, spelled, rfl⟩ := numeralSound taken
      exact ⟨digits, .number spelled, rfl⟩
    · contradiction

theorem announceSound {frame : Frame} {text tail mid rest : List Char}
    (ok : frame.announce text = .ok tail) (one : Leading tail mid)
    (others : Entries frame false mid rest) {first lead} (between : Lead first lead) :
    Entries frame first (lead ++ text) rest := by
  cases frame with
  | list =>
      cases ok
      exact entriesItem between one others
  | object =>
      unfold Frame.announce at ok
      dsimp only at ok
      split at ok
      · contradiction
      · rename_i here
        obtain ⟨behind, passed, ok⟩ := bindOk.mp ok
        split at ok
        · rename_i colon
          cases ok
          obtain ⟨letters, key, string⟩ := skipStringSound passed
          obtain ⟨gap, blank, same⟩ := spaceFront text
          rw [same, here, string, ← List.append_assoc]
          exact entriesMember (leadFollowed between blank) key colon one others
        · contradiction
        · contradiction
      · contradiction

/- The entries that each open list or object has left, innermost first, up to `rest`. -/
inductive Unwound : List Frame → List Char → List Char → Prop where
  | out (rest) : Unwound [] rest rest
  | inside {frame outer text mid rest} (entries : Entries frame false text mid)
      (others : Unwound outer mid rest) : Unwound (frame :: outer) text rest

inductive Finished : Opened → List Char → Prop where
  | out (rest) : Finished ⟨[], rest⟩ rest
  | value {frame outer text mid rest} (one : Leading text mid)
      (others : Unwound (frame :: outer) mid rest) : Finished ⟨frame :: outer, text⟩ rest

theorem finishedBehind {frame outer text rest} (finished : Finished ⟨frame :: outer, text⟩ rest) :
    ∃ mid after, Leading text mid ∧ Entries frame false mid after ∧ Unwound outer after rest := by
  cases finished with
  | value one others =>
      cases others with
      | inside entries others => exact ⟨_, _, one, entries, others⟩

theorem closingMark {frame : Frame} {c : Char} (closes : frame.isClosedBy c = true) :
    c = frame.closing := by
  cases frame <;> simpa [Frame.isClosedBy, Frame.closing] using closes

theorem unwindSound {frames text opened rest} (ok : unwind frames text = .ok opened)
    (finished : Finished opened rest) : Unwound frames text rest := by
  induction frames generalizing text with
  | nil =>
      cases ok
      cases finished
      exact .out rest
  | cons frame outer ih =>
      unfold unwind at ok
      split at ok
      · contradiction
      · rename_i c tail here
        split at ok
        · rename_i comma
          obtain ⟨behind, announced, rfl⟩ := mapOk.mp ok
          obtain ⟨mid, after, one, entries, others⟩ := finishedBehind finished
          obtain ⟨gap, blank, same⟩ := spaceFront text
          have between : Lead false (gap ++ [',']) := @Lead.later gap [] blank rfl
          have all := announceSound announced one entries between
          rw [same, here, comma]
          exact .inside (by simpa using all) others
        · split at ok
          · rename_i closes
            rw [closingMark closes] at here
            exact .inside (entriesClosed here false) (ih ok)
          · contradiction

theorem enterSound {frame outer text opened rest} (ok : enter frame outer text = .ok opened)
    (finished : Finished opened rest) :
    ∃ mid, Entries frame true text mid ∧ Unwound outer mid rest := by
  unfold enter at ok
  split at ok
  · contradiction
  · rename_i c tail here
    split at ok
    · rename_i closes
      rw [closingMark closes] at here
      exact ⟨tail, entriesClosed here true, unwindSound ok finished⟩
    · obtain ⟨behind, announced, rfl⟩ := mapOk.mp ok
      obtain ⟨mid, after, one, entries, others⟩ := finishedBehind finished
      obtain ⟨gap, blank, same⟩ := spaceFront text
      rw [same, here]
      exact ⟨after, announceSound announced one entries (.first blank), others⟩

theorem passOneSound {outer text opened rest} (ok : passOne outer text = .ok opened)
    (finished : Finished opened rest) :
    ∃ mid, Leading text mid ∧ Unwound outer mid rest := by
  unfold passOne at ok
  split at ok
  · contradiction
  · rename_i here
    obtain ⟨mid, entries, others⟩ := enterSound ok finished
    exact ⟨mid, leadingOpened .list here entries, others⟩
  · rename_i here
    obtain ⟨mid, entries, others⟩ := enterSound ok finished
    exact ⟨mid, leadingOpened .object here entries, others⟩
  · obtain ⟨mid, passed, ok⟩ := bindOk.mp ok
    obtain ⟨value, valid, same⟩ := skipScalarSound passed
    exact ⟨mid, leadingHere valid same, unwindSound ok finished⟩

theorem passAllSound {fuel outer text rest} (ok : passAll fuel outer text = .ok rest) :
    ∃ mid, Leading text mid ∧ Unwound outer mid rest := by
  induction fuel generalizing outer text with
  | zero => contradiction
  | succ fuel ih =>
      obtain ⟨⟨frames, behind⟩, passed, ok⟩ := bindOk.mp ok
      cases frames with
      | nil =>
          cases ok
          exact passOneSound passed (.out _)
      | cons frame frames =>
          obtain ⟨mid, one, others⟩ := ih ok
          exact passOneSound passed (.value one others)

theorem skipValueSound {text rest} (ok : skipValue text = .ok rest) : Leading text rest := by
  obtain ⟨mid, one, out⟩ := passAllSound ok
  cases out
  exact one

def Sound (read : Reader α) : Prop := ∀ text x rest, read text = .ok (x, rest) → Leading text rest

theorem Sound.mapped {read : Reader α} (sound : Sound read) (f : α → β) :
    Sound fun text => do
      let (x, rest) ← read text
      return (f x, rest) := by
  intro text y rest ok
  obtain ⟨⟨x, tail⟩, taken, same⟩ := bindOk.mp ok
  cases same
  exact sound _ _ _ taken

theorem someNumberSound (expected : String) (take : Number → Except Cause α) :
    Sound (someNumber expected take) := by
  intro text x rest ok
  obtain ⟨_, value, taken, _⟩ := someNumberExact.mp ok
  obtain ⟨⟨n, tail⟩, digits, ok⟩ := bindOk.mp taken
  obtain ⟨v, _, same⟩ := bindOk.mp ok
  cases same
  obtain ⟨front, spelled, here⟩ := numeralSound digits
  exact leadingHere (.number spelled) here

theorem unsignedSound (most : UInt64) (expected : String) : Sound (unsigned most expected) :=
  someNumberSound _ _

theorem nextItemClosedSound {first text rest} (ok : nextItem first text = .ok (.closed rest)) :
    Entries .list first text rest := by
  cases nextItemExact.mp ok with
  | closed bracket => exact entriesClosed bracket first

theorem nextItemSound {first text item} (ok : nextItem first text = .ok (.item item)) :
    ∃ lead, Lead first lead ∧ text = lead ++ item := by
  cases nextItemExact.mp ok with
  | item start here _ =>
      subst start
      exact leadFirst here
  | next later comma here _ =>
      subst later
      exact leadLater comma here

theorem itemsSound {read : Reader α} (sound : Sound read) {fuel} {done xs : List α} {text rest}
    (ok : items read fuel done text = .ok (xs, rest)) : Entries .list done.isEmpty text rest := by
  induction fuel generalizing done text with
  | zero => contradiction
  | succ fuel ih =>
      cases itemsExact.mp ok with
      | closed found => exact nextItemClosedSound found
      | item found taken left =>
          obtain ⟨lead, between, rfl⟩ := nextItemSound found
          exact entriesItem between (sound _ _ _ taken) (ih left)

theorem listSound {read : Reader α} (sound : Sound read) : Sound (list read) := by
  intro text xs rest ok
  unfold list at ok
  split at ok
  · rename_i here
    exact leadingOpened .list here (itemsSound sound ok)
  · contradiction

theorem elementSound {read : Reader α} (sound : Sound read) {expected index text mid rest} {x : α}
    (ok : element read expected index text = .ok (x, mid)) (others : Entries .list false mid rest) :
    Entries .list (index = 0) text rest := by
  obtain ⟨item, found, taken⟩ := elementExact.mp ok
  obtain ⟨lead, between, rfl⟩ := nextItemSound found
  exact entriesItem between (sound _ _ _ taken) others

theorem closeListSound {text rest} (ok : closeList text = .ok rest) (first : Bool) :
    Entries .list first text rest := entriesClosed (closeListExact.mp ok) first

theorem tripleSound {read : Reader α} (sound : Sound read) : Sound (triple read) := by
  intro text x rest ok
  obtain ⟨inside, t, u, v, here, turns⟩ := tripleExact.mp ok
  have third := elementSound sound turns.third (closeListSound turns.close false)
  have second := elementSound sound turns.second third
  exact leadingOpened .list here (elementSound sound turns.first second)

namespace Record

theorem nextMemberClosedSound {first text rest}
    (ok : nextMember first text = .ok (.closed rest)) : Entries .object first text rest := by
  cases nextMemberExact.mp ok with
  | closed brace => exact entriesClosed brace first

theorem nextMemberSound {first text key} (ok : nextMember first text = .ok (.key key)) :
    ∃ lead, Lead first lead ∧ text = lead ++ '"' :: key := by
  cases nextMemberExact.mp ok with
  | key start quote =>
      subst start
      exact leadFirst quote
  | next later comma quote =>
      subst later
      exact leadLater comma quote

variable {r : Record α}

theorem membersSound (sound : ∀ field ∈ r.fields, ∀ x, Sound (field.update x))
    {fuel first seen x text y rest} (ok : r.members fuel first seen x text = .ok (y, rest)) :
    Entries .object first text rest := by
  induction fuel generalizing first seen x text with
  | zero => contradiction
  | succ fuel ih =>
      cases membersExact.mp ok with
      | closed found _ => exact nextMemberClosedSound found
      | other found quoted mark _ passed left =>
          obtain ⟨lead, between, rfl⟩ := nextMemberSound found
          obtain ⟨letters, all, _, rfl⟩ := quotedLetters (stringExact.mp quoted)
          exact entriesMember between all (colonExact.mp mark) (skipValueSound passed) (ih left)
      | known found quoted mark known _ taken left =>
          obtain ⟨lead, between, rfl⟩ := nextMemberSound found
          obtain ⟨letters, all, _, rfl⟩ := quotedLetters (stringExact.mp quoted)
          have one := sound _ (List.mem_of_find?_eq_some known) x _ _ _ taken
          exact entriesMember between all (colonExact.mp mark) one (ih left)

theorem positionsSound {fields : List (Field α)}
    (sound : ∀ field ∈ fields, ∀ x, Sound (field.update x)) {index x text y rest}
    (ok : r.positions fields index x text = .ok (y, rest)) :
    Entries .list (index = 0) text rest := by
  induction fields generalizing index x text with
  | nil =>
      obtain ⟨tail, close, same⟩ := bindOk.mp ok
      cases same
      exact closeListSound close _
  | cons field fields ih =>
      obtain ⟨first, others⟩ := List.forall_mem_cons.mp sound
      cases positionsExact.mp ok with
      | closed found _ => exact nextItemClosedSound found
      | item found taken left =>
          obtain ⟨lead, between, rfl⟩ := nextItemSound found
          exact entriesItem between (first x _ _ _ taken) (by simpa using ih others left)

theorem readSound (sound : ∀ field ∈ r.fields, ∀ x, Sound (field.update x)) : Sound r.read := by
  intro text y rest ok
  unfold read at ok
  split at ok
  · rename_i here
    exact leadingOpened .object here (membersSound sound ok)
  · rename_i here
    exact leadingOpened .list here (positionsSound sound ok)
  · contradiction

end Record

theorem Field.ofSound {name} {read : Reader β} (sound : Sound read) (put : α → β → α) (x : α) :
    Sound ((Field.of name read put).update x) := sound.mapped (put x)

def DocumentText (text : String) : Prop :=
  ∃ rest, Leading text.toList rest ∧ space rest = []

theorem documentSound {read : Reader α} (sound : Sound read) {text : String} {x : α}
    (ok : document read text = .ok x) : DocumentText text := by
  obtain ⟨rest, taken, blank⟩ := documentExact.mp ok
  exact ⟨rest, sound _ _ _ taken, blank⟩

theorem documentPassed {text : String} :
    DocumentText text ↔ ∃ rest, skipValue text.toList = .ok rest ∧ space rest = [] := by
  constructor
  · intro whole
    obtain ⟨rest, ⟨gap, value, blank, valid, same⟩, blank'⟩ := whole
    rw [same]
    exact ⟨rest, skipValueValid blank valid (blankEnds blank'), blank'⟩
  · intro passed
    obtain ⟨rest, passed, blank⟩ := passed
    exact ⟨rest, skipValueSound passed, blank⟩

instance (text : String) : Decidable (DocumentText text) :=
  match passed : skipValue text.toList with
  | .ok rest => decidable_of_iff (space rest = []) (by simp [documentPassed, passed])
  | .error _ => .isFalse (by simp [documentPassed, passed])

end TileCost.Json
