import TileCost.Json.Document
import TileCost.Proofs.Outcome

/-! One entry at a time. What reads the entries of a list or an object meets the closing mark,
or reads the next entry and then the others in the same way. These are the ways in which it
succeeds; what holds of all entries follows from them by induction. -/
namespace TileCost.Json
open Outcome (bindOk)

variable {α : Type}

inductive ItemsTurn (read : Reader α) (others : List α → Reader (List α)) (done : List α)
    (text : List Char) : List α → List Char → Prop where
  | closed {rest} (found : nextItem done.isEmpty text = .ok (.closed rest)) :
      ItemsTurn read others done text done.reverse rest
  | item {item x behind xs rest} (found : nextItem done.isEmpty text = .ok (.item item))
      (taken : read item = .ok (x, behind)) (left : others (x :: done) behind = .ok (xs, rest)) :
      ItemsTurn read others done text xs rest

theorem itemsExact {read : Reader α} {fuel done text xs rest} :
    items read (fuel + 1) done text = .ok (xs, rest) ↔
      ItemsTurn read (items read fuel) done text xs rest := by
  simp only [items, bindOk]
  constructor
  · intro ok
    obtain ⟨next, found, ok⟩ := ok
    cases next with
    | closed tail =>
        cases ok
        exact .closed found
    | item item =>
        obtain ⟨⟨x, behind⟩, taken, left⟩ := bindOk.mp ok
        exact .item found taken left
  · intro turn
    cases turn with
    | closed found => exact ⟨_, found, rfl⟩
    | item found taken left => exact ⟨_, found, bindOk.mpr ⟨_, taken, left⟩⟩

theorem elementExact {read : Reader α} {expected index text x rest} :
    element read expected index text = .ok (x, rest) ↔
      ∃ item, nextItem (index = 0) text = .ok (.item item) ∧ read item = .ok (x, rest) := by
  simp only [element, bindOk]
  constructor
  · intro ok
    obtain ⟨next, found, ok⟩ := ok
    cases next with
    | closed tail => contradiction
    | item item => exact ⟨item, found, ok⟩
  · intro parts
    obtain ⟨item, found, taken⟩ := parts
    exact ⟨_, found, taken⟩

structure TripleTurns (read : Reader α) (text : List Char) (x : α × α × α) (rest : List Char)
    (t u v : List Char) : Prop where
  first : element read "an array of length 3" 0 text = .ok (x.1, t)
  second : element read "an array of length 3" 1 t = .ok (x.2.1, u)
  third : element read "an array of length 3" 2 u = .ok (x.2.2, v)
  close : closeList v = .ok rest

theorem tripleExact {read : Reader α} {text x rest} :
    triple read text = .ok (x, rest) ↔
      ∃ inside t u v, space text = '[' :: inside ∧ TripleTurns read inside x rest t u v := by
  unfold triple
  dsimp only
  split
  · rename_i inside here
    simp only [bindOk, here]
    constructor
    · intro ok
      obtain ⟨⟨a, t⟩, one, ⟨b, u⟩, two, ⟨c, v⟩, three, w, close, same⟩ := ok
      cases same
      exact ⟨inside, t, u, v, rfl, one, two, three, close⟩
    · intro turns
      obtain ⟨_, t, u, v, same, one, two, three, close⟩ := turns
      cases same
      exact ⟨_, one, _, two, _, three, _, close, rfl⟩
  · rename_i other
    refine iff_of_false (by simp) fun turns => ?_
    obtain ⟨inside, _, _, _, here, _⟩ := turns
    exact other inside here

namespace Record

variable {r : Record α}

inductive PositionsTurn (r : Record α) (field : Field α) (others : α → Reader α) (first : Bool)
    (x : α) (text : List Char) : α → List Char → Prop where
  | closed {rest} (found : nextItem first text = .ok (.closed rest)) (partly : ¬ r.complete = true) :
      PositionsTurn r field others first x text x rest
  | item {item z behind y rest} (found : nextItem first text = .ok (.item item))
      (taken : field.update x item = .ok (z, behind)) (left : others z behind = .ok (y, rest)) :
      PositionsTurn r field others first x text y rest

theorem positionsExact {field : Field α} {fields index x text y rest} :
    r.positions (field :: fields) index x text = .ok (y, rest) ↔
      PositionsTurn r field (r.positions fields (index + 1)) (index = 0) x text y rest := by
  simp only [positions, bindOk]
  constructor
  · intro ok
    obtain ⟨next, found, ok⟩ := ok
    cases next with
    | closed tail =>
        dsimp only at ok
        split at ok
        · contradiction
        · rename_i partly
          cases ok
          exact .closed found partly
    | item item =>
        obtain ⟨⟨z, behind⟩, taken, left⟩ := bindOk.mp ok
        exact .item found taken left
  · intro turn
    cases turn with
    | closed found partly => exact ⟨_, found, by dsimp only; rw [if_neg partly]; rfl⟩
    | item found taken left => exact ⟨_, found, bindOk.mpr ⟨_, taken, left⟩⟩

inductive MembersTurn (r : Record α) (others : List String → α → Reader α) (first : Bool)
    (seen : List String) (x : α) (text : List Char) : α → List Char → Prop where
  | closed {rest} (found : nextMember first text = .ok (.closed rest))
      (complete : r.missing seen = none) : MembersTurn r others first seen x text x rest
  | other {key name tail value behind y rest} (found : nextMember first text = .ok (.key key))
      (quoted : string [] key = .ok (name, tail)) (mark : colon tail = .ok value)
      (unknown : r.field? (String.ofList name) = none) (passed : skipValue value = .ok behind)
      (left : others seen x behind = .ok (y, rest)) : MembersTurn r others first seen x text y rest
  | known {key name tail value field z behind y rest}
      (found : nextMember first text = .ok (.key key))
      (quoted : string [] key = .ok (name, tail)) (mark : colon tail = .ok value)
      (known : r.field? (String.ofList name) = some field) (fresh : String.ofList name ∉ seen)
      (taken : field.update x value = .ok (z, behind))
      (left : others (String.ofList name :: seen) z behind = .ok (y, rest)) :
      MembersTurn r others first seen x text y rest

theorem membersExact {fuel first seen x text y rest} :
    r.members (fuel + 1) first seen x text = .ok (y, rest) ↔
      MembersTurn r (r.members fuel false) first seen x text y rest := by
  simp only [members, bindOk]
  constructor
  · intro ok
    obtain ⟨next, found, ok⟩ := ok
    cases next with
    | closed tail =>
        dsimp only at ok
        split at ok
        · contradiction
        · rename_i complete
          cases ok
          exact .closed found complete
    | key key =>
        obtain ⟨⟨name, behind⟩, quoted, ok⟩ := bindOk.mp ok
        dsimp only at ok
        split at ok
        · rename_i unknown
          simp only [bindOk] at ok
          obtain ⟨value, mark, tail, passed, left⟩ := ok
          exact .other found quoted mark unknown passed left
        · rename_i field known
          split at ok
          · contradiction
          · rename_i fresh
            simp only [bindOk] at ok
            obtain ⟨value, mark, ⟨z, tail⟩, taken, left⟩ := ok
            exact .known found quoted mark known fresh taken left
  · intro turn
    cases turn with
    | closed found complete =>
        refine ⟨_, found, ?_⟩
        simp only [complete]
        rfl
    | other found quoted mark unknown passed left =>
        refine ⟨_, found, bindOk.mpr ⟨_, quoted, ?_⟩⟩
        simp only [unknown, bindOk]
        exact ⟨_, mark, _, passed, left⟩
    | known found quoted mark known fresh taken left =>
        refine ⟨_, found, bindOk.mpr ⟨_, quoted, ?_⟩⟩
        simp only [known, if_neg fresh, bindOk]
        exact ⟨_, mark, _, taken, left⟩

end Record
end TileCost.Json
