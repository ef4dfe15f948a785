import TileCost.Proofs.Json.Glyphs
import TileCost.Proofs.Json.Numerals
import TileCost.Proofs.Json.Punctuation
import TileCost.Proofs.Json.Turns

/-! What a reader has consumed determines what it found: text that comes later changes
neither the value nor where it ends. A value with a closing mark is over at that mark;
one without it, if the text ended there, must not be continued by what comes later. -/
namespace TileCost.Json
open Outcome (bindOk)

variable {α β : Type}

def Determined (after : List Char → Prop) (read : Reader α) : Prop :=
  ∀ text x rest more, read text = .ok (x, rest) → (rest = [] → after more) →
    read (text ++ more) = .ok (x, rest ++ more)

abbrev Anything : List Char → Prop := fun _ => True

namespace Determined

theorem ofAnything {after} {read : Reader α} (determined : Determined Anything read) :
    Determined after read :=
  fun text x rest more ok _ => determined text x rest more ok fun _ => trivial

theorem mapped {after} {read : Reader α} (determined : Determined after read) (f : α → β) :
    Determined after fun text => do
      let (x, rest) ← read text
      return (f x, rest) := by
  intro text y rest more ok ends
  simp only [bindOk] at ok ⊢
  obtain ⟨⟨x, tail⟩, taken, same⟩ := ok
  cases same
  exact ⟨_, determined _ _ _ _ taken ends, rfl⟩

end Determined

theorem wordContinued {letters text rest} (ok : word letters text = .ok rest) (more : List Char) :
    word letters (text ++ more) = .ok (rest ++ more) := by
  induction letters generalizing text with
  | nil =>
      cases ok
      rfl
  | cons letter letters ih =>
      cases text with
      | nil => contradiction
      | cons c text =>
          simp only [word, List.cons_append] at ok ⊢
          split at ok
          · rename_i same
            rw [if_pos same]
            exact ih ok
          · contradiction

theorem stringContinued {text value rest} (ok : string [] text = .ok (value, rest))
    (more : List Char) : string [] (text ++ more) = .ok (value, rest ++ more) :=
  stringExact.mpr (quotedContinued (stringExact.mp ok) more)

theorem skipStringContinued {text rest} (ok : skipString text = .ok rest) (more : List Char) :
    skipString (text ++ more) = .ok (rest ++ more) := by
  fun_induction skipString text with
  | case2 =>
      cases ok
      simp [skipString]
  | case4 a b c d rest unit hex ih => simpa [skipString, hex] using ih ok
  | case7 c rest _ letter decoded known ih =>
      have other : c ≠ 'u' := letter
      simpa [skipString, other, known] using ih ok
  | case10 c rest quote _ _ lone slash printing ih =>
      simpa [skipString, lastNotSlash lone slash, printing] using ih ok
  | _ => contradiction

theorem someNumberExact {expected} {take : Number → Except Cause α} {text x rest} :
    someNumber expected take text = .ok (x, rest) ↔
      startsNumber (space text) = true ∧
        ∃ value, number (space text) = .ok (value, rest) ∧ take value = .ok x := by
  unfold someNumber
  dsimp only
  split
  · rename_i starts
    simp only [bindOk, starts, true_and]
    constructor
    · intro ok
      obtain ⟨⟨value, tail⟩, taken, accepted⟩ := ok
      cases kept : take value with
      | error cause => simp [kept, throw, throwThe, MonadExceptOf.throw] at accepted
      | ok y =>
          simp only [kept] at accepted
          cases accepted
          exact ⟨value, taken, kept⟩
    · intro ok
      obtain ⟨value, taken, kept⟩ := ok
      refine ⟨_, taken, ?_⟩
      simp only [kept]
      rfl
  · rename_i other
    simp [other, throw, throwThe, MonadExceptOf.throw]

theorem someNumberDetermined (expected : String) (take : Number → Except Cause α) :
    Determined Ends (someNumber expected take) := by
  intro text x rest more ok ends
  obtain ⟨starts, value, taken, accepted⟩ := someNumberExact.mp ok
  apply someNumberExact.mpr
  cases here : space text with
  | nil =>
      rw [here] at starts
      contradiction
  | cons c tail =>
      rw [here] at starts taken
      rw [spaceAt here]
      exact ⟨starts, value, numberContinued taken ends, accepted⟩

theorem unsignedDetermined (most : UInt64) (expected : String) :
    Determined Ends (unsigned most expected) := someNumberDetermined expected _

theorem natural64Determined : Determined Ends natural64 := unsignedDetermined _ _

theorem natural32Determined : Determined Ends natural32 := (unsignedDetermined _ _).mapped _

theorem natural16Determined : Determined Ends natural16 := (unsignedDetermined _ _).mapped _

theorem float64Determined : Determined Ends float64 := someNumberDetermined _ _

theorem float32Determined : Determined Ends float32 := someNumberDetermined _ _

theorem quotedStringDetermined (expected : String) :
    Determined Anything (quotedString expected) := by
  intro text x rest more ok _
  unfold quotedString at ok ⊢
  split at ok
  · rename_i here
    rw [spaceAt here]
    exact stringContinued ok more
  · contradiction

/-! Lists. A list that has an element left to read has text left, so an element of
its own is never cut short. -/

def Next.andMore (more : List Char) : Next → Next
  | item text => item (text ++ more)
  | closed rest => closed (rest ++ more)

theorem nextItemContinued {first text next} (ok : nextItem first text = .ok next)
    (more : List Char) : nextItem first (text ++ more) = .ok (next.andMore more) := by
  apply nextItemExact.mpr
  cases nextItemExact.mp ok with
  | closed bracket => exact .closed (spaceAt bracket more)
  | item start here inside => exact .item start (spaceAt here more) inside
  | next later comma here inside =>
      exact .next later (spaceAt comma more) (spaceAt here more) inside

theorem closeListContinued {text rest} (ok : closeList text = .ok rest) (more : List Char) :
    closeList (text ++ more) = .ok (rest ++ more) :=
  closeListExact.mpr (spaceAt (closeListExact.mp ok) more)

theorem nextItemLeft {first text next} (ok : nextItem first text = .ok next) : text ≠ [] := by
  intro none
  subst none
  contradiction

theorem closeListLeft {text rest} (ok : closeList text = .ok rest) : text ≠ [] := by
  intro none
  subst none
  contradiction

theorem itemsLeft {read : Reader α} {fuel done text xs rest}
    (ok : items read fuel done text = .ok (xs, rest)) : text ≠ [] := by
  cases fuel with
  | zero => contradiction
  | succ fuel =>
      cases itemsExact.mp ok with
      | closed found => exact nextItemLeft found
      | item found _ _ => exact nextItemLeft found

theorem itemsContinued {read : Reader α} (determined : Determined Ends read) {fuel fuel' : Nat}
    (enough : fuel ≤ fuel') {done xs : List α} {text rest : List Char}
    (ok : items read fuel done text = .ok (xs, rest)) (more : List Char) :
    items read fuel' done (text ++ more) = .ok (xs, rest ++ more) := by
  induction fuel generalizing fuel' done text with
  | zero => contradiction
  | succ fuel ih =>
      cases fuel' with
      | zero => contradiction
      | succ fuel' =>
          apply itemsExact.mpr
          cases itemsExact.mp ok with
          | closed found => exact .closed (nextItemContinued found more)
          | item found taken left =>
              exact .item (nextItemContinued found more)
                (determined _ _ _ _ taken (absurd · (itemsLeft left)))
                (ih (Nat.le_of_succ_le_succ enough) left)

theorem listDetermined {read : Reader α} (determined : Determined Ends read) :
    Determined Anything (list read) := by
  intro text xs rest more ok _
  unfold list at ok ⊢
  split at ok
  · rename_i here
    rw [spaceAt here]
    exact itemsContinued determined (by simp) ok more
  · contradiction

theorem elementLeft {read : Reader α} {expected index text x rest}
    (ok : element read expected index text = .ok (x, rest)) : text ≠ [] := by
  obtain ⟨item, found, _⟩ := elementExact.mp ok
  exact nextItemLeft found

theorem elementDetermined {read : Reader α} (determined : Determined Ends read)
    (expected : String) (index : Nat) : Determined Ends (element read expected index) := by
  intro text x rest more ok ends
  obtain ⟨item, found, taken⟩ := elementExact.mp ok
  exact elementExact.mpr ⟨_, nextItemContinued found more, determined _ _ _ _ taken ends⟩

theorem tripleDetermined {read : Reader α} (determined : Determined Ends read) :
    Determined Anything (triple read) := by
  intro text x rest more ok _
  obtain ⟨inside, t, u, v, here, turns⟩ := tripleExact.mp ok
  have element {index text y rest} := @elementDetermined α read determined
    "an array of length 3" index text y rest more
  exact tripleExact.mpr ⟨_, _, _, _, spaceAt here more,
    element turns.first (absurd · (elementLeft turns.second)),
    element turns.second (absurd · (elementLeft turns.third)),
    element turns.third (absurd · (closeListLeft turns.close)),
    closeListContinued turns.close more⟩

end TileCost.Json
