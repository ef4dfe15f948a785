import TileCost.Proofs.Json.Naturals
import TileCost.Proofs.Json.Records

/-! Texts that spell a value: read inside any other text they give the value and leave
what comes behind them, up to white space. A record is filled by spellings of its members. -/
namespace TileCost.Json
open Outcome (bindOk)

variable {α β : Type}

def Spells (read : Reader α) (text : List Char) (x : α) : Prop :=
  ∀ after, Ends after → ∃ gap, space gap = [] ∧ read (text ++ after) = .ok (x, gap ++ after)

namespace Spells

theorem ofDocument {read : Reader α} (determined : Determined Ends read) {text : List Char}
    {x : α} (ok : document read (String.ofList text) = .ok x) : Spells read text x := by
  intro after ends
  obtain ⟨gap, taken, blank⟩ := documentExact.mp ok
  rw [String.toList_ofList] at taken
  exact ⟨gap, blank, determined _ _ _ _ taken fun _ => ends⟩

theorem ofRead {read : Reader α} (determined : Determined Ends read) {text : List Char} {x : α}
    (ok : read text = .ok (x, [])) : Spells read text x := by
  apply ofDocument determined
  rw [documentExact, String.toList_ofList]
  exact ⟨[], ok, rfl⟩

theorem document {read : Reader α} {text : List Char} {x : α} (spelled : Spells read text x) :
    document read (String.ofList text) = .ok x := by
  obtain ⟨gap, blank, taken⟩ := spelled [] trivial
  rw [documentExact, String.toList_ofList]
  exact ⟨gap, by simpa using taken, blank⟩

theorem mapped {read : Reader α} {text : List Char} {x : α} (spelled : Spells read text x)
    (f : α → β) : Spells (fun text => do
      let (x, rest) ← read text
      return (f x, rest)) text (f x) := by
  intro after ends
  obtain ⟨gap, blank, taken⟩ := spelled after ends
  exact ⟨gap, blank, by simp [taken, bind, Except.bind, pure, Except.pure]⟩

theorem mappedExact {read : Reader α} (determined : Determined Ends read) {f : α → β}
    {text : List Char} {y : β} :
    Spells (fun text => do
      let (x, rest) ← read text
      return (f x, rest)) text y ↔ ∃ x, Spells read text x ∧ f x = y := by
  constructor
  · intro spelled
    obtain ⟨gap, blank, ok⟩ := spelled [] trivial
    obtain ⟨⟨x, rest⟩, taken, same⟩ := bindOk.mp ok
    cases same
    have alone : Json.document read (String.ofList text) = .ok x := by
      rw [documentExact, String.toList_ofList]
      rw [List.append_nil] at taken
      exact ⟨_, taken, by rw [spaceBlank blank]; rfl⟩
    exact ⟨x, .ofDocument determined alone, rfl⟩
  · intro spelled
    obtain ⟨x, spelled, rfl⟩ := spelled
    exact spelled.mapped f

end Spells

structure Begins (read : Reader α) : Prop where
  spaced : ∀ text, read (space text) = read text
  inside : ∀ {text x rest}, read text = .ok (x, rest) →
    ∃ c tail, space text = c :: tail ∧ c ≠ ']'

@[simp] theorem spaceTwice (text : List Char) : space (space text) = space text :=
  List.dropWhile_idempotent isSpace text

theorem someNumberBegins (expected : String) (take : Number → Except Cause α) :
    Begins (someNumber expected take) where
  spaced text := by
    unfold someNumber
    rw [spaceTwice]
  inside {text x rest} ok := by
    obtain ⟨starts, _⟩ := someNumberExact.mp ok
    cases here : space text with
    | nil =>
        rw [here] at starts
        contradiction
    | cons c tail =>
        refine ⟨c, tail, rfl, ?_⟩
        rintro rfl
        rw [here] at starts
        contradiction

theorem unsignedBegins (most : UInt64) (expected : String) : Begins (unsigned most expected) :=
  someNumberBegins _ _

theorem tripleBegins (read : Reader α) : Begins (triple read) where
  spaced text := by
    unfold triple
    rw [spaceTwice]
  inside {text x rest} ok := by
    unfold triple at ok
    dsimp only at ok
    split at ok
    · rename_i here
      exact ⟨'[', _, here, by decide⟩
    · contradiction

theorem Begins.mapped {read : Reader α} (begins : Begins read) (f : α → β) :
    Begins fun text => do
      let (x, rest) ← read text
      return (f x, rest) where
  spaced text := by rw [begins.spaced]
  inside ok := by
    obtain ⟨⟨x, rest⟩, taken, _⟩ := bindOk.mp ok
    exact begins.inside taken

theorem listSpaced (read : Reader α) (text : List Char) :
    list read (space text) = list read text := by
  unfold list
  rw [spaceTwice]

def listed (first : Bool) : List (List Char) → List Char
  | [] => []
  | text :: texts => (if first then [] else [',']) ++ text ++ listed false texts

theorem joinedListed (texts : List (List Char)) : joined texts = listed true texts := by
  have later (text : List Char) (texts) : joined (text :: texts) = text ++ listed false texts := by
    induction texts generalizing text with
    | nil => simp [joined, listed]
    | cons next texts ih => simp [joined, listed, ih]
  cases texts with
  | nil => rfl
  | cons text texts => simp [later, listed]

theorem writeListListed (texts : List (List Char)) :
    writeList texts = '[' :: (listed true texts ++ [']']) := by
  rw [writeList, joinedListed, List.cons_append]

theorem writeObjectListed (texts : List (List Char)) :
    writeObject texts = '\x7b' :: (listed true texts ++ ['\x7d']) := by
  rw [writeObject, joinedListed, List.cons_append]

theorem Field.ofSpelled {read : Reader β} {text : List Char} {y : β}
    (spelled : Spells read text y) (name : String) (put : α → β → α) (x : α) :
    Spells ((Field.of name read put).update x) text (put x y) :=
  spelled.mapped (put x)

namespace Record

inductive Fills (r : Record α) :
    List String → α → List (String × List Char) → List String → α → Prop where
  | done {seen x} : Fills r seen x [] seen x
  | member {seen x name value field y others seen' z} (known : r.field? name = some field)
      (fresh : name ∉ seen) (spelled : Spells (field.update x) value y)
      (rest : Fills r (name :: seen) y others seen' z) :
      Fills r seen x ((name, value) :: others) seen' z

def memberTexts (members : List (String × List Char)) : List (List Char) :=
  members.map fun (name, value) => writeMember name value

end Record
end TileCost.Json
