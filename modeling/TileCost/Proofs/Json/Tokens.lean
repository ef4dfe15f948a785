import TileCost.Proofs.Json.Sound

/-! Lists by their tokens. Between the tokens of a list, in front of the first and behind the
last there is room for white space and for nothing else: the documents in which a reader finds
a list are its tokens, spaced in any way. -/
namespace TileCost.Json

variable {α γ : Type}

inductive Spaced : List (List Char) → List Char → Prop where
  | finish {gap} (blank : space gap = []) : Spaced [] gap
  | token {gap token tokens text} (blank : space gap = []) (others : Spaced tokens text) :
      Spaced (token :: tokens) (gap ++ (token ++ text))

theorem flattenSpaced (tokens : List (List Char)) : Spaced tokens tokens.flatten := by
  induction tokens with
  | nil => exact .finish rfl
  | cons token tokens ih => exact @Spaced.token [] token tokens _ rfl ih

theorem spacedToken {token tokens text} :
    Spaced (token :: tokens) text ↔
      ∃ gap behind, space gap = [] ∧ text = gap ++ (token ++ behind) ∧ Spaced tokens behind := by
  constructor
  · intro spaced
    cases spaced with
    | token blank others => exact ⟨_, _, blank, rfl, others⟩
  · intro parts
    obtain ⟨gap, behind, blank, rfl, others⟩ := parts
    exact .token blank others

def itemTokens (first : Bool) : List (List Char) → List (List Char)
  | [] => [[']']]
  | text :: texts => (if first then [] else [[',']]) ++ text :: itemTokens false texts

def listTokens (texts : List (List Char)) : List (List Char) := ['['] :: itemTokens true texts

theorem itemsFlattened (first : Bool) (texts : List (List Char)) :
    (itemTokens first texts).flatten = listed first texts ++ [']'] := by
  induction texts generalizing first with
  | nil => rfl
  | cons text texts ih => cases first <;> simp [itemTokens, listed, ih]

theorem listFlattened (texts : List (List Char)) :
    (listTokens texts).flatten = writeList texts := by
  rw [listTokens, List.flatten_cons, itemsFlattened, writeListListed]
  rfl

theorem leadSpaced {first : Bool} {token tokens text} :
    Spaced ((if first then [] else [[',']]) ++ token :: tokens) text ↔
      ∃ lead behind, Lead first lead ∧ text = lead ++ (token ++ behind) ∧ Spaced tokens behind := by
  constructor
  · intro spaced
    cases first with
    | true =>
        obtain ⟨gap, behind, blank, same, others⟩ := spacedToken.mp spaced
        exact ⟨gap, behind, .first blank, same, others⟩
    | false =>
        obtain ⟨gap, _, blank, rfl, element⟩ := spacedToken.mp spaced
        obtain ⟨gap', behind, blank', rfl, others⟩ := spacedToken.mp element
        exact ⟨gap ++ ',' :: gap', behind, .later blank blank', by simp, others⟩
  · intro parts
    obtain ⟨lead, behind, between, rfl, others⟩ := parts
    cases between with
    | first blank => exact .token blank others
    | @later gap gap' blank blank' =>
        rw [List.append_assoc, List.cons_append]
        exact @Spaced.token gap [','] _ _ blank (.token blank' others)

theorem elementsSpaced {holds : List Char → Prop} {texts : List (List Char)}
    (all : ∀ text ∈ texts, holds text) {first : Bool} {text : List Char} :
    Spaced (itemTokens first texts) text ↔
      ∃ inside gap, Elements holds first texts inside ∧ space gap = [] ∧ text = inside ++ gap := by
  induction texts generalizing first text with
  | nil =>
      rw [itemTokens, spacedToken]
      constructor
      · intro bracket
        obtain ⟨gap, gap', blank, rfl, ⟨blank'⟩⟩ := bracket
        exact ⟨_, gap', .closed blank, blank', (List.append_assoc ..).symm⟩
      · intro list
        obtain ⟨_, gap', ⟨blank⟩, blank', rfl⟩ := list
        exact ⟨_, gap', blank, List.append_assoc .., .finish blank'⟩
  | cons value texts ih =>
      obtain ⟨one, others⟩ := List.forall_mem_cons.mp all
      rw [itemTokens, leadSpaced]
      constructor
      · intro item
        obtain ⟨lead, behind, between, rfl, spaced⟩ := item
        obtain ⟨inside, gap, list, blank, rfl⟩ := (ih others).mp spaced
        exact ⟨_, gap, .element between one list, blank, by simp⟩
      · intro list
        obtain ⟨_, gap, list, blank, rfl⟩ := list
        cases list with
        | element between _ list =>
            exact ⟨_, _, between, by simp, (ih others).mpr ⟨_, gap, list, blank, rfl⟩⟩

namespace Elementwise

variable {read : Reader α} {whole : Reader γ} {elements : γ → List α}

theorem documentTokens (reads : Elementwise read whole elements) (sound : Sound whole)
    {holds : List Char → α → Prop}
    (each : ∀ {text x}, Valid .value text → (Spells read text x ↔ holds text x))
    (valid : ∀ {text x}, holds text x → Valid .value text) {text : String} {y : γ} :
    document whole text = .ok y ↔
      ∃ texts, Spaced (listTokens texts) text.toList ∧ List.Forall₂ holds texts (elements y) := by
  simp only [listTokens, spacedToken]
  constructor
  · intro ok
    obtain ⟨gap', ⟨gap, value, blank, one, same⟩, blank'⟩ := documentSound sound ok
    have spelled := (reads.confined.document blank blank' one same).mp ok
    obtain ⟨inside, texts, rfl, list, all⟩ := (reads.textExact each one).mp spelled
    have spaced := (elementsSpaced (elementsHold list)).mpr ⟨inside, gap', list, blank', rfl⟩
    exact ⟨texts, ⟨gap, _, blank, same, spaced⟩, all⟩
  · intro written
    obtain ⟨texts, ⟨gap, _, blank, same, spaced⟩, all⟩ := written
    have values : ∀ text ∈ texts, Valid .value text :=
      ((List.forall₂_and_left _ _).mp (all.imp fun _ _ here => ⟨valid here, here⟩)).1
    obtain ⟨inside, gap', list, blank', rfl⟩ := (elementsSpaced values).mp spaced
    have one := listValue list
    have spelled := (reads.textExact each one).mpr ⟨inside, texts, rfl, list, all⟩
    exact (reads.confined.document blank blank' one same).mpr spelled

end Elementwise
end TileCost.Json
