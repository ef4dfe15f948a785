import Mathlib
import TileCost.Json.Document

/-! Readers that differ only in what they make of the values. One follows another if they take
the same texts, leave the same rest and fail in the same way, and what they find is related.
Lists, records and documents hand this on from their parts. -/
namespace TileCost.Json

variable {α β γ δ : Type}

inductive Alike (related : α → β → Prop) :
    Except Failure (α × List Char) → Except Failure (β × List Char) → Prop where
  | error (failure : Failure) : Alike related (.error failure) (.error failure)
  | ok {x y} (one : related x y) (rest : List Char) : Alike related (.ok (x, rest)) (.ok (y, rest))

def Follows (related : α → β → Prop) (read : Reader α) (read' : Reader β) : Prop :=
  ∀ text, Alike related (read text) (read' text)

variable {related : α → β → Prop} {parts : γ → δ → Prop}

theorem Alike.same {σ : Type} {step : Except Failure σ} {next : σ → Except Failure (α × List Char)}
    {next' : σ → Except Failure (β × List Char)} (others : ∀ s, Alike related (next s) (next' s)) :
    Alike related (step >>= next) (step >>= next') := by
  cases step with
  | error failure => exact .error failure
  | ok s => exact others s

theorem Alike.both {step : Except Failure (γ × List Char)} {step' : Except Failure (δ × List Char)}
    {next : γ × List Char → Except Failure (α × List Char)}
    {next' : δ × List Char → Except Failure (β × List Char)} (steps : Alike parts step step')
    (others : ∀ x y rest, parts x y → Alike related (next (x, rest)) (next' (y, rest))) :
    Alike related (step >>= next) (step' >>= next') := by
  cases steps with
  | error failure => exact .error failure
  | ok one rest => exact others _ _ rest one

section
variable {read : Reader α} {read' : Reader β}

theorem itemsFollow (follows : Follows related read read') (fuel : ℕ) {done : List α}
    {done' : List β} (so : List.Forall₂ related done done') (text : List Char) :
    Alike (List.Forall₂ related) (items read fuel done text) (items read' fuel done' text) := by
  induction fuel generalizing done done' text with
  | zero => exact .error _
  | succ fuel ih =>
    have first : done.isEmpty = done'.isEmpty := by cases so <;> rfl
    unfold items
    rw [first]
    refine .same fun next => ?_
    cases next with
    | closed rest => exact .ok (List.rel_reverse so) rest
    | item text => exact .both (follows text) fun x y rest one => ih (.cons one so) rest

theorem listFollows (follows : Follows related read read') :
    Follows (List.Forall₂ related) (list read) (list read') := by
  intro text
  unfold list
  split
  · exact itemsFollow follows _ .nil _
  · exact .error _

theorem documentFollows (follows : Follows related read read') (text : String) :
    (∃ e, document read text = .error e ∧ document read' text = .error e) ∨
      ∃ x y, document read text = .ok x ∧ document read' text = .ok y ∧ related x y := by
  have both := follows text.toList
  unfold document whole
  generalize read text.toList = found, read' text.toList = found' at both
  cases both with
  | error failure => exact .inl ⟨_, rfl, rfl⟩
  | @ok x y one rest =>
    dsimp only [bind, Except.bind]
    cases finished rest with
    | error failure => exact .inl ⟨_, rfl, rfl⟩
    | ok _ => exact .inr ⟨x, y, rfl, rfl, one⟩

end

structure Field.Follows (related : α → β → Prop) (field : Field α) (field' : Field β) : Prop where
  name : field'.name = field.name
  update : ∀ x y, related x y → Json.Follows related (field.update x) (field'.update y)

theorem Field.ofFollows (name : String) {read : Reader γ} {read' : Reader δ} {put : α → γ → α}
    {put' : β → δ → β} (follows : Json.Follows parts read read')
    (kept : ∀ x y a b, related x y → parts a b → related (put x a) (put' y b)) :
    Field.Follows related (.of name read put) (.of name read' put') where
  name := rfl
  update := fun _ _ one text =>
    .both (follows text) fun _ _ rest part => .ok (kept _ _ _ _ one part) rest

namespace Record

structure Follows (related : α → β → Prop) (r : Record α) (r' : Record β) : Prop where
  name : r'.name = r.name
  complete : r'.complete = r.complete
  default : related r.default r'.default
  fields : List.Forall₂ (Field.Follows related) r.fields r'.fields

variable {r : Record α} {r' : Record β}

theorem Follows.names (follows : r.Follows related r') :
    r'.fields.map Field.name = r.fields.map Field.name := by
  have fields := follows.fields
  generalize r.fields = gs, r'.fields = gs' at fields
  induction fields with
  | nil => rfl
  | cons one _ ih => rw [List.map_cons, List.map_cons, one.name, ih]

theorem Follows.missing (follows : r.Follows related r') (seen : List String) :
    r'.missing seen = r.missing seen := by
  unfold Record.missing
  rw [follows.complete, follows.names]

theorem Follows.field (follows : r.Follows related r') (name : String) :
    Option.Rel (Field.Follows related) (r.field? name) (r'.field? name) := by
  have fields := follows.fields
  unfold Record.field?
  generalize r.fields = gs, r'.fields = gs' at fields
  induction fields with
  | nil => exact .none
  | cons one _ ih =>
    rw [List.find?_cons, List.find?_cons, one.name]
    split
    · exact .some one
    · exact ih

theorem membersFollow (follows : r.Follows related r') (fuel : ℕ) (first : Bool)
    (seen : List String) {x : α} {y : β} (so : related x y) (text : List Char) :
    Alike related (r.members fuel first seen x text) (r'.members fuel first seen y text) := by
  induction fuel generalizing first seen x y text with
  | zero => exact .error _
  | succ fuel ih =>
    unfold members
    refine .same fun member => ?_
    cases member with
    | closed rest =>
      dsimp only
      rw [follows.missing]
      split
      · exact .error _
      · exact .ok so rest
    | key text =>
      refine .same fun quoted => ?_
      have known := follows.field (String.ofList quoted.1)
      dsimp only
      generalize r.field? (String.ofList quoted.1) = field, r'.field? _ = field' at known
      cases known with
      | none => exact .same fun _ => .same fun _ => ih _ _ so _
      | some one =>
        dsimp only
        split
        · exact .error _
        · exact .same fun rest => .both (one.update _ _ so rest) fun _ _ _ more => ih _ _ more _

theorem positionsFollow (follows : r.Follows related r') {fields fields'}
    (each : List.Forall₂ (Field.Follows related) fields fields') (index : ℕ) {x : α} {y : β}
    (so : related x y) (text : List Char) :
    Alike related (r.positions fields index x text) (r'.positions fields' index y text) := by
  induction each generalizing index x y text with
  | nil => exact .same fun rest => .ok so rest
  | cons one _ ih =>
    unfold positions
    refine .same fun next => ?_
    cases next with
    | closed rest =>
      dsimp only [expected]
      rw [follows.complete, follows.name, follows.fields.length_eq]
      split
      · exact .error _
      · exact .ok so rest
    | item text => exact .both (one.update _ _ so text) fun _ _ _ more => ih _ more _

theorem readFollows (follows : r.Follows related r') : Json.Follows related r.read r'.read := by
  intro text
  unfold read
  split
  · exact membersFollow follows _ _ _ follows.default _
  · exact positionsFollow follows follows.fields _ follows.default _
  · rw [expected, expected, follows.name]
    exact .error _

end Record
end TileCost.Json
