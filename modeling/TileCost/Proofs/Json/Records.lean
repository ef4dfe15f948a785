import TileCost.Proofs.Json.Skipping

/-! Records and whole documents. A record is over at its closing mark, whichever of its
members it has and whatever else stands among them. -/
namespace TileCost.Json
open Outcome (bindOk)

variable {α β : Type}

namespace Record

def Member.andMore (more : List Char) : Member → Member
  | key text => key (text ++ more)
  | closed rest => closed (rest ++ more)

theorem nextMemberContinued {first text member} (ok : nextMember first text = .ok member)
    (more : List Char) : nextMember first (text ++ more) = .ok (member.andMore more) := by
  apply nextMemberExact.mpr
  cases nextMemberExact.mp ok with
  | closed brace => exact .closed (spaceAt brace more)
  | key start quote => exact .key start (spaceAt quote more)
  | next later comma quote => exact .next later (spaceAt comma more) (spaceAt quote more)

theorem colonContinued {text rest} (ok : colon text = .ok rest) (more : List Char) :
    colon (text ++ more) = .ok (rest ++ more) :=
  colonExact.mpr (spaceAt (colonExact.mp ok) more)

theorem eachOne {r : Record α} {f : Field α} (fields : r.fields = [f]) {P : Field α → Prop}
    (one : P f) : ∀ field ∈ r.fields, P field := by
  rw [fields]
  exact List.forall_mem_singleton.mpr one

theorem eachTwo {r : Record α} {f g : Field α} (fields : r.fields = [f, g]) {P : Field α → Prop}
    (one : P f) (other : P g) : ∀ field ∈ r.fields, P field := by
  rw [fields]
  exact List.forall_mem_cons.mpr ⟨one, List.forall_mem_singleton.mpr other⟩

def Settled (r : Record α) : Prop := ∀ field ∈ r.fields, ∀ x, Determined Ends (field.update x)

theorem membersLeft {r : Record α} {fuel first seen x text y}
    (ok : r.members fuel first seen x text = .ok y) : text ≠ [] := by
  intro none
  subst none
  cases fuel with
  | zero => contradiction
  | succ fuel => contradiction

theorem membersContinued {r : Record α} (settled : r.Settled) {fuel fuel' : Nat}
    (enough : fuel ≤ fuel') {first seen x text y rest}
    (ok : r.members fuel first seen x text = .ok (y, rest)) (more : List Char) :
    r.members fuel' first seen x (text ++ more) = .ok (y, rest ++ more) := by
  induction fuel generalizing fuel' first seen x text with
  | zero => contradiction
  | succ fuel ih =>
      cases fuel' with
      | zero => contradiction
      | succ fuel' =>
          have fewer := Nat.le_of_succ_le_succ enough
          apply membersExact.mpr
          cases membersExact.mp ok with
          | closed found complete => exact .closed (nextMemberContinued found more) complete
          | other found quoted mark unknown passed left =>
              exact .other (nextMemberContinued found more) (stringContinued quoted more)
                (colonContinued mark more) unknown
                (skipValueContinued passed (absurd · (membersLeft left))) (ih fewer left)
          | known found quoted mark known fresh taken left =>
              have member := settled _ (List.mem_of_find?_eq_some known) x
              exact .known (nextMemberContinued found more) (stringContinued quoted more)
                (colonContinued mark more) known fresh
                (member _ _ _ _ taken (absurd · (membersLeft left))) (ih fewer left)

theorem positionsLeft {r : Record α} {fields index x text y}
    (ok : r.positions fields index x text = .ok y) : text ≠ [] := by
  intro none
  subst none
  cases fields with
  | nil => contradiction
  | cons field fields => contradiction

theorem positionsContinued {r : Record α} {fields : List (Field α)}
    (settled : ∀ field ∈ fields, ∀ x, Determined Ends (field.update x)) {index x text y rest}
    (ok : r.positions fields index x text = .ok (y, rest)) (more : List Char) :
    r.positions fields index x (text ++ more) = .ok (y, rest ++ more) := by
  induction fields generalizing index x text with
  | nil =>
      simp only [positions, bindOk] at ok ⊢
      obtain ⟨tail, close, same⟩ := ok
      cases same
      exact ⟨_, closeListContinued close more, rfl⟩
  | cons field fields ih =>
      obtain ⟨one, others⟩ := List.forall_mem_cons.mp settled
      apply positionsExact.mpr
      cases positionsExact.mp ok with
      | closed found partly => exact .closed (nextItemContinued found more) partly
      | item found taken left =>
          exact .item (nextItemContinued found more)
            (one x _ _ _ more taken (absurd · (positionsLeft left))) (ih others left)

theorem readDetermined {r : Record α} (settled : r.Settled) : Determined Anything r.read := by
  intro text x rest more ok _
  unfold read at ok ⊢
  split at ok
  · rename_i here
    rw [spaceAt here]
    exact membersContinued settled (by simp) ok more
  · rename_i here
    rw [spaceAt here]
    exact positionsContinued settled ok more
  · contradiction

end Record

theorem Field.ofDetermined {name} {read : Reader β} (determined : Determined Ends read)
    (put : α → β → α) (x : α) : Determined Ends ((Field.of name read put).update x) :=
  determined.mapped (put x)

@[simp] theorem finishedExact {text : List Char} : finished text = .ok () ↔ space text = [] := by
  unfold finished
  split
  · rename_i blank
    simp [blank]
  · rename_i rest other
    simpa using other

theorem wholeExact {read : Reader α} {text x} :
    whole read text = .ok x ↔ ∃ rest, read text = .ok (x, rest) ∧ space rest = [] := by
  simp only [whole, bindOk]
  constructor
  · intro ok
    obtain ⟨⟨y, rest⟩, taken, _, blank, same⟩ := ok
    cases same
    exact ⟨rest, taken, finishedExact.mp blank⟩
  · intro ok
    obtain ⟨rest, taken, blank⟩ := ok
    exact ⟨_, taken, (), finishedExact.mpr blank, rfl⟩

theorem documentExact {read : Reader α} {text : String} {x : α} :
    document read text = .ok x ↔ ∃ rest, read text.toList = .ok (x, rest) ∧ space rest = [] := by
  rw [document, Outcome.mapErrorOk, wholeExact]

end TileCost.Json
