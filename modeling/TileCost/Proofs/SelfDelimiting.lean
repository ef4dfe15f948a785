import TileCost.Settings.Format
import TileCost.Proofs.Json.Records
import TileCost.Proofs.Loading

/-! A file that was cut off, or has another one behind it, is never taken for a file of
its own. Every text that is accepted is over where its outermost bracket closes, and only
white space may follow. -/
namespace TileCost

def Blank (text : String) : Prop :=
  ∀ c ∈ text.toList, c = ' ' ∨ c = '\t' ∨ c = '\n' ∨ c = '\r'
instance (text) : Decidable (Blank text) := List.decidableBAll _ _

variable {ε α : Type}

structure SelfDelimiting (read : String → Except ε α) (malformed : Json.Error → ε) : Prop where
  followed : ∀ {text x}, read text = .ok x → ∀ more y,
    read (text ++ more) = .ok y ↔ Blank more ∧ y = x
  refused : ∀ {text x}, read text = .ok x → ∀ more, ¬ Blank more →
    ∃ e, read (text ++ more) = .error (malformed e) ∧ e.cause = .trailingText
  nested : ∀ {text longer x y}, read text = .ok x → read longer = .ok y →
    text.toList <+: longer.toList → ∃ more, longer = text ++ more ∧ Blank more ∧ y = x
  truncated : ∀ {text shorter x c}, read text = .ok x → text.toList.getLast? = some c →
    c = ']' ∨ c = '\x7d' → shorter.toList <+: text.toList → shorter ≠ text →
    ∃ e, read shorter = .error (malformed e)

namespace Json

theorem blankExact {text : String} : space text.toList = [] ↔ Blank text := by
  unfold space Blank
  rw [List.dropWhile_eq_nil_iff]
  simp only [isSpace, Bool.or_eq_true, decide_eq_true_eq]
  grind

theorem documentContinued {read : Reader α} (determined : Determined Anything read)
    {text : String} {x : α} (ok : document read text = .ok x) (more : String) :
    ∃ rest, read (text ++ more).toList = .ok (x, rest) ∧ space rest = space more.toList := by
  obtain ⟨rest, taken, blank⟩ := documentExact.mp ok
  refine ⟨rest ++ more.toList, ?_, spaceBlank blank _⟩
  rw [String.toList_append]
  exact determined _ _ _ _ taken fun _ => trivial

theorem locatedCause (text : List Char) (f : Failure) : (f.locate text).cause = f.cause := rfl

theorem documentTrailing {read : Reader α} {text : String} {x : α} {rest : List Char}
    (taken : read text.toList = .ok (x, rest)) (other : space rest ≠ []) :
    ∃ e, document read text = .error e ∧ e.cause = .trailingText := by
  have trailing : finished rest = .error (Cause.trailingText.into (space rest)) := by
    unfold finished
    split
    · contradiction
    · rfl
  have refused : whole read text.toList = .error (Cause.trailingText.into (space rest)) := by
    simp [whole, taken, trailing, bind, Except.bind]
  refine ⟨(Cause.trailingText.into (space rest)).locate text.toList, ?_, locatedCause _ _⟩
  rw [document, refused]
  rfl

theorem documentFollowed {read : Reader α} (determined : Determined Anything read)
    {text : String} {x : α} (ok : document read text = .ok x) (more : String) (y : α) :
    document read (text ++ more) = .ok y ↔ Blank more ∧ y = x := by
  obtain ⟨rest, taken, same⟩ := documentContinued determined ok more
  rw [documentExact, taken, ← blankExact, ← same]
  constructor
  · intro accepted
    obtain ⟨tail, both, blank⟩ := accepted
    cases both
    exact ⟨blank, rfl⟩
  · intro accepted
    obtain ⟨blank, rfl⟩ := accepted
    exact ⟨rest, rfl, blank⟩

end Json

namespace SelfDelimiting

theorem continuation {text longer : String} (start : text.toList <+: longer.toList) :
    ∃ more, longer = text ++ more := by
  obtain ⟨letters, joined⟩ := start
  refine ⟨String.ofList letters, ?_⟩
  rw [← String.toList_inj, String.toList_append, String.toList_ofList, joined]

theorem blankLast {more : String} {c : Char} (blank : Blank more)
    (last : more.toList.getLast? = some c) : ¬ (c = ']' ∨ c = '\x7d') := by
  have member : c ∈ more.toList := List.mem_of_getLast? last
  rcases blank c member with rfl | rfl | rfl | rfl <;> decide

/- What a closing bracket ends has no accepted beginning: white space would be all that
is left of it. -/
theorem bracketKept {shorter more : String} {c : Char} (blank : Blank more)
    (last : (shorter ++ more).toList.getLast? = some c) (bracket : c = ']' ∨ c = '\x7d') :
    shorter = shorter ++ more := by
  rw [String.toList_append, List.getLast?_append] at last
  cases left : more.toList.getLast? with
  | none =>
      have empty : more.toList = [] := List.getLast?_eq_none_iff.mp left
      rw [← String.toList_inj, String.toList_append, empty, List.append_nil]
  | some d =>
      rw [left] at last
      cases Option.some.inj last
      exact absurd bracket (blankLast blank left)

theorem ofDocument {read : Json.Reader α} (determined : Json.Determined Json.Anything read) :
    SelfDelimiting (Json.document read) id where
  followed := Json.documentFollowed determined
  refused ok more other := by
    obtain ⟨rest, taken, same⟩ := Json.documentContinued determined ok more
    exact Json.documentTrailing taken (by rwa [same, ne_eq, Json.blankExact])
  nested {text longer x y} ok accepted start := by
    obtain ⟨more, rfl⟩ := continuation start
    obtain ⟨blank, same⟩ := (Json.documentFollowed determined ok more y).mp accepted
    exact ⟨more, rfl, blank, same⟩
  truncated {text shorter x c} ok last bracket start proper := by
    obtain ⟨more, rfl⟩ := continuation start
    cases cut : Json.document read shorter with
    | error e => exact ⟨e, rfl⟩
    | ok y =>
        obtain ⟨blank, _⟩ := (Json.documentFollowed determined cut more x).mp ok
        exact absurd (bracketKept blank last bracket) proper

/- A check that comes after the reading sees the same value, and what cannot be read does
not get that far. -/
theorem checked {parse : String → Except Json.Error α} {load : String → Except ε α}
    {malformed : Json.Error → ε} {valid : α → Prop} (base : SelfDelimiting parse id)
    (exact : ∀ {text x}, load text = .ok x ↔ parse text = .ok x ∧ valid x)
    (unread : ∀ {text e}, parse text = .error e → load text = .error (malformed e)) :
    SelfDelimiting load malformed where
  followed {text x} ok more y := by
    obtain ⟨parsed, passed⟩ := exact.mp ok
    rw [exact, base.followed parsed more y]
    constructor
    · intro both
      exact both.1
    · intro both
      exact ⟨both, both.2 ▸ passed⟩
  refused ok more other := by
    obtain ⟨e, failed, cause⟩ := base.refused (exact.mp ok).1 more other
    exact ⟨e, unread failed, cause⟩
  nested ok accepted start := base.nested (exact.mp ok).1 (exact.mp accepted).1 start
  truncated ok last bracket start proper := by
    obtain ⟨e, failed⟩ := base.truncated (exact.mp ok).1 last bracket start proper
    exact ⟨e, unread failed⟩

end SelfDelimiting

namespace Heatmap
open Json

def ofSizes (sizes : UInt16 × UInt16 × UInt16) : Key := ⟨sizes.1, sizes.2.1, sizes.2.2⟩

theorem readKeyDetermined : Determined Anything readKey :=
  (tripleDetermined natural16Determined).mapped ofSizes

theorem recordSettled : record.Settled :=
  Record.eachTwo rfl
    (Field.ofDetermined (listDetermined readKeyDetermined.ofAnything).ofAnything _)
    (Field.ofDetermined (listDetermined float32Determined).ofAnything _)

theorem selfDelimiting : SelfDelimiting ofJson .malformed :=
  .checked (.ofDocument (Record.readDetermined recordSettled)) ofJsonExact ofJsonMalformed

end Heatmap

namespace Settings
open Json

theorem heatmapSectionSettled : heatmapSection.Settled :=
  Record.eachOne rfl (Field.ofDetermined (quotedStringDetermined _).ofAnything _)

theorem estimatorSectionSettled : estimatorSection.Settled :=
  Record.eachTwo rfl (Field.ofDetermined natural32Determined _)
    (Field.ofDetermined float64Determined _)

theorem recordSettled : record.Settled :=
  Record.eachTwo rfl
    (Field.ofDetermined (Record.readDetermined heatmapSectionSettled).ofAnything _)
    (Field.ofDetermined (Record.readDetermined estimatorSectionSettled).ofAnything _)

theorem selfDelimiting : SelfDelimiting ofJson id :=
  .ofDocument (Record.readDetermined recordSettled)

end Settings

namespace Tile
open Json

def ofExtents (extents : UInt64 × UInt64 × UInt64) : Tile :=
  ⟨extents.1, extents.2.1, extents.2.2⟩

theorem readerDetermined : Determined Anything reader :=
  (tripleDetermined natural64Determined).mapped ofExtents

theorem selfDelimiting : SelfDelimiting ofJson id := .ofDocument readerDetermined

end Tile

theorem filesSelfDelimiting :
    SelfDelimiting Heatmap.ofJson Heatmap.Error.malformed ∧ SelfDelimiting Settings.ofJson id ∧
      SelfDelimiting Tile.ofJson id :=
  ⟨Heatmap.selfDelimiting, Settings.selfDelimiting, Tile.selfDelimiting⟩

def oneKey : String := "\x7b\"note\": [\"]\"], \"keys\": [[8, 2, 4]], \"values\": [10.0]\x7d"

theorem oneKeyOnly :
    Heatmap.ofJson (oneKey ++ "\n") = .ok ⟨[⟨8, 2, 4⟩], [10]⟩ ∧
    (∃ e, Heatmap.ofJson (oneKey ++ oneKey) = .error (.malformed e) ∧ e.cause = .trailingText) ∧
    ∃ e, Heatmap.ofJson (String.ofList (oneKey.toList.take 20)) = .error (.malformed e) := by
  have read : Heatmap.ofJson oneKey = .ok ⟨[⟨8, 2, 4⟩], [10]⟩ := by decide +kernel
  have heatmap := filesSelfDelimiting.1
  refine ⟨(heatmap.followed read "\n" _).mpr ⟨by decide +kernel, rfl⟩, ?_, ?_⟩
  · exact heatmap.refused read oneKey (by decide +kernel)
  · have start : (String.ofList (oneKey.toList.take 20)).toList <+: oneKey.toList := by
      rw [String.toList_ofList]
      exact List.take_prefix 20 _
    have last : oneKey.toList.getLast? = some '\x7d' := by decide +kernel
    exact heatmap.truncated read last (.inr rfl) start (by decide +kernel)

end TileCost
