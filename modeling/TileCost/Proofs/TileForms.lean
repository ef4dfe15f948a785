import TileCost.Proofs.Json.Tokens
import TileCost.Proofs.SelfDelimiting
import TileCost.Proofs.TileText

/-! The written forms of a tile, each of which has room for one tile only: its JSON, in which
nothing but white space is free, the text between the brackets of that, and the form of the
log. What was read is written as a text that is read as the same tile. -/
namespace TileCost.Tile
open Json

def extents (t : Tile) : List UInt64 := [t.m, t.n, t.k]

def digits (t : Tile) : List (List Char) := t.extents.map fun n => writeNat n.toNat

def tokens (t : Tile) : List (List Char) :=
  [['['], writeNat t.m.toNat, [','], writeNat t.n.toNat, [','], writeNat t.k.toNat, [']']]

theorem readerElementwise : Elementwise natural64 reader extents :=
  (tripleElementwise (unsignedBegins _ _) (unsignedConfined _ _)).mapped (f := ofExtents)
    (fun t => ⟨(t.m, t.n, t.k), rfl⟩) fun _ => rfl

theorem readerSound : Sound reader := (tripleSound (unsignedSound _ _)).mapped ofExtents

theorem documentSpaced {text : String} {t : Tile} :
    ofJson text = .ok t ↔ Spaced t.tokens text.toList := by
  have written {text : List Char} {n : UInt64} (same : text = writeNat n.toNat) :
      Valid .value text := same ▸ writtenValid n.toNat
  rw [ofJson, readerElementwise.documentTokens readerSound
    (fun valid => natural64Exact valid) written]
  constructor
  · intro written
    obtain ⟨texts, spaced, all⟩ := written
    obtain _ | ⟨rfl, _ | ⟨rfl, _ | ⟨rfl, _ | _⟩⟩⟩ := all
    exact spaced
  · intro spaced
    exact ⟨t.digits, spaced, .cons rfl (.cons rfl (.cons rfl .nil))⟩

theorem toJsonTokens (t : Tile) : t.toJson = String.ofList t.tokens.flatten :=
  congrArg String.ofList (listFlattened _).symm

theorem toJsonRead (t : Tile) : ofJson t.toJson = .ok t := by
  rw [documentSpaced, toJsonTokens, String.toList_ofList]
  exact flattenSpaced t.tokens

def joinedBy (mark : Char) (t : Tile) : List Char :=
  writeNat t.m.toNat ++ mark :: (writeNat t.n.toNat ++ mark :: writeNat t.k.toNat)

theorem toJsonJoined (t : Tile) : t.toJson = "[" ++ String.ofList (t.joinedBy ',') ++ "]" := by
  rw [toJsonTokens, ← String.toList_inj]
  simp [tokens, joinedBy]

theorem textJoined (t : Tile) : t.text = "[" ++ String.ofList (t.joinedBy ' ') ++ "]" := by
  have decimal (n : UInt64) : toString n = String.ofList (writeNat n.toNat) :=
    Nat.toString_eq_ofList_toDigits
  have marks (s : String) : toString s = s := rfl
  rw [← String.toList_inj]
  simp [text, joinedBy, decimal, marks]

theorem joinedRead (t : Tile) : ofText (String.ofList (t.joinedBy ',')) = .ok t := by
  have spelled (n : UInt64) : Extents.Spells (writeNat n.toNat) n := by
    have bare := @Extents.spellsAround [] [] _ n (by simp) (by simp) (Extents.decimalNumeral n)
    rwa [List.nil_append, List.append_nil] at bare
  have first := spelled t.m
  have second := spelled t.n
  have third := spelled t.k
  rw [ofText, String.toList_ofList, Extents.readExact]
  exact .mk ⟨first.apart, second.apart, third.apart⟩ first second third

theorem joinedParts {mark : Char} (plain : mark.isDigit = false) (t : Tile) :
    Text.parts mark (t.joinedBy mark) = t.digits := by
  have other (n : UInt64) : mark ∉ writeNat n.toNat := by
    intro member
    rw [writtenDigit _ mark member] at plain
    contradiction
  exact Text.partsThree.mpr ⟨rfl, other t.m, other t.n, other t.k⟩

theorem joinedAlike {mark : Char} (plain : mark.isDigit = false) {s t : Tile}
    (same : s.joinedBy mark = t.joinedBy mark) : s = t := by
  have parts := congrArg (Text.parts mark) same
  rw [joinedParts plain, joinedParts plain] at parts
  have apart : Function.Injective fun n : UInt64 => writeNat n.toNat := fun _ _ same =>
    UInt64.toNat_inj.mp (writtenAlike same)
  obtain ⟨m, n, k⟩ := s
  obtain ⟨m', n', k'⟩ := t
  simpa [extents] using List.map_injective_iff.mpr apart parts

theorem textAlike {s t : Tile} : s.text = t.text ↔ s = t := by
  refine ⟨fun same => joinedAlike (by decide : ' '.isDigit = false) ?_, congrArg text⟩
  rw [textJoined, textJoined, ← String.toList_inj] at same
  simpa using same

theorem formsFaithful (t : Tile) :
    (∀ text : String, ofJson text = .ok t ↔ Spaced t.tokens text.toList) ∧
    t.toJson = String.ofList t.tokens.flatten ∧
    (∃ bare, t.toJson = "[" ++ bare ++ "]" ∧ ofText bare = .ok t) ∧
    (∀ text : String, (ofJson text >>= fun u => ofJson u.toJson) = ofJson text) ∧
    ∀ u : Tile, t.text = u.text ↔ t = u := by
  refine ⟨fun text => documentSpaced, toJsonTokens t, ⟨_, toJsonJoined t, joinedRead t⟩,
    fun text => ?_, fun u => textAlike⟩
  cases ofJson text with
  | error e => rfl
  | ok u => exact toJsonRead u

example : ofJson " [9223372036854775808 ,\n16\t,18446744073709551615]\r" =
    .ok ⟨2 ^ 63, 16, 2 ^ 64 - 1⟩ := by decide +kernel

end TileCost.Tile
