import TileCost.Proofs.Json.Following
import TileCost.Proofs.Json.Magnitudes
import TileCost.Proofs.Account
import TileCost.Proofs.Widths

/-! Numbers of a heatmap file that are too large for the narrow width. A file is read alike
whether its numbers are narrowed or not, so none is refused for its size; one that is beyond
the range becomes an infinity, and is printed as what is no number. -/
namespace TileCost

namespace Decimal.Layout

theorem magnitudeHead (l : Layout) (d : Short) :
    ∃ c rest, l.magnitude d = c :: rest ∧ c.isDigit = true := by
  unfold magnitude
  dsimp only
  cases written : Nat.toDigits 10 d.coefficient with
  | nil => exact absurd written Nat.toDigits_ne_nil
  | cons c rest =>
    have digit : c.isDigit = true :=
      Nat.isDigit_of_mem_toDigits (by decide) (by decide) (written ▸ List.mem_cons_self)
    split
    · unfold position
      split
      · exact ⟨_, _, rfl, rfl⟩
      · dsimp only
        split <;> exact ⟨_, _, rfl, digit⟩
    · cases rest <;> exact ⟨_, _, rfl, digit⟩

end Decimal.Layout

namespace Json
open Decimal (Layout)

theorem nullExact (x : Float) : writeFloat x = "null".toList ↔ x.isFinite = false := by
  have infinite {f : Float.Model.UnpackedFloat} (given : x.toModel.unpack = f) :
      x.isFinite = f.isFinite := congrArg _ given
  unfold writeFloat Layout.float
  cases given : x.toModel.unpack with
  | notANumber => exact iff_of_true rfl (infinite given)
  | infinity s =>
    refine iff_of_true ?_ (infinite given)
    cases s <;> rfl
  | zero s =>
    refine iff_of_false ?_ (by simp [infinite given, Float.Model.UnpackedFloat.isFinite])
    cases s <;> decide
  | finite s m e h =>
    refine iff_of_false ?_ (by simp [infinite given, Float.Model.UnpackedFloat.isFinite])
    obtain ⟨c, rest, magnitude, digit⟩ :=
      number64.magnitudeHead (Decimal.shortest .binary64 number64.tie m e)
    rw [Layout.text, magnitude]
    cases s with
    | negative => simp [Layout.signed]
    | positive =>
      intro null
      cases (List.cons.inj null).1
      cases digit

/-- Of a size that is less than half a unit above the largest number of the narrow width. -/
def Number.Fits (number : Number) : Prop :=
  ∃ x : ℚ, number.size = some x ∧ x < 2 ^ 128 - 2 ^ 103

theorem narrowLimit : Decimal.limit .binary32 = 2 ^ 128 - 2 ^ 103 := by
  have top : Decimal.top .binary32 = 104 := rfl
  have bits : Float.Model.Format.binary32.mantissaBits = 24 := rfl
  rw [Decimal.limit, top, bits]
  norm_num

theorem Number.narrowFits {number : Number} (sized : ∃ x, number.size = some x) :
    number.toFloat32.isNaN = false ∧ (number.toFloat32.isFinite = true ↔ number.Fits) := by
  obtain ⟨x, given⟩ := sized
  obtain ⟨known, finite⟩ := Number.narrowed given
  refine ⟨known, finite.trans ?_⟩
  simp only [Number.Fits, given, Option.some.injEq, exists_eq_left', narrowLimit]

end Json

namespace Heatmap
open Json

structure Figures where
  keys : List Key
  numbers : List Number
  deriving DecidableEq, Repr

def figures : Json.Record Figures where
  name := "HeatmapData"
  fields :=
    [.of "keys" (list readKey) (fun f keys => {f with keys}),
     .of "values" (list (someNumber "f32" .ok)) (fun f numbers => {f with numbers})]
  default := ⟨[], []⟩
  complete := true

def Figures.narrow (f : Figures) : Heatmap := ⟨f.keys, f.numbers.map Number.toFloat32⟩

structure Narrowed (number : Number) (value : Float32) : Prop where
  value : number.toFloat32 = value
  sized : ∃ x, number.size = some x

structure Narrows (f : Figures) (h : Heatmap) : Prop where
  keys : f.keys = h.keys
  values : List.Forall₂ Narrowed f.numbers h.values

theorem readAlike {α : Type} (read : Reader α) : Follows Eq read read := by
  intro text
  cases read text with
  | error failure => exact .error failure
  | ok r => exact .ok rfl r.2

theorem numbersFollow : Follows Narrowed (someNumber "f32" .ok) float32 := by
  intro text
  unfold float32 someNumber
  dsimp only
  split
  · cases taken : number (space text) with
    | error failure => exact .error failure
    | ok r => exact .ok ⟨rfl, numberSized taken⟩ r.2
  · exact .error _

theorem figuresFollow : figures.Follows Narrows record where
  name := rfl
  complete := rfl
  default := ⟨rfl, .nil⟩
  fields := .cons
    (Field.ofFollows "keys" (readAlike _) fun _ _ _ _ so same => ⟨same, so.values⟩)
    (.cons
      (Field.ofFollows "values" (listFollows numbersFollow) fun _ _ _ _ so all => ⟨so.keys, all⟩)
      .nil)

theorem narrowsSource {f : Figures} {h : Heatmap} (narrows : Narrows f h) :
    h = f.narrow ∧ ∀ number ∈ f.numbers, ∃ x, number.size = some x := by
  obtain ⟨keys, numbers⟩ := f
  obtain ⟨keys', values⟩ := h
  obtain ⟨rfl, all⟩ := narrows
  dsimp only [Figures.narrow] at all ⊢
  induction all with
  | nil => exact ⟨rfl, by simp⟩
  | cons one _ ih =>
    obtain ⟨same, sized⟩ := ih
    cases same
    cases one.value
    exact ⟨rfl, List.forall_mem_cons.mpr ⟨one.sized, sized⟩⟩

theorem figuresRead (text : String) :
    (∃ e, document figures.read text = .error e ∧ document record.read text = .error e) ∨
      ∃ f, document figures.read text = .ok f ∧ document record.read text = .ok f.narrow ∧
        ∀ number ∈ f.numbers, ∃ x, number.size = some x := by
  rcases documentFollows (Record.readFollows figuresFollow) text with
    ⟨e, refused, refused'⟩ | ⟨f, h, taken, taken', narrows⟩
  · exact .inl ⟨e, refused, refused'⟩
  · obtain ⟨rfl, sized⟩ := narrowsSource narrows
    exact .inr ⟨f, taken, taken', sized⟩

inductive Figures.LastGiven (f : Figures) (t : Tile) : Number → Prop where
  | mk {i : Nat} {key number} (found : f.keys[i]? = some key) (names : key.Names t)
      (given : f.numbers[i]? = some number)
      (final : ∀ (j : Nat) later, f.keys[j]? = some later → later.Names t → j ≤ i) :
      LastGiven f t number

theorem lastNarrowed {f : Figures} {t : Tile} {value : Float32}
    (last : f.narrow.LastGiven t value) :
    ∃ number ∈ f.numbers, f.LastGiven t number ∧ number.toFloat32 = value := by
  obtain ⟨found, names, given, final⟩ := last
  simp only [Figures.narrow, List.getElem?_map, Option.map_eq_some_iff] at given
  obtain ⟨number, given, same⟩ := given
  exact ⟨number, List.mem_of_getElem? given, .mk found names given final, same⟩

end Heatmap

theorem Predictor.measuredOwn {p : Predictor} {t : Tile}
    (measured : (p.estimate t).source = .measured) :
    ∃ x, p.store.get? t = some x ∧ p.estimate t = p.priced x .measured := by
  have answer := p.estimateAnswers t
  generalize p.estimate t = e at answer measured
  cases answer with
  | measured own => exact ⟨_, own, rfl⟩
  | interpolated own bridged => cases measured
  | special own unbridged curated => cases measured
  | unknown own unbridged other => cases measured

namespace Session
open Json

def measuredLine (t : Tile) (startupCost : UInt32) (throughput : List Char) : String :=
  String.ofList (writeObject
    [writeMember "tile" t.write, writeMember "throughput" throughput,
     writeMember "startup_cost" (writeNat startupCost.toNat),
     writeMember "source" (writeString "measured".toList)])

theorem realExactly {text : String} {h : Heatmap} (read : Heatmap.ofJson text = .ok h) :
    ∃ f, document Heatmap.figures.read text = .ok f ∧ h = f.narrow ∧
      (∀ value ∈ h.values, value.isNaN = false) ∧
      ((∀ value ∈ h.values, value.isFinite = true) ↔ ∀ number ∈ f.numbers, number.Fits) ∧
      ∀ {disk setting arguments request s}, CommandLine.parse arguments = .ok request →
        (Settings.ofDisk disk request.config).outcome = .ok s →
        disk.read (heatmapPath request s) = .ok text →
        ∃ b, h.measurements = .ok b ∧
          let p : Predictor := ⟨b.store, s.constants⟩
          let t := run disk setting arguments
          t.exit = 0 ∧ t.stdout = request.tiles.map (fun tile => (reply p tile).toJson) ∧
          ∀ tile ∈ request.tiles, (p.estimate tile).source = .measured →
            ∃ number throughput, f.LastGiven tile number ∧
              (reply p tile).toJson = measuredLine tile s.constants.startupCost throughput ∧
              (throughput = "null".toList ↔ ¬ number.Fits) := by
  obtain ⟨parsed, lengths⟩ := Heatmap.ofJsonExact.mp read
  rcases Heatmap.figuresRead text with ⟨e, _, refused⟩ | ⟨f, taken, narrowed, sized⟩
  · cases refused.symm.trans parsed
  cases narrowed.symm.trans parsed
  have fits {number} (member : number ∈ f.numbers) := Number.narrowFits (sized number member)
  refine ⟨f, taken, rfl, ?_, ?_, ?_⟩
  · exact List.forall_mem_map.mpr fun number member => (fits member).1
  · simp only [Heatmap.Figures.narrow, List.forall_mem_map]
    exact forall₂_congr fun number member => (fits member).2
  · intro disk setting arguments request s asked settings found
    have loaded : Loaded disk request s f.narrow :=
      ⟨settings, (Heatmap.ofDiskRead found).trans read⟩
    obtain ⟨b, built, success, lines⟩ := @loadedRun _ setting _ _ _ _ asked loaded
    refine ⟨b, built, success, lines.trans List.map_map, fun tile _ measured => ?_⟩
    obtain ⟨x, own, estimate⟩ := Predictor.measuredOwn measured
    rw [(Heatmap.measuredSource built).2, Heatmap.lastEntry lengths] at own
    obtain ⟨value, last, wide⟩ := own
    obtain ⟨number, member, given, same⟩ := Heatmap.lastNarrowed last
    refine ⟨number, writeFloat x, given, ?_, ?_⟩
    · rw [reply, estimate]
      rfl
    · rw [nullExact, ← wide, Decimal.widenFinite, ← same, ← (fits member).2, Bool.not_eq_true]

def atLimit : String :=
  "\x7b\"keys\": [[8, 2, 4], [8, 3, 4]], \"values\": [3.4028235e38, 3.4028236e38]\x7d"

def farAbove : String := "\x7b\"keys\": [[1,2,3]], \"values\": [1e39]\x7d"

def withHeatmap (text : String) : Disk :=
  (Tree.ofEntries [("heatmap.json", .file text.toUTF8)]).disk

theorem limitReached :
    (∃ f, document Heatmap.figures.read atLimit = .ok f ∧ ¬ ∀ number ∈ f.numbers, number.Fits) ∧
    (run (withHeatmap atLimit) none ["8,2,4", "8,3,4"]).stdout =
      [measuredLine ⟨8, 2, 4⟩ 32 "3.4028234663852886e+38".toList,
       measuredLine ⟨8, 3, 4⟩ 32 "null".toList] := by
  have read : Heatmap.ofJson atLimit = .ok ⟨[⟨8, 2, 4⟩, ⟨8, 3, 4⟩],
      [Float32.ofBits 0x7f7fffff, Float32.ofBits 0x7f800000]⟩ := by
    decide +kernel
  obtain ⟨f, taken, _, _, exact, runs⟩ := realExactly read
  have beyond : ¬ ∀ number ∈ f.numbers, number.Fits := fun all =>
    absurd (exact.mpr all) (by decide)
  have asked : CommandLine.parse ["8,2,4", "8,3,4"] =
      .ok ⟨"config.json", none, false, [⟨8, 2, 4⟩, ⟨8, 3, 4⟩]⟩ := by
    decide +kernel
  have settings : (Settings.ofDisk (withHeatmap atLimit) "config.json").outcome = .ok .default := by
    decide +kernel
  have found : (withHeatmap atLimit).read "heatmap.json" = .ok atLimit := by decide +kernel
  obtain ⟨b, built, _, lines, _⟩ := @runs _ none _ _ _ asked settings found
  cases (Heatmap.measurementsBuilt rfl).symm.trans built
  exact ⟨⟨f, taken, beyond⟩, lines.trans (by decide +kernel)⟩

theorem farAboveAccepted :
    (¬ ∀ text h, Heatmap.ofJson text = .ok h → ∀ value ∈ h.values, value.isFinite = true) ∧
    let t := run (withHeatmap farAbove) none ["1,2,3"]
    t.exit = 0 ∧ t.stdout = [measuredLine ⟨1, 2, 3⟩ 32 "null".toList] := by
  refine ⟨fun all => ?_, by decide +kernel⟩
  have read : Heatmap.ofJson farAbove = .ok ⟨[⟨1, 2, 3⟩], [Float32.ofBits 0x7f800000]⟩ := by
    decide +kernel
  exact absurd (all _ _ read _ (List.mem_singleton.mpr rfl)) (by decide)

end Session
end TileCost
