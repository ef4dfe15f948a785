import TileCost.Session
import TileCost.Proofs.Loading

/-! The two ways from a heatmap to a store, with a check of the lengths and without
one. Both fail for the same arrays. For all others both build the store of the pairs:
a key with the value of the same number. -/
namespace TileCost
open Measurements (ofList ofArrays)

def Measurements.reported {ε : Type} : Except ε Built → List Log.Event
  | .ok b => b.events
  | .error _ => []

namespace Heatmap

def pairs (h : Heatmap) (same : h.keys.length = h.values.length) : List (Tile × Float) :=
  List.ofFn fun i : Fin h.keys.length =>
    (h.keys[i].toTile, Decimal.widen (h.values.get ⟨i, same ▸ i.isLt⟩))

theorem entriesPairs {h : Heatmap} (same : h.keys.length = h.values.length) :
    h.entries = h.pairs same := by
  apply List.ext_getElem
  · simp [entries, pairs, same]
  · intro i left right
    simp [entries, pairs]

theorem ofArraysExact {keys : List Key} {values : List Float32} :
    (∃ b, ofArrays keys values = .ok b) ↔ keys.length = values.length := by
  unfold ofArrays
  split
  · rename_i same
    exact iff_of_true ⟨_, rfl⟩ same
  · rename_i differs
    exact iff_of_false (by simp) differs

/- The check comes first, so what the builder itself would say is never heard. -/
theorem measurementsRefused {h : Heatmap} (differs : h.keys.length ≠ h.values.length) :
    h.measurements = .error (.lengths h.keys.length h.values.length) := by
  have refused : h.check = .error (.lengths h.keys.length h.values.length) := if_neg differs
  unfold measurements
  rw [refused]
  rfl

theorem measurementsExact {h : Heatmap} :
    (∃ b, h.measurements = .ok b) ↔ h.keys.length = h.values.length := by
  by_cases same : h.keys.length = h.values.length
  · exact iff_of_true ⟨_, measurementsBuilt same⟩ same
  · exact iff_of_false (by simp [measurementsRefused same]) same

end Heatmap

theorem Session.storeReported {disk path h} (loaded : (Heatmap.ofDisk disk path).outcome = .ok h) :
    (store disk path).events =
      (Heatmap.ofDisk disk path).events ++ Measurements.reported h.measurements := by
  unfold store
  dsimp only
  rw [loaded]
  dsimp only
  cases h.measurements with
  | error error => exact (List.append_nil _).symm
  | ok b => rfl

namespace Heatmap

theorem buildersAgree (h : Heatmap) :
    (h.check = .ok () ↔ h.keys.length = h.values.length) ∧
    ((∃ b, h.measurements = .ok b) ↔ h.keys.length = h.values.length) ∧
    ((∃ b, ofArrays h.keys h.values = .ok b) ↔ h.keys.length = h.values.length) ∧
    (∀ same, h.measurements = .ok (ofList (h.pairs same)) ∧
      ofArrays h.keys h.values = .ok (ofList (h.pairs same))) ∧
    (h.keys.length ≠ h.values.length →
      h.check = .error (.lengths h.keys.length h.values.length) ∧
      h.measurements = .error (.lengths h.keys.length h.values.length) ∧
      ofArrays h.keys h.values = .error (.lengths h.keys.length h.values.length) ∧
      Measurements.reported h.measurements = [] ∧
      Measurements.reported (ofArrays h.keys h.values) = []) ∧
    (∀ text, ofJson text = .ok h → ∃ b, h.measurements = .ok b) ∧
    ∀ disk path, (ofDisk disk path).outcome = .ok h → (Session.store disk path).events =
      (ofDisk disk path).events ++ Measurements.reported h.measurements := by
  refine ⟨checkExact, measurementsExact, ofArraysExact, ?_, ?_, ?_, ?_⟩
  · intro same
    rw [← entriesPairs same]
    exact ⟨measurementsBuilt same, if_pos same⟩
  · intro differs
    have checked : h.measurements = _ := measurementsRefused differs
    have unchecked : ofArrays h.keys h.values = _ := if_neg differs
    refine ⟨if_neg differs, checked, unchecked, ?_, ?_⟩
    · rw [checked]
      rfl
    · rw [unchecked]
      rfl
  · intro text parsed
    exact measurementsExact.mpr (ofJsonExact.mp parsed).2
  · intro disk path loaded
    exact Session.storeReported loaded

def oneMore : Heatmap := ⟨[⟨1, 1, 1⟩], [1, 2]⟩

def twiceMeasured : Heatmap := ⟨[⟨1, 1, 1⟩, ⟨1, 1, 1⟩], [1, 3]⟩

theorem oneMoreRefused :
    oneMore.measurements = .error (.lengths 1 2) ∧
    ofArrays oneMore.keys oneMore.values = .error (.lengths 1 2) ∧
    twiceMeasured.measurements = .ok (ofList [(⟨1, 1, 1⟩, 1), (⟨1, 1, 1⟩, 3)]) ∧
    ∃ b, twiceMeasured.measurements = .ok b := by
  have refused := (buildersAgree oneMore).2.2.2.2.1 (by decide)
  have built := ((buildersAgree twiceMeasured).2.2.2.1 rfl).1
  have pairs : twiceMeasured.pairs rfl = [(⟨1, 1, 1⟩, 1), (⟨1, 1, 1⟩, 3)] := by decide +kernel
  have parsed : ofJson "\x7b\"keys\": [[1, 1, 1], [1, 1, 1]], \"values\": [1, 3]\x7d" =
      .ok twiceMeasured := by decide +kernel
  rw [pairs] at built
  exact ⟨refused.2.1, refused.2.2.1, built, (buildersAgree twiceMeasured).2.2.2.2.2.1 _ parsed⟩

end Heatmap
end TileCost
