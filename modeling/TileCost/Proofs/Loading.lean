import TileCost.Settings.Format
import TileCost.Heatmap.Format
import TileCost.Proofs.Outcome

/-! What a successful load tells of its result. Settings have passed the check of
their constants on every way they can come; heatmaps have arrays of one length, so
the step to a store cannot fail any more. -/
namespace TileCost
open Outcome (bindOk mapErrorOk)

namespace Settings

theorem ofFileExact {text s} :
    ofFile text = .ok s ↔ ofJson text = .ok s ∧ s.constants.check = .ok () := by
  simp only [ofFile, bindOk, mapErrorOk, pure, Except.pure, Except.ok.injEq]
  constructor
  · intro ok
    obtain ⟨read, parsed, ⟨⟩, valid, same⟩ := ok
    subst same
    exact ⟨parsed, valid⟩
  · intro ok
    obtain ⟨parsed, valid⟩ := ok
    exact ⟨s, parsed, (), valid, rfl⟩

theorem ofFileMalformed {text e} (refused : ofJson text = .error e) :
    ofFile text = .error (.malformed e) := by
  simp [ofFile, refused, Except.mapError, bind, Except.bind]

theorem ofFileInvalid {text s fault} (parsed : ofJson text = .ok s)
    (refused : s.constants.check = .error fault) : ofFile text = .error (.invalid fault) := by
  simp [ofFile, parsed, refused, Except.mapError, bind, Except.bind]

theorem ofDiskNothing {disk : Disk} {path} (nothing : disk.has path = false) :
    ofDisk disk path = ⟨.ok default, [.settingsMissing path]⟩ := by
  simp [ofDisk, nothing]

theorem ofDiskUnread {disk : Disk} {path fault} (there : disk.has path = true)
    (unread : disk.read path = .error fault) : ofDisk disk path = ⟨.error (.unreadable fault), []⟩ := by
  simp [ofDisk, there, unread]

theorem ofDiskFile {disk : Disk} {path text : String} (holds : disk.Holds path text) :
    ofDisk disk path = ⟨ofFile text, []⟩ := by
  simp [ofDisk, holds.has, holds.read]

theorem defaultChecked : default.constants.check = .ok () := rfl

theorem loadedChecked {disk path s} (ok : (ofDisk disk path).outcome = .ok s) :
    s.constants.check = .ok () := by
  unfold ofDisk at ok
  split at ok
  · split at ok
    · contradiction
    · exact (ofFileExact.mp ok).2
  · cases ok
    exact defaultChecked

theorem ofDiskEvents (disk : Disk) (path : String) :
    (ofDisk disk path).events = if disk.has path then [] else [.settingsMissing path] := by
  unfold ofDisk
  split
  · split <;> rfl
  · rfl

end Settings

namespace Heatmap

theorem checkExact {h : Heatmap} : h.check = .ok () ↔ h.keys.length = h.values.length := by
  unfold check
  split
  · rename_i same
    exact iff_of_true rfl same
  · rename_i differs
    exact iff_of_false (by simp) differs

theorem ofJsonExact {text h} :
    ofJson text = .ok h ↔
      Json.document record.read text = .ok h ∧ h.keys.length = h.values.length := by
  simp only [ofJson, bindOk, mapErrorOk, pure, Except.pure, Except.ok.injEq]
  constructor
  · intro ok
    obtain ⟨read, parsed, ⟨⟩, lengths, same⟩ := ok
    subst same
    exact ⟨parsed, checkExact.mp lengths⟩
  · intro ok
    obtain ⟨parsed, same⟩ := ok
    exact ⟨h, parsed, (), checkExact.mpr same, rfl⟩

theorem ofJsonMalformed {text e} (failed : Json.document record.read text = .error e) :
    ofJson text = .error (.malformed e) := by
  simp [ofJson, failed, Except.mapError, bind, Except.bind]

theorem ofJsonLengths {text h} (parsed : Json.document record.read text = .ok h)
    (differ : h.keys.length ≠ h.values.length) :
    ofJson text = .error (.lengths h.keys.length h.values.length) := by
  simp [ofJson, parsed, check, differ, Except.mapError, bind, Except.bind]

theorem ofJsonRefused {text error} (refused : ofJson text = .error error) :
    (∃ e, error = .malformed e) ∨ ∃ keys values, error = .lengths keys values := by
  cases parsed : Json.document record.read text with
  | error e =>
      rw [ofJsonMalformed parsed] at refused
      exact .inl ⟨e, (Except.error.inj refused).symm⟩
  | ok h =>
      by_cases same : h.keys.length = h.values.length
      · rw [ofJsonExact.mpr ⟨parsed, same⟩] at refused
        contradiction
      · rw [ofJsonLengths parsed same] at refused
        exact .inr ⟨_, _, (Except.error.inj refused).symm⟩

theorem ofDiskUnread {disk path fault} (unread : disk.read path = .error fault) :
    ofDisk disk path = ⟨.error (.unreadable path fault), []⟩ := by
  unfold ofDisk
  rw [unread]

theorem ofDiskRead {disk : Disk} {path text} (found : disk.read path = .ok text) :
    (ofDisk disk path).outcome = ofJson text := by
  unfold ofDisk
  rw [found]
  dsimp only
  cases ofJson text <;> rfl

theorem loadedText {disk path h} (ok : (ofDisk disk path).outcome = .ok h) :
    ∃ text, disk.read path = .ok text ∧ ofJson text = .ok h ∧
      (ofDisk disk path).events = [.heatmapLoaded path h.keys.length] := by
  unfold ofDisk at ok ⊢
  cases read : disk.read path with
  | error fault =>
      rw [read] at ok
      contradiction
  | ok text =>
      rw [read] at ok
      dsimp only at ok ⊢
      cases parsed : ofJson text with
      | error error =>
          rw [parsed] at ok
          contradiction
      | ok parsedHeatmap =>
          rw [parsed] at ok
          cases ok
          exact ⟨text, rfl, parsed, rfl⟩

theorem loadedLengths {disk path h} (ok : (ofDisk disk path).outcome = .ok h) :
    h.keys.length = h.values.length := by
  obtain ⟨text, _, parsed, _⟩ := loadedText ok
  exact (ofJsonExact.mp parsed).2

def entries (h : Heatmap) : List (Tile × Float) :=
  (h.keys.map Key.toTile).zip (h.values.map Decimal.widen)

theorem entriesTiles {h : Heatmap} (same : h.keys.length = h.values.length) :
    h.entries.map Prod.fst = h.keys.map Key.toTile :=
  List.map_fst_zip (by simp [same])

theorem measurementsBuilt {h : Heatmap} (same : h.keys.length = h.values.length) :
    h.measurements = .ok (Measurements.ofList h.entries) := by
  have arrays : Measurements.ofArrays h.keys h.values = .ok (Measurements.ofList h.entries) :=
    if_pos same
  unfold measurements
  rw [checkExact.mpr same, arrays]
  rfl

end Heatmap
end TileCost
