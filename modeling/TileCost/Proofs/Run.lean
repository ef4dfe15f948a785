import TileCost.Disk.Tree
import TileCost.Proofs.Lines
import TileCost.Proofs.Loading

/-! A run gives all the replies or none. It replies exactly if the settings and then
the heatmap can be loaded; whatever goes wrong does so before the first reply, and
is never a breach of an agreement. -/
namespace TileCost

namespace Heatmap

theorem ofJsonNoBreach {text mistake} : ofJson text ≠ .error (.breach mistake) := by
  intro breach
  rcases ofJsonRefused breach with ⟨e, other⟩ | ⟨keys, values, other⟩ <;> contradiction

theorem ofDiskNoBreach {disk path mistake} :
    (ofDisk disk path).outcome ≠ .error (.breach mistake) := by
  unfold ofDisk
  split
  · simp
  · split
    · rename_i refused
      intro breach
      cases Except.error.inj breach
      exact ofJsonNoBreach refused
    · simp

end Heatmap

namespace Session

structure Loaded (disk : Disk) (request : Request) (s : Settings) (h : Heatmap) : Prop where
  settings : (Settings.ofDisk disk request.config).outcome = .ok s
  heatmap : (Heatmap.ofDisk disk (request.heatmap.getD s.heatmapPath)).outcome = .ok h

theorem storeBuilt {disk path h b} (loaded : (Heatmap.ofDisk disk path).outcome = .ok h)
    (built : h.measurements = .ok b) :
    store disk path = ⟨.ok b, (Heatmap.ofDisk disk path).events ++ b.events⟩ := by
  unfold store
  dsimp only
  rw [loaded]
  dsimp only
  rw [built]

theorem storeRefused {disk path error}
    (refused : (Heatmap.ofDisk disk path).outcome = .error error) :
    (store disk path).outcome = .error error := by
  unfold store
  dsimp only
  rw [refused]

theorem answered {disk request s h b} (loaded : Loaded disk request s h)
    (built : h.measurements = .ok b) :
    let p : Predictor := ⟨b.store, s.constants⟩
    let path := request.heatmap.getD s.heatmapPath
    answer disk request = ⟨.ok (request.tiles.map (reply p)),
      (Settings.ofDisk disk request.config).events ++
        ((Heatmap.ofDisk disk path).events ++ b.events) ++
        .ready path b.store.size s.constants.startupCost ::
        request.tiles.flatMap fun tile => (p.explain tile).events⟩ := by
  unfold answer
  dsimp only
  rw [loaded.settings]
  dsimp only [heatmapPath]
  rw [storeBuilt loaded.heatmap built]

theorem settingsRefused {disk request error}
    (refused : (Settings.ofDisk disk request.config).outcome = .error error) :
    (answer disk request).outcome = .error (.settings error) := by
  unfold answer
  dsimp only
  rw [refused]

theorem heatmapRefused {disk request s error}
    (settings : (Settings.ofDisk disk request.config).outcome = .ok s)
    (refused : (Heatmap.ofDisk disk (request.heatmap.getD s.heatmapPath)).outcome = .error error) :
    (answer disk request).outcome = .error (.heatmap error) := by
  unfold answer
  dsimp only
  rw [settings]
  dsimp only [heatmapPath]
  rw [storeRefused refused]

theorem ways (disk : Disk) (request : Request) :
    (∃ s h, Loaded disk request s h) ∨
    (∃ error, (answer disk request).outcome = .error (.settings error)) ∨
    ∃ error, (answer disk request).outcome = .error (.heatmap error) ∧
      ∀ mistake, error ≠ .breach mistake := by
  cases settings : (Settings.ofDisk disk request.config).outcome with
  | error error => exact .inr (.inl ⟨error, settingsRefused settings⟩)
  | ok s =>
      cases heatmap : (Heatmap.ofDisk disk (request.heatmap.getD s.heatmapPath)).outcome with
      | error error =>
          refine .inr (.inr ⟨error, heatmapRefused settings heatmap, ?_⟩)
          intro mistake breach
          subst error
          exact Heatmap.ofDiskNoBreach heatmap
      | ok h => exact .inl ⟨s, h, settings, heatmap⟩

theorem served {disk setting arguments request}
    (parsed : CommandLine.parse arguments = .ok request) :
    run disk setting arguments =
      conclude (Log.Threshold.choose setting request.verbose) (answer disk request) := by
  unfold run
  rw [parsed]
  rfl

theorem concludeOk {a replies} (threshold : Log.Threshold)
    (ok : Log.Logged.outcome a = .ok replies) :
    (conclude threshold a).exit = 0 ∧ (conclude threshold a).stdout = replies.map Reply.toJson := by
  unfold conclude
  rw [ok]
  exact ⟨rfl, rfl⟩

theorem concludeError {a fault} (threshold : Log.Threshold)
    (refused : Log.Logged.outcome a = .error fault) :
    (conclude threshold a).exit = fault.exit ∧ (conclude threshold a).stdout = [] := by
  unfold conclude
  rw [refused]
  exact ⟨rfl, rfl⟩

theorem heatmapExit {error : Heatmap.Error} (data : ∀ mistake, error ≠ .breach mistake) :
    (Fault.heatmap error).exit = 1 := by
  cases error with
  | breach mistake => exact absurd rfl (data mistake)
  | unreadable path fault => rfl
  | malformed error => rfl
  | lengths keys values => rfl

theorem unloadedFails {disk request} (unloaded : ¬ ∃ s h, Loaded disk request s h) :
    ∃ fault, (answer disk request).outcome = .error fault ∧ fault.exit = 1 ∧
      ∀ mistake, fault ≠ .heatmap (.breach mistake) := by
  rcases ways disk request with loaded | ⟨error, refused⟩ | ⟨error, refused, data⟩
  · exact absurd loaded unloaded
  · exact ⟨_, refused, rfl, by simp⟩
  · exact ⟨_, refused, heatmapExit data, by simpa using data⟩

theorem loadedRun {disk setting arguments request s h}
    (parsed : CommandLine.parse arguments = .ok request) (loaded : Loaded disk request s h) :
    ∃ b, h.measurements = .ok b ∧ (run disk setting arguments).exit = 0 ∧
      (run disk setting arguments).stdout =
        (request.tiles.map (reply ⟨b.store, s.constants⟩)).map Reply.toJson := by
  have built := Heatmap.measurementsBuilt (Heatmap.loadedLengths loaded.heatmap)
  have outcome := congrArg Log.Logged.outcome (answered loaded built)
  rw [served parsed]
  exact ⟨_, built, concludeOk _ outcome⟩

theorem unloadedRun {disk setting arguments request}
    (parsed : CommandLine.parse arguments = .ok request)
    (unloaded : ¬ ∃ s h, Loaded disk request s h) :
    (run disk setting arguments).exit = 1 ∧ (run disk setting arguments).stdout = [] := by
  obtain ⟨fault, refused, exit, _⟩ := unloadedFails unloaded
  rw [served parsed]
  obtain ⟨code, silent⟩ := concludeError (Log.Threshold.choose setting request.verbose) refused
  exact ⟨code.trans exit, silent⟩

theorem noBreach (disk : Disk) (request : Request) (mistake : Breach) :
    (answer disk request).outcome ≠ .error (.heatmap (.breach mistake)) := by
  intro breach
  by_cases loaded : ∃ s h, Loaded disk request s h
  · obtain ⟨s, h, loaded⟩ := loaded
    rw [answered loaded (Heatmap.measurementsBuilt (Heatmap.loadedLengths loaded.heatmap))] at breach
    contradiction
  · obtain ⟨fault, refused, _, data⟩ := unloadedFails loaded
    exact data mistake (Except.error.inj (refused.symm.trans breach))

theorem allOrNothing {disk setting arguments request}
    (parsed : CommandLine.parse arguments = .ok request) :
    let t := run disk setting arguments
    (t.exit = 0 ↔ ∃ s h, Loaded disk request s h) ∧
    (∀ s h, Loaded disk request s h → ∃ b, h.measurements = .ok b ∧
      t.stdout = request.tiles.map fun tile =>
        (Reply.mk tile ((Predictor.mk b.store s.constants).estimate tile)).toJson) ∧
    ((¬ ∃ s h, Loaded disk request s h) → t.exit = 1 ∧ t.stdout = []) ∧
    (∀ line ∈ t.stdout, '\n' ∉ line.toList) ∧
    ∀ mistake, (answer disk request).outcome ≠ .error (.heatmap (.breach mistake)) := by
  intro t
  have nothing : (¬ ∃ s h, Loaded disk request s h) → t.exit = 1 ∧ t.stdout = [] :=
    unloadedRun parsed
  refine ⟨⟨?_, ?_⟩, ?_, nothing, ?_, noBreach disk request⟩
  · intro success
    by_contra unloaded
    exact absurd (success.symm.trans (nothing unloaded).1) (by decide)
  · intro both
    obtain ⟨s, h, loaded⟩ := both
    obtain ⟨b, _, success, _⟩ := loadedRun parsed loaded
    exact success
  · intro s h loaded
    obtain ⟨b, built, _, lines⟩ := loadedRun parsed loaded
    exact ⟨b, built, lines.trans List.map_map⟩
  · intro line member
    by_cases loaded : ∃ s h, Loaded disk request s h
    · obtain ⟨s, h, loaded⟩ := loaded
      obtain ⟨b, _, _, lines⟩ := loadedRun parsed loaded
      rw [show t.stdout = _ from lines] at member
      obtain ⟨r, _, rfl⟩ := List.mem_map.mp member
      rw [Reply.toJson, String.toList_ofList]
      exact r.unbroken
    · rw [(nothing loaded).2] at member
      contradiction

def oneMeasurement : Disk :=
  (Tree.ofEntries
    [("heatmap.json", .file "\x7b\"keys\": [[8, 2, 4]], \"values\": [10.0]\x7d".toUTF8)]).disk

def twice : Request := ⟨"config.json", none, false, [⟨8, 1, 4⟩, ⟨8, 1, 4⟩]⟩

def bridgedLine : String :=
  "\x7b\"tile\":[8,1,4],\"throughput\":10.0,\"startup_cost\":32,\"source\":\"interpolated\"\x7d"

theorem repeatedTile :
    CommandLine.parse ["8,1,4", "8,1,4"] = .ok twice ∧
    (run oneMeasurement none ["8,1,4", "8,1,4"]).exit = 0 ∧
    (run oneMeasurement none ["8,1,4", "8,1,4"]).stdout = [bridgedLine, bridgedLine] := by
  have parsed : CommandLine.parse ["8,1,4", "8,1,4"] = .ok twice := by decide +kernel
  have loaded : Loaded oneMeasurement twice .default ⟨[⟨8, 2, 4⟩], [10]⟩ :=
    ⟨by decide +kernel, by decide +kernel⟩
  have all := @allOrNothing oneMeasurement none _ _ parsed
  obtain ⟨b, built, lines⟩ := all.2.1 _ _ loaded
  rw [Heatmap.measurementsBuilt rfl] at built
  cases built
  exact ⟨parsed, all.1.mpr ⟨_, _, loaded⟩, lines.trans (by decide +kernel)⟩

end Session
end TileCost
