import TileCost.Proofs.Observation
import TileCost.Proofs.Store

/-! What a log in full and the output say of a run is one account. Every count in the log
is a count of the heatmap that was read, and the two lines about a tile name the rule and
the value that are printed for it. -/
namespace TileCost

theorem Predictor.explainEvents (p : Predictor) (t : Tile) :
    (p.explain t).events = (p.estimate t).events t := by
  rw [estimateRuling, explain]
  unfold ruling
  cases p.store.get? t with
  | some throughput => rfl
  | none =>
      cases p.between t with
      | some throughput => rfl
      | none =>
          dsimp only
          split <;> rfl

theorem Measurements.builtEvents (b : Built) :
    b.events = (if 0 < b.replaced then [.duplicates b.replaced] else []) ++
      [.storeBuilt b.store.size] := by
  unfold Built.events
  split <;> rfl

theorem Log.tracedLevels {setting : Option Directive} {verbose : Bool}
    (traced : .trace ∈ levels setting verbose) : levels setting verbose = Level.trace.upTo := by
  cases setting with
  | none =>
      cases verbose with
      | true => rfl
      | false => contradiction
  | some d =>
      obtain ⟨named, most⟩ := d
      cases most with
      | none => contradiction
      | some most =>
          cases most with
          | trace => rfl
          | error | warn | info | debug => contradiction

namespace Session
open Log (Directive Event)

theorem repliesEvents (p : Predictor) (tiles : List Tile) :
    (tiles.flatMap fun tile => (p.explain tile).events) =
      (tiles.map (reply p)).flatMap fun r => r.estimate.events r.tile := by
  rw [List.flatMap_map]
  exact List.flatMap_congr fun tile _ => p.explainEvents tile

theorem successLoaded {disk setting arguments request}
    (parsed : CommandLine.parse arguments = .ok request)
    (success : (run disk setting arguments).exit = 0) : ∃ s h, Loaded disk request s h := by
  by_contra unloaded
  exact absurd (success.symm.trans (unloadedRun parsed unloaded).1) (by decide)

def story (found : Bool) (config path : String) (given distinct replaced : Nat)
    (startupCost : UInt32) (replies : List Reply) : List Event :=
  (if found then [] else [.settingsMissing config]) ++
    .heatmapLoaded path given ::
    (if 0 < replaced then [.duplicates replaced] else []) ++
    .storeBuilt distinct ::
    .ready path distinct startupCost ::
    replies.flatMap fun r => r.estimate.events r.tile

/- A run that succeeds and shows all of its log. A request for help ends before there is
any log to show. -/
theorem logTellsOutput {disk arguments request} (setting : Option Directive)
    (parsed : CommandLine.parse arguments = .ok request)
    (traced : .trace ∈ Log.levels setting request.verbose)
    (success : (run disk (setting.map Directive.text) arguments).exit = 0) :
    ∃ s text h b,
      let t := run disk (setting.map Directive.text) arguments
      let path := request.heatmap.getD s.heatmapPath
      let distinct := (h.keys.map Key.toTile).toFinset.card
      let replies := request.tiles.map (reply ⟨b.store, s.constants⟩)
      (Settings.ofDisk disk request.config).outcome = .ok s ∧
      disk.read path = .ok text ∧ Heatmap.ofJson text = .ok h ∧ h.measurements = .ok b ∧
      b.store.size = distinct ∧ h.keys.length = distinct + b.replaced ∧
      t.stdout = replies.map Reply.toJson ∧
      t.stderr = (story (disk.has request.config) request.config path h.keys.length distinct
        b.replaced s.constants.startupCost replies).map Event.text := by
  obtain ⟨s, h, loaded⟩ := successLoaded parsed success
  obtain ⟨text, read, json, heatmapEvents⟩ := Heatmap.loadedText loaded.heatmap
  have lengths := Heatmap.loadedLengths loaded.heatmap
  have built := Heatmap.measurementsBuilt lengths
  have tiles := Heatmap.entriesTiles lengths
  have distinct := Measurements.sizeDistinct h.entries
  have total := (Measurements.ofListFaithful h.entries).total
  have count : h.keys.length = h.entries.length := by
    simpa using (congrArg List.length tiles).symm
  rw [tiles] at distinct
  refine ⟨s, text, h, _, loaded.settings, read, json, built, distinct, ?_, ?_, ?_⟩
  · rw [count, ← total, distinct]
  · rw [served parsed, answered loaded built]
    rfl
  · rw [servedStderr setting parsed, Log.tracedLevels traced, Log.atTrace, answered loaded built]
    simp [report, story, Settings.ofDiskEvents, heatmapEvents, Measurements.builtEvents,
      repliesEvents, distinct]

def givenTwice : Disk :=
  (Tree.ofEntries [("heatmap.json",
    .file "\x7b\"keys\": [[8, 2, 4], [8, 2, 4]], \"values\": [7.0, 10.0]\x7d".toUTF8)]).disk

theorem accountOfTwice :
    let t := run givenTwice (some "trace") ["8,1,4", "9,9,9"]
    t.exit = 0 ∧ t.stderr =
      ["WARN stencil_heatmap::config: Config file not found at \"config.json\", using defaults",
       "DEBUG stencil_heatmap::heatmap::data: Heatmap loaded path=heatmap.json entries=2",
       "WARN stencil_heatmap::heatmap::store: Heatmap contains duplicate tiles, " ++
         "keeping the last value duplicates=1",
       "DEBUG stencil_heatmap::heatmap::store: Heatmap built entries=1",
       "INFO stencil_heatmap: Heatmap ready path=heatmap.json entries=1 startup_cost=32",
       "TRACE stencil_heatmap::heatmap::estimator: Calculating heatmap cost tile=[8 1 4]",
       "TRACE stencil_heatmap::heatmap::estimator: Averaged nearby tiles along N " ++
         "tile=[8 1 4] throughput=10.0",
       "TRACE stencil_heatmap::heatmap::estimator: Calculating heatmap cost tile=[9 9 9]",
       "TRACE stencil_heatmap::heatmap::estimator: Unable to calculate heatmap cost " ++
         "tile=[9 9 9]"] := by
  intro t
  have parsed : CommandLine.parse ["8,1,4", "9,9,9"] =
      .ok ⟨"config.json", none, false, [⟨8, 1, 4⟩, ⟨9, 9, 9⟩]⟩ := by
    decide +kernel
  have success : t.exit = 0 := by decide +kernel
  obtain ⟨s, text, h, b, settings, read, json, built, _, _, _, stderr⟩ :=
    @logTellsOutput givenTwice _ _ (some ⟨false, some .trace⟩) parsed (by decide) success
  have defaults : (Settings.ofDisk givenTwice "config.json").outcome = .ok .default := by
    decide +kernel
  have given : (Heatmap.ofDisk givenTwice "heatmap.json").outcome =
      .ok ⟨[⟨8, 2, 4⟩, ⟨8, 2, 4⟩], [7, 10]⟩ := by
    decide +kernel
  obtain ⟨_, found, parsedText, _⟩ := Heatmap.loadedText given
  cases defaults.symm.trans settings
  cases found.symm.trans read
  cases parsedText.symm.trans json
  cases (Heatmap.measurementsBuilt rfl).symm.trans built
  exact ⟨success, stderr.trans (by decide +kernel)⟩

end Session
end TileCost
