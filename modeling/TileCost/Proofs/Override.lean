import TileCost.Disk.Tree
import TileCost.Proofs.Observation

/-! A heatmap that is named on the command line is the heatmap of the run, as if the settings
had named it. Of the settings only the constants are left to matter, and whatever is wrong
with the settings is still reported first. -/
namespace TileCost

namespace Settings

def Written (disk : Disk) (path : String) (s : Settings) : Prop :=
  ∃ text : String, disk.Holds path text ∧ ofJson text = .ok s

theorem ofDiskMalformed {disk : Disk} {path text : String} {e}
    (holds : disk.Holds path text) (refused : ofJson text = .error e) :
    ofDisk disk path = ⟨.error (.malformed e), []⟩ := by
  rw [ofDiskFile holds, ofFileMalformed refused]

theorem ofDiskInvalid {disk path s fault} (written : Written disk path s)
    (refused : s.constants.check = .error fault) :
    ofDisk disk path = ⟨.error (.invalid fault), []⟩ := by
  obtain ⟨text, holds, read⟩ := written
  rw [ofDiskFile holds, ofFileInvalid read refused]

theorem ofDiskWritten {disk path s} (written : Written disk path s)
    (valid : s.constants.check = .ok ()) : ofDisk disk path = ⟨.ok s, []⟩ := by
  obtain ⟨text, holds, read⟩ := written
  rw [ofDiskFile holds, ofFileExact.mpr ⟨read, valid⟩]

end Settings

theorem Heatmap.ofDiskKept {disk disk' : Disk} {path : String}
    (kept : disk'.content path = disk.content path) :
    ofDisk disk' path = ofDisk disk path := by
  unfold ofDisk Disk.read
  rw [kept]

namespace Session

theorem storeKept {disk disk' : Disk} {path : String}
    (kept : disk'.content path = disk.content path) :
    store disk' path = store disk path := by
  unfold store
  rw [Heatmap.ofDiskKept kept]

def rest (disk : Disk) (path : String) (c : Constants) (tiles : List Tile) :
    Log.Logged (Except Fault (List Reply)) :=
  let built := store disk path
  match built.outcome with
  | .error error => ⟨.error (.heatmap error), built.events⟩
  | .ok b =>
      let p : Predictor := ⟨b.store, c⟩
      ⟨.ok (tiles.map (reply p)), built.events ++
        Log.Event.ready path b.store.size c.startupCost ::
        tiles.flatMap fun tile => (p.explain tile).events⟩

theorem answerRest {disk request s}
    (loaded : Settings.ofDisk disk request.config = ⟨.ok s, []⟩) :
    answer disk request = rest disk (heatmapPath request s) s.constants request.tiles := by
  unfold answer rest
  rw [loaded]
  rfl

theorem answerRefused {disk request error}
    (refused : Settings.ofDisk disk request.config = ⟨.error error, []⟩) :
    answer disk request = ⟨.error (.settings error), []⟩ := by
  unfold answer
  rw [refused]

theorem refusedRun {disk arguments request error} (setting : Option String)
    (parsed : CommandLine.parse arguments = .ok request)
    (refused : Settings.ofDisk disk request.config = ⟨.error error, []⟩) :
    run disk setting arguments = ⟨1, [], (Fault.settings error).lines⟩ := by
  rw [served parsed, answerRefused refused]
  rfl

structure Swapped (disk disk' : Disk) (config path : String) (s s' : Settings) : Prop where
  written : Settings.Written disk config s
  written' : Settings.Written disk' config s'
  constants : s'.constants = s.constants
  kept : disk'.content path = disk.content path

theorem answerSwapped {disk disk' request request' path s s'}
    (swapped : Swapped disk disk' request.config path s s')
    (config : request'.config = request.config) (tiles : request'.tiles = request.tiles)
    (here : heatmapPath request s = path) (here' : heatmapPath request' s' = path) :
    answer disk' request' = answer disk request := by
  have same := swapped.constants
  cases checked : s.constants.check with
  | error fault =>
      have refused := Settings.ofDiskInvalid swapped.written checked
      have refused' := Settings.ofDiskInvalid swapped.written' (same ▸ checked)
      rw [answerRefused refused, answerRefused (config ▸ refused')]
  | ok _ =>
      have loaded := Settings.ofDiskWritten swapped.written checked
      have loaded' := Settings.ofDiskWritten swapped.written' (same ▸ checked)
      rw [answerRest loaded, answerRest (config ▸ loaded'), here, here', same, tiles]
      unfold rest
      rw [storeKept swapped.kept]

theorem unparsedRun {arguments refusal} (unparsed : CommandLine.parse arguments = .error refusal)
    (disk : Disk) (setting : Option String) : run disk setting arguments = refuse refusal := by
  unfold run
  rw [unparsed]

/- A command line that is refused looks at no file, so nothing is asked of its disks. -/
theorem optionReplacesPath (setting : Option String) :
    (∀ {disk disk' : Disk} {arguments : List String} (path : String) (s s' : Settings),
      (∀ request, CommandLine.parse arguments = .ok request →
        request.heatmap = some path ∧ Swapped disk disk' request.config path s s') →
      run disk' setting arguments = run disk setting arguments) ∧
    (∀ {disk disk' arguments arguments' request path s s'},
      CommandLine.parse arguments = .ok request → request.heatmap = some path →
      CommandLine.parse arguments' = .ok {request with heatmap := none} →
      Swapped disk disk' request.config path s s' → s'.heatmapPath = path →
      run disk' setting arguments' = run disk setting arguments) ∧
    ∀ {disk : Disk} {arguments request} {text : String},
      CommandLine.parse arguments = .ok request →
      disk.Holds request.config text →
      (∀ e, Settings.ofJson text = .error e →
        run disk setting arguments = ⟨1, [], ["Error: " ++ e.message]⟩) ∧
      ∀ s fault, Settings.ofJson text = .ok s → s.constants.check = .error fault →
        run disk setting arguments = ⟨1, [], ["Error: " ++ fault.message]⟩ := by
  have given {request path} (option : request.heatmap = some path) (s : Settings) :
      heatmapPath request s = path := by simp [heatmapPath, option]
  refine ⟨?_, ?_, ?_⟩
  · intro disk disk' arguments path s s' swapped
    cases parsed : CommandLine.parse arguments with
    | error refusal => rw [unparsedRun parsed, unparsedRun parsed]
    | ok request =>
        obtain ⟨option, swapped⟩ := swapped request parsed
        have same := answerSwapped swapped rfl rfl (given option s) (given option s')
        rw [served parsed, served parsed, same]
  · intro disk disk' arguments arguments' request path s s' parsed option parsed' swapped named
    have same : answer disk' {request with heatmap := none} = answer disk request :=
      answerSwapped swapped rfl rfl (given option s) named
    rw [served parsed, served parsed', same]
  · intro disk arguments request text parsed holds
    refine ⟨fun e refused => ?_, fun s fault read refused => ?_⟩
    · exact refusedRun setting parsed (Settings.ofDiskMalformed holds refused)
    · exact refusedRun setting parsed (Settings.ofDiskInvalid ⟨text, holds, read⟩ refused)

def twoHeatmaps (named : String) : Disk :=
  (Tree.ofEntries
    [("config.json", .file ("\x7b\"heatmap\":\x7b\"path\":\"" ++ named ++ "\"\x7d\x7d").toUTF8),
     ("old.json", .file "\x7b\"keys\":[[8,1,4]],\"values\":[7.0]\x7d".toUTF8),
     ("new.json", .file "\x7b\"keys\":[[8,2,4]],\"values\":[10.0]\x7d".toUTF8)]).disk

theorem newHeatmapEither :
    (∀ arguments ∈ [["--heatmap", "new.json", "8,2,4"], ["8,2,4"]],
      run (twoHeatmaps "new.json") none arguments =
        run (twoHeatmaps "old.json") none ["--heatmap", "new.json", "8,2,4"]) ∧
    run (twoHeatmaps "old.json") none ["--heatmap", "new.json", "8,2,4"] ≠
      run (twoHeatmaps "old.json") none ["8,2,4"] := by
  have parsed : CommandLine.parse ["--heatmap", "new.json", "8,2,4"] =
      .ok ⟨"config.json", some "new.json", false, [⟨8, 2, 4⟩]⟩ := by decide +kernel
  have parsed' : CommandLine.parse ["8,2,4"] =
      .ok ⟨"config.json", none, false, [⟨8, 2, 4⟩]⟩ := by decide +kernel
  have swapped : Swapped (twoHeatmaps "old.json") (twoHeatmaps "new.json") "config.json" "new.json"
      ⟨"old.json", .default⟩ ⟨"new.json", .default⟩ :=
    ⟨⟨_, ⟨rfl, rfl⟩, by decide +kernel⟩, ⟨_, ⟨rfl, rfl⟩, by decide +kernel⟩, rfl, rfl⟩
  obtain ⟨replaced, named, _⟩ := optionReplacesPath none
  refine ⟨?_, by decide +kernel⟩
  simp only [List.forall_mem_cons]
  refine ⟨?_, ?_, by simp⟩
  · refine replaced "new.json" ⟨"old.json", .default⟩ ⟨"new.json", .default⟩ fun request same => ?_
    cases parsed.symm.trans same
    exact ⟨rfl, swapped⟩
  · exact named parsed rfl parsed' swapped rfl

end Session
end TileCost
