import TileCost.Proofs.Run

/-! The log is only looked at. A run has one log however it is called; a setting of the
environment or the request for more detail choose which of its lines are shown, and
nothing else of the run. -/
namespace TileCost

namespace Log

def Level.upTo : Level → List Level
  | error => [error]
  | warn => [error, warn]
  | info => [error, warn, info]
  | debug => [error, warn, info, debug]
  | trace => [error, warn, info, debug, trace]

def Level.word : Level → String
  | error => "error"
  | warn => "warn"
  | info => "info"
  | debug => "debug"
  | trace => "trace"

/-- What the environment may ask of the log: the last level that is shown, none for
`off`, and whether this is said of the program by its name. -/
structure Directive where
  named : Bool
  most : Option Level
  deriving DecidableEq, Repr

namespace Directive

def text (d : Directive) : String :=
  (if d.named then "stencil_heatmap=" else "") ++ d.most.elim "off" Level.word

def levels (d : Directive) : List Level := d.most.elim [] Level.upTo

end Directive

def levels : Option Directive → Bool → List Level
  | some d, _ => d.levels
  | none, true => Level.trace.upTo
  | none, false => Level.info.upTo

namespace Threshold

theorem ofNamed (word : String) : ofSetting ("stencil_heatmap=" ++ word) = ofWord word := by
  unfold ofSetting
  simp [String.toList_append]

theorem ofWordExact (most : Option Level) : ofWord (most.elim "off" Level.word) = some most := by
  cases most with
  | none => rfl
  | some most => cases most <;> rfl

theorem ofPlain (most : Option Level) :
    ofSetting (most.elim "off" Level.word) = ofWord (most.elim "off" Level.word) := by
  have plain : "stencil_heatmap=".toList.isPrefixOf (most.elim "off" Level.word).toList = false := by
    cases most with
    | none => rfl
    | some most => cases most <;> rfl
  unfold ofSetting
  dsimp only
  rw [plain]
  rfl

theorem ofDirective (d : Directive) : ofSetting d.text = some d.most := by
  obtain ⟨named, most⟩ := d
  cases named with
  | true => exact (ofNamed _).trans (ofWordExact most)
  | false => exact (ofPlain most).trans (ofWordExact most)

theorem admitsExact (most level : Level) : admits (some most) level = true ↔ level ∈ most.upTo := by
  cases most <;> cases level <;> decide

theorem chosenExact (setting : Option Directive) (verbose : Bool) (level : Level) :
    admits (choose (setting.map Directive.text) verbose) level = true ↔
      level ∈ levels setting verbose := by
  cases setting with
  | none => cases verbose <;> exact admitsExact _ level
  | some d =>
      have set : choose (some d.text) verbose = d.most := by
        unfold choose
        rw [Option.bind_some, ofDirective, Option.getD_some]
      rw [Option.map_some, set]
      obtain ⟨named, most⟩ := d
      cases most with
      | none => simp [levels, Directive.levels, admits]
      | some most => exact admitsExact most level

end Threshold

def atLevels (levels : List Level) (events : List Event) : List Event :=
  events.filter (·.level ∈ levels)

theorem shownExact (setting : Option Directive) (verbose : Bool) (events : List Event) :
    shown (Threshold.choose (setting.map Directive.text) verbose) events =
      atLevels (levels setting verbose) events := by
  apply List.filter_congr
  intro e _
  rw [Bool.eq_iff_iff, Threshold.chosenExact, decide_eq_true_eq]

theorem atTrace (events : List Event) : atLevels Level.trace.upTo events = events := by
  apply List.filter_eq_self.mpr
  intro e _
  cases level : e.level <;> decide

theorem stricterSublist {few many : List Level} (fewer : few ⊆ many) (events : List Event) :
    (atLevels few events).Sublist (atLevels many events) := by
  apply List.monotone_filter_right
  intro e shown
  rw [decide_eq_true_eq] at shown ⊢
  exact fewer shown

end Log

structure Request.Alike (a b : Request) : Prop where
  config : a.config = b.config
  heatmap : a.heatmap = b.heatmap
  tiles : a.tiles = b.tiles

namespace Session
open Log (Directive Event Level atLevels)

def report : Except Fault (List Reply) → List String
  | .ok _ => []
  | .error fault => fault.lines

theorem answerAlike {request request' : Request} (alike : request.Alike request') (disk : Disk) :
    answer disk request' = answer disk request := by
  unfold answer heatmapPath
  rw [alike.config, alike.heatmap, alike.tiles]

theorem concludeStderr (threshold : Log.Threshold) (a : Log.Logged (Except Fault (List Reply))) :
    (conclude threshold a).stderr =
      (Log.shown threshold a.events).map Event.text ++ report a.outcome := by
  unfold conclude
  cases a.outcome with
  | ok replies => exact (List.append_nil _).symm
  | error fault => rfl

theorem concludeSame (threshold threshold' : Log.Threshold)
    (a : Log.Logged (Except Fault (List Reply))) :
    (conclude threshold a).exit = (conclude threshold' a).exit ∧
    (conclude threshold a).stdout = (conclude threshold' a).stdout := by
  unfold conclude
  cases a.outcome with
  | ok replies => exact ⟨rfl, rfl⟩
  | error fault => exact ⟨rfl, rfl⟩

theorem faultExit (fault : Fault) : fault.exit ≠ 0 := by
  unfold Fault.exit
  split <;> decide

theorem reported (threshold : Log.Threshold) (a : Log.Logged (Except Fault (List Reply))) :
    (conclude threshold a).exit = 0 ∧ report a.outcome = [] ∨
    (conclude threshold a).exit ≠ 0 ∧ ∃ fault : Fault, report a.outcome = fault.lines := by
  cases outcome : a.outcome with
  | ok replies => exact .inl ⟨(concludeOk threshold outcome).1, rfl⟩
  | error fault =>
      refine .inr ⟨?_, fault, rfl⟩
      rw [(concludeError threshold outcome).1]
      exact faultExit fault

theorem servedStderr {disk arguments request} (setting : Option Directive)
    (parsed : CommandLine.parse arguments = .ok request) :
    (run disk (setting.map Directive.text) arguments).stderr =
      (atLevels (Log.levels setting request.verbose) (answer disk request).events).map Event.text ++
        report (answer disk request).outcome := by
  rw [served parsed, concludeStderr, Log.shownExact]

/- Two runs on the same files for the same work. `full` is what is logged at the level
of traces, and the report of what went wrong comes behind the log that is shown. -/
theorem logOnlyObserves {disk arguments arguments' request request'}
    (parsed : CommandLine.parse arguments = .ok request)
    (parsed' : CommandLine.parse arguments' = .ok request') (alike : request.Alike request')
    (setting setting' : Option Directive) :
    let t := run disk (setting.map Directive.text) arguments
    let t' := run disk (setting'.map Directive.text) arguments'
    let levels := Log.levels setting request.verbose
    let levels' := Log.levels setting' request'.verbose
    t.exit = t'.exit ∧ t.stdout = t'.stdout ∧
    ∃ (full : List Event) (block : List String),
      (run disk (some "trace") arguments).stderr = full.map Event.text ++ block ∧
      t.stderr = (atLevels levels full).map Event.text ++ block ∧
      t'.stderr = (atLevels levels' full).map Event.text ++ block ∧
      (t.exit = 0 ∧ block = [] ∨ t.exit ≠ 0 ∧ ∃ fault : Fault, block = fault.lines) ∧
      (levels ⊆ levels' → ((atLevels levels full).map Event.text).Sublist
        ((atLevels levels' full).map Event.text)) := by
  intro t t' levels levels'
  have first : t.stderr = _ := servedStderr setting parsed
  have second : t'.stderr = _ := servedStderr setting' parsed'
  have traced : (run disk (some "trace") arguments).stderr = _ :=
    servedStderr (some ⟨false, some .trace⟩) parsed
  have every : Log.levels (some ⟨false, some .trace⟩) request.verbose = Level.trace.upTo := rfl
  rw [answerAlike alike] at second
  rw [every, Log.atTrace] at traced
  have same : t.exit = t'.exit ∧ t.stdout = t'.stdout := by
    dsimp only [t, t']
    rw [served parsed, served parsed', answerAlike alike]
    exact concludeSame _ _ _
  have ending := reported (Log.Threshold.choose (setting.map Directive.text) request.verbose)
    (answer disk request)
  rw [← served parsed] at ending
  refine ⟨same.1, same.2, _, _, traced, first, second, ending, fun fewer => ?_⟩
  exact (Log.stricterSublist fewer _).map Event.text

def settingsLine : String :=
  "WARN stencil_heatmap::config: Config file not found at \"config.json\", using defaults"

def unreadableLines : List String :=
  ["Error: Failed to read heatmap heatmap.json: No such file or directory (os error 2)", "",
    "Caused by:", "    No such file or directory (os error 2)"]

def emptyDisk : Disk := (Tree.ofEntries []).disk

theorem silentAndDetailed :
    let t := run emptyDisk (some "off") ["8,1,4"]
    let t' := run emptyDisk none ["-v", "8,1,4"]
    t.exit = t'.exit ∧ t.stdout = t'.stdout ∧ t.stderr = unreadableLines ∧
      t'.stderr = settingsLine :: unreadableLines ∧ t.stderr.Sublist t'.stderr := by
  intro t t'
  have silent : CommandLine.parse ["8,1,4"] = .ok ⟨"config.json", none, false, [⟨8, 1, 4⟩]⟩ := by
    decide +kernel
  have detailed : CommandLine.parse ["-v", "8,1,4"] =
      .ok ⟨"config.json", none, true, [⟨8, 1, 4⟩]⟩ := by
    decide +kernel
  obtain ⟨exit, stdout, full, block, _, first, second, _, sublist⟩ :=
    @logOnlyObserves emptyDisk _ _ _ _ silent detailed ⟨rfl, rfl, rfl⟩ (some ⟨false, none⟩) none
  refine ⟨exit, stdout, by decide +kernel, by decide +kernel, ?_⟩
  rw [show t.stderr = _ from first, show t'.stderr = _ from second]
  exact (sublist (by decide)).append_right block

end Session
end TileCost
