import TileCost.Proofs.Loading
import TileCost.Proofs.Paths

/-! Defaults stand in for settings that the system does not find, and for nothing else. Whatever
it finds is read, and what is wrong with it is reported. In a tree nothing is found exactly where
a path cannot be followed, and then the other loader reports what is in the way. -/
namespace TileCost

theorem Disk.readInvalid {disk : Disk} {path content} (found : disk.content path = .ok content)
    (invalid : ¬ content.IsValidUTF8) : disk.read path = .error .notText := by
  simp [read, found, String.fromUTF8?, invalid]

theorem Disk.readRefused {disk : Disk} {path fault} (refused : disk.content path = .error fault) :
    disk.read path = .error (.system fault) := by
  simp [read, refused]

theorem Disk.found (disk : Disk) (path : String) :
    disk.has path = false ∨
    (∃ fault, disk.has path = true ∧ disk.content path = .error fault) ∨
    (∃ content, disk.has path = true ∧ disk.content path = .ok content ∧ ¬ content.IsValidUTF8) ∨
    ∃ text : String, disk.Holds path text := by
  cases there : disk.has path with
  | false => exact .inl rfl
  | true =>
      cases found : disk.content path with
      | error fault => exact .inr (.inl ⟨fault, rfl, rfl⟩)
      | ok content =>
          by_cases valid : content.IsValidUTF8
          · exact .inr (.inr (.inr ⟨String.fromUTF8 content valid, there, found⟩))
          · exact .inr (.inr (.inl ⟨content, rfl, rfl, valid⟩))

namespace Settings
open Log (Logged)

def defaulted (path : String) : Logged (Except Error Settings) :=
  ⟨.ok default, [.settingsMissing path]⟩

inductive Verdicts (disk : Disk) (path : String) :
    Logged (Except Error Settings) → Except Heatmap.Error Heatmap → Prop where
  | nothing (there : disk.has path = false) :
      Verdicts disk path (defaulted path) (Heatmap.ofDisk disk path).outcome
  | unread {fault} (there : disk.has path = true) (refused : disk.content path = .error fault) :
      Verdicts disk path ⟨.error (.unreadable (.system fault)), []⟩
        (.error (.unreadable path (.system fault)))
  | notText {content} (there : disk.has path = true) (found : disk.content path = .ok content)
      (invalid : ¬ content.IsValidUTF8) :
      Verdicts disk path ⟨.error (.unreadable .notText), []⟩ (.error (.unreadable path .notText))
  | malformed {text : String} {e} (holds : disk.Holds path text)
      (refused : ofJson text = .error e) :
      Verdicts disk path ⟨.error (.malformed e), []⟩ (Heatmap.ofJson text)
  | invalid {text : String} {s fault} (holds : disk.Holds path text)
      (read : ofJson text = .ok s) (refused : s.constants.check = .error fault) :
      Verdicts disk path ⟨.error (.invalid fault), []⟩ (Heatmap.ofJson text)
  | valid {text : String} {s} (holds : disk.Holds path text)
      (read : ofJson text = .ok s) (checked : s.constants.check = .ok ()) :
      Verdicts disk path ⟨.ok s, []⟩ (Heatmap.ofJson text)

theorem verdictsText {disk : Disk} {path text : String} (holds : disk.Holds path text) :
    Verdicts disk path (ofDisk disk path) (Heatmap.ofDisk disk path).outcome := by
  rw [ofDiskFile holds, Heatmap.ofDiskRead holds.read]
  cases read : ofJson text with
  | error e =>
      rw [ofFileMalformed read]
      exact .malformed holds read
  | ok s =>
      cases checked : s.constants.check with
      | error fault =>
          rw [ofFileInvalid read checked]
          exact .invalid holds read checked
      | ok _ =>
          rw [ofFileExact.mpr ⟨read, checked⟩]
          exact .valid holds read checked

theorem verdictsLoaded (disk : Disk) (path : String) :
    Verdicts disk path (ofDisk disk path) (Heatmap.ofDisk disk path).outcome := by
  rcases disk.found path with
    there | ⟨fault, there, refused⟩ | ⟨content, there, found, invalid⟩ | ⟨text, holds⟩
  · rw [ofDiskNothing there]
    exact .nothing there
  · have unread := Disk.readRefused refused
    rw [ofDiskUnread there unread, Heatmap.ofDiskUnread unread]
    exact .unread there refused
  · have unread := Disk.readInvalid found invalid
    rw [ofDiskUnread there unread, Heatmap.ofDiskUnread unread]
    exact .notText there found invalid
  · exact verdictsText holds

namespace Verdicts

variable {disk : Disk} {path : String} {loaded : Logged (Except Error Settings)}
  {heatmap : Except Heatmap.Error Heatmap}

theorem defaultedExact (verdicts : Verdicts disk path loaded heatmap) :
    loaded = defaulted path ↔ disk.has path = false := by
  cases verdicts with
  | nothing there => exact iff_of_true rfl there
  | unread there | notText there => exact iff_of_false (by simp [defaulted]) (by simp [there])
  | malformed holds | invalid holds | valid holds =>
      exact iff_of_false (by simp [defaulted]) (by simp [holds.has])

theorem silent (verdicts : Verdicts disk path loaded heatmap) (given : loaded ≠ defaulted path) :
    loaded.events = [] := by
  cases verdicts with
  | nothing there => exact absurd rfl given
  | unread | notText | malformed | invalid | valid => rfl

theorem sameText {fault : ReadFault} (verdicts : Verdicts disk path loaded heatmap)
    (unread : loaded.outcome = .error (.unreadable fault)) :
    ∃ error, heatmap = .error error ∧ error.source = some (Error.unreadable fault).message := by
  cases verdicts with
  | unread | notText =>
      cases unread
      exact ⟨_, rfl, rfl⟩
  | nothing | malformed | invalid | valid => cases unread

end Verdicts

theorem hasExact {tree : Tree} {path : String} :
    tree.disk.has path = false ↔ ∃ fault, tree.find path = .error fault := by
  change (tree.find path).isOk = false ↔ _
  cases tree.find path with
  | error fault => exact iff_of_true rfl ⟨fault, rfl⟩
  | ok found => exact iff_of_false (by simp [Except.isOk, Except.toBool]) (by simp)

theorem contentFound {tree : Tree} {path : String} {found} (there : tree.find path = .ok found) :
    tree.disk.content path = tree.openAt found := by
  change tree.find path >>= tree.openAt = _
  rw [there]
  rfl

theorem contentNowhere {tree : Tree} {path : String} {fault}
    (nowhere : tree.find path = .error fault) : tree.disk.content path = .error fault := by
  change tree.find path >>= tree.openAt = _
  rw [nowhere]
  rfl

theorem unopened {tree : Tree} {path : String} {found fault} (there : tree.find path = .ok found)
    (refused : tree.openAt found = .error fault) :
    ofDisk tree.disk path = ⟨.error (.unreadable (.system fault)), []⟩ ∧
    (Heatmap.ofDisk tree.disk path).outcome = .error (.unreadable path (.system fault)) := by
  have has : tree.disk.has path = true := by
    change (tree.find path).isOk = true
    rw [there]
    rfl
  have unread := Disk.readRefused ((contentFound there).trans refused)
  exact ⟨ofDiskUnread has unread, by rw [Heatmap.ofDiskUnread unread]⟩

/- Nothing is said of what the other loader makes of a path at which the system finds nothing:
it may still open it. A tree answers both from one walk. -/
theorem defaultsForNothing (path : String) :
    (∀ disk : Disk,
      let loaded := ofDisk disk path
      let heatmap := (Heatmap.ofDisk disk path).outcome
      (loaded = defaulted path ↔ disk.has path = false) ∧
      (loaded ≠ defaulted path → loaded.events = []) ∧
      Verdicts disk path loaded heatmap ∧
      ∀ fault, loaded.outcome = .error (.unreadable fault) → ∃ error,
        heatmap = .error error ∧ error.source = some (Error.unreadable fault).message) ∧
    ∀ tree : Tree,
      (ofDisk tree.disk path = defaulted path ↔ ∃ fault, tree.find path = .error fault ∧
        (Heatmap.ofDisk tree.disk path).outcome = .error (.unreadable path (.system fault))) ∧
      (tree.Nowhere path → ofDisk tree.disk path = defaulted path) ∧
      ∀ found fault, tree.find path = .ok found → tree.openAt found = .error fault →
        ofDisk tree.disk path = ⟨.error (.unreadable (.system fault)), []⟩ ∧
        (Heatmap.ofDisk tree.disk path).outcome = .error (.unreadable path (.system fault)) := by
  have loads (disk : Disk) := verdictsLoaded disk path
  refine ⟨fun disk => ?_, fun tree => ⟨?_, ?_, fun found fault => unopened⟩⟩
  · exact ⟨(loads disk).defaultedExact, (loads disk).silent, loads disk, fun _ => (loads disk).sameText⟩
  · rw [(loads tree.disk).defaultedExact, hasExact]
    refine exists_congr fun fault => ⟨fun nowhere => ⟨nowhere, ?_⟩, And.left⟩
    rw [Heatmap.ofDiskUnread (Disk.readRefused (contentNowhere nowhere))]
  · intro nowhere
    exact ofDiskNothing (hasExact.mpr (Tree.nowhereFault nowhere))

def assorted : Tree where
  entries := (Tree.ofEntries
    [("conf/valid.json", .file "\x7b\"estimator\":\x7b\"startup_cost\":7\x7d\x7d".toUTF8),
     ("conf/free.json", .file "\x7b\"estimator\":\x7b\"startup_cost\":0\x7d\x7d".toUTF8),
     ("conf/empty.json", .file "".toUTF8),
     ("conf/scrambled.json", .file ⟨#[0xff, 0x7b, 0x7d]⟩),
     ("conf/sealed.json", .file "\x7b\x7d".toUTF8),
     ("locked/valid.json", .file "\x7b\x7d".toUTF8)]).entries
  links := [(["latest.json"], "conf/valid.json"), (["circular.json"], "circular.json")]
  closed := [["conf", "sealed.json"], ["locked"]]

theorem assortedSettings :
    (∀ path ∈ ["absent.json", "conf/scrambled.json" ++ "/" ++ "more", "locked" ++ "/" ++ "valid.json",
        "circular.json"], ofDisk assorted.disk path = defaulted path) ∧
    (∀ path ∈ ["conf", "conf/sealed.json", "conf/scrambled.json"], ∃ fault error,
      (ofDisk assorted.disk path).outcome = .error (.unreadable fault) ∧
      (Heatmap.ofDisk assorted.disk path).outcome = .error error ∧
      error.source = some (Error.unreadable fault).message) ∧
    (∀ path ∈ ["conf", "conf/empty.json", "conf/free.json", "latest.json"],
      (ofDisk assorted.disk path).events = []) ∧
    (ofDisk assorted.disk "conf/empty.json").outcome = .error (.malformed ⟨.endOfValue, 1, 0⟩) ∧
    (ofDisk assorted.disk "conf/free.json").outcome = .error (.invalid .startupCost) ∧
    (ofDisk assorted.disk "latest.json").outcome = .ok ⟨"heatmap.json", ⟨7, 0.001⟩⟩ := by
  have nowhere {path} := ((defaultsForNothing path).2 assorted).2.1
  have scrambled (place) : assorted.find "conf/scrambled.json" ≠ .ok (place, .folder) := by
    have file : assorted.find "conf/scrambled.json" =
      .ok (.inside ["conf", "scrambled.json"], .file ⟨#[0xff, 0x7b, 0x7d]⟩) := rfl
    simp [file]
  have alike {path fault} (unread : (ofDisk assorted.disk path).outcome = .error (.unreadable fault)) :
      ∃ fault error, (ofDisk assorted.disk path).outcome = .error (.unreadable fault) ∧
        (Heatmap.ofDisk assorted.disk path).outcome = .error error ∧
        error.source = some (Error.unreadable fault).message := by
    obtain ⟨error, refused, text⟩ := ((defaultsForNothing path).1 assorted.disk).2.2.2 fault unread
    exact ⟨fault, error, unread, refused, text⟩
  have silent {path} (there : assorted.disk.has path = true) :
      (ofDisk assorted.disk path).events = [] := by
    have loads := (defaultsForNothing path).1 assorted.disk
    exact loads.2.1 fun same => absurd (loads.1.mp same) (by simp [there])
  have folder := ((defaultsForNothing "conf").2 assorted).2.2 _ .folder rfl rfl
  have closed := ((defaultsForNothing "conf/sealed.json").2 assorted).2.2 _ .denied rfl rfl
  simp only [List.forall_mem_cons, List.not_mem_nil, false_implies, implies_true, and_true]
  refine ⟨⟨?_, ?_, ?_, ?_⟩, ⟨?_, ?_, ?_⟩, ⟨silent rfl, silent rfl, silent rfl, silent rfl⟩, ?_⟩
  · exact ((defaultsForNothing "absent.json").1 assorted.disk).1.mpr rfl
  · exact nowhere (.behind (by decide) scrambled)
  · exact nowhere (.closed (by decide) rfl rfl rfl (by decide))
  · exact nowhere (.circular rfl rfl (by decide))
  · exact alike (congrArg _ folder.1)
  · exact alike (congrArg _ closed.1)
  · exact @alike _ .notText (by decide +kernel)
  · decide +kernel

def plainFaults : List SystemFault := [.missing, .notFolder, .longName, .nullCharacter]

theorem circularDefaulted : ¬ ∀ (tree : Tree) (path : String),
    ofDisk tree.disk path = defaulted path ↔ ∃ fault ∈ plainFaults,
      (Heatmap.ofDisk tree.disk path).outcome = .error (.unreadable path (.system fault)) := by
  intro always
  have nowhere : assorted.find "circular.json" = .error .manyLinks := rfl
  have default := ofDiskNothing (hasExact.mpr ⟨_, nowhere⟩)
  obtain ⟨fault, plain, unread⟩ := (always assorted "circular.json").mp default
  rw [Heatmap.ofDiskUnread (Disk.readRefused (contentNowhere nowhere))] at unread
  cases unread
  exact absurd plain (by decide)

end Settings
end TileCost
