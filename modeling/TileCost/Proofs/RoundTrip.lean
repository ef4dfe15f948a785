import TileCost.Disk.Tree
import TileCost.Proofs.Arrays
import TileCost.Proofs.Sections

/-! What is written is read back. A heatmap or settings come back as they were, for every
length of the arrays and every path; only of the decimal text of a float it is assumed
that it stands for that float. -/
namespace TileCost
open Json

variable {α : Type}

def ReadsBack (read : Reader α) (write : α → List Char) (x : α) : Prop :=
  document read (String.ofList (write x)) = .ok x
instance [DecidableEq α] (read : Reader α) (write x) : Decidable (ReadsBack read write x) :=
  inferInstanceAs (Decidable (document read (String.ofList (write x)) = .ok x))

namespace Heatmap

theorem keySpelled (key : Key) : Spells readKey (writeKey key) key := by
  have size (n : UInt16) : Spells natural16 (writeNat n.toNat) n :=
    .ofRead natural16Determined (natural16Written n)
  exact keyElementwise.written (.cons (size key.m) (.cons (size key.n) (.cons (size key.k) .nil)))

theorem keysSpelled (keys : List Key) :
    Spells (list readKey) (writeList (keys.map writeKey)) keys := by
  apply keysElementwise.written
  rw [id, List.forall₂_map_left_iff, List.forall₂_same]
  exact fun key _ => keySpelled key

theorem valuesSpelled {values : List Float32}
    (back : ∀ x ∈ values, ReadsBack float32 writeFloat32 x) :
    Spells (list float32) (writeList (values.map writeFloat32)) values := by
  apply valuesElementwise.written
  rw [id, List.forall₂_map_left_iff, List.forall₂_same]
  exact fun x member => .ofDocument float32Determined (back x member)

theorem readWritten {h : Heatmap} (back : ∀ x ∈ h.values, ReadsBack float32 writeFloat32 x) :
    document record.read h.toJson = .ok h := by
  have fills : record.Fills [] record.default
      [("keys", writeList (h.keys.map writeKey)),
       ("values", writeList (h.values.map writeFloat32))] ["values", "keys"] h :=
    .member rfl (by decide) (Field.ofSpelled (keysSpelled h.keys) _ _ _)
      (.member rfl (by decide) (Field.ofSpelled (valuesSpelled back) _ _ _) .done)
  exact (Record.objectSpelled recordConfined.allSpaced fills rfl).document

end Heatmap

theorem heatmapReadBack {h : Heatmap} (finite : ∀ x ∈ h.values, x.isFinite = true)
    (numbers : ∀ x ∈ h.values, x.isFinite = true → ReadsBack float32 writeFloat32 x) :
    (h.keys.length = h.values.length → Heatmap.ofJson h.toJson = .ok h ∧
      ∃ b, h.measurements = .ok b ∧ (Heatmap.ofJson h.toJson >>= Heatmap.measurements) = .ok b) ∧
    (h.keys.length ≠ h.values.length →
      Heatmap.ofJson h.toJson = .error (.lengths h.keys.length h.values.length)) := by
  have parsed := Heatmap.readWritten fun x member => numbers x member (finite x member)
  constructor
  · intro same
    have back := Heatmap.ofJsonExact.mpr ⟨parsed, same⟩
    have built := Heatmap.measurementsBuilt same
    refine ⟨back, _, built, ?_⟩
    rw [back]
    exact built
  · exact Heatmap.ofJsonLengths parsed

namespace Heatmap

def measuredPair (values : List Float32) : Heatmap := ⟨[⟨64, 8, 3⟩, ⟨0, 65535, 7⟩], values⟩

theorem measuredPairReadBack :
    (measuredPair [12.5, 0.1]).toJson =
      "\x7b\"keys\":[[64,8,3],[0,65535,7]],\"values\":[12.5,0.1]\x7d" ∧
    ofJson (measuredPair [12.5, 0.1]).toJson = .ok (measuredPair [12.5, 0.1]) ∧
    ofJson (measuredPair [0.1]).toJson = .error (.lengths 2 1) := by
  have half : (12.5 : Float32).isFinite = true ∧ ReadsBack float32 writeFloat32 12.5 := by
    decide +kernel
  have tenth : (0.1 : Float32).isFinite = true ∧ ReadsBack float32 writeFloat32 0.1 := by
    decide +kernel
  have both := @heatmapReadBack (measuredPair [12.5, 0.1])
    (by simp [measuredPair, half.1, tenth.1]) (by simp [measuredPair, half.2, tenth.2])
  have fewer := @heatmapReadBack (measuredPair [0.1])
    (by simp [measuredPair, tenth.1]) (by simp [measuredPair, tenth.2])
  exact ⟨by decide +kernel, (both.1 rfl).1, fewer.2 (by decide)⟩

end Heatmap

namespace Settings

theorem pathSpelled (path : String) :
    Spells (quotedString "path string") (writeString path.toList) path.toList := by
  intro after _
  refine ⟨[], rfl, ?_⟩
  have front : space (writeString path.toList ++ after) =
      '"' :: (path.toList.flatMap escaped ++ '"' :: after) := by
    simp [writeString, space, isSpace]
  unfold quotedString
  rw [front]
  exact stringExact.mpr (escapedQuoted path.toList after)

theorem heatmapSectionSpelled (path : String) :
    Spells heatmapSection.read
      (writeObject [writeMember "path" (writeString path.toList)]) path := by
  have fills : heatmapSection.Fills [] heatmapSection.default
      [("path", writeString path.toList)] ["path"] (String.ofList path.toList) :=
    .member rfl (by decide) (Field.ofSpelled (pathSpelled path) _ _ _) .done
  rw [String.ofList_toList] at fills
  exact Record.objectSpelled heatmapSectionConfined.allSpaced fills rfl

theorem estimatorSectionSpelled {c : Constants}
    (back : ReadsBack float64 writeFloat c.specialThroughput) :
    Spells estimatorSection.read
      (writeObject [writeMember "startup_cost" (writeNat c.startupCost.toNat),
        writeMember "special_throughput" (writeFloat c.specialThroughput)]) c := by
  have startup : Spells natural32 (writeNat c.startupCost.toNat) c.startupCost :=
    .ofRead natural32Determined (natural32Written c.startupCost)
  have special : Spells float64 (writeFloat c.specialThroughput) c.specialThroughput :=
    .ofDocument float64Determined back
  have fills : estimatorSection.Fills [] estimatorSection.default
      [("startup_cost", writeNat c.startupCost.toNat),
       ("special_throughput", writeFloat c.specialThroughput)]
      ["special_throughput", "startup_cost"] c :=
    .member rfl (by decide) (Field.ofSpelled startup _ _ _)
      (.member rfl (by decide) (Field.ofSpelled special _ _ _) .done)
  exact Record.objectSpelled estimatorSectionConfined.allSpaced fills rfl

theorem readWritten {s : Settings}
    (back : ReadsBack float64 writeFloat s.constants.specialThroughput) :
    ofJson s.toJson = .ok s := by
  have fills : record.Fills [] record.default
      [("heatmap", writeObject [writeMember "path" (writeString s.heatmapPath.toList)]),
       ("estimator", writeObject
        [writeMember "startup_cost" (writeNat s.constants.startupCost.toNat),
         writeMember "special_throughput" (writeFloat s.constants.specialThroughput)])]
      ["estimator", "heatmap"] s :=
    .member rfl (by decide) (Field.ofSpelled (heatmapSectionSpelled s.heatmapPath) _ _ _)
      (.member rfl (by decide) (Field.ofSpelled (estimatorSectionSpelled back) _ _ _) .done)
  exact (Record.objectSpelled recordConfined.allSpaced fills rfl).document

end Settings

/- Settings are written whatever their constants are; loading them asks for the check. -/
theorem settingsReadBack {s : Settings}
    (finite : s.constants.specialThroughput.isFinite = true)
    (number : s.constants.specialThroughput.isFinite = true →
      ReadsBack float64 writeFloat s.constants.specialThroughput) :
    Settings.ofJson s.toJson = .ok s ∧
    ∀ (disk : Disk) (path : String), disk.Holds path s.toJson →
      (s.constants.check = .ok () → Settings.ofDisk disk path = ⟨.ok s, []⟩) ∧
      ∀ fault, s.constants.check = .error fault →
        Settings.ofDisk disk path = ⟨.error (.invalid fault), []⟩ := by
  have back := Settings.readWritten (number finite)
  refine ⟨back, fun disk path holds => ?_⟩
  rw [Settings.ofDiskFile holds]
  constructor
  · intro valid
    rw [Settings.ofFileExact.mpr ⟨back, valid⟩]
  · intro fault refused
    rw [Settings.ofFileInvalid back refused]

namespace Settings

def strange (startupCost : UInt32) : Settings := ⟨"C:\\\"é\"\n\x01/😀.json", ⟨startupCost, 2.5⟩⟩

def strangeDisk : Disk :=
  (Tree.ofEntries [("config.json", .file (strange 7).toJson.toUTF8),
    ("free.json", .file (strange 0).toJson.toUTF8)]).disk

theorem strangeReadBack :
    (strange 7).toJson =
      "\x7b\"heatmap\":\x7b\"path\":\"C:\\\\\\\"é\\\"\\n\\u0001/😀.json\"\x7d,\"estimator\":" ++
      "\x7b\"startup_cost\":7,\"special_throughput\":2.5\x7d\x7d" ∧
    ofJson (strange 7).toJson = .ok (strange 7) ∧
    ofDisk strangeDisk "config.json" = ⟨.ok (strange 7), []⟩ ∧
    ofDisk strangeDisk "free.json" = ⟨.error (.invalid .startupCost), []⟩ := by
  have number : (2.5 : Float).isFinite = true ∧ ReadsBack float64 writeFloat 2.5 := by
    decide +kernel
  have written := @settingsReadBack (strange 7) number.1 fun _ => number.2
  have free := @settingsReadBack (strange 0) number.1 fun _ => number.2
  refine ⟨by decide +kernel, written.1, ?_, ?_⟩
  · exact (written.2 strangeDisk "config.json" ⟨rfl, rfl⟩).1 (by decide +kernel)
  · exact (free.2 strangeDisk "free.json" ⟨rfl, rfl⟩).2 .startupCost rfl

end Settings
end TileCost
