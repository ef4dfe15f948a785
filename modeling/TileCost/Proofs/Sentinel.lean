import TileCost.Disk.Tree
import TileCost.Proofs.Loading
import TileCost.Proofs.Positive
import TileCost.Proofs.Rules

/-! A startup cost of zero means no information, and means it without exception as
long as the constants have passed their check. Whatever way settings come from the
disk, they have. -/
namespace TileCost
open Predictor (Bridged Answer)

namespace Constants

theorem checkExact {c : Constants} :
    c.check = .ok () ↔
      c.startupCost ≠ 0 ∧ c.specialThroughput.isFinite = true ∧ 0 < c.specialThroughput := by
  unfold check
  split
  · rename_i free
    exact iff_of_false (by simp) fun valid => valid.1 free
  · rename_i charged
    split
    · rename_i throughput
      exact iff_of_true rfl ⟨charged, throughput⟩
    · rename_i throughput
      exact iff_of_false (by simp) fun valid => throughput valid.2

theorem checkBits {c : Constants} :
    c.check = .ok () ↔
      0 < c.startupCost ∧ 1 ≤ c.specialThroughput.toBits.toNat ∧
        c.specialThroughput.toBits.toNat ≤ 0x7fefffffffffffff := by
  rw [checkExact, Positive.positiveFinite, UInt32.pos_iff_ne_zero]

end Constants

namespace Sentinel

structure Unambiguous (known : Tile → Option Float) (c : Constants) (t : Tile)
    (e : Estimate) : Prop where
  marked : e.cost.isNothing = true ↔ e.source = .unknown
  reason : e.source = .unknown ↔
    known t = none ∧ (∀ x, ¬ Bridged known t x) ∧ t ≠ ⟨64, 16, 3⟩
  nothing : e.source = .unknown → e.cost.throughput.toBits = 0 ∧ e.cost.startupCost = 0
  charged : e.source ≠ .unknown → e.cost.startupCost = c.startupCost ∧ e.cost.startupCost ≠ 0
  special : e.source = .special → e.cost.throughput.isFinite = true ∧ 0 < e.cost.throughput

/- A rule that gives a value charges for it, so the cost alone tells the value from
none. -/
theorem pricedUnambiguous {known : Tile → Option Float} {c : Constants} {t : Tile} {x : Float}
    {source : Source} (charged : c.startupCost ≠ 0) (given : source ≠ .unknown)
    (reached : ¬ (known t = none ∧ (∀ x, ¬ Bridged known t x) ∧ t ≠ ⟨64, 16, 3⟩))
    (special : source = .special → x.isFinite = true ∧ 0 < x) :
    Unambiguous known c t ⟨⟨x, c.startupCost⟩, source⟩ where
  marked := by simp [Cost.isNothing, charged, given]
  reason := iff_of_false given reached
  nothing := fun none => absurd none given
  charged := fun _ => ⟨rfl, charged⟩
  special := special

theorem answerUnambiguous {known c t e} (valid : c.check = .ok ())
    (answer : Answer known c t e) : Unambiguous known c t e := by
  obtain ⟨charged, throughput⟩ := Constants.checkExact.mp valid
  cases answer with
  | measured own =>
      refine pricedUnambiguous charged (by simp) ?_ (by simp)
      intro missing
      rw [own] at missing
      exact absurd missing.1 (by simp)
  | interpolated own bridged =>
      refine pricedUnambiguous charged (by simp) ?_ (by simp)
      intro missing
      exact missing.2.1 _ bridged
  | special own unbridged curated =>
      refine pricedUnambiguous charged (by simp) ?_ fun _ => throughput
      intro missing
      exact missing.2.2 curated
  | unknown own unbridged other =>
      refine ⟨by simp [Cost.isNothing], ?_, fun _ => ⟨rfl, rfl⟩, by simp, by simp⟩
      exact iff_of_true rfl ⟨own, unbridged, other⟩

theorem estimateUnambiguous {p : Predictor} (valid : p.constants.check = .ok ()) (t : Tile) :
    Unambiguous p.store.get? p.constants t (p.estimate t) :=
  answerUnambiguous valid (p.estimateAnswers t)

theorem sentinelUnambiguous :
    (∀ c : Constants, c.check = .ok () ↔
      0 < c.startupCost ∧ 1 ≤ c.specialThroughput.toBits.toNat ∧
        c.specialThroughput.toBits.toNat ≤ 0x7fefffffffffffff) ∧
    ∀ disk path settings, (Settings.ofDisk disk path).outcome = .ok settings →
      settings.constants.check = .ok () ∧
      ∀ (store : Measurements) (t : Tile), Unambiguous store.get? settings.constants t
        ((Predictor.mk store settings.constants).estimate t) := by
  refine ⟨fun _ => Constants.checkBits, ?_⟩
  intro disk path settings loaded
  have valid := Settings.loadedChecked loaded
  exact ⟨valid, fun store t => estimateUnambiguous (p := ⟨store, settings.constants⟩) valid t⟩

def partialFile : Disk :=
  (Tree.ofEntries
    [("config.json", .file "\x7b\"estimator\": \x7b\"startup_cost\": 4\x7d\x7d".toUTF8)]).disk

theorem sentinelOfFile :
    (Settings.ofDisk partialFile "config.json").outcome = .ok ⟨"heatmap.json", ⟨4, 0.001⟩⟩ ∧
    Constants.check ⟨4, 0.001⟩ = .ok () ∧
    ∀ (store : Measurements) (t : Tile),
      Unambiguous store.get? ⟨4, 0.001⟩ t ((Predictor.mk store ⟨4, 0.001⟩).estimate t) := by
  have loaded : (Settings.ofDisk partialFile "config.json").outcome =
      .ok ⟨"heatmap.json", ⟨4, 0.001⟩⟩ := by decide +kernel
  exact ⟨loaded, sentinelUnambiguous.2 partialFile "config.json" _ loaded⟩

end Sentinel
end TileCost
