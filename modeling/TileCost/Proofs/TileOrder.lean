import Mathlib
import TileCost.Tile

/-! The order of tiles spelled out: the first extent that differs decides. It is
what a sorted list of measurements is sorted by. -/
namespace TileCost.Tile

def Before (s t : Tile) : Prop :=
  s.m < t.m ∨ s.m = t.m ∧ (s.n < t.n ∨ s.n = t.n ∧ s.k < t.k)
instance (s t) : Decidable (Before s t) := by unfold Before; infer_instance

theorem comparedBefore {s t : Tile} : compare s t = .lt ↔ s.Before t := by
  rw [compareExtents, Ordering.then_eq_lt, Ordering.then_eq_lt, Ordering.then_eq_eq]
  simp only [Std.compare_eq_lt, Std.compare_eq_iff_eq, Before]
  constructor
  · intro less
    rcases less with (m | ⟨m, n⟩) | ⟨⟨m, n⟩, k⟩
    · exact .inl m
    · exact .inr ⟨m, .inl n⟩
    · exact .inr ⟨m, .inr ⟨n, k⟩⟩
  · intro before
    rcases before with m | ⟨m, n | ⟨n, k⟩⟩
    · exact .inl (.inl m)
    · exact .inl (.inr ⟨m, n⟩)
    · exact .inr ⟨⟨m, n⟩, k⟩

example : (⟨1, 9, 9⟩ : Tile).Before ⟨2, 0, 0⟩ := by decide

end TileCost.Tile
