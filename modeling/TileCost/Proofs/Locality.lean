import TileCost.Proofs.Rules

/-! How far a measurement reaches. The estimate of a tile reads the value of the tile
itself and, only where there is none, the values one step along `n`; of those, a tile at
`n = 0` is never read. An entry for any other tile changes nothing, wherever it stands
among the entries. -/
namespace TileCost

namespace Tile

/- One step apart along `n`. Nothing wraps around, so each end has one such tile. -/
structure Adjacent (s t : Tile) : Prop where
  m : s.m = t.m
  k : s.k = t.k
  step : s.n.toNat + 1 = t.n.toNat ∨ t.n.toNat + 1 = s.n.toNat

theorem Adjacent.symm {s t : Tile} (adjacent : s.Adjacent t) : t.Adjacent s :=
  ⟨adjacent.m.symm, adjacent.k.symm, adjacent.step.symm⟩

theorem adjacentExact {s t : Tile} : s.Adjacent t ↔ s.upper = some t ∨ s.lower = some t := by
  rw [upperExact, lowerExact]
  constructor
  · intro adjacent
    rcases adjacent.step with up | down
    · exact .inl ⟨adjacent.m, adjacent.k, up⟩
    · exact .inr ⟨adjacent.m, adjacent.k, down.symm⟩
  · intro neighbour
    rcases neighbour with ⟨m, k, up⟩ | ⟨m, k, down⟩
    · exact ⟨m, k, .inl up⟩
    · exact ⟨m, k, .inr down.symm⟩

theorem adjacentAbove {m n k : UInt64} (inside : n ≠ lastExtent) :
    Adjacent ⟨m, n, k⟩ ⟨m, n + 1, k⟩ :=
  adjacentExact.mpr (.inl (if_neg inside))

theorem adjacentBelow {m n k : UInt64} (positive : n ≠ 0) : Adjacent ⟨m, n, k⟩ ⟨m, n - 1, k⟩ :=
  adjacentExact.mpr (.inr (if_neg positive))

end Tile

namespace Measurements

theorem latestOther {x t : Tile} (other : x ≠ t) (before after : List (Tile × Float)) (v : Float) :
    latest (before ++ (x, v) :: after) t = latest (before ++ after) t := by
  simp [latest, List.filter_append, other]

end Measurements

namespace Predictor
open Measurements (latest ofList)

variable {known known' : Tile → Option Float} {c : Constants} {t : Tile}

structure SameReadings (known known' : Tile → Option Float) (t : Tile) : Prop where
  own : known t = known' t
  near : known t = none → ∀ u, t.Adjacent u → u.n ≠ 0 → known u = known' u

theorem SameReadings.symm (same : SameReadings known known' t) : SameReadings known' known t where
  own := same.own.symm
  near missing u adjacent positive := (same.near (same.own.trans missing) u adjacent positive).symm

theorem bridgedRead {x : Float} (near : ∀ u, t.Adjacent u → u.n ≠ 0 → known u = known' u)
    (bridged : Bridged known t x) : Bridged known' t x := by
  cases bridged with
  | @first m k _ value =>
      have above : Tile.Adjacent ⟨m, 1, k⟩ ⟨m, 2, k⟩ := Tile.adjacentAbove (by decide)
      have positive : (2 : UInt64) ≠ 0 := by decide
      exact .first ((near _ above positive).symm.trans value)
  | @mean m n k _ _ inside lower upper =>
      obtain ⟨zero, one, last⟩ := insideApart inside
      have belowPositive : n - 1 ≠ 0 := by
        intro same
        have back := UInt64.sub_add_cancel n 1
        rw [same] at back
        exact one back.symm
      have abovePositive : n + 1 ≠ 0 := by
        intro same
        have back := UInt64.add_sub_cancel n 1
        rw [same] at back
        exact last back.symm
      exact .mean inside
        ((near _ (Tile.adjacentBelow zero) belowPositive).symm.trans lower)
        ((near _ (Tile.adjacentAbove last) abovePositive).symm.trans upper)

theorem answerRead {e : Estimate} (same : SameReadings known known' t)
    (answer : Answer known c t e) : Answer known' c t e := by
  have unbridged (own : known t = none) (none : ∀ x, ¬ Bridged known t x) :
      ∀ x, ¬ Bridged known' t x := by
    intro x bridged
    exact none x (bridgedRead (same.symm.near (same.own.symm.trans own)) bridged)
  cases answer with
  | measured own => exact .measured (same.own.symm.trans own)
  | interpolated own bridged =>
      exact .interpolated (same.own.symm.trans own) (bridgedRead (same.near own) bridged)
  | special own none curated =>
      exact .special (same.own.symm.trans own) (unbridged own none) curated
  | unknown own none other =>
      exact .unknown (same.own.symm.trans own) (unbridged own none) other

theorem estimateRead {s s' : Measurements} (same : SameReadings s.get? s'.get? t) :
    (Predictor.mk s c).estimate t = (Predictor.mk s' c).estimate t := by
  rw [estimateExact]
  exact answerRead same.symm (estimateAnswers ⟨s', c⟩ t)

theorem estimateInserted {before after : List (Tile × Float)} {x : Tile} {v : Float}
    (same : SameReadings (latest (before ++ (x, v) :: after)) (latest (before ++ after)) t) :
    (Predictor.mk (ofList (before ++ (x, v) :: after)).store c).estimate t =
      (Predictor.mk (ofList (before ++ after)).store c).estimate t := by
  apply estimateRead
  simp only [Measurements.getOfList]
  exact same

theorem oneEntryReach (before after : List (Tile × Float)) (x : Tile) (v : Float) (c : Constants)
    (t : Tile) :
    let p : Predictor := ⟨(ofList (before ++ after)).store, c⟩
    let p' : Predictor := ⟨(ofList (before ++ (x, v) :: after)).store, c⟩
    (t ≠ x → ¬ x.Adjacent t → p'.estimate t = p.estimate t) ∧
    (t ≠ x → x.n = 0 → p'.estimate t = p.estimate t) ∧
    (t ≠ x → (∃ w, (t, w) ∈ before ++ after) → p'.estimate t = p.estimate t) := by
  intro p p'
  have other {u} (apart : x ≠ u) := Measurements.latestOther apart before after v
  refine ⟨?_, ?_, ?_⟩
  · intro apart far
    refine estimateInserted ⟨other apart.symm, fun _ u adjacent _ => other ?_⟩
    intro same
    subst same
    exact far adjacent.symm
  · intro apart zero
    refine estimateInserted ⟨other apart.symm, fun _ u _ positive => other ?_⟩
    intro same
    subst same
    exact positive zero
  · intro apart measured
    refine estimateInserted ⟨other apart.symm, fun missing => ?_⟩
    obtain ⟨w, member⟩ := measured
    rw [other apart.symm, Measurements.latestNone] at missing
    exact absurd rfl (missing _ member)

def sparse (more : List (Tile × Float)) : Predictor :=
  ⟨(ofList ([(⟨8, 2, 4⟩, 10)] ++ (more ++ [(⟨9, 1, 4⟩, 3)]))).store, .default⟩

theorem sparseUnmoved :
    (sparse [(⟨9, 2, 4⟩, 7)]).estimate ⟨8, 1, 4⟩ = (sparse []).estimate ⟨8, 1, 4⟩ ∧
    (sparse [(⟨8, 0, 4⟩, 7)]).estimate ⟨8, 1, 4⟩ = (sparse []).estimate ⟨8, 1, 4⟩ ∧
    (sparse [(⟨8, 3, 4⟩, 7)]).estimate ⟨8, 2, 4⟩ = (sparse []).estimate ⟨8, 2, 4⟩ := by
  have reach (x t : Tile) := oneEntryReach [(⟨8, 2, 4⟩, 10)] [(⟨9, 1, 4⟩, 3)] x 7 .default t
  refine ⟨(reach _ _).1 (by decide) ?_, (reach _ _).2.1 (by decide) rfl,
    (reach _ _).2.2 (by decide) ⟨10, List.mem_cons_self⟩⟩
  intro adjacent
  exact absurd adjacent.m (by decide)

end Predictor
end TileCost
