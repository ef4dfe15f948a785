import TileCost.Proofs.Neighbours
import TileCost.Proofs.Rules

/-! How far a store reaches in all. Every estimate that tells something is owed to a tile:
a measurement to the tile itself, an average to the measured tile above it, and the rest
to the curated tiles. Different tiles of one source are owed to different ones, so there are
no more of them than there are tiles to owe them to. -/
namespace TileCost

namespace Predictor

variable {known : Tile → Option Float} {c : Constants} {t : Tile}

theorem bridgedAbove {x : Float} (bridged : Bridged known t x) :
    ∃ u, t.upper = some u ∧ known u ≠ none := by
  cases bridged with
  | first value => exact ⟨_, rfl, by simp [value]⟩
  | mean inside lower upper =>
      obtain ⟨_, _, last⟩ := insideApart inside
      exact ⟨_, if_neg last, by simp [upper]⟩

def owedTo : Source → Tile → Option Tile
  | .measured, t => some t
  | .interpolated, t => t.upper
  | .special, t => some t
  | .unknown, _ => none

def owners (s : Measurements) : Source → List Tile
  | .measured => s.tiles
  | .interpolated => s.tiles
  | .special => Tile.curated
  | .unknown => []

theorem owedApart {source : Source} {s t u : Tile} (one : owedTo source s = some u)
    (other : owedTo source t = some u) : s = t := by
  cases source with
  | measured => exact Option.some.inj (one.trans other.symm)
  | interpolated => exact Tile.upperApart one other
  | special => exact Option.some.inj (one.trans other.symm)
  | unknown => contradiction

theorem answerOwed {s : Measurements} {e : Estimate} (answer : Answer s.get? c t e)
    (told : e.source ≠ .unknown) : ∃ u ∈ owners s e.source, owedTo e.source t = some u := by
  cases answer with
  | measured own => exact ⟨t, Measurements.memTiles.mpr (by simp [own]), rfl⟩
  | interpolated own bridged =>
      obtain ⟨u, above, there⟩ := bridgedAbove bridged
      exact ⟨u, Measurements.memTiles.mpr there, above⟩
  | special own unbridged curated => exact ⟨t, by simp [owners, Tile.curated, curated], rfl⟩
  | unknown own unbridged other => contradiction

theorem chargedWithin {tiles places : List Tile} (charge : Tile → Option Tile)
    (distinct : tiles.Nodup) (within : ∀ t ∈ tiles, ∃ u ∈ places, charge t = some u)
    (apart : ∀ {s t u}, charge s = some u → charge t = some u → s = t) :
    tiles.length ≤ places.length := by
  have charges : (tiles.map charge).Nodup := by
    refine distinct.map_on fun s here t there same => ?_
    obtain ⟨u, _, one⟩ := within s here
    exact apart one (same.symm.trans one)
  have places' : tiles.map charge ⊆ places.map some := by
    intro charged member
    obtain ⟨t, here, rfl⟩ := List.mem_map.mp member
    obtain ⟨u, place, one⟩ := within t here
    rw [one]
    exact List.mem_map_of_mem place
  simpa using charges.length_le_of_subset places'

def ofSource (p : Predictor) (source : Source) (tiles : List Tile) : List Tile :=
  tiles.filter fun t => (p.estimate t).source = source

theorem ofSourceBounded (p : Predictor) {tiles : List Tile} (distinct : tiles.Nodup)
    {source : Source} (told : source ≠ .unknown) :
    (p.ofSource source tiles).length ≤ (owners p.store source).length := by
  refine chargedWithin (owedTo source) (distinct.filter _) (fun t member => ?_) owedApart
  have here : (p.estimate t).source = source := by simpa using (List.mem_filter.mp member).2
  have owed := answerOwed (p.estimateAnswers t) (by rwa [here])
  rwa [here] at owed

theorem sourcesPart (p : Predictor) (tiles : List Tile) :
    tiles.length = (p.ofSource .measured tiles).length + (p.ofSource .interpolated tiles).length +
      (p.ofSource .special tiles).length + (p.ofSource .unknown tiles).length := by
  unfold ofSource
  induction tiles with
  | nil => rfl
  | cons t tiles ih =>
      cases source : (p.estimate t).source <;>
        simp only [List.filter_cons, source, List.length_cons, reduceCtorEq, decide_true,
          decide_false, if_true, Bool.false_eq_true, if_false] <;> omega

/- Estimates are not measurements: what is averaged is nothing to average with. -/
theorem coverageBounded (s : Measurements) (c : Constants) (tiles : List Tile)
    (distinct : tiles.Nodup) :
    let p : Predictor := ⟨s, c⟩
    ((∀ t ∈ tiles, (p.explain t).outcome.source = .interpolated) → tiles.length ≤ s.size) ∧
    ((∀ t ∈ tiles, (p.explain t).outcome.source ≠ .unknown) → tiles.length ≤ 2 * s.size + 1) := by
  intro p
  have count : p.store.tiles.length = s.size := Measurements.tilesCount s
  have measured := p.ofSourceBounded distinct (by decide : Source.measured ≠ .unknown)
  have interpolated := p.ofSourceBounded distinct (by decide : Source.interpolated ≠ .unknown)
  have special := p.ofSourceBounded distinct (by decide : Source.special ≠ .unknown)
  simp only [owners] at measured interpolated special
  constructor
  · intro all
    have same : p.ofSource .interpolated tiles = tiles :=
      List.filter_eq_self.mpr fun t member => decide_eq_true (all t member)
    rw [same, count] at interpolated
    exact interpolated
  · intro told
    have none : p.ofSource .unknown tiles = [] :=
      List.filter_eq_nil_iff.mpr fun t member here => told t member (of_decide_eq_true here)
    have parts := p.sourcesPart tiles
    have one : Tile.curated.length = 1 := rfl
    rw [none, List.length_nil] at parts
    omega

theorem coverageReached :
    let s := (Measurements.ofList [(⟨8, 2, 4⟩, 10)]).store
    let p : Predictor := ⟨s, .default⟩
    let tiles : List Tile := [⟨8, 2, 4⟩, ⟨8, 1, 4⟩, ⟨64, 16, 3⟩]
    (∀ t ∈ tiles, (p.explain t).outcome.source ≠ .unknown) ∧ tiles.length ≤ 2 * s.size + 1 ∧
    tiles.length = 2 * s.size + 1 := by
  intro s p tiles
  have told : ∀ t ∈ tiles, (p.explain t).outcome.source ≠ .unknown := by decide +kernel
  exact ⟨told, (coverageBounded s .default tiles (by decide)).2 told, by decide +kernel⟩

end Predictor
end TileCost
