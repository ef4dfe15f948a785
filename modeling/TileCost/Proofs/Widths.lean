import TileCost.Proofs.Builders
import TileCost.Proofs.Canonical
import TileCost.Proofs.Coverage

/-! Keys of a heatmap have 16 bits for an extent, tiles that are asked for have 64. A tile is
measured only as the tile of a key that has its very extents. Beyond 16 bits there is none,
and none above it along `n` either, so nothing is told of such a tile. -/
namespace TileCost

def Tile.Beyond (t : Tile) : Prop := 65535 < t.m ∨ 65535 < t.n ∨ 65535 < t.k

theorem Tile.beyondExact {t : Tile} :
    t.Beyond ↔ 65535 < t.m.toNat ∨ 65535 < t.n.toNat ∨ 65535 < t.k.toNat := by
  simp only [Beyond, UInt64.lt_iff_toNat_lt]
  rfl

theorem Tile.beyondUpper {t u : Tile} (above : t.upper = some u) (beyond : t.Beyond) :
    u.Beyond := by
  obtain ⟨m, k, n⟩ := upperExact.mp above
  rw [beyondExact] at beyond ⊢
  rw [← m, ← k, ← n]
  omega

namespace Key

structure Names (key : Key) (t : Tile) : Prop where
  m : key.m.toNat = t.m.toNat
  n : key.n.toNat = t.n.toNat
  k : key.k.toNat = t.k.toNat

theorem namesExact {key : Key} {t : Tile} : key.toTile = t ↔ key.Names t := by
  constructor
  · rintro rfl
    exact ⟨key.m.toNat_toUInt64.symm, key.n.toNat_toUInt64.symm, key.k.toNat_toUInt64.symm⟩
  · intro names
    obtain ⟨m, n, k⟩ := t
    simp only [toTile, Tile.mk.injEq, ← UInt64.toNat_inj, UInt16.toNat_toUInt64]
    exact ⟨names.m, names.n, names.k⟩

theorem Names.within {key : Key} {t : Tile} (names : key.Names t) : ¬ t.Beyond := by
  rw [Tile.beyondExact, ← names.m, ← names.n, ← names.k]
  have m := key.m.toNat_lt
  have n := key.n.toNat_lt
  have k := key.k.toNat_lt
  omega

end Key

theorem Measurements.latestPlace {entries : List (Tile × Float)} {t : Tile} {x : Float} :
    latest entries t = some x ↔
      ∃ i : Nat, entries[i]? = some (t, x) ∧
        ∀ (j : Nat) (y : Float), entries[j]? = some (t, y) → j ≤ i := by
  constructor
  · intro found
    obtain ⟨i, here, final⟩ := latestAt found
    refine ⟨i, by rw [List.getElem?_eq_getElem i.isLt]; exact congrArg some here, ?_⟩
    intro j y there
    obtain ⟨bound, there⟩ := List.getElem?_eq_some_iff.mp there
    exact final ⟨j, bound⟩ (congrArg Prod.fst there)
  · intro placed
    obtain ⟨i, here, final⟩ := placed
    obtain ⟨bound, here⟩ := List.getElem?_eq_some_iff.mp here
    refine latestOf (i := ⟨i, bound⟩) here fun j own => final j (entries.get j).2 ?_
    rw [List.getElem?_eq_getElem j.isLt, ← own]
    rfl

namespace Heatmap

inductive LastGiven (h : Heatmap) (t : Tile) : Float32 → Prop where
  | mk {i : Nat} {key value} (found : h.keys[i]? = some key) (names : key.Names t)
      (given : h.values[i]? = some value)
      (final : ∀ (j : Nat) later, h.keys[j]? = some later → later.Names t → j ≤ i) :
      LastGiven h t value

theorem entriesPlace {h : Heatmap} {i : Nat} {t : Tile} {x : Float} :
    h.entries[i]? = some (t, x) ↔
      ∃ key value, h.keys[i]? = some key ∧ key.Names t ∧ h.values[i]? = some value ∧
        Decimal.widen value = x := by
  simp only [entries, List.getElem?_zip_eq_some, List.getElem?_map, Option.map_eq_some_iff,
    Key.namesExact]
  constructor
  · rintro ⟨⟨key, found, names⟩, value, given, wide⟩
    exact ⟨key, value, found, names, given, wide⟩
  · rintro ⟨key, value, found, names, given, wide⟩
    exact ⟨⟨key, found, names⟩, value, given, wide⟩

/- No tile but the key's own leads to a value, so the last entry of the tile is the last
occurrence of the key. -/
theorem lastEntry {h : Heatmap} (same : h.keys.length = h.values.length) {t : Tile} {x : Float} :
    Measurements.latest h.entries t = some x ↔
      ∃ value, h.LastGiven t value ∧ Decimal.widen value = x := by
  rw [Measurements.latestPlace]
  constructor
  · rintro ⟨i, here, final⟩
    obtain ⟨key, value, found, names, given, wide⟩ := entriesPlace.mp here
    refine ⟨value, .mk found names given fun j later found' names' => ?_, wide⟩
    have bound : j < h.values.length := same ▸ (List.getElem?_eq_some_iff.mp found').1
    have given := List.getElem?_eq_getElem bound
    exact final j _ (entriesPlace.mpr ⟨later, _, found', names', given, rfl⟩)
  · rintro ⟨value, ⟨found, names, given, final⟩, wide⟩
    refine ⟨_, entriesPlace.mpr ⟨_, value, found, names, given, wide⟩, fun j y there => ?_⟩
    obtain ⟨later, _, found', names', _⟩ := entriesPlace.mp there
    exact final j later found' names'

theorem measuredSource {h : Heatmap} {b} (built : h.measurements = .ok b) :
    h.keys.length = h.values.length ∧ b.store.get? = Measurements.latest h.entries := by
  have same := measurementsExact.mp ⟨b, built⟩
  refine ⟨same, ?_⟩
  cases (measurementsBuilt same).symm.trans built
  exact Measurements.getOfList h.entries

theorem measuredKey {h : Heatmap} {b} (built : h.measurements = .ok b) {t : Tile} :
    b.store.get? t ≠ none ↔ ∃ key ∈ h.keys, key.Names t := by
  obtain ⟨same, table⟩ := measuredSource built
  rw [table, Ne, Measurements.latestNone, ← List.forall_mem_map (f := Prod.fst) (P := (· ≠ t)),
    entriesTiles same]
  simp only [List.forall_mem_map, Key.namesExact, not_forall, ne_eq, not_not, exists_prop]

theorem beyondUnknown {h : Heatmap} {b} (built : h.measurements = .ok b) (c : Constants) {t : Tile}
    (beyond : t.Beyond) : (Predictor.mk b.store c).estimate t = ⟨.nothing, .unknown⟩ := by
  have unmeasured {u : Tile} (beyond : u.Beyond) : b.store.get? u = none := by
    by_contra measured
    obtain ⟨key, _, names⟩ := (measuredKey built).mp measured
    exact names.within beyond
  refine Predictor.answerEstimates (.unknown (unmeasured beyond) (fun x bridged => ?_) ?_)
  · obtain ⟨u, above, measured⟩ := Predictor.bridgedAbove bridged
    exact measured (unmeasured (t.beyondUpper above beyond))
  · rintro rfl
    exact absurd beyond (by unfold Tile.Beyond; decide)

theorem widthsApart {h : Heatmap} {b} (built : h.measurements = .ok b) (c : Constants) (t : Tile) :
    (t.Beyond → ((Predictor.mk b.store c).explain t).outcome = ⟨.nothing, .unknown⟩) ∧
    (¬ t.Beyond →
      (b.store.get? t ≠ none ↔ ∃ key ∈ h.keys, key.Names t) ∧
      ∀ x, b.store.get? t = some x ↔ ∃ value, h.LastGiven t value ∧ Decimal.widen value = x) := by
  obtain ⟨same, table⟩ := measuredSource built
  refine ⟨beyondUnknown built c, fun _ => ⟨measuredKey built, fun x => ?_⟩⟩
  rw [table]
  exact lastEntry same

def edge : Heatmap := ⟨[⟨8, 1, 4⟩, ⟨8, 65535, 4⟩, ⟨8, 1, 4⟩], [7, 10, 3]⟩

theorem edgeKept :
    (∃ b, edge.measurements = .ok b ∧
      ((Predictor.mk b.store .default).explain ⟨8, 65536, 4⟩).outcome = ⟨.nothing, .unknown⟩ ∧
      b.store.get? ⟨8, 1, 4⟩ = some (Decimal.widen 3)) := by
  obtain ⟨b, built⟩ := measurementsExact.mpr (rfl : edge.keys.length = edge.values.length)
  have beyond : Tile.Beyond ⟨8, 65536, 4⟩ := .inr (.inl (by decide))
  have within : ¬ Tile.Beyond ⟨8, 1, 4⟩ := by unfold Tile.Beyond; decide
  have last : edge.LastGiven ⟨8, 1, 4⟩ 3 := by
    refine @LastGiven.mk edge ⟨8, 1, 4⟩ 2 _ _ rfl ⟨rfl, rfl, rfl⟩ rfl fun j later found _ => ?_
    have bound : j < 3 := (List.getElem?_eq_some_iff.mp found).1
    omega
  exact ⟨b, built, (widthsApart built .default _).1 beyond,
    (((widthsApart built .default _).2 within).2 _).mpr ⟨3, last, rfl⟩⟩

end Heatmap
end TileCost
