import TileCost.Estimate
import TileCost.Proofs.Store

/-! The rules of the estimate, read off a table of known values. The first rule
that applies gives the answer, and some rule always does. The table may be what a
store holds or the latest entries of a list. -/
namespace TileCost.Predictor

inductive Bridged (known : Tile → Option Float) : Tile → Float → Prop where
  | first {m k above} (value : known ⟨m, 2, k⟩ = some above) : Bridged known ⟨m, 1, k⟩ above
  | mean {m n k below above} (inside : 2 ≤ n ∧ n < 0xffffffffffffffff)
      (lower : known ⟨m, n - 1, k⟩ = some below) (upper : known ⟨m, n + 1, k⟩ = some above) :
      Bridged known ⟨m, n, k⟩ ((below + above) / 2)

inductive Answer (known : Tile → Option Float) (c : Constants) (t : Tile) : Estimate → Prop where
  | measured {x} (own : known t = some x) : Answer known c t ⟨⟨x, c.startupCost⟩, .measured⟩
  | interpolated {x} (own : known t = none) (bridged : Bridged known t x) :
      Answer known c t ⟨⟨x, c.startupCost⟩, .interpolated⟩
  | special (own : known t = none) (unbridged : ∀ x, ¬ Bridged known t x) (curated : t = ⟨64, 16, 3⟩) :
      Answer known c t ⟨⟨c.specialThroughput, c.startupCost⟩, .special⟩
  | unknown (own : known t = none) (unbridged : ∀ x, ¬ Bridged known t x) (other : t ≠ ⟨64, 16, 3⟩) :
      Answer known c t ⟨⟨0, 0⟩, .unknown⟩

@[simp] theorem betweenFirst (p : Predictor) (m k : UInt64) :
    p.between ⟨m, 1, k⟩ = p.store.get? ⟨m, 2, k⟩ := rfl

theorem insideApart {n : UInt64} (inside : 2 ≤ n ∧ n < 0xffffffffffffffff) :
    n ≠ 0 ∧ n ≠ 1 ∧ n ≠ Tile.lastExtent := by
  obtain ⟨least, most⟩ := inside
  refine ⟨?_, ?_, ?_⟩
  · intro zero
    subst n
    exact absurd least (by decide)
  · intro one
    subst n
    exact absurd least (by decide)
  · intro last
    subst n
    exact absurd most (by decide)

theorem betweenMean (p : Predictor) {m n k : UInt64} (inside : 2 ≤ n ∧ n < 0xffffffffffffffff) :
    p.between ⟨m, n, k⟩ = do
      let below ← p.store.get? ⟨m, n - 1, k⟩
      let above ← p.store.get? ⟨m, n + 1, k⟩
      return (below + above) / 2 := by
  obtain ⟨zero, one, last⟩ := insideApart inside
  simp [between, Tile.lower, Tile.upper, one, zero, last]

theorem betweenEdge (p : Predictor) {m n k : UInt64} (edge : n = 0 ∨ n = Tile.lastExtent) :
    p.between ⟨m, n, k⟩ = none := by
  rcases edge with rfl | rfl
  · rfl
  · change (p.store.get? ⟨m, Tile.lastExtent - 1, k⟩).bind (fun _ => none) = none
    cases p.store.get? ⟨m, Tile.lastExtent - 1, k⟩ <;> rfl

theorem insideOrEdge (n : UInt64) :
    n = 1 ∨ (2 ≤ n ∧ n < 0xffffffffffffffff) ∨ n = 0 ∨ n = Tile.lastExtent := by
  have last : Tile.lastExtent.toNat = 2 ^ 64 - 1 := rfl
  have bound := n.toNat_lt
  simp only [← UInt64.toNat_inj, UInt64.le_iff_toNat_le, UInt64.lt_iff_toNat_lt, last]
  simp only [UInt64.reduceToNat]
  omega

theorem bridgedExact (p : Predictor) (t : Tile) (x : Float) :
    p.between t = some x ↔ Bridged p.store.get? t x := by
  constructor
  · intro found
    obtain ⟨m, n, k⟩ := t
    rcases insideOrEdge n with rfl | inside | edge
    · rw [betweenFirst] at found
      exact .first found
    · rw [betweenMean p inside] at found
      simp only [Option.bind_eq_bind, Option.bind_eq_some_iff] at found
      obtain ⟨below, lower, above, upper, mean⟩ := found
      cases Option.some.inj mean
      exact .mean inside lower upper
    · rw [betweenEdge p edge] at found
      contradiction
  · intro bridged
    cases bridged with
    | first value =>
        rw [betweenFirst]
        exact value
    | mean inside lower upper =>
        rw [betweenMean p inside, lower, upper]
        rfl

theorem notBridged {p : Predictor} {t : Tile} :
    p.between t = none ↔ ∀ x, ¬ Bridged p.store.get? t x := by
  simp only [← bridgedExact, Option.eq_none_iff_forall_ne_some, ne_eq]

@[simp] theorem curatedExact {t : Tile} : t.isCurated = true ↔ t = ⟨64, 16, 3⟩ := by
  simp [Tile.isCurated, Tile.curated]

theorem estimateAnswers (p : Predictor) (t : Tile) :
    Answer p.store.get? p.constants t (p.estimate t) := by
  rw [estimateRuling]
  unfold ruling
  split
  · exact .measured (by assumption)
  · rename_i own
    split
    · rename_i x between
      exact .interpolated own ((bridgedExact p t x).mp between)
    · rename_i between
      have unbridged := notBridged.mp between
      split
      · rename_i curated
        exact .special own unbridged (curatedExact.mp curated)
      · rename_i other
        exact .unknown own unbridged fun same => other (curatedExact.mpr same)

theorem answerEstimates {p : Predictor} {t : Tile} {e : Estimate}
    (answer : Answer p.store.get? p.constants t e) : p.estimate t = e := by
  cases answer with
  | measured own => simp only [estimateRuling, ruling, own, priced]
  | interpolated own bridged =>
      simp only [estimateRuling, ruling, own, (bridgedExact p t _).mpr bridged, priced]
  | special own unbridged curated =>
      simp only [estimateRuling, ruling, own, notBridged.mpr unbridged, curatedExact.mpr curated,
        priced, if_true]
  | unknown own unbridged other =>
      have plain : ¬ t.isCurated = true := fun same => other (curatedExact.mp same)
      simp only [estimateRuling, ruling, own, notBridged.mpr unbridged, if_neg plain]
      rfl

theorem estimateExact (p : Predictor) (t : Tile) (e : Estimate) :
    p.estimate t = e ↔ Answer p.store.get? p.constants t e :=
  ⟨fun same => same ▸ estimateAnswers p t, answerEstimates⟩

theorem bridgedInside {known t x} (bridged : Bridged known t x) :
    t.n ≠ 0 ∧ t.n ≠ 0xffffffffffffffff := by
  cases bridged with
  | first value =>
      have zero : (1 : UInt64) ≠ 0 := by decide
      have last : (1 : UInt64) ≠ 0xffffffffffffffff := by decide
      exact ⟨zero, last⟩
  | mean inside lower upper =>
      obtain ⟨zero, _, last⟩ := insideApart inside
      exact ⟨zero, last⟩

theorem estimateFromEntries (entries : List (Tile × Float)) (c : Constants) (t : Tile) :
    let p : Predictor := ⟨(Measurements.ofList entries).store, c⟩
    (∀ e, p.estimate t = e ↔ Answer (Measurements.latest entries) c t e) ∧
    ¬ ((t.n = 0 ∨ t.n = 0xffffffffffffffff) ∧ (p.estimate t).source = .interpolated) := by
  intro p
  have table : p.store.get? = Measurements.latest entries := Measurements.getOfList entries
  have rules (e) : p.estimate t = e ↔ Answer (Measurements.latest entries) c t e := by
    rw [estimateExact, table]
  refine ⟨rules, ?_⟩
  intro both
  obtain ⟨edge, source⟩ := both
  have answer := (rules _).mp rfl
  generalize p.estimate t = e at answer source
  cases answer with
  | interpolated own bridged =>
      have inside := bridgedInside bridged
      exact edge.elim inside.1 inside.2
  | measured own => contradiction
  | special own unbridged curated => contradiction
  | unknown own unbridged other => contradiction

end TileCost.Predictor
