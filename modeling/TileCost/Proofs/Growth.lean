import TileCost.Proofs.Rules

/-! What more measurements do to an estimate. A table that knows more tiles answers by
the same rule or by an earlier one, whatever its values are. Where it keeps the values,
a rule that still applies still gives the same. -/
namespace TileCost

def Source.rank : Source → Nat
  | unknown => 0
  | special => 1
  | interpolated => 2
  | measured => 3

namespace Predictor
open Measurements (latest ofList)

variable {known known' : Tile → Option Float} {c : Constants} {t : Tile}

def Covers (known' known : Tile → Option Float) : Prop := ∀ t, known t ≠ none → known' t ≠ none

def Keeps (known' known : Tile → Option Float) : Prop := ∀ t x, known t = some x → known' t = some x

theorem Keeps.covers (keeps : Keeps known' known) : Covers known' known := by
  intro t there
  obtain ⟨x, value⟩ := Option.ne_none_iff_exists'.mp there
  simp [keeps t x value]

theorem Covers.value (covers : Covers known' known) {x : Float} (value : known t = some x) :
    ∃ y, known' t = some y :=
  Option.ne_none_iff_exists'.mp (covers t (by simp [value]))

theorem bridgedCovered (covers : Covers known' known) {x : Float} (bridged : Bridged known t x) :
    ∃ y, Bridged known' t y := by
  cases bridged with
  | first value =>
      obtain ⟨above, value'⟩ := covers.value value
      exact ⟨_, .first value'⟩
  | mean inside lower upper =>
      obtain ⟨below, lower'⟩ := covers.value lower
      obtain ⟨above, upper'⟩ := covers.value upper
      exact ⟨_, .mean inside lower' upper'⟩

theorem bridgedKept (keeps : Keeps known' known) {x : Float} (bridged : Bridged known t x) :
    Bridged known' t x := by
  cases bridged with
  | first value => exact .first (keeps _ _ value)
  | mean inside lower upper => exact .mean inside (keeps _ _ lower) (keeps _ _ upper)

theorem bridgedOnce {x y : Float} (left : Bridged known t x) (right : Bridged known t y) :
    x = y := by
  cases left with
  | first value =>
      cases right with
      | first value' => exact Option.some.inj (value.symm.trans value')
      | mean inside _ _ => exact absurd rfl (insideApart inside).2.1
  | mean inside lower upper =>
      cases right with
      | first _ => exact absurd rfl (insideApart inside).2.1
      | mean _ lower' upper' =>
          have below := Option.some.inj (lower.symm.trans lower')
          have above := Option.some.inj (upper.symm.trans upper')
          rw [below, above]

/- One case for each rule of the smaller table: what made it apply is still there, so
no rule behind it can give the answer of the larger one. -/
theorem rankCovered (covers : Covers known' known) {e e' : Estimate}
    (answer : Answer known c t e) (answer' : Answer known' c t e') :
    e.source.rank ≤ e'.source.rank := by
  cases answer with
  | measured own =>
      have there : known' t ≠ none := covers t (by simp [own])
      cases answer' with
      | measured own' => exact le_refl _
      | interpolated missing bridged => exact absurd missing there
      | special missing unbridged curated => exact absurd missing there
      | unknown missing unbridged other => exact absurd missing there
  | interpolated own bridged =>
      obtain ⟨y, bridged'⟩ := bridgedCovered covers bridged
      cases answer' with
      | measured own' => simp [Source.rank]
      | interpolated own' bridged'' => exact le_refl _
      | special own' unbridged curated => exact absurd bridged' (unbridged y)
      | unknown own' unbridged other => exact absurd bridged' (unbridged y)
  | special own unbridged curated =>
      cases answer' with
      | measured own' => simp [Source.rank]
      | interpolated own' bridged => simp [Source.rank]
      | special own' unbridged' curated' => exact le_refl _
      | unknown own' unbridged' other => exact absurd curated other
  | unknown own unbridged other => exact Nat.zero_le _

theorem answerKept (keeps : Keeps known' known) {e e' : Estimate} (answer : Answer known c t e)
    (answer' : Answer known' c t e') (same : e.source = e'.source) : e' = e := by
  cases answer with
  | measured own =>
      cases answer' with
      | measured own' => rw [Option.some.inj (own'.symm.trans (keeps _ _ own))]
      | interpolated | special | unknown => contradiction
  | interpolated own bridged =>
      cases answer' with
      | interpolated own' bridged' => rw [bridgedOnce bridged' (bridgedKept keeps bridged)]
      | measured | special | unknown => contradiction
  | special own unbridged curated =>
      cases answer' with
      | special own' unbridged' curated' => rfl
      | measured | interpolated | unknown => contradiction
  | unknown own unbridged other =>
      cases answer' with
      | unknown own' unbridged' other' => rfl
      | measured | interpolated | special => contradiction

theorem rankUnknown {source : Source} : 0 < source.rank ↔ source ≠ .unknown := by
  cases source <;> decide

/- With a startup cost of zero every cost reads as none. -/
theorem nothingExact {e : Estimate} (answer : Answer known c t e) :
    e.cost.isNothing = true ↔ c.startupCost = 0 ∨ e.source = .unknown := by
  cases answer <;> simp [Cost.isNothing]

structure NoLess (e e' : Estimate) : Prop where
  rank : e.source.rank ≤ e'.source.rank
  known : e.source ≠ .unknown → e'.source ≠ .unknown
  cost : e.cost.isNothing = false → e'.cost.isNothing = false

theorem noLessCovered (covers : Covers known' known) {e e' : Estimate}
    (answer : Answer known c t e) (answer' : Answer known' c t e') : NoLess e e' := by
  have rank := rankCovered covers answer answer'
  have given (source : e.source ≠ .unknown) : e'.source ≠ .unknown :=
    rankUnknown.mp (Nat.lt_of_lt_of_le (rankUnknown.mpr source) rank)
  refine ⟨rank, given, ?_⟩
  rw [← Bool.not_eq_true, ← Bool.not_eq_true, nothingExact answer, nothingExact answer']
  intro priced nothing
  rcases nothing with free | unknown
  · exact priced (.inl free)
  · exact given (fun source => priced (.inr source)) unknown

inductive Grown : List (Tile × Float) → List (Tile × Float) → Prop where
  | appended (entries more) : Grown entries (entries ++ more)
  | prepended (entries more) : Grown entries (more ++ entries)
  | overwritten (before after t x y) : Grown (before ++ (t, x) :: after) (before ++ (t, y) :: after)

theorem grownTiles {entries entries' : List (Tile × Float)} (grown : Grown entries entries') :
    entries.map Prod.fst ⊆ entries'.map Prod.fst := by
  cases grown with
  | appended more => simp
  | prepended more => simp
  | overwritten before after t x y => simp

theorem grownCovers {entries entries' : List (Tile × Float)} (grown : Grown entries entries') :
    Covers (latest entries') (latest entries) := by
  intro t there missing
  rw [Measurements.latestNone] at missing
  apply there
  rw [Measurements.latestNone]
  intro e member same
  obtain ⟨e', member', tile⟩ := List.mem_map.mp (grownTiles grown (List.mem_map_of_mem member))
  exact missing e' member' (tile.trans same)

theorem growthCovers {entries entries' : List (Tile × Float)}
    (growth : Relation.ReflTransGen Grown entries entries') :
    Covers (latest entries') (latest entries) := by
  induction growth with
  | refl => exact fun t there => there
  | tail growth grown ih => exact fun t there => grownCovers grown t (ih t there)

theorem moreLosesNothing (s s' : Measurements) (c : Constants) (t : Tile) :
    let e := (Predictor.mk s c).estimate t
    let e' := (Predictor.mk s' c).estimate t
    (Covers s'.get? s.get? → NoLess e e') ∧
    (Keeps s'.get? s.get? → e.source = e'.source → e' = e) ∧
    ∀ entries entries', Relation.ReflTransGen Grown entries entries' →
      NoLess ((Predictor.mk (ofList entries).store c).estimate t)
        ((Predictor.mk (ofList entries').store c).estimate t) := by
  intro e e'
  have answer (s : Measurements) : Answer s.get? c t ((Predictor.mk s c).estimate t) :=
    estimateAnswers ⟨s, c⟩ t
  refine ⟨fun covers => noLessCovered covers (answer s) (answer s'),
    fun keeps => answerKept keeps (answer s) (answer s'), ?_⟩
  intro entries entries' growth
  have covers := growthCovers growth
  rw [← Measurements.getOfList, ← Measurements.getOfList] at covers
  exact noLessCovered covers (answer _) (answer _)

def gap : List (Tile × Float) := [(⟨64, 15, 3⟩, 2), (⟨64, 17, 3⟩, 6)]

def filled : List (Tile × Float) := [(⟨64, 16, 3⟩, 40), (⟨64, 15, 3⟩, 2), (⟨64, 17, 3⟩, 9)]

def beside : List (Tile × Float) := gap ++ [(⟨64, 18, 3⟩, 7)]

theorem besideKeeps : Keeps (ofList beside).store.get? (ofList gap).store.get? := by
  intro t x value
  rw [Measurements.getOfList] at value ⊢
  rw [beside, Measurements.latestSnoc, if_neg, value]
  intro same
  subst same
  have missing : latest gap ⟨64, 18, 3⟩ = none := by decide +kernel
  exact absurd (missing.symm.trans value) (by simp)

theorem gapFilled :
    let estimated (entries : List (Tile × Float)) :=
      (Predictor.mk (ofList entries).store .default).estimate ⟨64, 16, 3⟩
    Relation.ReflTransGen Grown gap filled ∧ NoLess (estimated gap) (estimated filled) ∧
    Covers (ofList beside).store.get? (ofList gap).store.get? ∧
      NoLess (estimated gap) (estimated beside) ∧
    estimated gap = ⟨⟨4, 32⟩, .interpolated⟩ ∧ estimated beside = estimated gap := by
  intro estimated
  have growth : Relation.ReflTransGen Grown gap filled :=
    .tail (.single (.overwritten [(⟨64, 15, 3⟩, 2)] [] ⟨64, 17, 3⟩ 6 9))
      (.prepended _ [(⟨64, 16, 3⟩, 40)])
  have mean : estimated gap = ⟨⟨4, 32⟩, .interpolated⟩ := by decide +kernel
  have same : (estimated gap).source = (estimated beside).source := by decide +kernel
  have more := moreLosesNothing (ofList gap).store (ofList beside).store .default ⟨64, 16, 3⟩
  exact ⟨growth, more.2.2 gap filled growth, besideKeeps.covers, more.1 besideKeeps.covers, mean,
    more.2.1 besideKeeps same⟩

end Predictor
end TileCost
