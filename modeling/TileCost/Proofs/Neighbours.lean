import TileCost.Proofs.TileOrder

/-! The neighbours of a tile along `n`. A step down undoes a step up, and leads to the tile
next before it in the order among those of the same `m` and `k`. A walk goes on as long as
there are tiles left on its side: each step takes one of them, and the call that finds none
is the first after all of them were taken. -/
namespace TileCost.Tile

variable {s t u : Tile} {step : Tile → Option Tile} {left : Tile → Nat}

theorem lowerApart (one : s.lower = some u) (other : t.lower = some u) : s = t :=
  Option.some.inj ((lowerUpper.mp one).symm.trans (lowerUpper.mp other))

theorem upperApart (one : s.upper = some u) (other : t.upper = some u) : s = t :=
  Option.some.inj ((lowerUpper.mpr one).symm.trans (lowerUpper.mpr other))

theorem lowerNone : t.lower = none ↔ t.n.toNat = 0 := by
  unfold lower
  rw [ite_eq_left_iff, ← UInt64.toNat_inj]
  simp

theorem upperNone : t.upper = none ↔ t.n.toNat = 2 ^ 64 - 1 := by
  unfold upper
  rw [ite_eq_left_iff, ← UInt64.toNat_inj]
  simp [lastExtent]

theorem sameStep (apart : ∀ {s t u}, step s = some u → step t = some u → s = t) (s t : Tile) :
    step s = step t ↔ s = t ∨ step s = none ∧ step t = none := by
  constructor
  · intro same
    cases here : step s with
    | none => exact .inr ⟨rfl, same.symm.trans here⟩
    | some u => exact .inl (apart here (same.symm.trans here))
  · intro alike
    rcases alike with same | ⟨nothing, nothing'⟩
    · exact congrArg step same
    · exact nothing.trans nothing'.symm

structure Next (t u : Tile) : Prop where
  m : t.m = u.m
  k : t.k = u.k
  before : compare t u = .lt
  between : ∀ x, x.m = t.m → x.k = t.k → ¬ (compare t x = .lt ∧ compare x u = .lt)

theorem comparedAlong (m : s.m = t.m) (k : s.k = t.k) :
    compare s t = .lt ↔ s.n.toNat < t.n.toNat := by
  rw [comparedBefore, ← UInt64.lt_iff_toNat_lt, Before]
  simp [m, k]

theorem nextExact : Next t u ↔ t.m = u.m ∧ t.k = u.k ∧ t.n.toNat + 1 = u.n.toNat := by
  constructor
  · intro next
    have before := (comparedAlong next.m next.k).mp next.before
    refine ⟨next.m, next.k, ?_⟩
    by_contra apart
    have last := u.n.toNat_lt
    have inside : t.upper ≠ none := by
      rw [ne_eq, upperNone]
      omega
    -- were `u` further up, the tile above `t` would be between them
    obtain ⟨x, up⟩ := Option.ne_none_iff_exists'.mp inside
    obtain ⟨m, k, above⟩ := upperExact.mp up
    refine next.between x m.symm k.symm ⟨?_, ?_⟩
    · exact (comparedAlong m k).mpr (by omega)
    · exact (comparedAlong (m.symm.trans next.m) (k.symm.trans next.k)).mpr (by omega)
  · intro above
    obtain ⟨m, k, above⟩ := above
    refine ⟨m, k, (comparedAlong m k).mpr (by omega), fun x m' k' between => ?_⟩
    have after := (comparedAlong m'.symm k'.symm).mp between.1
    have before := (comparedAlong (m'.trans m) (k'.trans k)).mp between.2
    omega

theorem upperNext : t.upper = some u ↔ Next t u := upperExact.trans nextExact.symm

def walk (step : Tile → Option Tile) : Nat → Tile → Option Tile
  | 0, t => some t
  | calls + 1, t => (step t).bind (walk step calls)

structure Spent (step : Tile → Option Tile) (t : Tile) (calls : Nat) : Prop where
  ended : walk step calls t = none
  found : ∀ fewer < calls, walk step fewer t ≠ none

theorem walkOne (step : Tile → Option Tile) (t : Tile) : walk step 1 t = step t :=
  Option.bind_fun_some (step t)

theorem walkMore (step : Tile → Option Tile) (calls more : Nat) (t : Tile) :
    walk step (calls + more) t = (walk step calls t).bind (walk step more) := by
  induction calls generalizing t with
  | zero => rw [Nat.zero_add]; rfl
  | succ calls ih =>
      rw [Nat.add_right_comm, walk, walk, Option.bind_assoc]
      exact congrArg (step t).bind (funext ih)

theorem walkBack (calls : Nat) (t u : Tile) :
    walk lower calls u = some t ↔ walk upper calls t = some u := by
  induction calls generalizing u with
  | zero => exact eq_comm.trans (by simp [walk])
  | succ calls ih =>
      -- the first step down is the last one up
      rw [walkMore upper calls 1, walk, Option.bind_eq_some_iff, Option.bind_eq_some_iff]
      refine exists_congr fun x => ?_
      rw [ih, lowerUpper, walkOne, and_comm]

structure Consumes (step : Tile → Option Tile) (left : Tile → Nat) : Prop where
  taken : ∀ {t u}, step t = some u → left t = left u + 1
  stopped : ∀ {t}, step t = none ↔ left t = 0

theorem lowerConsumes : Consumes lower fun t => t.n.toNat where
  taken down := (lowerExact.mp down).2.2
  stopped := lowerNone

theorem upperConsumes : Consumes upper fun t => 2 ^ 64 - 1 - t.n.toNat where
  taken {t u} up := by
    have above := (upperExact.mp up).2.2
    have last := u.n.toNat_lt
    omega
  stopped {t} := by
    have last := t.n.toNat_lt
    rw [upperNone]
    omega

theorem walkOver (consumes : Consumes step left) {calls : Nat} {t : Tile} :
    walk step calls t = none ↔ left t < calls := by
  induction calls generalizing t with
  | zero => simp [walk]
  | succ calls ih =>
      rw [walk]
      cases here : step t with
      | none =>
          have nothing := consumes.stopped.mp here
          simp [nothing]
      | some u =>
          have one := consumes.taken here
          rw [Option.bind_some, ih, one, Nat.add_lt_add_iff_right]

theorem spentExact (consumes : Consumes step left) {calls : Nat} {t : Tile} :
    Spent step t calls ↔ calls = left t + 1 := by
  constructor
  · intro spent
    have few := (walkOver consumes).mp spent.ended
    by_contra later
    exact spent.found (left t + 1) (by omega) ((walkOver consumes).mpr (Nat.lt_succ_self _))
  · intro count
    subst count
    refine ⟨(walkOver consumes).mpr (Nat.lt_succ_self _), fun fewer small ended => ?_⟩
    have late := (walkOver consumes).mp ended
    omega

theorem neighboursInverse (t u : Tile) :
    (u.lower = some t ↔ t.upper = some u) ∧ (t.upper = some u ↔ Next t u) ∧
    (t.lower = none ↔ t.n.toNat = 0) ∧ (t.upper = none ↔ t.n.toNat = 2 ^ 64 - 1) ∧
    (t.lower = u.lower ↔ t = u ∨ t.lower = none ∧ u.lower = none) ∧
    (t.upper = u.upper ↔ t = u ∨ t.upper = none ∧ u.upper = none) ∧
    ∀ calls, (walk lower calls u = some t ↔ walk upper calls t = some u) ∧
      (Spent lower t calls ↔ calls = t.n.toNat + 1) ∧
      (Spent upper t calls ↔ calls = 2 ^ 64 - t.n.toNat) := by
  refine ⟨lowerUpper, upperNext, lowerNone, upperNone, sameStep lowerApart t u,
    sameStep upperApart t u, fun calls => ⟨walkBack calls t u, spentExact lowerConsumes, ?_⟩⟩
  have last := t.n.toNat_lt
  have rest : 2 ^ 64 - 1 - t.n.toNat + 1 = 2 ^ 64 - t.n.toNat := by omega
  rw [spentExact upperConsumes, rest]

example : walk upper 2 ⟨8, lastExtent - 2, 3⟩ = some ⟨8, lastExtent, 3⟩ ∧
    walk upper 3 ⟨8, lastExtent - 2, 3⟩ = none := by decide

end TileCost.Tile
