import TileCost.Contract

/-! Tiles, the keys of a heatmap: triples of 64-bit extents, ordered extent by
extent with `m` first. A neighbour along `n` exists only inside the 64 bits;
no step wraps around. -/
namespace TileCost

structure Tile where
  m : UInt64
  n : UInt64
  k : UInt64
  deriving DecidableEq, Repr

namespace Tile

instance : Ord Tile :=
  ⟨compareLex (compareOn Tile.m) (compareLex (compareOn Tile.n) (compareOn Tile.k))⟩

theorem compareExtents (s t : Tile) :
    compare s t = ((compare s.m t.m).then (compare s.n t.n)).then (compare s.k t.k) := by
  change (compare s.m t.m).then ((compare s.n t.n).then (compare s.k t.k)) = _
  cases compare s.m t.m <;> rfl

instance : Std.TransOrd Tile :=
  inferInstanceAs (Std.TransCmp
    (compareLex (compareOn Tile.m) (compareLex (compareOn Tile.n) (compareOn Tile.k))))

instance : Std.LawfulEqOrd Tile where
  eq_of_compare {s t} h := by
    rw [compareExtents, Ordering.then_eq_eq, Ordering.then_eq_eq] at h
    obtain ⟨⟨hm, hn⟩, hk⟩ := h
    cases s
    cases t
    simp_all

def lower (t : Tile) : Option Tile :=
  if t.n = 0 then none else some {t with n := t.n - 1}

def lastExtent : UInt64 := 0xffffffffffffffff

def upper (t : Tile) : Option Tile :=
  if t.n = lastExtent then none else some {t with n := t.n + 1}

theorem lowerExact {s t : Tile} :
    s.lower = some t ↔ s.m = t.m ∧ s.k = t.k ∧ s.n.toNat = t.n.toNat + 1 := by
  unfold lower
  constructor
  · intro h
    split at h
    · simp at h
    · rename_i positive
      cases Option.some.inj h
      have size : s.n.toNat ≠ 0 := fun h => positive (UInt64.toNat_inj.mp (by simpa using h))
      refine ⟨rfl, rfl, ?_⟩
      have one : (1 : UInt64) ≤ s.n := by
        rw [UInt64.le_iff_toNat_le]
        change 1 ≤ s.n.toNat
        omega
      change s.n.toNat = (s.n - 1).toNat + 1
      rw [UInt64.toNat_sub_of_le _ _ one]
      change s.n.toNat = s.n.toNat - 1 + 1
      omega
  · intro ⟨hm, hk, hn⟩
    obtain ⟨m, n, k⟩ := s
    obtain ⟨m', n', k'⟩ := t
    simp only at hm hk hn
    subst hm hk
    have positive : n ≠ 0 := by
      intro h
      subst h
      simp at hn
    rw [if_neg positive]
    congr 2
    apply UInt64.toNat_inj.mp
    rw [UInt64.toNat_sub_of_le _ _ (by rw [UInt64.le_iff_toNat_le]; change 1 ≤ n.toNat; omega)]
    change n.toNat - 1 = n'.toNat
    omega

theorem upperExact {s t : Tile} :
    s.upper = some t ↔ s.m = t.m ∧ s.k = t.k ∧ s.n.toNat + 1 = t.n.toNat := by
  unfold upper
  have last : lastExtent.toNat = 2 ^ 64 - 1 := rfl
  have room (n : UInt64) (h : n ≠ lastExtent) : (n + 1).toNat = n.toNat + 1 := by
    have differs : n.toNat ≠ lastExtent.toNat := fun same => h (UInt64.toNat_inj.mp same)
    have bound := n.toNat_lt
    rw [UInt64.toNat_add]
    change (n.toNat + 1) % 2 ^ 64 = _
    omega
  constructor
  · intro h
    split at h
    · simp at h
    · rename_i inside
      cases Option.some.inj h
      exact ⟨rfl, rfl, (room s.n inside).symm⟩
  · intro ⟨hm, hk, hn⟩
    obtain ⟨m, n, k⟩ := s
    obtain ⟨m', n', k'⟩ := t
    simp only at hm hk hn
    subst hm hk
    have inside : n ≠ lastExtent := by
      intro h
      subst h
      have bound := n'.toNat_lt
      omega
    rw [if_neg inside]
    congr 2
    exact UInt64.toNat_inj.mp ((room n inside).trans hn)

theorem lowerUpper {s t : Tile} : s.lower = some t ↔ t.upper = some s := by
  rw [lowerExact, upperExact]
  exact ⟨fun ⟨hm, hk, hn⟩ => ⟨hm.symm, hk.symm, hn.symm⟩,
    fun ⟨hm, hk, hn⟩ => ⟨hm.symm, hk.symm, hn.symm⟩⟩

def ofRanges : List UInt64 → Except Breach Tile
  | [m, n, k] => .ok ⟨m, n, k⟩
  | ranges => .error (.ranges ranges.length)

def curated : List Tile := [⟨64, 16, 3⟩]

def isCurated (t : Tile) : Bool := curated.contains t

def text (t : Tile) : String := s!"[{t.m} {t.n} {t.k}]"

end Tile
end TileCost
