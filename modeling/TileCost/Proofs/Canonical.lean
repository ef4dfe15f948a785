import TileCost.Proofs.Rules

/-! Which lists of entries make one store. The latest value of every tile decides, so
entries may change places as long as those of one tile keep theirs, and a store that
is listed and built again is the same store. -/
namespace TileCost.Measurements

theorem storeExt {s s' : Measurements} (same : ∀ t, s.get? t = s'.get? t) : s = s' := by
  obtain ⟨byTile⟩ := s
  obtain ⟨byTile'⟩ := s'
  congr
  exact Std.ExtTreeMap.ext_getElem? same

theorem listedSame {s s' : Measurements} (same : s.toList = s'.toList) : s = s' := by
  refine storeExt fun t => Option.ext fun v => ?_
  rw [← listed, ← listed, same]

theorem sameStore {xs ys : List (Tile × Float)} :
    (ofList xs).store = (ofList ys).store ↔ ∀ t, latest xs t = latest ys t := by
  rw [← getOfList, ← getOfList]
  exact ⟨fun same t => by rw [same], storeExt⟩

theorem Built.same {b b' : Built} (store : b.store = b'.store) (replaced : b.replaced = b'.replaced) :
    b = b' := by
  cases b
  cases b'
  exact congrArg₂ Built.mk store replaced

theorem builtSame {xs ys : List (Tile × Float)} (lengths : xs.length = ys.length)
    (values : ∀ t, latest xs t = latest ys t) : ofList xs = ofList ys := by
  have store := sameStore.mpr values
  have left := (ofListFaithful xs).total
  have right := (ofListFaithful ys).total
  rw [store] at left
  exact Built.same store (by omega)

theorem latestSplit {entries : List (Tile × Float)} {t : Tile} {x : Float}
    (found : latest entries t = some x) :
    ∃ before after, entries = before ++ (t, x) :: after ∧ ∀ e ∈ after, e.1 ≠ t := by
  obtain ⟨⟨t', x'⟩, last, rfl⟩ := Option.map_eq_some_iff.mp found
  obtain ⟨earlier, kept⟩ := List.getLast?_eq_some_iff.mp last
  obtain ⟨before, rest, rfl, _, kept⟩ := List.filter_eq_append_iff.mp kept
  obtain ⟨between, after, rfl, _, own, others⟩ := List.filter_eq_cons_iff.mp kept
  refine ⟨before ++ between, after, by simp_all, ?_⟩
  simpa using others

theorem latestAt {entries : List (Tile × Float)} {t : Tile} {x : Float}
    (found : latest entries t = some x) :
    ∃ i, entries.get i = (t, x) ∧ ∀ j, (entries.get j).1 = t → j ≤ i := by
  obtain ⟨before, after, rfl, other⟩ := latestSplit found
  refine ⟨⟨before.length, by simp⟩, by simp, fun j own => ?_⟩
  by_contra later
  have beyond : before.length < j := lt_of_not_ge later
  have member : (before ++ (t, x) :: after).get j ∈ after := by
    rw [List.get_eq_getElem, List.getElem_append_right (by omega), List.getElem_cons, dif_neg (by omega)]
    exact List.getElem_mem _
  exact other _ member own

theorem latestOf {entries : List (Tile × Float)} {t : Tile} {x : Float} {i : Fin entries.length}
    (here : entries.get i = (t, x)) (last : ∀ j, (entries.get j).1 = t → j ≤ i) :
    latest entries t = some x := by
  cases found : latest entries t with
  | none => exact absurd (congrArg Prod.fst here) (latestNone.mp found _ (List.get_mem _ _))
  | some y =>
      obtain ⟨j, there, final⟩ := latestAt found
      have same : i = j := le_antisymm (final i (by rw [here])) (last j (by rw [there]))
      rw [← same, here] at there
      rw [(Prod.mk.inj there).2]

/- Every entry has its own place in the other list, and of two for the same tile the
later one stays the later one. -/
def Shuffled (xs ys : List (Tile × Float)) : Prop :=
  ∃ place : Fin xs.length ≃ Fin ys.length, (∀ i, ys.get (place i) = xs.get i) ∧
    ∀ i j, i < j → (xs.get i).1 = (xs.get j).1 → place i < place j

theorem Shuffled.length {xs ys : List (Tile × Float)} (shuffled : Shuffled xs ys) :
    xs.length = ys.length := by
  obtain ⟨place, _, _⟩ := shuffled
  exact Fin.equiv_iff_eq.mp ⟨place⟩

theorem latestShuffled {xs ys : List (Tile × Float)} (shuffled : Shuffled xs ys) (t : Tile) :
    latest xs t = latest ys t := by
  obtain ⟨place, same, order⟩ := shuffled
  cases found : latest xs t with
  | none =>
      symm
      rw [latestNone] at found ⊢
      intro e member
      obtain ⟨j, rfl⟩ := List.get_of_mem member
      have origin := same (place.symm j)
      rw [Equiv.apply_symm_apply] at origin
      exact origin ▸ found _ (List.get_mem xs _)
  | some x =>
      obtain ⟨i, here, last⟩ := latestAt found
      refine (latestOf ((same i).trans here) fun j own => ?_).symm
      obtain ⟨k, rfl⟩ := place.surjective j
      rw [same] at own
      rcases lt_or_eq_of_le (last k own) with earlier | rfl
      · exact le_of_lt (order k i earlier (by rw [own, here]))
      · exact le_refl _

theorem latestListed (s : Measurements) (t : Tile) : latest s.toList t = s.get? t := by
  cases found : latest s.toList t with
  | none =>
      rw [latestNone] at found
      cases known : s.get? t with
      | none => rfl
      | some x => exact absurd rfl (found _ ((listed s t x).mpr known))
  | some x =>
      obtain ⟨i, here, _⟩ := latestAt found
      exact ((listed s t x).mp (here ▸ List.get_mem _ _)).symm

theorem listedBuilt (s : Measurements) : ofList s.toList = ⟨s, 0⟩ := by
  have store : (ofList s.toList).store = s := by
    refine storeExt fun t => ?_
    simp [latestListed]
  have total := (ofListFaithful s.toList).total
  have count : s.toList.length = s.size := by
    rw [← tilesCount, tiles, List.length_map]
  rw [store] at total
  have replaced : (ofList s.toList).replaced = 0 := by omega
  exact Built.same store replaced

theorem latestAppend (xs ys : List (Tile × Float)) (t : Tile) :
    latest (xs ++ ys) t = (latest ys t).or (latest xs t) := by
  unfold latest
  rw [List.filter_append, List.getLast?_append]
  cases (ys.filter fun e => e.1 = t).getLast? <;> rfl

theorem storeCanonical :
    (∀ xs ys, (ofList xs).store.toList = (ofList ys).store.toList ↔
      ∀ t, latest xs t = latest ys t) ∧
    (∀ xs ys, Shuffled xs ys → ofList xs = ofList ys ∧ ∀ c t,
      (Predictor.mk (ofList xs).store c).explain t = (Predictor.mk (ofList ys).store c).explain t) ∧
    (∀ s : Measurements, (ofList s.toList).store = s ∧ (ofList s.toList).replaced = 0 ∧
      (ofList s.toList).events = [.storeBuilt s.size]) ∧
    ∀ xs ys t, (ofList (xs ++ ys)).store.get? t =
      ((ofList ys).store.get? t).or ((ofList xs).store.get? t) := by
  refine ⟨?_, ?_, ?_, ?_⟩
  · intro xs ys
    rw [← sameStore]
    exact ⟨listedSame, fun same => by rw [same]⟩
  · intro xs ys shuffled
    have same := builtSame shuffled.length (latestShuffled shuffled)
    exact ⟨same, fun c t => by rw [same]⟩
  · intro s
    rw [listedBuilt]
    exact ⟨rfl, rfl, rfl⟩
  · intro xs ys t
    simp [latestAppend]

def repeated : List (Tile × Float) := [(⟨8, 2, 4⟩, 1), (⟨8, 3, 4⟩, 2), (⟨8, 2, 4⟩, 3)]

theorem repeatedShuffled :
    Shuffled repeated [(⟨8, 3, 4⟩, 2), (⟨8, 2, 4⟩, 1), (⟨8, 2, 4⟩, 3)] ∧
    ofList repeated = ofList [(⟨8, 3, 4⟩, 2), (⟨8, 2, 4⟩, 1), (⟨8, 2, 4⟩, 3)] := by
  have shuffled : Shuffled repeated [(⟨8, 3, 4⟩, 2), (⟨8, 2, 4⟩, 1), (⟨8, 2, 4⟩, 3)] := by
    refine ⟨(Equiv.swap 0 1 : Equiv.Perm (Fin 3)), ?_, ?_⟩
    · decide +kernel
    · decide +kernel
  exact ⟨shuffled, (storeCanonical.2.1 _ _ shuffled).1⟩

end TileCost.Measurements
