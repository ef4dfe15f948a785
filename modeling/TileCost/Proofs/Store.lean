import TileCost.Measurements
import TileCost.Proofs.TileOrder

/-! What a store holds, told from the entries alone. The latest entry of a tile is
the one that counts; what it replaced is counted and nothing else is lost. -/
namespace TileCost.Measurements

def latest (entries : List (Tile × Float)) (t : Tile) : Option Float :=
  ((entries.filter fun e => e.1 = t).getLast?).map Prod.snd

@[simp] theorem latestEmpty (t : Tile) : latest [] t = none := rfl

@[simp] theorem latestSnoc (entries : List (Tile × Float)) (entry : Tile × Float) (t : Tile) :
    latest (entries ++ [entry]) t = if entry.1 = t then some entry.2 else latest entries t := by
  by_cases same : entry.1 = t <;> simp [latest, List.filter_append, same]

@[simp] theorem latestNone {entries : List (Tile × Float)} {t : Tile} :
    latest entries t = none ↔ ∀ e ∈ entries, e.1 ≠ t := by
  simp [latest]

/- The invariant of the entering loop. Order and distinctness of the tiles are
properties of the map and need no place in it. -/
structure Faithful (entries : List (Tile × Float)) (b : Built) : Prop where
  value : b.store.get? = latest entries
  total : b.store.size + b.replaced = entries.length

theorem faithfulStart : Faithful [] ⟨empty, 0⟩ where
  value := by
    funext t
    simp
  total := rfl

theorem faithfulEnter {entries b} (kept : Faithful entries b) (entry : Tile × Float) :
    Faithful (entries ++ [entry]) (b.enter entry) where
  value := by
    funext t
    simp [kept.value]
  total := by
    rw [sizeEntered, kept.total, List.length_append]
    rfl

theorem ofListFaithful (entries : List (Tile × Float)) : Faithful entries (ofList entries) := by
  induction entries using List.reverseRecOn with
  | nil => exact faithfulStart
  | append_singleton entries entry kept =>
      rw [ofListSnoc]
      exact faithfulEnter kept entry

@[simp] theorem getOfList (entries : List (Tile × Float)) : (ofList entries).store.get? = latest entries :=
  (ofListFaithful entries).value

theorem listed (s : Measurements) (t : Tile) (v : Float) : (t, v) ∈ s.toList ↔ s.get? t = some v :=
  Std.ExtTreeMap.mem_toList_iff_getElem?_eq_some

theorem ascending (s : Measurements) : s.toList.Pairwise fun a b => a.1.Before b.1 := by
  have sorted : s.toList.Pairwise fun a b => compare a.1 b.1 = .lt :=
    Std.ExtTreeMap.ordered_keys_toList
  exact sorted.imp Tile.comparedBefore.mp

def tiles (s : Measurements) : List Tile := s.toList.map Prod.fst

theorem tilesDistinct (s : Measurements) : s.tiles.Nodup := by
  rw [tiles, toList, Std.ExtTreeMap.map_fst_toList_eq_keys]
  exact Std.ExtTreeMap.nodup_keys

@[simp] theorem tilesCount (s : Measurements) : s.tiles.length = s.size := by
  rw [tiles, toList, Std.ExtTreeMap.map_fst_toList_eq_keys]
  exact Std.ExtTreeMap.length_keys

@[simp] theorem memTiles {s : Measurements} {t : Tile} : t ∈ s.tiles ↔ s.get? t ≠ none := by
  rw [tiles, toList, Std.ExtTreeMap.map_fst_toList_eq_keys, Std.ExtTreeMap.mem_keys,
    Std.ExtTreeMap.mem_iff_isSome_getElem?, Option.isSome_iff_ne_none]
  rfl

theorem entered {entries : List (Tile × Float)} {t : Tile} :
    t ∈ (ofList entries).store.tiles ↔ t ∈ entries.map Prod.fst := by
  simp

theorem sizeDistinct (entries : List (Tile × Float)) :
    (ofList entries).store.size = (entries.map Prod.fst).toFinset.card := by
  have same : (ofList entries).store.tiles.toFinset = (entries.map Prod.fst).toFinset := by
    ext t
    rw [List.mem_toFinset, List.mem_toFinset, entered]
  rw [← tilesCount, ← List.toFinset_card_of_nodup (tilesDistinct _), same]

theorem emptyExact (entries : List (Tile × Float)) :
    (ofList entries).store.isEmpty = true ↔ entries = [] := by
  have none : (ofList entries).store.isEmpty = ((ofList entries).store.size == 0) :=
    Std.ExtTreeMap.isEmpty_eq_size_beq_zero
  rw [none, beq_iff_eq, sizeDistinct, Finset.card_eq_zero, List.toFinset_eq_empty_iff,
    List.map_eq_nil_iff]

theorem replacedExact (entries : List (Tile × Float)) :
    0 < (ofList entries).replaced ↔ ∃ t, 2 ≤ (entries.map Prod.fst).count t := by
  have total := (ofListFaithful entries).total
  rw [sizeDistinct] at total
  have once : (ofList entries).replaced = 0 ↔ (entries.map Prod.fst).Nodup := by
    rw [← Multiset.coe_nodup, ← Multiset.toFinset_card_eq_card_iff_nodup]
    simp only [List.toFinset_coe, Multiset.coe_card, List.length_map]
    omega
  rw [Nat.pos_iff_ne_zero, Ne, once, List.nodup_iff_count_le_one, not_forall]
  simp only [not_le, Nat.succ_le_iff]

theorem duplicatesLogged (b : Built) (count : Nat) :
    Log.Event.duplicates count ∈ b.events ↔ 0 < b.replaced ∧ count = b.replaced := by
  unfold Built.events
  split <;> simp_all

theorem nothingLostOrInvented (entries : List (Tile × Float)) :
    let b := ofList entries
    (∀ t, b.store.get? t = latest entries t) ∧
    (∀ t, b.store.get? t = none ↔ ∀ e ∈ entries, e.1 ≠ t) ∧
    b.store.toList.Pairwise (fun a c => a.1.Before c.1) ∧
    (∀ t v, (t, v) ∈ b.store.toList ↔ b.store.get? t = some v) ∧
    b.store.size = (entries.map Prod.fst).toFinset.card ∧
    (b.store.isEmpty = true ↔ entries = []) ∧
    b.store.size + b.replaced = entries.length ∧
    ∀ count, Log.Event.duplicates count ∈ b.events ↔
      count = b.replaced ∧ ∃ t, 2 ≤ (entries.map Prod.fst).count t := by
  intro b
  have kept : Faithful entries b := ofListFaithful entries
  have value (t) : b.store.get? t = latest entries t := congrFun kept.value t
  refine ⟨value, ?_, ascending _, listed _, sizeDistinct entries, emptyExact entries,
    kept.total, ?_⟩
  · intro t
    rw [value, latestNone]
  · intro count
    rw [duplicatesLogged, replacedExact, and_comm]

end TileCost.Measurements
