import Std.Data.ExtTreeMap
import TileCost.Key
import TileCost.Log
import TileCost.Decimal.Width

/-! Measured throughputs by tile. A store is built once, from a list of entries in
which a later entry for a tile replaces an earlier one, and only read afterwards. -/
namespace TileCost

structure Measurements where
  byTile : Std.ExtTreeMap Tile Float

namespace Measurements

def empty : Measurements := ⟨∅⟩

def get? (s : Measurements) (t : Tile) : Option Float := s.byTile[t]?

def size (s : Measurements) : Nat := s.byTile.size

def isEmpty (s : Measurements) : Bool := s.byTile.isEmpty

def toList (s : Measurements) : List (Tile × Float) := s.byTile.toList

structure Built where
  store : Measurements
  replaced : Nat

def Built.enter (b : Built) (entry : Tile × Float) : Built :=
  ⟨⟨b.store.byTile.insert entry.1 entry.2⟩,
    if b.store.byTile.contains entry.1 then b.replaced + 1 else b.replaced⟩

def Built.events (b : Built) : List Log.Event :=
  let built := [Log.Event.storeBuilt b.store.size]
  if 0 < b.replaced then .duplicates b.replaced :: built else built

def ofList (entries : List (Tile × Float)) : Built :=
  entries.foldl Built.enter ⟨empty, 0⟩

@[simp] theorem getEmpty (t : Tile) : empty.get? t = none := by
  simp [empty, get?]

@[simp] theorem getEntered (b : Built) (entry : Tile × Float) (t : Tile) :
    (b.enter entry).store.get? t = if entry.1 = t then some entry.2 else b.store.get? t := by
  simp [Built.enter, get?, Std.ExtTreeMap.getElem?_insert]

theorem sizeEntered (b : Built) (entry : Tile × Float) :
    (b.enter entry).store.size + (b.enter entry).replaced = b.store.size + b.replaced + 1 := by
  by_cases known : entry.1 ∈ b.store.byTile <;>
    simp [Built.enter, size, Std.ExtTreeMap.size_insert, known] <;> omega

@[simp] theorem ofListSnoc (entries : List (Tile × Float)) (entry : Tile × Float) :
    ofList (entries ++ [entry]) = (ofList entries).enter entry := by
  simp [ofList]

def ofArrays (keys : List Key) (values : List Float32) : Except Breach Built :=
  if keys.length = values.length then
    .ok (ofList ((keys.map Key.toTile).zip (values.map Decimal.widen)))
  else .error (.lengths keys.length values.length)

end Measurements
end TileCost
