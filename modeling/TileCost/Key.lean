import TileCost.Tile

/-! The keys of a heatmap file: tiles whose extents fit 16 bits. -/
namespace TileCost

structure Key where
  m : UInt16
  n : UInt16
  k : UInt16
  deriving DecidableEq, Repr

def Key.toTile (key : Key) : Tile := ⟨key.m.toUInt64, key.n.toUInt64, key.k.toUInt64⟩

end TileCost
