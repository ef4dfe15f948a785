import TileCost.Tile
import TileCost.Json.Document

/-! Tiles in JSON: an array of three integers of 64 bits. -/
namespace TileCost.Tile

def reader : Json.Reader Tile := fun text => do
  let ((m, n, k), rest) ← Json.triple Json.natural64 text
  return (⟨m, n, k⟩, rest)

def ofJson (text : String) : Except Json.Error Tile := Json.document reader text

def write (t : Tile) : List Char :=
  Json.writeList [Json.writeNat t.m.toNat, Json.writeNat t.n.toNat, Json.writeNat t.k.toNat]

def toJson (t : Tile) : String := String.ofList t.write

end TileCost.Tile
