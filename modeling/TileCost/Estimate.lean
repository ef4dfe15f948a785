import TileCost.Measurements
import TileCost.Tile.Format

/-! The estimate of a tile, first rule that applies: its own measurement; the
measurements next to it along `n`, where a tile with `n = 1` needs only the upper
one; the curated tiles; nothing. A known estimate carries the configured startup
cost and an unknown one carries zero, which means no information and not free. -/
namespace TileCost

structure Constants where
  startupCost : UInt32
  specialThroughput : Float
  deriving DecidableEq, Repr

def Constants.default : Constants := ⟨32, 0.001⟩

structure Cost where
  throughput : Float
  startupCost : UInt32
  deriving DecidableEq, Repr

def Cost.nothing : Cost := ⟨0, 0⟩

def Cost.isNothing (c : Cost) : Bool := c.startupCost = 0

inductive Source where
  | measured
  | interpolated
  | special
  | unknown
  deriving DecidableEq, Repr

def Source.text : Source → String
  | measured => "measured"
  | interpolated => "interpolated"
  | special => "special"
  | unknown => "unknown"

structure Estimate where
  cost : Cost
  source : Source
  deriving DecidableEq, Repr

namespace Estimate

/- Equality by value: a NaN throughput differs from itself. -/
def sameAs (a b : Estimate) : Bool :=
  a.source = b.source && a.cost.startupCost = b.cost.startupCost &&
    a.cost.throughput == b.cost.throughput

def costMembers (c : Cost) : List (List Char) :=
  [Json.writeMember "throughput" (Json.writeFloat c.throughput),
   Json.writeMember "startup_cost" (Json.writeNat c.startupCost.toNat)]

def write (e : Estimate) : List Char :=
  Json.writeObject
    [Json.writeMember "cost" (Json.writeObject (costMembers e.cost)),
     Json.writeMember "source" (Json.writeString e.source.text.toList)]

def toJson (e : Estimate) : String := String.ofList e.write

def events (tile : Tile) (e : Estimate) : List Log.Event :=
  [.estimating tile,
   match e.source with
   | .measured => .measured tile e.cost.throughput
   | .interpolated => .averaged tile e.cost.throughput
   | .special => .special tile e.cost.throughput
   | .unknown => .unable tile]

end Estimate

structure Predictor where
  store : Measurements
  constants : Constants

namespace Predictor

def priced (p : Predictor) (throughput : Float) (source : Source) : Estimate :=
  ⟨⟨throughput, p.constants.startupCost⟩, source⟩

def between (p : Predictor) (t : Tile) : Option Float :=
  if t.n = 1 then do p.store.get? (← t.upper)
  else do
    let lower ← p.store.get? (← t.lower)
    let upper ← p.store.get? (← t.upper)
    return (lower + upper) / 2

def ruling (p : Predictor) (t : Tile) : Estimate × Log.Event :=
  match p.store.get? t with
  | some throughput => (p.priced throughput .measured, .measured t throughput)
  | none =>
      match p.between t with
      | some throughput => (p.priced throughput .interpolated, .averaged t throughput)
      | none =>
          if t.isCurated then
            (p.priced p.constants.specialThroughput .special,
              .special t p.constants.specialThroughput)
          else (⟨.nothing, .unknown⟩, .unable t)

def explain (p : Predictor) (t : Tile) : Log.Logged Estimate :=
  let ruling := p.ruling t
  ⟨ruling.1, [.estimating t, ruling.2]⟩

def estimate (p : Predictor) (t : Tile) : Estimate := (p.explain t).outcome

theorem estimateRuling (p : Predictor) (t : Tile) : p.estimate t = (p.ruling t).1 := rfl

def estimateRanges (p : Predictor) (ranges : List UInt64) : Except Breach Estimate :=
  (Tile.ofRanges ranges).map p.estimate

end Predictor
end TileCost
