import TileCost.Estimate
import TileCost.Disk

/-! The settings of a run: where the heatmap is, and the constants of the
estimator. Constants are refused when a known estimate could read as unknown. -/
namespace TileCost

namespace Constants

inductive Fault where
  | startupCost
  | specialThroughput (given : Float)
  deriving DecidableEq, Repr

def plain : Decimal.Layout := ⟨none, false, false, .up, "NaN", "inf", "-inf"⟩

def Fault.message : Fault → String
  | startupCost => "estimator.startup_cost must be positive, 0 marks an unknown cost"
  | specialThroughput given =>
      s!"estimator.special_throughput must be positive and finite, got {String.ofList (plain.float given)}"

def check (c : Constants) : Except Fault Unit :=
  if c.startupCost = 0 then .error .startupCost
  else if c.specialThroughput.isFinite ∧ 0 < c.specialThroughput then .ok ()
  else .error (.specialThroughput c.specialThroughput)

end Constants

structure Settings where
  heatmapPath : String
  constants : Constants
  deriving DecidableEq, Repr

namespace Settings

def default : Settings := ⟨"heatmap.json", .default⟩

inductive Error where
  | unreadable (fault : ReadFault)
  | malformed (error : Json.Error)
  | invalid (fault : Constants.Fault)
  deriving DecidableEq, Repr

def Error.message : Error → String
  | unreadable fault => fault.message
  | malformed error => error.message
  | invalid fault => fault.message

end Settings
end TileCost
