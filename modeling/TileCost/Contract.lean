/-! The two agreements that callers of the library keep: a request has three
ranges, and parallel arrays have one length. Breaking one is a mistake of the
caller and not a condition of the data, so it has a type of its own. -/
namespace TileCost

inductive Breach where
  | ranges (given : Nat)
  | lengths (keys values : Nat)
  deriving DecidableEq, Repr

namespace Breach

private def unequal (remark : String) (left right : Nat) : String :=
  s!"assertion `left == right` failed: {remark}\n  left: {left}\n right: {right}"

def message : Breach → String
  | ranges given => unequal s!"heatmap cost expects a 3D tile, got {given} ranges" given 3
  | lengths keys values =>
      unequal "heatmap keys and values must have the same length" keys values

end Breach
end TileCost
