import TileCost.Measurements
import TileCost.Json.Document
import TileCost.Disk

/-! A heatmap as the measuring tools hand it over: keys and values in two parallel
arrays. Its errors, and the step to a store, which checks the lengths first. -/
namespace TileCost

structure Heatmap where
  keys : List Key
  values : List Float32
  deriving DecidableEq, Repr

namespace Heatmap

inductive Error where
  | unreadable (path : String) (fault : ReadFault)
  | malformed (error : Json.Error)
  | lengths (keys values : Nat)
  | breach (mistake : Breach)
  deriving DecidableEq, Repr

def Error.message : Error → String
  | unreadable path fault => s!"Failed to read heatmap {path}: {fault.message}"
  | malformed error => s!"Invalid heatmap JSON: {error.message}"
  | lengths keys values => s!"Heatmap has {keys} keys but {values} values"
  | breach mistake => mistake.message

def Error.source : Error → Option String
  | unreadable _ fault => some fault.message
  | malformed error => some error.message
  | lengths .. => none
  | breach .. => none

def check (h : Heatmap) : Except Error Unit :=
  if h.keys.length = h.values.length then .ok ()
  else .error (.lengths h.keys.length h.values.length)

def measurements (h : Heatmap) : Except Error Measurements.Built := do
  h.check
  (Measurements.ofArrays h.keys h.values).mapError .breach

def sameAs (a b : Heatmap) : Bool := a.keys == b.keys && a.values.isEqv b.values (· == ·)

end Heatmap
end TileCost
