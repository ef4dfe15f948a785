import TileCost.Tile
import TileCost.Text.Quoted
import TileCost.Decimal.Layout

/-! What happens during a run that is worth a log line. Operations report events;
which of them are shown is decided afterwards by a threshold, so nothing that is
computed can depend on it. Of the settings that the environment may have, those are read that
name one level, or `off`, for everything or for this program; others are not modelled and taken
as absent. -/
namespace TileCost.Log

inductive Level where
  | error
  | warn
  | info
  | debug
  | trace
  deriving DecidableEq, Repr

def Level.text : Level → String
  | error => "ERROR"
  | warn => "WARN"
  | info => "INFO"
  | debug => "DEBUG"
  | trace => "TRACE"

def Level.detail : Level → Nat
  | error => 1
  | warn => 2
  | info => 3
  | debug => 4
  | trace => 5

inductive Event where
  | heatmapLoaded (path : String) (entries : Nat)
  | duplicates (count : Nat)
  | storeBuilt (entries : Nat)
  | settingsMissing (path : String)
  | estimating (tile : Tile)
  | measured (tile : Tile) (throughput : Float)
  | averaged (tile : Tile) (throughput : Float)
  | special (tile : Tile) (throughput : Float)
  | unable (tile : Tile)
  | ready (path : String) (entries : Nat) (startupCost : UInt32)
  deriving DecidableEq, Repr

namespace Event

def level : Event → Level
  | heatmapLoaded .. => .debug
  | duplicates .. => .warn
  | storeBuilt .. => .debug
  | settingsMissing .. => .warn
  | estimating .. => .trace
  | measured .. => .trace
  | averaged .. => .trace
  | special .. => .trace
  | unable .. => .trace
  | ready .. => .info

def target : Event → String
  | heatmapLoaded .. => "stencil_heatmap::heatmap::data"
  | duplicates .. => "stencil_heatmap::heatmap::store"
  | storeBuilt .. => "stencil_heatmap::heatmap::store"
  | settingsMissing .. => "stencil_heatmap::config"
  | ready .. => "stencil_heatmap"
  | _ => "stencil_heatmap::heatmap::estimator"

/- Throughputs leave positional notation at 10^16 and below 10^-4; exponents have
no plus sign and ties go up. -/
def throughput : Decimal.Layout := ⟨some (-4, 15), true, false, .up, "NaN", "inf", "-inf"⟩

def priced (remark : String) (tile : Tile) (x : Float) : String :=
  s!"{remark} tile={tile.text} throughput={String.ofList (throughput.float x)}"

def message : Event → String
  | heatmapLoaded path entries => s!"Heatmap loaded path={path} entries={entries}"
  | duplicates count =>
      s!"Heatmap contains duplicate tiles, keeping the last value duplicates={count}"
  | storeBuilt entries => s!"Heatmap built entries={entries}"
  | settingsMissing path =>
      s!"Config file not found at {Text.quoted path.toList}, using defaults"
  | estimating tile => s!"Calculating heatmap cost tile={tile.text}"
  | measured tile x => priced "Found tile in the heatmap" tile x
  | averaged tile x => priced "Averaged nearby tiles along N" tile x
  | special tile x => priced "Found a special tile" tile x
  | unable tile => s!"Unable to calculate heatmap cost tile={tile.text}"
  | ready path entries startupCost =>
      s!"Heatmap ready path={path} entries={entries} startup_cost={startupCost}"

def text (e : Event) : String := s!"{e.level.text} {e.target}: {e.message}"

end Event

abbrev Threshold := Option Level

namespace Threshold

def admits : Threshold → Level → Bool
  | none, _ => false
  | some most, level => level.detail ≤ most.detail

def ofWord : String → Option Threshold
  | "off" => some none
  | "error" => some (some .error)
  | "warn" => some (some .warn)
  | "info" => some (some .info)
  | "debug" => some (some .debug)
  | "trace" => some (some .trace)
  | _ => none

def ofSetting (setting : String) : Option Threshold :=
  let owner := "stencil_heatmap=".toList
  let letters := setting.toList
  if owner.isPrefixOf letters then ofWord (String.ofList (letters.drop owner.length))
  else ofWord setting

def choose (setting : Option String) (verbose : Bool) : Threshold :=
  (setting.bind ofSetting).getD (some (if verbose then .trace else .info))

end Threshold

def shown (threshold : Threshold) (events : List Event) : List Event :=
  events.filter fun e => Threshold.admits threshold e.level

structure Logged (α : Type) where
  outcome : α
  events : List Event
  deriving Repr

end TileCost.Log
