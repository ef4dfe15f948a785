import TileCost.Text.Terminal
import TileCost.Tile.Extents

/-! The command line: options in any of their spellings, anywhere among the tiles.
Arguments are taken from left to right. A value in an argument of its own, and the
tiles given one after the other, are held back until a known option or the end
follows, and judged then; an unknown option is refused at once. -/
namespace TileCost

structure Request where
  config : String
  heatmap : Option String
  verbose : Bool
  tiles : List Tile
  deriving DecidableEq, Repr

namespace CommandLine

inductive Refusal where
  | badTile (argument : String) (fault : Extents.Fault)
  | help
  | unknownOption (argument : String)
  | noTiles
  | badValue (option : String)
  | repeatedOption (option : String)
  | needlessValue (option : String)
  deriving DecidableEq, Repr

def helpText : String :=
  "Heatmap cost oracle for 3D tile shapes\n\n" ++
  "Usage: stencil-heatmap [OPTIONS] <M,N,K>...\n\n" ++
  "Arguments:\n" ++
  "  <M,N,K>...  Tiles to estimate, written M,N,K\n\n" ++
  "Options:\n" ++
  "  -c, --config <CONFIG>    Path to configuration file (JSON) [default: config.json]\n" ++
  "      --heatmap <HEATMAP>  Heatmap file (JSON with `keys` and `values`), overrides the config\n" ++
  "  -v, --verbose            Enable verbose logging (traces every estimator decision)\n" ++
  "  -h, --help               Print help\n"

def Refusal.remark (interruption : Text.Terminal.Interruption) : Refusal → String
  | badTile argument fault =>
      let given := Text.withoutControls interruption argument
      s!"invalid value '{given}' for '<M,N,K>...': {fault.message argument.toList}"
  | help => ""
  | unknownOption argument =>
      s!"unexpected argument '{Text.withoutControls interruption argument}' found"
  | noTiles => "the following required arguments were not provided:\n  <M,N,K>..."
  | badValue option => s!"a value is required for '{option}' but none was supplied"
  | repeatedOption option => s!"the argument '{option}' cannot be used multiple times"
  | needlessValue option => s!"no value is expected for '{option}'"

def Refusal.explain (interruption : Text.Terminal.Interruption) : Refusal → String
  | help => helpText
  | refusal =>
      s!"error: {refusal.remark interruption}\n\nFor more information, try '--help'.\n"

def Refusal.message (refusal : Refusal) : String := refusal.explain .ends

/- What is written on a stream. The stream sees characters come one after the other and
goes on with a sequence that text broke into. -/
def Refusal.written (refusal : Refusal) : String := refusal.explain .suspends

inductive Setting where
  | config
  | heatmap
  deriving DecidableEq, Repr

def Setting.text : Setting → String
  | config => "--config <CONFIG>"
  | heatmap => "--heatmap <HEATMAP>"

inductive Switch where
  | verbose
  | help
  deriving DecidableEq, Repr

inductive Known where
  | setting (s : Setting)
  | switch (s : Switch)
  deriving DecidableEq, Repr

def Known.ofName (name : List Char) : Option Known :=
  if name = "config".toList then some (.setting .config)
  else if name = "heatmap".toList then some (.setting .heatmap)
  else if name = "verbose".toList then some (.switch .verbose)
  else if name = "help".toList then some (.switch .help)
  else none

def Known.ofLetter : Char → Option Known
  | 'c' => some (.setting .config)
  | 'v' => some (.switch .verbose)
  | 'h' => some (.switch .help)
  | _ => none

/- What was given but not judged yet; the tiles are in reverse. -/
inductive Held where
  | nothing
  | value (setting : Setting) (given : Option String)
  | tiles (texts : List String)
  deriving DecidableEq, Repr

structure Progress where
  config : Option String
  heatmap : Option String
  verbose : Bool
  tiles : List Tile
  held : Held
  onlyTiles : Bool
  deriving DecidableEq, Repr

namespace Progress

def start : Progress := ⟨none, none, false, [], .nothing, false⟩

def current (p : Progress) : Setting → Option String
  | .config => p.config
  | .heatmap => p.heatmap

def put (p : Progress) (value : String) : Setting → Progress
  | .config => {p with config := some value}
  | .heatmap => {p with heatmap := some value}

def set (p : Progress) (setting : Setting) (value : String) : Except Refusal Progress :=
  if (p.current setting).isSome then .error (.repeatedOption setting.text)
  else if value = "" then .error (.badValue setting.text)
  else .ok (p.put value setting)

def addTile (p : Progress) (text : String) : Except Refusal Progress :=
  match Tile.ofText text with
  | .ok tile => .ok {p with tiles := tile :: p.tiles}
  | .error fault => .error (.badTile text fault)

def settle (p : Progress) : Except Refusal Progress :=
  let free := {p with held := .nothing}
  match p.held with
  | .nothing => .ok free
  | .value setting none => .error (.badValue setting.text)
  | .value setting (some value) => free.set setting value
  | .tiles texts => texts.reverse.foldlM addTile free

def turn (p : Progress) : Switch → Except Refusal Progress
  | .verbose =>
      if p.verbose then .error (.repeatedOption "--verbose") else .ok {p with verbose := true}
  | .help => .error .help

def await (p : Progress) (setting : Setting) : Progress := {p with held := .value setting none}

def attached (body : List Char) : List Char × Option String :=
  match body.span (· ≠ '=') with
  | (name, _ :: value) => (name, some (String.ofList value))
  | (name, []) => (name, none)

def takeLong (p : Progress) (argument : String) (body : List Char) : Except Refusal Progress :=
  let (name, value) := attached body
  match Known.ofName name, value with
  | none, _ => .error (.unknownOption argument)
  | some (.setting setting), some value => do (← p.settle).set setting value
  | some (.setting setting), none => do return (← p.settle).await setting
  | some (.switch _), some _ => .error (.needlessValue argument)
  | some (.switch switch), none => do (← p.settle).turn switch

def takeLetters (p : Progress) (argument : String) : List Char → Except Refusal Progress
  | [] => .ok p
  | letter :: rest =>
      match Known.ofLetter letter with
      | none => .error (.unknownOption argument)
      | some (.switch switch) => do (← (← p.settle).turn switch).takeLetters argument rest
      | some (.setting setting) => do
          let p ← p.settle
          match rest with
          | [] => return p.await setting
          | '=' :: value => p.set setting (String.ofList value)
          | value => p.set setting (String.ofList value)

def takeTile (p : Progress) (text : String) : Except Refusal Progress :=
  match p.held with
  | .tiles texts => .ok {p with held := .tiles (text :: texts)}
  | _ => do return {← p.settle with held := .tiles [text]}

def takePlain (p : Progress) (text : String) : Except Refusal Progress :=
  match p.held with
  | .value setting none => .ok {p with held := .value setting (some text)}
  | _ => p.takeTile text

def take (p : Progress) (argument : String) : Except Refusal Progress :=
  if p.onlyTiles then p.takeTile argument
  else match argument.toList with
    | ['-', '-'] => .ok {p with onlyTiles := true}
    | '-' :: '-' :: body => p.takeLong argument body
    | '-' :: letter :: letters => p.takeLetters argument (letter :: letters)
    | _ => p.takePlain argument

def finish (p : Progress) : Except Refusal Request := do
  let p ← p.settle
  if p.tiles.isEmpty then throw .noTiles
  else return ⟨p.config.getD "config.json", p.heatmap, p.verbose, p.tiles.reverse⟩

end Progress

def parse (arguments : List String) : Except Refusal Request := do
  (← arguments.foldlM Progress.take .start).finish

end CommandLine
end TileCost
