import TileCost.CommandLine
import TileCost.Heatmap.Format
import TileCost.Settings.Format

/-! One run of the program: settings, heatmap, store, then a reply for every tile
that was asked for. Everything that can fail comes before the first reply. The
log does not take part in any of it: a run has one list of events, and what is
shown of them is chosen at the end. -/
namespace TileCost

structure Reply where
  tile : Tile
  estimate : Estimate
  deriving DecidableEq, Repr

def Reply.write (r : Reply) : List Char :=
  Json.writeObject
    (Json.writeMember "tile" r.tile.write :: Estimate.costMembers r.estimate.cost ++
      [Json.writeMember "source" (Json.writeString r.estimate.source.text.toList)])

def Reply.toJson (r : Reply) : String := String.ofList r.write

namespace Session

inductive Fault where
  | settings (error : Settings.Error)
  | heatmap (error : Heatmap.Error)
  deriving DecidableEq, Repr

def Fault.message : Fault → String
  | settings error => error.message
  | heatmap error => error.message

def Fault.source : Fault → Option String
  | settings _ => none
  | heatmap error => error.source

def Fault.lines (fault : Fault) : List String :=
  s!"Error: {fault.message}" ::
    match fault.source with
    | none => []
    | some source => ["", "Caused by:", s!"    {source}"]

def Fault.exit : Fault → UInt32
  | heatmap (.breach _) => 101
  | _ => 1

def reply (p : Predictor) (tile : Tile) : Reply := ⟨tile, p.estimate tile⟩

def heatmapPath (request : Request) (settings : Settings) : String :=
  request.heatmap.getD settings.heatmapPath

def store (disk : Disk) (path : String) :
    Log.Logged (Except Heatmap.Error Measurements.Built) :=
  let loaded := Heatmap.ofDisk disk path
  match loaded.outcome with
  | .error error => ⟨.error error, loaded.events⟩
  | .ok heatmap =>
      match heatmap.measurements with
      | .error error => ⟨.error error, loaded.events⟩
      | .ok built => ⟨.ok built, loaded.events ++ built.events⟩

def answer (disk : Disk) (request : Request) : Log.Logged (Except Fault (List Reply)) :=
  let loaded := Settings.ofDisk disk request.config
  match loaded.outcome with
  | .error error => ⟨.error (.settings error), loaded.events⟩
  | .ok settings =>
      let path := heatmapPath request settings
      let built := store disk path
      match built.outcome with
      | .error error => ⟨.error (.heatmap error), loaded.events ++ built.events⟩
      | .ok b =>
          let p : Predictor := ⟨b.store, settings.constants⟩
          ⟨.ok (request.tiles.map (reply p)), loaded.events ++ built.events ++
            Log.Event.ready path b.store.size settings.constants.startupCost ::
            request.tiles.flatMap fun tile => (p.explain tile).events⟩

structure Transcript where
  exit : UInt32
  stdout : List String
  stderr : List String
  deriving DecidableEq, Repr

def conclude (threshold : Log.Threshold) (a : Log.Logged (Except Fault (List Reply))) :
    Transcript :=
  let log := (Log.shown threshold a.events).map Log.Event.text
  match a.outcome with
  | .ok replies => ⟨0, replies.map Reply.toJson, log⟩
  | .error fault => ⟨fault.exit, [], log ++ fault.lines⟩

def serve (disk : Disk) (setting : Option String) (request : Request) : Transcript :=
  conclude (Log.Threshold.choose setting request.verbose) (answer disk request)

def refuse (refusal : CommandLine.Refusal) : Transcript :=
  let message := String.ofList refusal.written.toList.dropLast
  match refusal with
  | .help => ⟨0, [message], []⟩
  | _ => ⟨2, [], [message]⟩

def run (disk : Disk) (setting : Option String) (arguments : List String) : Transcript :=
  match CommandLine.parse arguments with
  | .error refusal => refuse refusal
  | .ok request => serve disk setting request

end Session
end TileCost
