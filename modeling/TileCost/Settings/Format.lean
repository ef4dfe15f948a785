import TileCost.Settings

/-! The settings file. Every member has a default, and so has each section; what
is absent keeps it. Only a path that leads nowhere is answered with the defaults
alone: a file that is there has to be right. -/
namespace TileCost.Settings

def heatmapSection : Json.Record String where
  name := "HeatmapConfig"
  fields := [.of "path" (Json.quotedString "path string") (fun _ path => String.ofList path)]
  default := default.heatmapPath
  complete := false

def estimatorSection : Json.Record Constants where
  name := "EstimatorConfig"
  fields :=
    [.of "startup_cost" Json.natural32 (fun c startupCost => {c with startupCost}),
     .of "special_throughput" Json.float64 (fun c specialThroughput => {c with specialThroughput})]
  default := .default
  complete := false

def record : Json.Record Settings where
  name := "Config"
  fields :=
    [.of "heatmap" heatmapSection.read (fun s heatmapPath => {s with heatmapPath}),
     .of "estimator" estimatorSection.read (fun s constants => {s with constants})]
  default := default
  complete := false

def ofJson (text : String) : Except Json.Error Settings := Json.document record.read text

def write (s : Settings) : List Char :=
  Json.writeObject
    [Json.writeMember "heatmap" (Json.writeObject
      [Json.writeMember "path" (Json.writeString s.heatmapPath.toList)]),
     Json.writeMember "estimator" (Json.writeObject
      [Json.writeMember "startup_cost" (Json.writeNat s.constants.startupCost.toNat),
       Json.writeMember "special_throughput" (Json.writeFloat s.constants.specialThroughput)])]

def toJson (s : Settings) : String := String.ofList s.write

def ofFile (text : String) : Except Error Settings := do
  let s ← (ofJson text).mapError .malformed
  s.constants.check.mapError .invalid
  return s

def ofDisk (disk : Disk) (path : String) : Log.Logged (Except Error Settings) :=
  if disk.has path then
    match disk.read path with
    | .error fault => ⟨.error (.unreadable fault), []⟩
    | .ok text => ⟨ofFile text, []⟩
  else ⟨.ok default, [.settingsMissing path]⟩

end TileCost.Settings
