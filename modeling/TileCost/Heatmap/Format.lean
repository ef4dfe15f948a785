import TileCost.Heatmap

/-! The heatmap file: an object of two arrays, `keys` with three integers each and
`values`. Reading checks the lengths after the text has been read to its end. -/
namespace TileCost.Heatmap

def readKey : Json.Reader Key := fun text => do
  let ((m, n, k), rest) ← Json.triple Json.natural16 text
  return (⟨m, n, k⟩, rest)

def record : Json.Record Heatmap where
  name := "HeatmapData"
  fields :=
    [.of "keys" (Json.list readKey) (fun h keys => {h with keys}),
     .of "values" (Json.list Json.float32) (fun h values => {h with values})]
  default := ⟨[], []⟩
  complete := true

def ofJson (text : String) : Except Error Heatmap := do
  let h ← (Json.document record.read text).mapError .malformed
  h.check
  return h

def writeKey (key : Key) : List Char :=
  Json.writeList [Json.writeNat key.m.toNat, Json.writeNat key.n.toNat, Json.writeNat key.k.toNat]

def write (h : Heatmap) : List Char :=
  Json.writeObject
    [Json.writeMember "keys" (Json.writeList (h.keys.map writeKey)),
     Json.writeMember "values" (Json.writeList (h.values.map Json.writeFloat32))]

def toJson (h : Heatmap) : String := String.ofList h.write

def ofDisk (disk : Disk) (path : String) : Log.Logged (Except Error Heatmap) :=
  match disk.read path with
  | .error fault => ⟨.error (.unreadable path fault), []⟩
  | .ok text =>
      match ofJson text with
      | .error error => ⟨.error error, []⟩
      | .ok h => ⟨.ok h, [.heatmapLoaded path h.keys.length]⟩

end TileCost.Heatmap
