import TileCost.Session

/-! The program on a real system. Whether the two files a run looks at are there, and what can be
read of them, is found out first; everything else is `Session.run`. -/

namespace TileCost.Program

def told : IO.Error → UInt32 × String
  | .alreadyExists _ code remark | .invalidArgument _ code remark | .permissionDenied _ code remark
  | .resourceExhausted _ code remark | .inappropriateType _ code remark | .noSuchThing _ code remark
  | .interrupted _ code remark | .noFileOrDirectory _ code remark | .otherError code remark
  | .resourceBusy code remark | .resourceVanished code remark | .unsupportedOperation code remark
  | .hardwareFault code remark | .unsatisfiedConstraints code remark | .illegalOperation code remark
  | .protocolError code remark | .timeExpired code remark => (code, remark)
  | .unexpectedEof => (5, "Input/output error")
  | .userError remark => (5, remark)

/- Some numbers arrive negated. -/
def systemFault (error : IO.Error) : SystemFault :=
  let (code, remark) := told error
  match min code.toNat (UInt32.size - code.toNat) with
  | 2 => .missing
  | 13 => .denied
  | 20 => .notFolder
  | 21 => .folder
  | 36 => .longName
  | 40 => .manyLinks
  | number => .numbered remark number

def isThere (path : String) : IO Bool := do
  try
    discard (IO.FS.realPath path)
    return true
  catch _ => return false

def contentOf (path : String) : IO (Except SystemFault ByteArray) := do
  try
    return .ok (← IO.FS.readBinFile path)
  catch error => return .error (systemFault error)

def look (path : String) : IO (Bool × Except SystemFault ByteArray) := do
  if path.toList.contains '\x00' then return (false, .error .nullCharacter)
  return (← isThere path, ← contentOf path)

def lookAround (request : Request) : IO Disk := do
  let (has, config) ← look request.config
  let only : Disk := ⟨fun _ => has, fun _ => config⟩
  match (Settings.ofDisk only request.config).outcome with
  | .error _ => return only
  | .ok settings =>
      let (_, heatmap) ← look (Session.heatmapPath request settings)
      return {only with content := fun path => if path = request.config then config else heatmap}

end TileCost.Program

open TileCost TileCost.Program

def main (arguments : List String) : IO UInt32 := do
  let disk : Disk ← match CommandLine.parse arguments with
    | .error _ => pure ⟨fun _ => false, fun _ => .error .missing⟩
    | .ok request => lookAround request
  let transcript := Session.run disk (← IO.getEnv "RUST_LOG") arguments
  transcript.stderr.forM (← IO.getStderr).putStrLn
  transcript.stdout.forM (← IO.getStdout).putStrLn
  return transcript.exit
