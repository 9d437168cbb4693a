import DotMatrix.CommandLine.Options
import DotMatrix.Picture
import DotMatrix.Snapshot.Basic
import DotMatrix.Text.Utf8

/-! One run of the player: load the files, run the frames, print what the game sent over the
serial link, write the files. The run sees its surroundings through `Host` alone. -/
namespace DotMatrix

/-- Files and standard output. A file that cannot be read or written gives `none` or `false`. -/
class Host (m : Type → Type) where
  readFile : String → m (Option ByteArray)
  fileExists : String → m Bool
  writeFile : String → ByteArray → m Bool
  printLine : String → m Unit

inductive RunError where
  | imageUnreadable (path : String)
  | imageRefused (path : String) (error : LoadError)
  | batteryUnreadable (path : String)
  | batteryRefused (path : String) (error : LoadError)
  | snapshotUnreadable (path : String)
  | snapshotRefused (path : String) (error : SnapshotError)
  | pictureUnwritable (path : String)
  | snapshotUnwritable (path : String)
  | batteryUnwritable (path : String)
  | fault (fault : Fault)
  deriving DecidableEq

def RunError.message : RunError → String
  | .imageUnreadable path => s!"failed to read ROM '{path}'"
  | .imageRefused path error =>
    String.join ["'", path, "' is not a usable ROM: ", error.message]
  | .batteryUnreadable path => s!"failed to read battery RAM '{path}'"
  | .batteryRefused path error =>
    String.join ["battery RAM '", path, "' does not fit: ", error.message]
  | .snapshotUnreadable path => s!"failed to read state '{path}'"
  | .snapshotRefused path error =>
    String.join ["failed to load state '", path, "': ", error.message]
  | .pictureUnwritable path => s!"failed to write '{path}'"
  | .snapshotUnwritable path => s!"failed to write state '{path}'"
  | .batteryUnwritable path => s!"failed to write battery RAM '{path}'"
  | .fault cause => cause.message

/-- Runs frames with no button held; their sound is dropped. -/
def Console.runFrames : Nat → Console → Except Fault Console
  | 0, console => .ok console
  | n + 1, console =>
    match console.runFrame ⟨0⟩ with
    | .error fault => .error fault
    | .ok (_, console) => runFrames n console

namespace Session
variable {m : Type → Type} [Monad m] [Host m]

abbrev Step (m : Type → Type) (α : Type) := ExceptT RunError m α

def refuse {ε α : Type} (cause : ε → RunError) (result : Except ε α) : Step m α :=
  ExceptT.mk (pure (result.mapError cause))

def readOr (error : RunError) (path : String) : Step m ByteArray := do
  match ← (Host.readFile path : m _) with
  | some bytes => return bytes
  | none => throw error

def writeOr (error : RunError) (path : String) (bytes : ByteArray) : Step m Unit := do
  unless ← (Host.writeFile path bytes : m _) do throw error

def powerOn (options : Options) : Step m Console := do
  let image ← readOr (.imageUnreadable options.image) options.image
  refuse (.imageRefused options.image)
    (Console.powerOn image { Settings.standard with colorize := options.colorize })

def insertBattery (battery : Option String) (console : Console) : Step m Console := do
  match battery with
  | none => return console
  | some path =>
    if ← (Host.fileExists path : m _) then
      let data ← readOr (.batteryUnreadable path) path
      refuse (.batteryRefused path) (console.loadBattery data.data)
    else return console

def loadSnapshot (snapshot : Option String) (console : Console) : Step m Console := do
  match snapshot with
  | none => return console
  | some path =>
    let bytes ← readOr (.snapshotUnreadable path) path
    refuse (.snapshotRefused path) (console.load bytes.toList)

def start (options : Options) : Step m Console :=
  powerOn options >>= insertBattery options.battery >>= loadSnapshot options.loadFrom

def dumpMessage (bytes frames : Nat) (path : String) : String :=
  s!"Wrote {bytes} bytes (160x144 rgb24) after {frames} frames to '{path}'"

def printSent (console : Console) : Step m Unit := do
  let sent := console.serialOutput
  unless sent.isEmpty do
    (Host.printLine (Utf8.lossy sent.toList) : m _)

def writePicture (options : Options) (console : Console) : Step m Unit := do
  if let some path := options.dump then
    let bytes := Picture.rgb24 console.pixels.toArray
    writeOr (.pictureUnwritable path) path bytes
    (Host.printLine (dumpMessage bytes.size options.frames path) : m _)

def writeSnapshot (snapshot : Option String) (console : Console) : Step m Unit := do
  if let some path := snapshot then
    writeOr (.snapshotUnwritable path) path console.save.toByteArray

def writeBattery (battery : Option String) (console : Console) : Step m Unit := do
  if let some path := battery then
    if let some ram := console.batteryRam? then
      writeOr (.batteryUnwritable path) path ⟨ram⟩

def finish (options : Options) (console : Console) : Step m Unit := do
  printSent console
  writePicture options console
  writeSnapshot options.saveTo console
  writeBattery options.battery console

def run (options : Options) : Step m Unit := do
  let console ← start options
  let console ← refuse .fault (console.runFrames options.frames)
  finish options console

end Session
end DotMatrix
