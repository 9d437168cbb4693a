import DotMatrix.Snapshot.Codec
import DotMatrix.Cartridge.Mapper
import DotMatrix.Sound.Pulse
import DotMatrix.Text.Hex
import DotMatrix.Video.Basic

/-! Why a snapshot is refused. -/
namespace DotMatrix

inductive ChannelFlaw where
  | pulse (frequency : UInt16) (duty position : UInt8)
  | sweep (sweep : Sweep)
  | wave (frequency : UInt16) (position volumeCode : UInt8)
  | noise (divisor shift : UInt8) (register : UInt16)
  | length (counter full : UInt16)
  | envelope (envelope : Envelope)
  deriving DecidableEq

inductive Flaw where
  | internalRam (wram hram : Nat)
  | transferStall (cycles : UInt32)
  | cartridgeKind (saved : MapperKind) (savedRam : Nat) (live : MapperKind) (liveRam : Nat)
  | cartridgeBanks (saved : UInt64) (savedBattery : Bool) (live : UInt64) (liveBattery : Bool)
  | clockPresence
  | clockRegisters (time : ClockTime)
  | subsecond (value : UInt32)
  | videoMemory (vram oam : Nat)
  | pictureSize (pixels : Nat)
  | spriteCount (count : Nat)
  | spritePosition
  | line (line : UInt8)
  | modeOnLine (mode : VideoMode) (line : UInt8)
  | transferLength (dots : UInt16)
  | dot (dot : UInt16) (mode : VideoMode) (first last : Nat)
  | sequencer (step : UInt8) (timer : UInt32)
  | samplePhase (phase : UInt64)
  | channel (number : Nat) (flaw : ChannelFlaw)
  deriving DecidableEq

inductive SnapshotError where
  | badMagic
  | version (found : UInt16)
  | truncated (length : Nat)
  | otherCartridge
  | malformed (error : DecodeError)
  | inconsistent (flaw : Flaw)
  deriving DecidableEq

def snapshotVersion : UInt16 := 1

namespace SnapshotError

def boolText (b : Bool) : String := if b then "true" else "false"

def kindText : MapperKind → String
  | .none => "None"
  | .mbc1 => "Mbc1"
  | .mbc2 => "Mbc2"
  | .mbc3 => "Mbc3"
  | .mbc5 => "Mbc5"

def modeText : VideoMode → String
  | .horizontalBlank => "HBlank"
  | .verticalBlank => "VBlank"
  | .oamScan => "OamScan"
  | .transfer => "Transfer"

def decodeText : DecodeError → String
  | .endOfInput => "unexpected end of input"
  | .boolean found =>
    let n := found.toNat
    s!"invalid u8 while decoding bool, expected 0 or 1, found {n}"
  | .option found =>
    let n := found.toNat
    s!"tag for enum is not valid, found {n}"
  | .variant found count =>
    let n := found.toNat
    s!"invalid value: integer `{n}`, expected variant index 0 <= i < {count}"

/-- A record as its name and its fields in braces. -/
def recordText (name : String) (fields : List (String × String)) : String :=
  let body := String.intercalate ", " (fields.map fun (field, value) => s!"{field}: {value}")
  String.join [name, " \x7b ", body, " \x7d"]

def envelopeText (e : Envelope) : String :=
  recordText "Envelope"
    [("initial", toString e.initial.toNat), ("add", boolText e.increasing),
      ("period", toString e.period.toNat), ("volume", toString e.volume.toNat),
      ("timer", toString e.timer.toNat)]

def sweepText (s : Sweep) : String :=
  recordText "Sweep"
    [("period", toString s.period.toNat), ("negate", boolText s.negate),
      ("shift", toString s.shift.toNat), ("timer", toString s.timer.toNat),
      ("shadow", toString s.shadow.toNat), ("enabled", boolText s.enabled)]

def channelText : ChannelFlaw → String
  | .pulse frequency duty position =>
    String.join ["frequency ", toString frequency.toNat, " duty ", toString duty.toNat,
      " position ", toString position.toNat]
  | .sweep sweep => String.join ["sweep ", sweepText sweep, " out of range"]
  | .wave frequency position volumeCode =>
    String.join ["frequency ", toString frequency.toNat, " position ", toString position.toNat,
      " volume code ", toString volumeCode.toNat]
  | .noise divisor shift register =>
    String.join ["divisor ", toString divisor.toNat, " shift ", toString shift.toNat, " LFSR ",
      Hex.upper 4 register.toNat]
  | .length counter full =>
    String.join ["length counter ", toString counter.toNat, " above ", toString full.toNat]
  | .envelope envelope => String.join ["envelope ", envelopeText envelope, " out of range"]

def flawText : Flaw → String
  | .internalRam wram hram => s!"internal RAM is {wram}+{hram} bytes, expected 8192+127"
  | .transferStall cycles => String.join ["OAM DMA stall of ", toString cycles.toNat, " cycles"]
  | .cartridgeKind saved savedRam live liveRam =>
    String.join ["cartridge state is ", kindText saved, " with ", toString savedRam,
      " bytes RAM, loaded cartridge is ", kindText live, " with ", toString liveRam]
  | .cartridgeBanks saved savedBattery live liveBattery =>
    String.join ["cartridge state has ", toString saved.toNat, " ROM banks (battery: ",
      boolText savedBattery, "), loaded cartridge has ", toString live.toNat, " (battery: ",
      boolText liveBattery, ")"]
  | .clockPresence => "RTC presence differs from the loaded cartridge"
  | .clockRegisters time =>
    String.join ["RTC registers [",
      String.intercalate ", " (time.toList.map fun b => Hex.upper 2 b.toNat),
      "] exceed their widths"]
  | .subsecond value => String.join ["RTC sub-second counter at ", toString value.toNat]
  | .videoMemory vram oam => s!"video memory is {vram}+{oam} bytes, expected 8192+160"
  | .pictureSize pixels => s!"frame buffer holds {pixels} pixels"
  | .spriteCount count => s!"{count} sprites selected for one line"
  | .spritePosition => "selected sprite lies outside the screen"
  | .line line => String.join ["LY ", toString line.toNat, " past the last line"]
  | .modeOnLine mode line =>
    String.join ["mode ", modeText mode, " on line ", toString line.toNat]
  | .transferLength dots => String.join ["pixel transfer of ", toString dots.toNat, " dots"]
  | .dot dot mode first last =>
    String.join ["dot ", toString dot.toNat, " outside ", modeText mode, " (", toString first,
      "..", toString last, ")"]
  | .sequencer step timer =>
    String.join ["frame sequencer at step ", toString step.toNat, " timer ",
      toString timer.toNat]
  | .samplePhase phase => String.join ["sample phase ", toString phase.toNat, " past one second"]
  | .channel number flaw => String.join ["channel ", toString number, ": ", channelText flaw]

def message : SnapshotError → String
  | .badMagic => "not a save state (bad magic)"
  | .version found =>
    String.join ["save state format version ", toString found.toNat,
      " is not supported (expected ", toString snapshotVersion.toNat, ")"]
  | .truncated length => s!"save state is truncated ({length} bytes)"
  | .otherCartridge => "save state belongs to a different cartridge"
  | .malformed error => String.join ["save state body is corrupt: ", decodeText error]
  | .inconsistent flaw => String.join ["save state body is corrupt: ", flawText flaw]

end SnapshotError
end DotMatrix
