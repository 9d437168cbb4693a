import DotMatrix.Video.Scanline

/-! The beam. A line has 456 dots: 80 of OAM scan, pixel transfer of a length that depends
on scrolling and sprites, and the rest blank; lines 144 to 153 are blank altogether. -/
namespace DotMatrix

def dotsPerLine : Nat := 456
def oamScanDots : Nat := 80
def minTransferDots : Nat := 172
def maxTransferDots : Nat := 289
def linesPerFrame : Nat := 154

namespace Raster

def startLine (r : Raster) : Raster :=
  { r with
    mode := .oamScan
    windowReached := r.windowReached || r.registers.line == r.registers.windowY }

/-- Some status source that a program selected holds. -/
def statusSource (r : Raster) : Bool :=
  let select := r.registers.statusSelect
  let mode := match r.mode with
    | .horizontalBlank => select &&& 0x08 != 0
    | .verticalBlank => select &&& 0x10 != 0
    | .oamScan => select &&& 0x20 != 0
    | .transfer => false
  r.registers.lcdOn && (mode || r.coincidence && select &&& 0x40 != 0)

/-- Brings the status line up to date; the interrupt is requested when it rises. -/
def updateStatus (r : Raster) : Raster × InterruptSet :=
  ({ r with statusLine := r.statusSource }, .when (r.statusSource && !r.statusLine) .lcdStatus)

def updateCoincidence (r : Raster) : Raster × InterruptSet :=
  { r with coincidence := r.registers.line == r.registers.lineCompare }.updateStatus

def boundary (r : Raster) : Nat :=
  match r.mode with
  | .oamScan => oamScanDots
  | .transfer => oamScanDots + r.transferDots.toNat
  | .horizontalBlank | .verticalBlank => dotsPerLine

/-- Every sprite delays the transfer, and so does fine scrolling. -/
def transferLength (scrollX : UInt8) (sprites : Nat) : Nat :=
  min (minTransferDots + scrollX.toNat % 8 + 6 * sprites) maxTransferDots

end Raster

namespace Video

def spriteAt (oam : Memory 0xA0) (index : Nat) : Sprite :=
  { y := (oam.read (4 * index)).toUInt16.toInt16 - 16
    x := (oam.read (4 * index + 1)).toUInt16.toInt16 - 8
    tile := oam.read (4 * index + 2)
    flags := oam.read (4 * index + 3)
    index := UInt8.ofNat index }

def covers (r : VideoRegisters) (s : Sprite) : Bool :=
  let line : Int := r.line.toNat
  s.y.toInt ≤ line && line < s.y.toInt + r.spriteHeight

/-- The first ten sprites in OAM order that cover the line. -/
def scanSprites (oam : Memory 0xA0) (r : VideoRegisters) : List Sprite :=
  (((List.range 40).map (spriteAt oam)).filter (covers r)).take 10

def updateRaster (change : Raster → Raster × InterruptSet) (v : Video) : Video × InterruptSet :=
  let (raster, requests) := change v.raster
  ({ v with raster }, requests)

def nextLine (v : Video) : Video × InterruptSet :=
  let r := v.raster
  let line := r.registers.line + 1
  if line == 144 then
    let (raster, requests) := { r with
      dot := 0, registers := { r.registers with line }, mode := .verticalBlank }.updateCoincidence
    ({ v with raster }, {.verticalBlank} ∪ requests)
  else if line == 154 then
    let (raster, requests) := { r with
      dot := 0, registers := { r.registers with line := 0 },
      windowLine := 0, windowReached := false }.startLine.updateCoincidence
    ({ v with raster, frameReady := true }, requests)
  else
    let moved := { r with dot := 0, registers := { r.registers with line } }
    let (raster, requests) :=
      if r.mode = .horizontalBlank then moved.startLine.updateCoincidence
      else moved.updateCoincidence
    ({ v with raster }, requests)

def advanceMode (palette : Palette) (v : Video) : Video × InterruptSet :=
  match v.raster.mode with
  | .oamScan =>
    let r := v.raster
    let sprites := scanSprites v.oam r.registers
    let length := Raster.transferLength r.registers.scrollX sprites.length
    let (raster, requests) := { r with
      sprites, transferDots := UInt16.ofNat length, mode := .transfer }.updateStatus
    ({ v with raster }, requests)
  | .transfer =>
    (v.drawLine palette).updateRaster fun r => { r with mode := .horizontalBlank }.updateStatus
  | .horizontalBlank | .verticalBlank => v.nextLine

/-- Lets time pass, a dot a cycle. Nothing moves while the LCD is off. -/
def tick (palette : Palette) (cycles : Nat) (v : Video) (requests : InterruptSet) :
    Video × InterruptSet :=
  let left := v.raster.boundary - v.raster.dot.toNat
  if cycles = 0 ∨ left = 0 ∨ !v.raster.registers.lcdOn then (v, requests)
  else if cycles < left then
    let r := v.raster
    ({ v with raster := { r with dot := r.dot + UInt16.ofNat cycles } }, requests)
  else
    let r := v.raster
    let (next, more) :=
      { v with raster := { r with dot := UInt16.ofNat r.boundary } }.advanceMode palette
    tick palette (cycles - left) next (requests ∪ more)
termination_by cycles

/-- Switching the LCD off blanks the picture and puts the beam at the top. -/
def switchOff (palette : Palette) (v : Video) : Video :=
  let r := v.raster
  { v with
    raster := { r with
      registers := { r.registers with line := 0 }
      dot := 0
      mode := .horizontalBlank
      statusLine := false
      windowReached := false
      windowLine := 0 }
    frame := .filled palette[0] }

def switchOn (r : Raster) : Raster × InterruptSet :=
  { r with dot := 0, registers := { r.registers with line := 0 } }.startLine.updateCoincidence

def writeControl (palette : Palette) (value : UInt8) (v : Video) : Video × InterruptSet :=
  let wasOn := v.raster.registers.lcdOn
  let r := v.raster
  let changed := { v with raster := { r with registers := { r.registers with control := value } } }
  let isOn := changed.raster.registers.lcdOn
  if wasOn && !isOn then (changed.switchOff palette, ∅)
  else if !wasOn && isOn then changed.updateRaster switchOn
  else (changed, ∅)

def updateRegisters (change : VideoRegisters → VideoRegisters) (v : Video) :
    Video × InterruptSet :=
  v.updateRaster fun r => ({ r with registers := change r.registers }, ∅)

/-- Writes to the line register have no effect. -/
def write (palette : Palette) (address : UInt16) (value : UInt8) (v : Video) :
    Video × InterruptSet :=
  match address with
  | 0xFF40 => v.writeControl palette value
  | 0xFF41 => v.updateRaster fun r =>
    { r with registers := { r.registers with statusSelect := value &&& 0x78 } }.updateStatus
  | 0xFF42 => v.updateRegisters ({ · with scrollY := value })
  | 0xFF43 => v.updateRegisters ({ · with scrollX := value })
  | 0xFF45 => v.updateRaster fun r =>
    { r with registers := { r.registers with lineCompare := value } }.updateCoincidence
  | 0xFF47 => v.updateRegisters ({ · with backgroundPalette := value })
  | 0xFF48 => v.updateRegisters ({ · with spritePalette0 := value })
  | 0xFF49 => v.updateRegisters ({ · with spritePalette1 := value })
  | 0xFF4A => v.updateRegisters ({ · with windowY := value })
  | 0xFF4B => v.updateRegisters ({ · with windowX := value })
  | _ => (v, ∅)

def VideoMode.bits : VideoMode → UInt8
  | .horizontalBlank => 0
  | .verticalBlank => 1
  | .oamScan => 2
  | .transfer => 3

/-- With the LCD off the mode reads as 0. -/
def readStatus (r : Raster) : UInt8 :=
  let mode := if r.registers.lcdOn then VideoMode.bits r.mode else 0
  0x80 ||| r.registers.statusSelect ||| (if r.coincidence then 0x04 else 0) ||| mode

def read (v : Video) (address : UInt16) : UInt8 :=
  let r := v.raster.registers
  match address with
  | 0xFF40 => r.control
  | 0xFF41 => readStatus v.raster
  | 0xFF42 => r.scrollY
  | 0xFF43 => r.scrollX
  | 0xFF44 => r.line
  | 0xFF45 => r.lineCompare
  | 0xFF47 => r.backgroundPalette
  | 0xFF48 => r.spritePalette0
  | 0xFF49 => r.spritePalette1
  | 0xFF4A => r.windowY
  | 0xFF4B => r.windowX
  | _ => 0xFF

def vramOpen (v : Video) : Bool :=
  !v.raster.registers.lcdOn || v.raster.mode != .transfer

def oamOpen (v : Video) : Bool :=
  !v.raster.registers.lcdOn || v.raster.mode == .horizontalBlank || v.raster.mode == .verticalBlank

def powerOn (palette : Palette) : Video :=
  { vram := Memory.zeros
    oam := Memory.zeros
    raster := Raster.startLine
      { registers :=
          { control := 0x91, statusSelect := 0, scrollY := 0, scrollX := 0, line := 0
            lineCompare := 0, backgroundPalette := 0xFC, spritePalette0 := 0xFF
            spritePalette1 := 0xFF, windowY := 0, windowX := 0 }
        mode := .oamScan
        dot := 0
        transferDots := 172
        coincidence := true
        statusLine := false
        windowReached := false
        windowLine := 0
        sprites := [] }
    frame := .filled palette[0]
    frameReady := false }

end Video
end DotMatrix
