import DotMatrix.Memory
import DotMatrix.Interrupt
import DotMatrix.Settings

/-! The state of the picture unit: video memory, the registers FF40 to FF4B, the position of
the beam, and the picture drawn so far. -/
namespace DotMatrix

def screenWidth : Nat := 160
def screenHeight : Nat := 144

/-- What the unit does at a dot; the order is that of the mode bits in the status register. -/
inductive VideoMode where
  | horizontalBlank | verticalBlank | oamScan | transfer
  deriving DecidableEq

/-- A sprite selected for a line, in screen coordinates. -/
structure Sprite where
  y : Int16
  x : Int16
  tile : UInt8
  flags : UInt8
  index : UInt8
  deriving DecidableEq

namespace Sprite

def behindBackground (s : Sprite) : Bool := s.flags &&& 0x80 != 0
def flippedY (s : Sprite) : Bool := s.flags &&& 0x40 != 0
def flippedX (s : Sprite) : Bool := s.flags &&& 0x20 != 0
def secondPalette (s : Sprite) : Bool := s.flags &&& 0x10 != 0

end Sprite

structure VideoRegisters where
  control : UInt8
  /-- The interrupt-select bits 3 to 6 of the status register. -/
  statusSelect : UInt8
  scrollY : UInt8
  scrollX : UInt8
  line : UInt8
  lineCompare : UInt8
  backgroundPalette : UInt8
  spritePalette0 : UInt8
  spritePalette1 : UInt8
  windowY : UInt8
  windowX : UInt8
  deriving DecidableEq

namespace VideoRegisters

def lcdOn (r : VideoRegisters) : Bool := r.control &&& 0x80 != 0
def windowMapHigh (r : VideoRegisters) : Bool := r.control &&& 0x40 != 0
def windowOn (r : VideoRegisters) : Bool := r.control &&& 0x20 != 0
def unsignedTiles (r : VideoRegisters) : Bool := r.control &&& 0x10 != 0
def backgroundMapHigh (r : VideoRegisters) : Bool := r.control &&& 0x08 != 0
def tallSprites (r : VideoRegisters) : Bool := r.control &&& 0x04 != 0
def spritesOn (r : VideoRegisters) : Bool := r.control &&& 0x02 != 0
def backgroundOn (r : VideoRegisters) : Bool := r.control &&& 0x01 != 0

def spriteHeight (r : VideoRegisters) : Nat := if r.tallSprites then 16 else 8

end VideoRegisters

structure Raster where
  registers : VideoRegisters
  mode : VideoMode
  /-- The dot within the line. -/
  dot : UInt16
  /-- The length of pixel transfer on this line. -/
  transferDots : UInt16
  /-- The line equals the compare register. -/
  coincidence : Bool
  /-- Some selected status source holds; the interrupt is requested when this begins. -/
  statusLine : Bool
  /-- The line has been equal to the window's first line in this frame. -/
  windowReached : Bool
  /-- The window's next row; it advances on lines that show the window. -/
  windowLine : UInt8
  sprites : List Sprite
  deriving DecidableEq

abbrev Frame := Vector UInt32 23040

def Frame.filled (color : UInt32) : Frame := Vector.replicate 23040 color

def Frame.setRow (line : Nat) (row : Vector UInt32 160) (frame : Frame) : Frame :=
  Fin.foldl 160 (fun frame x => frame.setIfInBounds (line * screenWidth + x) row[x]) frame

structure Video where
  vram : Memory 0x2000
  oam : Memory 0xA0
  raster : Raster
  frame : Frame
  /-- The last line has wrapped to the first since the host last looked. -/
  frameReady : Bool

end DotMatrix
