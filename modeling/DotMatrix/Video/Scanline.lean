import DotMatrix.Video.Basic

/-! One line of the picture. The background and window give a colour number a pixel; the
sprites are painted in order of priority into a layer of their own, where the first pixel
that is not transparent takes its column; then the two are joined. -/
namespace DotMatrix
namespace Scanline

abbrev Line (α : Type) := Vector α 160

/-- The shade that a palette register gives a colour number. -/
def shade (palette color : UInt8) : UInt8 := palette >>> (2 * color) &&& 0x03

/-- The colour number at column `x` of two bit planes, the leftmost pixel in the top bit. -/
def planePixel (low high : UInt8) (x : Nat) : UInt8 :=
  let bit := UInt8.ofNat (7 - x)
  (high >>> bit &&& 1) <<< 1 ||| low >>> bit &&& 1

def tilePixel (vram : Memory 0x2000) (tile row x : Nat) : UInt8 :=
  planePixel (vram.read (tile + 2 * row)) (vram.read (tile + 2 * row + 1)) x

/-- Where the data of a background tile starts: tile numbers count from 0000, or as signed
numbers from 1000. -/
def tileOffset (unsigned : Bool) (tile : UInt8) : Nat :=
  if unsigned then 16 * tile.toNat
  else if tile < 0x80 then 0x1000 + 16 * tile.toNat
  else 16 * tile.toNat

/-- The place of a pixel's tile in a map of 32 by 32 tiles. -/
def mapIndex (mapHigh : Bool) (x y : Nat) : Nat :=
  (if mapHigh then 0x1C00 else 0x1800) + y / 8 * 32 + x / 8

def mapPixel (vram : Memory 0x2000) (unsigned mapHigh : Bool) (x y : Nat) : UInt8 :=
  let tile := vram.read (mapIndex mapHigh x y)
  tilePixel vram (tileOffset unsigned tile) (y % 8) (x % 8)

def showsWindow (r : Raster) : Bool :=
  r.registers.backgroundOn && r.registers.windowOn && r.windowReached && r.registers.windowX ≤ 166

def backgroundPixel (vram : Memory 0x2000) (r : VideoRegisters) (x : Nat) : UInt8 :=
  mapPixel vram r.unsignedTiles r.backgroundMapHigh ((x + r.scrollX.toNat) % 256)
    ((r.line.toNat + r.scrollY.toNat) % 256)

def windowPixel (vram : Memory 0x2000) (r : Raster) (x : Nat) : UInt8 :=
  mapPixel vram r.registers.unsignedTiles r.registers.windowMapHigh
    (x + 7 - r.registers.windowX.toNat) r.windowLine.toNat

/-- The colour numbers of background and window; all 0 when both are off. -/
def background (vram : Memory 0x2000) (r : Raster) : Line UInt8 :=
  if r.registers.backgroundOn then
    let window := showsWindow r
    Vector.ofFn fun x =>
      if window && r.registers.windowX.toNat ≤ x + 7 then windowPixel vram r x
      else backgroundPixel vram r.registers x
  else Vector.replicate 160 0

structure Spot where
  shade : UInt8
  behind : Bool
  deriving DecidableEq

/-- The row of the sprite's image on the line, after flipping; none when the sprite does not
reach the line at the current height. -/
def spriteRow? (r : VideoRegisters) (s : Sprite) : Option Nat :=
  let row := (r.line.toNat : Int) - s.y.toInt
  if 0 ≤ row ∧ row < r.spriteHeight then
    some (if s.flippedY then r.spriteHeight - 1 - row.toNat else row.toNat)
  else none

/-- Tall sprites use an even tile and the next one. -/
def spriteTile (r : VideoRegisters) (s : Sprite) (row : Nat) : Nat :=
  let tile := if r.tallSprites then s.tile &&& 0xFE else s.tile
  16 * (tile.toNat + row / 8)

def spriteColumn (s : Sprite) (px : Nat) : Nat := if s.flippedX then 7 - px else px

def spriteColor (vram : Memory 0x2000) (r : VideoRegisters) (s : Sprite) (row px : Nat) : UInt8 :=
  tilePixel vram (spriteTile r s row) (row % 8) (spriteColumn s px)

/-- The sprite's spot in column `px` of its row; none where it is transparent. -/
def spot? (vram : Memory 0x2000) (r : VideoRegisters) (s : Sprite) (row px : Nat) : Option Spot :=
  let color := spriteColor vram r s row px
  if color == 0 then none
  else
    let palette := if s.secondPalette then r.spritePalette1 else r.spritePalette0
    some ⟨shade palette color, s.behindBackground⟩

/-- Puts a spot on a free column of the screen. -/
def occupy (layer : Line (Option Spot)) (x : Int) (spot : Option Spot) : Line (Option Spot) :=
  if x < 0 then layer
  else
    match layer[x.toNat]? with
    | some none => layer.setIfInBounds x.toNat spot
    | _ => layer

def paint (vram : Memory 0x2000) (r : VideoRegisters) (layer : Line (Option Spot)) (s : Sprite) :
    Line (Option Spot) :=
  match spriteRow? r s with
  | none => layer
  | some row =>
    Fin.foldl 8 (fun layer px => occupy layer (s.x.toInt + px) (spot? vram r s row px)) layer

/-- A smaller X goes first, then the earlier place in OAM. -/
def goesBefore (s t : Sprite) : Bool := s.x < t.x || s.x == t.x && s.index ≤ t.index

def spriteLayer (vram : Memory 0x2000) (r : Raster) : Line (Option Spot) :=
  let empty : Line (Option Spot) := Vector.replicate 160 none
  if r.registers.spritesOn then
    (r.sprites.mergeSort goesBefore).foldl (paint vram r.registers) empty
  else empty

/-- The shade of one pixel: a sprite that is behind shows only through colour number 0. -/
def join (r : VideoRegisters) (color : UInt8) (spot : Option Spot) : UInt8 :=
  let under := shade r.backgroundPalette color
  match spot with
  | none => under
  | some spot => if spot.behind && r.backgroundOn && color != 0 then under else spot.shade

def shades (vram : Memory 0x2000) (r : Raster) : Line UInt8 :=
  Vector.zipWith (join r.registers) (background vram r) (spriteLayer vram r)

def colorOf (palette : Palette) (shade : UInt8) : UInt32 :=
  have inside : shade.toNat % 4 < 4 := Nat.mod_lt _ (by decide)
  palette[shade.toNat % 4]

end Scanline

namespace Video

def drawLine (palette : Palette) (v : Video) : Video :=
  let row := (Scanline.shades v.vram v.raster).map (Scanline.colorOf palette)
  let r := v.raster
  let windowLine := if Scanline.showsWindow r then r.windowLine + 1 else r.windowLine
  { v with
    raster := { r with windowLine }
    frame := v.frame.setRow r.registers.line.toNat row }

end Video
end DotMatrix
