import DotMatrix.Proofs.Safe.Video
import DotMatrix.Proofs.Video.StatusLine

/-! Background and window a pixel at a time. A pixel's place in one of two maps leads to a tile and
the tile's data to a colour number; whatever the scroll registers hold, drawing a line comes to the
same numbers, and it does nothing else to the picture. Every look-up here is by the address that a
program would use, and has no answer outside of video memory. -/
namespace DotMatrix

def Memory.atAddress? (vram : Memory 0x2000) (address : Int) : Option UInt8 :=
  if 0x8000 ≤ address then vram[(address - 0x8000).toNat]? else none

def VideoRegisters.controlBit (r : VideoRegisters) (bit : Nat) : Bool := r.control.toNat.testBit bit

/-- The colour that a palette register gives a colour number; two bits for each number, those of
number 0 lowest. -/
def Palette.through (palette : Palette) (register : UInt8) (color : Nat) : UInt32 :=
  have inside : register.toNat / 4 ^ color % 4 < 4 := Nat.mod_lt _ (by decide)
  palette[register.toNat / 4 ^ color % 4]

namespace Scanline

/-- The colour number in a tile whose data start at an address. Each row has two bytes, the low bits
of its pixels and the high ones, with the leftmost pixel in bit 7. -/
def tileColor? (vram : Memory 0x2000) (tile : Int) (row column : Nat) : Option Nat := do
  let low ← vram.atAddress? (tile + 2 * row)
  let high ← vram.atAddress? (tile + 2 * row + 1)
  return 2 * (high.toNat.testBit (7 - column)).toNat + (low.toNat.testBit (7 - column)).toNat

def tileAddress (unsigned : Bool) (number : UInt8) : Int :=
  if unsigned then 0x8000 + 16 * number.toNat else 0x9000 + 16 * number.toInt8.toInt

/-- The colour number in a map of 32 by 32 tiles that starts at an address. -/
def mapColor? (vram : Memory 0x2000) (r : VideoRegisters) (map : Int) (x y : Nat) : Option Nat := do
  let number ← vram.atAddress? (map + y / 8 * 32 + x / 8)
  tileColor? vram (tileAddress (r.controlBit 4) number) (y % 8) (x % 8)

def mapAddress (high : Bool) : Int := if high then 0x9C00 else 0x9800

def HasWindow (r : Raster) : Prop :=
  r.registers.controlBit 0 = true ∧ r.registers.controlBit 5 = true ∧ r.windowReached = true ∧
    r.registers.windowX.toNat ≤ 166

instance (r : Raster) : Decidable (HasWindow r) := inferInstanceAs (Decidable (_ ∧ _))

/-- The colour number of background and window in a column of the line. The window starts seven
columns left of its register. -/
def groundColor? (vram : Memory 0x2000) (r : Raster) (x : Nat) : Option Nat :=
  let g := r.registers
  let left : Int := g.windowX.toNat - 7
  if g.controlBit 0 = false then some 0
  else if HasWindow r ∧ left ≤ x then
    mapColor? vram g (mapAddress (g.controlBit 6)) (x - left).toNat r.windowLine.toNat
  else
    mapColor? vram g (mapAddress (g.controlBit 3)) ((x + g.scrollX.toNat) % 256)
      ((g.line.toNat + g.scrollY.toNat) % 256)

theorem atAddress?_offset (vram : Memory 0x2000) {offset : Nat} (inside : offset < 0x2000) :
    vram.atAddress? (0x8000 + offset) = some (vram.read offset) := by
  have back : ((0x8000 : Int) + offset - 0x8000).toNat = offset := by omega
  unfold Memory.atAddress? Memory.read
  rw [if_pos (by omega), back, Nat.mod_eq_of_lt inside, Vector.getElem?_eq_getElem inside]
  rfl

theorem atAddress?_ofFn (bytes : Fin 0x2000 → UInt8) {offset : Nat} (inside : offset < 0x2000) :
    Memory.atAddress? (Vector.ofFn bytes) (0x8000 + offset) = some (bytes ⟨offset, inside⟩) := by
  rw [atAddress?_offset _ inside]
  unfold Memory.read
  rw [Nat.mod_eq_of_lt inside, Vector.getElem?_ofFn, dif_pos inside]
  rfl

theorem toNat_plane (byte : UInt8) (column : Nat) :
    (byte >>> UInt8.ofNat (7 - column) &&& 1).toNat = (byte.toNat.testBit (7 - column)).toNat := by
  have shift : (7 - column) % 2 ^ 8 % 8 = 7 - column := by omega
  rw [UInt8.toNat_and, UInt8.toNat_shiftRight, UInt8.toNat_ofNat', shift, UInt8.toNat_one,
    Nat.and_one_is_mod, Nat.shiftRight_eq_div_pow, Nat.toNat_testBit]

theorem toNat_tilePixel (vram : Memory 0x2000) (tile row column : Nat) :
    (tilePixel vram tile row column).toNat =
      2 * ((vram.read (tile + 2 * row + 1)).toNat.testBit (7 - column)).toNat +
        ((vram.read (tile + 2 * row)).toNat.testBit (7 - column)).toNat := by
  rw [← toNat_plane, ← toNat_plane]
  unfold tilePixel planePixel
  dsimp only
  generalize vram.read (tile + 2 * row) >>> UInt8.ofNat (7 - column) = low
  generalize vram.read (tile + 2 * row + 1) >>> UInt8.ofNat (7 - column) = high
  rcases and_one low with h | h <;> rcases and_one high with h' | h' <;> rw [h, h'] <;> rfl

theorem tileColor?_eq (vram : Memory 0x2000) {tile row column : Nat}
    (safe : TileSafe tile row column) :
    tileColor? vram (0x8000 + tile) row column = some (tilePixel vram tile row column).toNat := by
  have planes := safe.planes
  have low := atAddress?_offset vram (by omega : tile + 2 * row < 0x2000)
  have high := atAddress?_offset vram (by omega : tile + 2 * row + 1 < 0x2000)
  push_cast at low high
  simp only [← Int.add_assoc] at low high
  unfold tileColor?
  rw [low, high, toNat_tilePixel]
  rfl

theorem toInt_number (number : UInt8) : number.toInt8.toInt =
    if number < 0x80 then (number.toNat : Int) else number.toNat - 0x100 := by
  have half : 2 * number.toNat < 2 ^ 8 ↔ number < 0x80 := by
    rw [UInt8.lt_iff_toNat_lt]
    change _ ↔ number.toNat < 0x80
    omega
  change number.toBitVec.toInt = _
  rw [BitVec.toInt_eq_toNat_cond]
  exact if_congr half rfl rfl

theorem tileAddress_eq (unsigned : Bool) (number : UInt8) :
    tileAddress unsigned number = 0x8000 + tileOffset unsigned number := by
  unfold tileAddress tileOffset
  rw [toInt_number]
  split
  · rfl
  · split <;> push_cast <;> omega

theorem mapColor?_eq (vram : Memory 0x2000) (r : VideoRegisters) (high : Bool) {x y : Nat}
    (hx : x < 256) (hy : y < 256) :
    mapColor? vram r (mapAddress high) x y =
      some (mapPixel vram (r.controlBit 4) high x y).toNat := by
  have start : mapAddress high + y / 8 * 32 + x / 8 = 0x8000 + mapIndex high x y := by
    unfold mapAddress mapIndex
    split <;> push_cast <;> omega
  unfold mapColor?
  rw [start, atAddress?_offset vram (mapIndex_lt high hx hy)]
  change tileColor? vram (tileAddress _ (vram.read (mapIndex high x y))) _ _ = _
  rw [tileAddress_eq, tileColor?_eq vram (tileSafe_offset _ _ x y)]
  rfl

end Scanline

namespace VideoRegisters
variable (r : VideoRegisters)

theorem backgroundOn_eq : r.backgroundOn = r.controlBit 0 := and_mask_ne_zero _ _ 0 rfl
theorem spritesOn_eq : r.spritesOn = r.controlBit 1 := and_mask_ne_zero _ _ 1 rfl
theorem tallSprites_eq : r.tallSprites = r.controlBit 2 := and_mask_ne_zero _ _ 2 rfl
theorem backgroundMapHigh_eq : r.backgroundMapHigh = r.controlBit 3 := and_mask_ne_zero _ _ 3 rfl
theorem unsignedTiles_eq : r.unsignedTiles = r.controlBit 4 := and_mask_ne_zero _ _ 4 rfl
theorem windowOn_eq : r.windowOn = r.controlBit 5 := and_mask_ne_zero _ _ 5 rfl
theorem windowMapHigh_eq : r.windowMapHigh = r.controlBit 6 := and_mask_ne_zero _ _ 6 rfl

end VideoRegisters

namespace Scanline

theorem showsWindow_iff (r : Raster) : showsWindow r = true ↔ HasWindow r := by
  unfold showsWindow HasWindow
  rw [r.registers.backgroundOn_eq, r.registers.windowOn_eq]
  simp only [Bool.and_eq_true, decide_eq_true_eq, and_assoc]
  rfl

/-- Every pixel of background and window, and no look-up beside video memory. -/
theorem groundColor?_eq (vram : Memory 0x2000) (r : Raster) {x : Nat} (inside : x < 160) :
    groundColor? vram r x = some (background vram r)[x].toNat := by
  unfold groundColor? background
  rw [r.registers.backgroundOn_eq]
  dsimp only
  cases on : r.registers.controlBit 0 with
  | false =>
    rw [if_pos rfl]
    simp
  | true =>
    simp only [Bool.true_eq_false, if_false, if_true, Vector.getElem_ofFn]
    have line := r.windowLine.toNat_lt
    have reaches : HasWindow r ∧ (r.registers.windowX.toNat : Int) - 7 ≤ x ↔
        (showsWindow r && decide (r.registers.windowX.toNat ≤ x + 7)) = true := by
      rw [Bool.and_eq_true, showsWindow_iff, decide_eq_true_eq]
      apply and_congr_right'
      omega
    simp only [reaches]
    split
    case isTrue window =>
      have column : ((x : Int) - (r.registers.windowX.toNat - 7)).toNat =
          x + 7 - r.registers.windowX.toNat := by
        omega
      unfold windowPixel
      rw [column, mapColor?_eq vram _ _ (by omega) (by omega), r.registers.unsignedTiles_eq,
        r.registers.windowMapHigh_eq]
    case isFalse =>
      unfold backgroundPixel
      rw [mapColor?_eq vram _ _ (Nat.mod_lt _ (by decide)) (Nat.mod_lt _ (by decide)),
        r.registers.unsignedTiles_eq, r.registers.backgroundMapHigh_eq]

theorem background_le (vram : Memory 0x2000) (r : Raster) (x : Nat) (inside : x < 160) :
    (background vram r)[x].toNat ≤ 3 := by
  have safe := colorSafe_background vram r x inside
  unfold ColorSafe at safe
  omega

theorem toNat_shade (register color : UInt8) (number : color.toNat ≤ 3) :
    (shade register color).toNat = register.toNat / 4 ^ color.toNat % 4 := by
  have shift : 2 * color.toNat % 2 ^ 8 % 8 = 2 * color.toNat := by omega
  unfold shade
  rw [UInt8.toNat_and, UInt8.toNat_shiftRight, UInt8.toNat_mul]
  change register.toNat >>> (2 * color.toNat % 2 ^ 8 % 8) &&& 2 ^ 2 - 1 = _
  rw [shift, Nat.and_two_pow_sub_one_eq_mod, Nat.shiftRight_eq_div_pow, Nat.pow_mul]

theorem colorOf_shade (palette : Palette) (register color : UInt8) (number : color.toNat ≤ 3) :
    colorOf palette (shade register color) = palette.through register color.toNat := by
  unfold colorOf Palette.through
  simp only [toNat_shade register color number, Nat.mod_mod]

end Scanline

namespace Video
open Scanline

theorem getElem_drawLine (palette : Palette) (v : Video) {x : Nat} (inside : x < 160)
    (shown : v.raster.registers.line.toNat < 144) :
    (v.drawLine palette).frame[160 * v.raster.registers.line.toNat + x] =
      colorOf palette (join v.raster.registers (background v.vram v.raster)[x]
        (spriteLayer v.vram v.raster)[x]) := by
  have column : (160 * v.raster.registers.line.toNat + x) % 160 = x := by omega
  unfold drawLine
  dsimp only
  rw [Frame.getElem_setRow, if_pos (by omega)]
  simp only [column, Vector.getElem_map, shades, Vector.getElem_zipWith]

theorem getElem_drawLine_elsewhere (palette : Palette) (v : Video) {i : Nat} (inside : i < 23040)
    (elsewhere : i / 160 ≠ v.raster.registers.line.toNat) :
    (v.drawLine palette).frame[i] = v.frame[i] := by
  unfold drawLine
  dsimp only
  rw [Frame.getElem_setRow, if_neg elsewhere]

/-- The colour of background and window in a column of the line. -/
def groundPixel? (palette : Palette) (v : Video) (x : Nat) : Option UInt32 :=
  (groundColor? v.vram v.raster x).map (palette.through v.raster.registers.backgroundPalette)

theorem groundPixel?_eq (palette : Palette) (v : Video) {x : Nat} (inside : x < 160) :
    groundPixel? palette v x =
      some (colorOf palette (shade v.raster.registers.backgroundPalette
        (background v.vram v.raster)[x])) := by
  unfold groundPixel?
  rw [groundColor?_eq v.vram v.raster inside,
    colorOf_shade _ _ _ (background_le v.vram v.raster x inside)]
  rfl

/-- Drawing a line without sprites. In every column the background and the window come to the
colour number that their maps lead to, and the picture gets its colour; the other rows stay, the
window's row advances on lines that have a part of the window, and no look-up, be it for sprites or
not, leaves video memory. -/
theorem drawLine_ground (palette : Palette) (v : Video) (accepted : v.raster.checkLayout = .ok ())
    (shown : v.raster.registers.line.toNat < 144) :
    (∀ x (inside : x < 160),
        groundColor? v.vram v.raster x = some (background v.vram v.raster)[x].toNat ∧
          (v.raster.registers.controlBit 1 = false →
            groundPixel? palette v x =
              some (v.drawLine palette).frame[160 * v.raster.registers.line.toNat + x])) ∧
      (∀ i (inside : i < 23040), i / 160 ≠ v.raster.registers.line.toNat →
        (v.drawLine palette).frame[i] = v.frame[i]) ∧
      (v.drawLine palette).raster =
        { v.raster with
          windowLine :=
            if HasWindow v.raster then v.raster.windowLine + 1 else v.raster.windowLine } ∧
      LineSafe v.vram v.raster := by
  refine ⟨fun x inside => ⟨groundColor?_eq v.vram v.raster inside, fun off => ?_⟩,
    fun i inside => getElem_drawLine_elsewhere palette v inside, ?_, ?_⟩
  · have empty : (spriteLayer v.vram v.raster)[x] = none := by
      unfold spriteLayer
      rw [v.raster.registers.spritesOn_eq, off]
      exact Vector.getElem_replicate inside
    rw [groundPixel?_eq palette v inside, getElem_drawLine palette v inside shown, empty]
    rfl
  · unfold drawLine
    simp only [showsWindow_iff]
  · exact lineSafe v.vram v.raster ((Raster.checkLayout_eq_ok _).mp accepted).onScreen shown

/-- A window that starts four columns left of the screen. Its first tile is numbered down from 9000
and is black in the right half. -/
def windowed : Video :=
  let dark := powerOn .grey
  { dark with
    vram := Vector.ofFn fun offset =>
      if offset.val = 0x1C00 then 0xFF else if offset.val / 16 = 0xFF then 0x0F else 0
    raster := { dark.raster with
      registers := { dark.raster.registers with
        control := 0xE1, backgroundPalette := 0xE4, windowX := 3 } } }

theorem groundColor?_windowed {vram : Memory 0x2000} (number : vram.atAddress? 0x9C00 = some 0xFF)
    (low : vram.atAddress? 0x8FF0 = some 0x0F) (high : vram.atAddress? 0x8FF1 = some 0x0F) :
    groundColor? vram windowed.raster 3 = some 3 := by
  rw [groundColor?, if_neg (by decide), if_pos (by decide)]
  change mapColor? vram windowed.raster.registers 0x9C00 7 0 = _
  unfold mapColor?
  change (vram.atAddress? 0x9C00).bind _ = _
  rw [number]
  change tileColor? vram 0x8FF0 0 7 = _
  unfold tileColor?
  change (vram.atAddress? 0x8FF0).bind (fun low => (vram.atAddress? 0x8FF1).bind _) = _
  rw [low, high]
  rfl

theorem drawLine_ground_windowed :
    windowed.raster.checkLayout = .ok () ∧
      (windowed.drawLine .grey).frame[3] = 0x00000000 ∧
      (windowed.drawLine .grey).raster.windowLine = 1 := by
  have accepted : windowed.raster.checkLayout = .ok () := by decide
  obtain ⟨pixels, _, raster, _⟩ := drawLine_ground .grey windowed accepted (by decide)
  have number : windowed.vram.atAddress? 0x9C00 = _ :=
    atAddress?_ofFn _ (by decide : 0x1C00 < 0x2000)
  have low : windowed.vram.atAddress? 0x8FF0 = _ := atAddress?_ofFn _ (by decide : 0x0FF0 < 0x2000)
  have high : windowed.vram.atAddress? 0x8FF1 = _ := atAddress?_ofFn _ (by decide : 0x0FF1 < 0x2000)
  refine ⟨accepted, ?_, ?_⟩
  · have pixel := (pixels 3 (by decide)).2 rfl
    rw [groundPixel?, groundColor?_windowed number low high] at pixel
    exact (Option.some.inj pixel).symm
  · rw [raster]
    decide

end Video
end DotMatrix
