import DotMatrix.Proofs.Time.Video

/-! While the beam moves over a raster in range, the picture unit stays within its memories and
its numbers within their types. Every look-up is made once more without an address line that could
hide a wrong place, and finds what the unit finds; and there is a condition for every sum, difference
and shift that the program checks, unless a comparison right before it settles the matter. -/
namespace DotMatrix

def FitsInt16 (z : Int) : Prop := -0x8000 ≤ z ∧ z < 0x8000

namespace Frame

theorem getElem_setFrom (frame : Frame) (start n : Nat) (row : Fin n → UInt32) {i : Nat}
    (inside : i < 23040) :
    (Fin.foldl n (fun frame x => frame.setIfInBounds (start + x) (row x)) frame)[i] =
      if h : start ≤ i ∧ i - start < n then row ⟨i - start, h.2⟩ else frame[i] := by
  induction n with
  | zero => simp
  | succ n ih =>
    rw [Fin.foldl_succ_last, Vector.getElem_setIfInBounds, Fin.val_last]
    by_cases last : start + n = i
    · have set : start ≤ i ∧ i - start < n + 1 := by omega
      have column : Fin.last n = ⟨i - start, set.2⟩ := by
        apply Fin.ext
        rw [Fin.val_last]
        dsimp only
        omega
      rw [if_pos last, dif_pos set, column]
    · rw [if_neg last]
      refine (ih fun x => row x.castSucc).trans ?_
      by_cases set : start ≤ i ∧ i - start < n
      · rw [dif_pos set, dif_pos ⟨set.1, by omega⟩]
        rfl
      · rw [dif_neg set, dif_neg (by omega)]

theorem getElem_setRow (frame : Frame) (line : Nat) (row : Vector UInt32 160) {i : Nat}
    (inside : i < 23040) :
    (frame.setRow line row)[i] = if i / 160 = line then row[i % 160] else frame[i] := by
  unfold setRow
  rw [getElem_setFrom frame (line * screenWidth) 160 (row[·]) inside]
  unfold screenWidth
  by_cases here : i / 160 = line
  · have column : i - line * 160 = i % 160 := by omega
    rw [dif_pos (by omega), if_pos here]
    simp only [Fin.getElem_fin, column]
  · rw [dif_neg (by omega), if_neg here]

end Frame

namespace Scanline

def tilePixel? (vram : Memory 0x2000) (tile row x : Nat) : Option UInt8 := do
  let low ← vram[tile + 2 * row]?
  let high ← vram[tile + 2 * row + 1]?
  if x < 8 then some (planePixel low high x) else none

def mapPixel? (vram : Memory 0x2000) (unsigned mapHigh : Bool) (x y : Nat) : Option UInt8 := do
  let tile ← vram[mapIndex mapHigh x y]?
  tilePixel? vram (tileOffset unsigned tile) (y % 8) (x % 8)

def ColorSafe (color : UInt8) : Prop := 2 * color.toNat < 8

structure SpriteSafe (vram : Memory 0x2000) (r : VideoRegisters) (s : Sprite) : Prop where
  row : FitsInt16 (r.line.toNat - s.y.toInt)
  columns : ∀ px < 8, FitsInt16 (s.x.toInt + (px : Nat))
  tiles : ∀ row, spriteRow? r s = some row → ∀ px < 8,
    tilePixel? vram (spriteTile r s row) (row % 8) (spriteColumn s px) =
      some (spriteColor vram r s row px)
  colors : ∀ row px, ColorSafe (spriteColor vram r s row px)

/-- What drawing a line needs. -/
structure LineSafe (vram : Memory 0x2000) (r : Raster) : Prop where
  backgroundTiles : ∀ x < screenWidth,
    mapPixel? vram r.registers.unsignedTiles r.registers.backgroundMapHigh
        ((x + r.registers.scrollX.toNat) % 256)
        ((r.registers.line.toNat + r.registers.scrollY.toNat) % 256) =
      some (backgroundPixel vram r.registers x)
  windowStart : FitsInt16 (r.registers.windowX.toNat - 7)
  windowColumns : ∀ x < screenWidth, FitsInt16 ((x : Nat) - (r.registers.windowX.toNat - 7))
  windowTiles : showsWindow r = true → ∀ x < screenWidth, r.registers.windowX.toNat ≤ x + 7 →
    mapPixel? vram r.registers.unsignedTiles r.registers.windowMapHigh
      (x + 7 - r.registers.windowX.toNat) r.windowLine.toNat = some (windowPixel vram r x)
  spriteTiles : ∀ s ∈ r.sprites, SpriteSafe vram r.registers s
  colors : ∀ x (inside : x < 160), ColorSafe (background vram r)[x]
  palette : ∀ (palette : Palette) x (inside : x < 160),
    palette[(shades vram r)[x].toNat]? = some (colorOf palette (shades vram r)[x])
  row : ∀ (frame : Frame) (row : Vector UInt32 160) x (inside : x < 160),
    (frame.setRow r.registers.line.toNat row)[r.registers.line.toNat * screenWidth + x]? =
      some row[x]

structure TileSafe (tile row x : Nat) : Prop where
  planes : tile + 2 * row + 1 < 0x2000
  column : x < 8

theorem TileSafe.tilePixel?_eq {tile row x : Nat} (h : TileSafe tile row x)
    (vram : Memory 0x2000) : tilePixel? vram tile row x = some (tilePixel vram tile row x) := by
  have planes := h.planes
  unfold tilePixel?
  rw [Memory.getElem?_eq_read vram (by omega), Memory.getElem?_eq_read vram planes]
  exact if_pos h.column

theorem tileOffset_le (unsigned : Bool) (tile : UInt8) : tileOffset unsigned tile ≤ 0x17F0 := by
  have small := tile.toNat_lt
  unfold tileOffset
  split
  · omega
  · split
    · have low : tile.toNat < 0x80 := by assumption
      omega
    · omega

theorem tileSafe_offset (unsigned : Bool) (tile : UInt8) (x y : Nat) :
    TileSafe (tileOffset unsigned tile) (y % 8) (x % 8) := by
  have start := tileOffset_le unsigned tile
  exact ⟨by omega, by omega⟩

theorem mapIndex_lt (mapHigh : Bool) {x y : Nat} (hx : x < 256) (hy : y < 256) :
    mapIndex mapHigh x y < 0x2000 := by
  unfold mapIndex
  split <;> omega

theorem mapPixel?_eq (vram : Memory 0x2000) (unsigned mapHigh : Bool) {x y : Nat} (hx : x < 256)
    (hy : y < 256) :
    mapPixel? vram unsigned mapHigh x y = some (mapPixel vram unsigned mapHigh x y) := by
  unfold mapPixel?
  rw [Memory.getElem?_eq_read vram (mapIndex_lt mapHigh hx hy)]
  exact (tileSafe_offset unsigned _ x y).tilePixel?_eq vram

theorem tilePixel_le (vram : Memory 0x2000) (tile row x : Nat) :
    (tilePixel vram tile row x).toNat ≤ 3 := by
  unfold tilePixel planePixel
  dsimp only
  generalize vram.read (tile + 2 * row) >>> UInt8.ofNat (7 - x) = low
  generalize vram.read (tile + 2 * row + 1) >>> UInt8.ofNat (7 - x) = high
  rcases and_one low with h | h <;> rcases and_one high with h' | h' <;> rw [h, h'] <;> decide

theorem colorSafe_tilePixel (vram : Memory 0x2000) (tile row x : Nat) :
    ColorSafe (tilePixel vram tile row x) := by
  have small := tilePixel_le vram tile row x
  unfold ColorSafe
  omega

theorem spriteRow_lt (r : VideoRegisters) (s : Sprite) (row : Nat)
    (reached : spriteRow? r s = some row) : row < r.spriteHeight := by
  unfold spriteRow? at reached
  dsimp only at reached
  split at reached
  · cases reached
    split
    · omega
    · omega
  · cases reached

theorem tileSafe_sprite (r : VideoRegisters) (s : Sprite) (row px : Nat)
    (reached : spriteRow? r s = some row) (inside : px < 8) :
    TileSafe (spriteTile r s row) (row % 8) (spriteColumn s px) := by
  have height := spriteRow_lt r s row reached
  constructor
  · unfold spriteTile
    unfold VideoRegisters.spriteHeight at height
    dsimp only
    cases tall : r.tallSprites with
    | true =>
      have even : (s.tile &&& 0xFE).toNat ≤ 254 := and_le_mask s.tile 0xFE
      simp only [tall, if_true] at height ⊢
      omega
    | false =>
      have small := s.tile.toNat_lt
      simp only [tall, Bool.false_eq_true, if_false] at height ⊢
      omega
  · unfold spriteColumn
    split <;> omega

theorem spriteSafe (vram : Memory 0x2000) (r : VideoRegisters) (s : Sprite)
    (onScreen : s.onScreen = true) : SpriteSafe vram r s := by
  simp only [Sprite.onScreen, Bool.and_eq_true, decide_eq_true_eq] at onScreen
  have line := r.line.toNat_lt
  refine ⟨?_, fun px inside => ?_, fun row reached px inside => ?_, fun row px => ?_⟩
  · unfold FitsInt16
    omega
  · unfold FitsInt16
    omega
  · exact (tileSafe_sprite r s row px reached inside).tilePixel?_eq vram
  · exact colorSafe_tilePixel ..

theorem colorSafe_background (vram : Memory 0x2000) (r : Raster) (x : Nat) (inside : x < 160) :
    ColorSafe (background vram r)[x] := by
  unfold background
  dsimp only
  split
  · rw [Vector.getElem_ofFn]
    split
    · exact colorSafe_tilePixel ..
    · exact colorSafe_tilePixel ..
  · rw [Vector.getElem_replicate]
    exact (by decide : 2 * (0 : UInt8).toNat < 8)

theorem shade_lt (palette color : UInt8) : (shade palette color).toNat < 4 := by
  have small : (palette >>> (2 * color) &&& 0x03).toNat ≤ 3 := and_le_mask _ 3
  unfold shade
  omega

def LayerSafe (layer : Line (Option Spot)) : Prop :=
  ∀ x (inside : x < 160), ∀ spot ∈ layer[x], spot.shade.toNat < 4

theorem shade_spot?_lt (vram : Memory 0x2000) (r : VideoRegisters) (s : Sprite) (row px : Nat) :
    ∀ spot ∈ spot? vram r s row px, spot.shade.toNat < 4 := by
  unfold spot?
  dsimp only
  intro spot visible
  generalize tilePixel vram _ _ _ = color at visible
  split at visible
  · cases visible
  · cases visible
    exact shade_lt ..

theorem layerSafe_occupy (layer : Line (Option Spot)) (x : Int) (spot : Option Spot)
    (h : LayerSafe layer) (painted : ∀ s ∈ spot, s.shade.toNat < 4) :
    LayerSafe (occupy layer x spot) := by
  unfold occupy
  split
  · exact h
  · split
    · intro column inside s visible
      rw [Vector.getElem_setIfInBounds] at visible
      split at visible
      · exact painted s visible
      · exact h column inside s visible
    · exact h

theorem foldl_keeps {α : Type} {p : α → Prop} (n : Nat) (f : α → Fin n → α) (start : α)
    (holds : p start) (keeps : ∀ a i, p a → p (f a i)) : p (Fin.foldl n f start) := by
  induction n with
  | zero =>
    rw [Fin.foldl_zero]
    exact holds
  | succ n ih =>
    rw [Fin.foldl_succ_last]
    exact keeps _ _ (ih _ fun a i => keeps a _)

theorem layerSafe_paint (vram : Memory 0x2000) (r : VideoRegisters) (layer : Line (Option Spot))
    (s : Sprite) (h : LayerSafe layer) : LayerSafe (paint vram r layer s) := by
  unfold paint
  split
  · exact h
  · exact foldl_keeps 8 _ layer h fun layer px h =>
      layerSafe_occupy layer _ _ h (shade_spot?_lt vram r s _ px)

theorem layerSafe_spriteLayer (vram : Memory 0x2000) (r : Raster) :
    LayerSafe (spriteLayer vram r) := by
  have empty : LayerSafe (Vector.replicate 160 none) := by
    intro x inside spot visible
    rw [Vector.getElem_replicate] at visible
    cases visible
  unfold spriteLayer
  dsimp only
  split
  · exact List.foldlRecOn _ _ empty fun layer h s _ => layerSafe_paint vram r.registers layer s h
  · exact empty

theorem shades_lt (vram : Memory 0x2000) (r : Raster) (x : Nat) (inside : x < 160) :
    (shades vram r)[x].toNat < 4 := by
  have layer := layerSafe_spriteLayer vram r x inside
  unfold shades join
  rw [Vector.getElem_zipWith]
  dsimp only
  split
  · exact shade_lt ..
  · rename_i spot visible
    split
    · exact shade_lt ..
    · exact layer spot visible

theorem getElem?_palette (palette : Palette) {shade : UInt8} (small : shade.toNat < 4) :
    palette[shade.toNat]? = some (colorOf palette shade) := by
  unfold colorOf
  rw [Vector.getElem?_eq_getElem small]
  simp only [Nat.mod_eq_of_lt small]

theorem lineSafe (vram : Memory 0x2000) (r : Raster) (onScreen : ∀ s ∈ r.sprites, s.onScreen = true)
    (shown : r.registers.line.toNat < screenHeight) : LineSafe vram r where
  backgroundTiles x _ := mapPixel?_eq vram _ _ (by omega) (by omega)
  windowStart := by
    have start := r.registers.windowX.toNat_lt
    unfold FitsInt16
    omega
  windowColumns x inside := by
    have start := r.registers.windowX.toNat_lt
    simp only [screenWidth] at inside
    unfold FitsInt16
    omega
  windowTiles _ x inside _ := by
    have row := r.windowLine.toNat_lt
    simp only [screenWidth] at inside
    exact mapPixel?_eq vram _ _ (by omega) (by omega)
  spriteTiles s selected := spriteSafe vram _ s (onScreen s selected)
  colors x inside := colorSafe_background vram r x inside
  palette palette x inside := getElem?_palette palette (shades_lt vram r x inside)
  row frame row x inside := by
    simp only [screenHeight, screenWidth] at *
    have column : (r.registers.line.toNat * 160 + x) % 160 = x := by omega
    rw [Vector.getElem?_eq_getElem (by omega), Frame.getElem_setRow, if_pos (by omega)]
    simp only [column]

end Scanline

namespace Video

structure BeamSafe (r : Raster) : Prop where
  boundary : r.boundary < 0x10000
  dot : r.dot.toNat < r.boundary

def spriteAt? (oam : Memory 0xA0) (index : Nat) : Option Sprite := do
  let y ← oam[4 * index]?
  let x ← oam[4 * index + 1]?
  let tile ← oam[4 * index + 2]?
  let flags ← oam[4 * index + 3]?
  return {
    y := y.toUInt16.toInt16 - 16, x := x.toUInt16.toInt16 - 8, tile, flags,
    index := UInt8.ofNat index }

structure ScanSafe (v : Video) : Prop where
  entries : ∀ index < 40, spriteAt? v.oam index = some (spriteAt v.oam index)
  tops : ∀ index < 40, (spriteAt v.oam index).y.toInt = (v.oam.read (4 * index)).toNat - 16
  bottoms : ∀ index < 40,
    FitsInt16 ((spriteAt v.oam index).y.toInt + v.raster.registers.spriteHeight)
  lefts : ∀ index < 40, (spriteAt v.oam index).x.toInt = (v.oam.read (4 * index + 1)).toNat - 8
  penalty : minTransferDots + v.raster.registers.scrollX.toNat % 8 +
    6 * (scanSprites v.oam v.raster.registers).length < 0x10000

def AdvanceSafe (v : Video) : Prop :=
  match v.raster.mode with
  | .oamScan => v.ScanSafe
  | .transfer => Scanline.LineSafe v.vram v.raster
  | .horizontalBlank | .verticalBlank => v.raster.registers.line.toNat + 1 < 0x100

/-- Time passes and leaves `w`, and nothing that is checked fails on the way. -/
inductive TickSafe (palette : Palette) (w : Video) : Nat → Video → Prop where
  | still {n : Nat} (still : n = 0 ∨ ¬w.raster.registers.lcdOn = true) : TickSafe palette w n w
  | within {n : Nat} {v : Video} (beam : BeamSafe v.raster)
    (within : n < v.raster.boundary - v.raster.dot.toNat) (leaves : v.moved n = w) :
    TickSafe palette w n v
  | reach {n : Nat} {v : Video} (beam : BeamSafe v.raster)
    (reaches : v.raster.boundary - v.raster.dot.toNat ≤ n) (advance : v.atBoundary.AdvanceSafe)
    (rest : TickSafe palette w (n - (v.raster.boundary - v.raster.dot.toNat))
      (v.atBoundary.advanceMode palette).1) :
    TickSafe palette w n v

theorem toInt_y_spriteAt (oam : Memory 0xA0) (index : Nat) :
    (spriteAt oam index).y.toInt = (oam.read (4 * index)).toNat - 16 :=
  toInt_byte_sub _ 16 (by decide) (by decide)

theorem toInt_x_spriteAt (oam : Memory 0xA0) (index : Nat) :
    (spriteAt oam index).x.toInt = (oam.read (4 * index + 1)).toNat - 8 :=
  toInt_byte_sub _ 8 (by decide) (by decide)

theorem spriteAt?_eq (oam : Memory 0xA0) {index : Nat} (inside : index < 40) :
    spriteAt? oam index = some (spriteAt oam index) := by
  unfold spriteAt?
  rw [Memory.getElem?_eq_read oam (by omega), Memory.getElem?_eq_read oam (by omega),
    Memory.getElem?_eq_read oam (by omega), Memory.getElem?_eq_read oam (by omega)]
  rfl

theorem scanSafe (v : Video) : v.ScanSafe := by
  have height : v.raster.registers.spriteHeight ≤ 16 := by
    unfold VideoRegisters.spriteHeight
    split <;> omega
  have count := length_scanSprites v.oam v.raster.registers
  constructor
  case entries => exact fun index inside => spriteAt?_eq v.oam inside
  case tops => exact fun index _ => toInt_y_spriteAt v.oam index
  case bottoms =>
    intro index _
    have byte := (v.oam.read (4 * index)).toNat_lt
    rw [toInt_y_spriteAt]
    unfold FitsInt16
    omega
  case lefts => exact fun index _ => toInt_x_spriteAt v.oam index
  case penalty =>
    unfold minTransferDots
    omega

theorem beamSafe (r : Raster) (h : r.InRange) : BeamSafe r := by
  have boundary := h.boundary_le
  simp only [dotsPerLine] at boundary
  exact ⟨by omega, h.dot_lt⟩

theorem advanceSafe (v : Video) (h : v.raster.InRange) : v.atBoundary.AdvanceSafe := by
  have blank := h.blank
  have line := h.line
  have mode : v.atBoundary.raster.mode = v.raster.mode := rfl
  unfold AdvanceSafe
  split
  case h_1 => exact scanSafe _
  case h_2 transfer =>
    refine Scanline.lineSafe _ _ h.onScreen (Nat.lt_of_not_le fun below => ?_)
    have vertical := blank.mp below
    rw [mode, vertical] at transfer
    cases transfer
  case h_3 | h_4 =>
    simp only [linesPerFrame] at line
    change v.raster.registers.line.toNat + 1 < 0x100
    omega

theorem tickSafe (palette : Palette) (n : Nat) (v : Video) (h : v.raster.InRange)
    (requests : InterruptSet) : TickSafe palette (v.tick palette n requests).1 n v := by
  induction n using Nat.strongRecOn generalizing v requests with
  | ind n ih =>
    by_cases none : n = 0
    · rw [none, tick_zero]
      exact .still (.inl rfl)
    by_cases on : v.raster.registers.lcdOn = true
    · have before := h.dot_lt
      have beam := beamSafe v.raster h
      by_cases within : n < v.raster.boundary - v.raster.dot.toNat
      · rw [tick_within palette n v requests h on none within]
        exact .within beam within rfl
      -- Up to the end of the mode, and on from there with less time.
      · rw [tick_reach palette n v requests h on (by omega)]
        exact .reach beam (by omega) (advanceSafe v h)
          (ih _ (by omega) _ (inRange_advanceMode palette v h) _)
    · rw [tick_off palette n v requests on]
      exact .still (.inr on)

end Video
end DotMatrix
