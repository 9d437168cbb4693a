import DotMatrix.Proofs.Video.Background
import Mathlib.Data.List.Forall2

/-! Sprites a pixel at a time. A scan selects the first ten sprites that cover the line. Of those
that show something in a column the leftmost one is seen there, and of equally far ones the first in
memory; the painting, which goes from sprite to sprite and lets each keep what it gets, comes to the
same. -/
namespace DotMatrix

namespace VideoRegisters

def rows (r : VideoRegisters) : Nat := if r.controlBit 2 then 16 else 8

theorem spriteHeight_eq (r : VideoRegisters) : r.spriteHeight = r.rows := by
  unfold spriteHeight rows
  rw [r.tallSprites_eq]

end VideoRegisters

/-- The sprite stands at a place in sprite memory. The first two bytes are its position; a sprite at
16 and 8 is in the corner of the screen. -/
structure Sprite.IsEntry (oam : Memory 0xA0) (i : Nat) (s : Sprite) : Prop where
  y : s.y.toInt = (oam.read (4 * i)).toNat - 16
  x : s.x.toInt = (oam.read (4 * i + 1)).toNat - 8
  tile : s.tile = oam.read (4 * i + 2)
  flags : s.flags = oam.read (4 * i + 3)
  index : s.index.toNat = i

namespace Video

def entryCovers (oam : Memory 0xA0) (r : VideoRegisters) (i : Nat) : Bool :=
  (oam.read (4 * i)).toNat ≤ r.line.toNat + 16 &&
    r.line.toNat + 16 < (oam.read (4 * i)).toNat + r.rows

/-- The first ten places in sprite memory whose entries cover the line. -/
def selectedPlaces (oam : Memory 0xA0) (r : VideoRegisters) : List Nat :=
  ((List.range 40).filter (entryCovers oam r)).take 10

theorem isEntry_spriteAt (oam : Memory 0xA0) {i : Nat} (inside : i < 40) :
    (spriteAt oam i).IsEntry oam i where
  y := toInt_y_spriteAt oam i
  x := toInt_x_spriteAt oam i
  tile := rfl
  flags := rfl
  index := by
    change (UInt8.ofNat i).toNat = i
    rw [UInt8.toNat_ofNat']
    omega

theorem covers_spriteAt (oam : Memory 0xA0) (r : VideoRegisters) {i : Nat} (inside : i < 40) :
    covers r (spriteAt oam i) = entryCovers oam r i := by
  have y := (isEntry_spriteAt oam inside).y
  unfold covers entryCovers
  rw [y, r.spriteHeight_eq, Bool.eq_iff_iff]
  simp only [Bool.and_eq_true, decide_eq_true_eq]
  omega

theorem scanSprites_eq (oam : Memory 0xA0) (r : VideoRegisters) :
    scanSprites oam r = (selectedPlaces oam r).map (spriteAt oam) := by
  unfold scanSprites selectedPlaces
  rw [List.filter_map, ← List.map_take]
  congr 2
  apply List.filter_congr
  intro i inside
  exact covers_spriteAt oam r (List.mem_range.mp inside)

theorem lt_of_mem_selectedPlaces {oam : Memory 0xA0} {r : VideoRegisters} {i : Nat}
    (selected : i ∈ selectedPlaces oam r) : i < 40 :=
  List.mem_range.mp (List.mem_filter.mp (List.mem_of_mem_take selected)).1

theorem scanSprites_entries (oam : Memory 0xA0) (r : VideoRegisters) :
    List.Forall₂ (Sprite.IsEntry oam) (selectedPlaces oam r) (scanSprites oam r) := by
  rw [scanSprites_eq, List.forall₂_map_right_iff, List.forall₂_same]
  intro i selected
  exact isEntry_spriteAt oam (lt_of_mem_selectedPlaces selected)

theorem eq_of_index_eq {oam : Memory 0xA0} {r : VideoRegisters} {s t : Sprite}
    (hs : s ∈ scanSprites oam r) (ht : t ∈ scanSprites oam r) (same : s.index = t.index) :
    s = t := by
  rw [scanSprites_eq, List.mem_map] at hs ht
  obtain ⟨i, hi, rfl⟩ := hs
  obtain ⟨j, hj, rfl⟩ := ht
  have place : i = j := by
    rw [← (isEntry_spriteAt oam (lt_of_mem_selectedPlaces hi)).index,
      ← (isEntry_spriteAt oam (lt_of_mem_selectedPlaces hj)).index, same]
  rw [place]

end Video

namespace Scanline

/-- The sprite has a pixel in the column of the line, at the height in force. -/
structure Meets (r : VideoRegisters) (s : Sprite) (x : Nat) : Prop where
  top : s.y.toInt ≤ r.line.toNat
  bottom : r.line.toNat < s.y.toInt + r.rows
  left : s.x.toInt ≤ x
  right : x < s.x.toInt + 8

/-- The colour number of a sprite in a column of the line. Two bits of the flags turn the image over
and around; a tall one has an even tile above and the next below. -/
def spriteColor? (vram : Memory 0x2000) (r : VideoRegisters) (s : Sprite) (x : Nat) : Option Nat :=
  let down := (r.line.toNat - s.y.toInt).toNat
  let across := (x - s.x.toInt).toNat
  let row := if s.flags.toNat.testBit 6 then r.rows - 1 - down else down
  let column := if s.flags.toNat.testBit 5 then 7 - across else across
  let first := if r.controlBit 2 then 2 * (s.tile.toNat / 2) else s.tile.toNat
  tileColor? vram (0x8000 + 16 * (first + row / 8)) (row % 8) column

/-- The sprite shows something in the column; colour number 0 is transparent. -/
def Opaque (vram : Memory 0x2000) (r : VideoRegisters) (s : Sprite) (x : Nat) : Prop :=
  Meets r s x ∧ ∃ color, spriteColor? vram r s x = some color ∧ color ≠ 0

/-- The sprite is the leftmost one of those that show something in the column, and the first in
memory of equally far ones. -/
structure IsFront (vram : Memory 0x2000) (r : VideoRegisters) (sprites : List Sprite) (x : Nat)
    (s : Sprite) : Prop where
  selected : s ∈ sprites
  shows : Opaque vram r s x
  first : ∀ t ∈ sprites, Opaque vram r t x →
    s.x.toInt < t.x.toInt ∨ s.x = t.x ∧ s.index ≤ t.index

def spritePalette (r : VideoRegisters) (s : Sprite) : UInt8 :=
  if s.flags.toNat.testBit 4 then r.spritePalette1 else r.spritePalette0

def spotAt? (vram : Memory 0x2000) (r : VideoRegisters) (x : Nat) (s : Sprite) : Option Spot :=
  match spriteRow? r s with
  | none => none
  | some row =>
    if s.x.toInt ≤ x ∧ x < s.x.toInt + 8 then spot? vram r s row (x - s.x.toInt).toNat else none

theorem getElem_occupy (layer : Line (Option Spot)) (column : Int) (spot : Option Spot) {x : Nat}
    (inside : x < 160) :
    (occupy layer column spot)[x] = layer[x].or (if column = x then spot else none) := by
  unfold occupy
  split
  case isTrue left =>
    have elsewhere : ¬column = x := by omega
    rw [if_neg elsewhere, Option.or_none]
  case isFalse =>
    by_cases here : column = x
    · have place : column.toNat = x := by omega
      rw [if_pos here, place, Vector.getElem?_eq_getElem inside]
      cases free : layer[x] with
      | none => simp
      | some taken => exact free
    · rw [if_neg here, Option.or_none]
      split
      · rw [Vector.getElem_setIfInBounds, if_neg (by omega)]
      · rfl

theorem getElem_occupyFrom (layer : Line (Option Spot)) (start : Int) (n : Nat)
    (spots : Nat → Option Spot) {x : Nat} (inside : x < 160) :
    (Fin.foldl n (fun layer px => occupy layer (start + (px : Nat)) (spots px)) layer)[x] =
      layer[x].or (if start ≤ x ∧ x < start + n then spots (x - start).toNat else none) := by
  induction n with
  | zero =>
    rw [Fin.foldl_zero, if_neg (by omega), Option.or_none]
  | succ n ih =>
    rw [Fin.foldl_succ_last, Fin.val_last, getElem_occupy _ _ _ inside]
    simp only [Fin.val_castSucc]
    rw [ih, Option.or_assoc]
    congr 1
    -- A column is reached once at most, so that it does not matter who comes first.
    by_cases last : start + n = x
    · have column : (x - start).toNat = n := by omega
      rw [if_neg (by omega), if_pos last, if_pos (by omega), column, Option.none_or]
    · rw [if_neg last, Option.or_none]
      apply if_congr _ rfl rfl
      push_cast
      omega

theorem getElem_paint (vram : Memory 0x2000) (r : VideoRegisters) (layer : Line (Option Spot))
    (s : Sprite) {x : Nat} (inside : x < 160) :
    (paint vram r layer s)[x] = layer[x].or (spotAt? vram r x s) := by
  unfold paint spotAt?
  cases spriteRow? r s with
  | none => exact (Option.or_none).symm
  | some row => exact getElem_occupyFrom layer _ 8 _ inside

/-- A column goes to the first sprite that has something to put there. -/
theorem getElem_foldl_paint (vram : Memory 0x2000) (r : VideoRegisters) (sprites : List Sprite)
    (layer : Line (Option Spot)) {x : Nat} (inside : x < 160) :
    (sprites.foldl (paint vram r) layer)[x] =
      layer[x].or (sprites.findSome? (spotAt? vram r x)) := by
  induction sprites generalizing layer with
  | nil =>
    rw [List.foldl_nil, List.findSome?_nil, Option.or_none]
  | cons s sprites ih =>
    rw [List.foldl_cons, ih, getElem_paint vram r layer s inside, Option.or_assoc,
      List.findSome?_cons]
    cases spotAt? vram r x s <;> rfl

theorem toNat_even (tile : UInt8) : (tile &&& 0xFE).toNat = 2 * (tile.toNat / 2) := by
  have masked : ∀ n < 256, n &&& 0xFE = 2 * (n / 2) := by decide +kernel
  rw [UInt8.toNat_and]
  exact masked tile.toNat tile.toNat_lt

theorem flippedY_eq (s : Sprite) : s.flippedY = s.flags.toNat.testBit 6 :=
  and_mask_ne_zero _ _ 6 rfl

theorem flippedX_eq (s : Sprite) : s.flippedX = s.flags.toNat.testBit 5 :=
  and_mask_ne_zero _ _ 5 rfl

theorem secondPalette_eq (s : Sprite) : s.secondPalette = s.flags.toNat.testBit 4 :=
  and_mask_ne_zero _ _ 4 rfl

theorem behindBackground_eq (s : Sprite) : s.behindBackground = s.flags.toNat.testBit 7 :=
  and_mask_ne_zero _ _ 7 rfl

theorem spriteTile_eq (r : VideoRegisters) (s : Sprite) (row : Nat) :
    spriteTile r s row =
      16 * ((if r.controlBit 2 then 2 * (s.tile.toNat / 2) else s.tile.toNat) + row / 8) := by
  unfold spriteTile
  rw [r.tallSprites_eq]
  dsimp only
  split
  · rw [toNat_even]
  · rfl

theorem spriteRow?_eq (r : VideoRegisters) (s : Sprite) :
    spriteRow? r s =
      if s.y.toInt ≤ r.line.toNat ∧ r.line.toNat < s.y.toInt + r.rows then
        let down := (r.line.toNat - s.y.toInt).toNat
        some (if s.flags.toNat.testBit 6 then r.rows - 1 - down else down)
      else none := by
  unfold spriteRow?
  rw [r.spriteHeight_eq, flippedY_eq]
  apply if_congr _ rfl rfl
  omega

theorem spriteColor?_eq (vram : Memory 0x2000) {r : VideoRegisters} {s : Sprite} {x row : Nat}
    (reached : spriteRow? r s = some row) (left : s.x.toInt ≤ x) (right : x < s.x.toInt + 8) :
    spriteColor? vram r s x =
      some (spriteColor vram r s row (x - s.x.toInt).toNat).toNat := by
  have inside := tileSafe_sprite r s row (x - s.x.toInt).toNat reached (by omega)
  unfold spriteColor
  rw [← tileColor?_eq vram inside, spriteTile_eq]
  rw [spriteRow?_eq] at reached
  split at reached
  case isTrue =>
    cases reached
    unfold spriteColor? spriteColumn
    rw [flippedX_eq]
    push_cast
    rfl
  case isFalse => cases reached

theorem spotAt?_of_not_meets (vram : Memory 0x2000) {r : VideoRegisters} {s : Sprite} {x : Nat}
    (apart : ¬Meets r s x) : spotAt? vram r x s = none := by
  unfold spotAt?
  rw [spriteRow?_eq]
  by_cases rows : s.y.toInt ≤ r.line.toNat ∧ r.line.toNat < s.y.toInt + r.rows
  · have columns : ¬(s.x.toInt ≤ x ∧ x < s.x.toInt + 8) := fun columns =>
      apart ⟨rows.1, rows.2, columns.1, columns.2⟩
    rw [if_pos rows]
    exact if_neg columns
  · rw [if_neg rows]

theorem spotAt?_of_meets (vram : Memory 0x2000) {r : VideoRegisters} {s : Sprite} {x : Nat}
    (meets : Meets r s x) :
    ∃ color : UInt8, color.toNat ≤ 3 ∧ spriteColor? vram r s x = some color.toNat ∧
      spotAt? vram r x s =
        if color == 0 then none
        else some ⟨shade (spritePalette r s) color, s.behindBackground⟩ := by
  obtain ⟨row, reached⟩ : ∃ row, spriteRow? r s = some row := by
    rw [spriteRow?_eq, if_pos ⟨meets.top, meets.bottom⟩]
    exact ⟨_, rfl⟩
  refine ⟨_, tilePixel_le .., spriteColor?_eq vram reached meets.left meets.right, ?_⟩
  unfold spotAt? spritePalette
  rw [reached, ← secondPalette_eq]
  exact if_pos ⟨meets.left, meets.right⟩

theorem spotAt?_eq_none_iff (vram : Memory 0x2000) (r : VideoRegisters) (s : Sprite) (x : Nat) :
    spotAt? vram r x s = none ↔ ¬Opaque vram r s x := by
  by_cases meets : Meets r s x
  · obtain ⟨color, _, number, spot⟩ := spotAt?_of_meets vram meets
    rw [spot]
    unfold Opaque
    simp [meets, number, ← UInt8.toNat_inj]
  · have clear : ¬Opaque vram r s x := fun shows => meets shows.1
    exact iff_of_true (spotAt?_of_not_meets vram meets) clear

theorem goesBefore_iff (s t : Sprite) :
    goesBefore s t = true ↔
      s.x.toInt < t.x.toInt ∨ s.x.toInt = t.x.toInt ∧ s.index.toNat ≤ t.index.toNat := by
  unfold goesBefore
  simp only [Bool.or_eq_true, Bool.and_eq_true, decide_eq_true_eq, beq_iff_eq,
    Int16.lt_iff_toInt_lt, UInt8.le_iff_toNat_le, Int16.toInt_inj]

theorem pairwise_goesBefore (sprites : List Sprite) :
    (sprites.mergeSort goesBefore).Pairwise (goesBefore · ·) := by
  apply List.pairwise_mergeSort
  · intro s t u
    simp only [goesBefore_iff]
    omega
  · intro s t
    simp only [Bool.or_eq_true, goesBefore_iff]
    omega

/-- The first spot in the order of painting is that of the sprite in front. -/
theorem exists_isFront {vram : Memory 0x2000} {r : VideoRegisters} {sprites : List Sprite} {x : Nat}
    {spot : Spot}
    (painted : (sprites.mergeSort goesBefore).findSome? (spotAt? vram r x) = some spot) :
    ∃ s, IsFront vram r sprites x s ∧ spotAt? vram r x s = some spot := by
  -- What stands before `s` shows nothing here, and what stands behind it goes after it.
  obtain ⟨before, s, after, order, shows, clear⟩ := List.findSome?_eq_some_iff.mp painted
  have sorted := pairwise_goesBefore sprites
  have member (t : Sprite) : t ∈ sprites ↔ t ∈ before ++ s :: after := by
    rw [← order, List.mem_mergeSort]
  rw [order, List.pairwise_append, List.pairwise_cons] at sorted
  refine ⟨s, ⟨(member s).mpr (by simp), ?_, ?_⟩, shows⟩
  · by_contra transparent
    rw [(spotAt?_eq_none_iff vram r s x).mpr transparent] at shows
    cases shows
  · intro t selected visible
    rcases List.mem_append.mp ((member t).mp selected) with earlier | later
    · exact absurd visible ((spotAt?_eq_none_iff vram r t x).mp (clear t earlier))
    · rcases List.mem_cons.mp later with rfl | later
      · exact .inr ⟨rfl, UInt8.le_refl _⟩
      · have first := (goesBefore_iff s t).mp (sorted.2.1.1 t later)
        rwa [Int16.toInt_inj, ← UInt8.le_iff_toNat_le] at first

theorem getElem_spriteLayer (vram : Memory 0x2000) {r : Raster} {x : Nat} (inside : x < 160)
    (on : r.registers.controlBit 1 = true) :
    (spriteLayer vram r)[x] =
      (r.sprites.mergeSort goesBefore).findSome? (spotAt? vram r.registers x) := by
  unfold spriteLayer
  rw [r.registers.spritesOn_eq, on]
  refine (getElem_foldl_paint vram r.registers _ _ inside).trans ?_
  rw [Vector.getElem_replicate, Option.none_or]

theorem IsFront.unique {vram : Memory 0x2000} {r : VideoRegisters} {sprites : List Sprite} {x : Nat}
    {s t : Sprite} (distinct : ∀ s ∈ sprites, ∀ t ∈ sprites, s.index = t.index → s = t)
    (hs : IsFront vram r sprites x s) (ht : IsFront vram r sprites x t) : s = t := by
  have st := hs.first t ht.selected ht.shows
  have ts := ht.first s hs.selected hs.shows
  rw [← Int16.toInt_inj, UInt8.le_iff_toNat_le] at st ts
  have place : s.index.toNat = t.index.toNat := by omega
  exact distinct s hs.selected t ht.selected (UInt8.toNat_inj.mp place)

end Scanline

namespace Video
open Scanline

/-- The sprite, if it is in front, stays behind background and window in the column. -/
def Hides (v : Video) (x : Nat) (s : Sprite) : Prop :=
  s.flags.toNat.testBit 7 = true ∧ v.raster.registers.controlBit 0 = true ∧
    groundColor? v.vram v.raster x ≠ some 0

/-- What a column of the line comes to while sprites are on. -/
structure ColumnShows (palette : Palette) (v : Video) (x : Nat) (pixel : UInt32) : Prop where
  colors : ∀ s ∈ v.raster.sprites, Meets v.raster.registers s x →
    ∃ color ≤ 3, spriteColor? v.vram v.raster.registers s x = some color
  front : (∃ s ∈ v.raster.sprites, Opaque v.vram v.raster.registers s x) →
    ∃! s, IsFront v.vram v.raster.registers v.raster.sprites x s
  clear : (∀ s ∈ v.raster.sprites, ¬Opaque v.vram v.raster.registers s x) →
    groundPixel? palette v x = some pixel
  hidden : ∀ s, IsFront v.vram v.raster.registers v.raster.sprites x s → Hides v x s →
    groundPixel? palette v x = some pixel
  seen : ∀ s, IsFront v.vram v.raster.registers v.raster.sprites x s → ¬Hides v x s →
    (spriteColor? v.vram v.raster.registers s x).map
      (palette.through (spritePalette v.raster.registers s)) = some pixel

theorem hides_iff (v : Video) (s : Sprite) {x : Nat} (inside : x < 160) :
    (s.behindBackground && v.raster.registers.backgroundOn &&
      (background v.vram v.raster)[x] != 0) = true ↔ Hides v x s := by
  unfold Hides
  rw [groundColor?_eq v.vram v.raster inside, behindBackground_eq,
    v.raster.registers.backgroundOn_eq, ne_eq, Option.some_inj, ← UInt8.toNat_zero,
    UInt8.toNat_inj, Bool.and_eq_true, Bool.and_eq_true, bne_iff_ne, and_assoc]

theorem columnShows_drawLine (palette : Palette) (v : Video)
    (distinct : ∀ s ∈ v.raster.sprites, ∀ t ∈ v.raster.sprites, s.index = t.index → s = t)
    (on : v.raster.registers.controlBit 1 = true) (shown : v.raster.registers.line.toNat < 144)
    {x : Nat} (inside : x < 160) :
    ∃ pixel, (v.drawLine palette).frame[160 * v.raster.registers.line.toNat + x]? = some pixel ∧
      ColumnShows palette v x pixel := by
  have colors (s : Sprite) (meets : Meets v.raster.registers s x) :
      ∃ color ≤ 3, spriteColor? v.vram v.raster.registers s x = some color := by
    obtain ⟨color, number, found, _⟩ := spotAt?_of_meets v.vram meets
    exact ⟨color.toNat, number, found⟩
  refine ⟨_, Vector.getElem?_eq_getElem (by omega), ?_⟩
  rw [getElem_drawLine palette v inside shown, getElem_spriteLayer v.vram inside on]
  cases painted : (v.raster.sprites.mergeSort goesBefore).findSome?
      (spotAt? v.vram v.raster.registers x) with
  | none =>
    have clear (s : Sprite) (selected : s ∈ v.raster.sprites) :
        ¬Opaque v.vram v.raster.registers s x :=
      (spotAt?_eq_none_iff ..).mp
        (List.findSome?_eq_none_iff.mp painted s (List.mem_mergeSort.mpr selected))
    exact
      { colors := fun s _ => colors s
        front := by
          rintro ⟨s, selected, shows⟩
          exact absurd shows (clear s selected)
        clear := fun _ => groundPixel?_eq palette v inside
        hidden := fun s front _ => absurd front.shows (clear s front.selected)
        seen := fun s front _ => absurd front.shows (clear s front.selected) }
  | some spot =>
    obtain ⟨w, front, shows⟩ := exists_isFront painted
    obtain ⟨color, number, found, spotted⟩ := spotAt?_of_meets v.vram front.shows.1
    have solid : (color == 0) = false := by
      cases transparent : color == 0 with
      | false => rfl
      | true => rw [spotted, transparent] at shows; cases shows
    rw [spotted, solid] at shows
    cases shows
    have unique (s : Sprite) (other : IsFront v.vram v.raster.registers v.raster.sprites x s) :
        s = w := other.unique distinct front
    refine
      { colors := fun s _ => colors s
        front := fun _ => ⟨w, front, unique⟩
        clear := fun clear => absurd front.shows (clear w front.selected)
        hidden := ?_
        seen := ?_ }
    · intro s other hides
      rw [unique s other] at hides
      unfold join
      dsimp only
      rw [if_pos ((hides_iff v w inside).mpr hides)]
      exact groundPixel?_eq palette v inside
    · intro s other visible
      rw [unique s other] at visible ⊢
      unfold join
      dsimp only
      rw [if_neg (mt (hides_iff v w inside).mp visible), found, colorOf_shade _ _ _ number]
      rfl

/-- Sprites on a line. The scan selects the first ten entries that cover the line, in their order;
and whatever registers have changed between such a scan and the drawing of the line, every column
shows the sprite in front, or background and window where there is none or they hide it. -/
theorem drawLine_sprites (palette : Palette) (oam : Memory 0xA0) (g : VideoRegisters) :
    List.Forall₂ (Sprite.IsEntry oam) (selectedPlaces oam g) (scanSprites oam g) ∧
      (∀ v : Video, v.raster.mode = .oamScan →
        (v.advanceMode palette).1.raster.sprites = scanSprites v.oam v.raster.registers) ∧
      ∀ v : Video, v.raster.sprites = scanSprites oam g →
        v.raster.registers.controlBit 1 = true → v.raster.registers.line.toNat < 144 →
        ∀ x < 160, ∃ pixel,
          (v.drawLine palette).frame[160 * v.raster.registers.line.toNat + x]? = some pixel ∧
            ColumnShows palette v x pixel := by
  refine ⟨scanSprites_entries oam g, fun v scans => ?_, fun v scanned on shown x inside => ?_⟩
  · unfold advanceMode
    rw [scans]
    rfl
  · refine columnShows_drawLine palette v ?_ on shown inside
    rw [scanned]
    exact fun s hs t ht => eq_of_index_eq hs ht

/-- Two sprites of a black tile that overlap. The second in memory is further left; they have
different palettes. -/
def overlapping : Video :=
  let dark := powerOn .grey
  let oam : Memory 0xA0 := Vector.ofFn fun offset =>
    ([16, 12, 1, 0x10, 16, 10, 1, 0] : List UInt8)[offset.val]?.getD 0
  let registers := { dark.raster.registers with
    control := 0x82, spritePalette0 := 0xE4, spritePalette1 := 0x55 }
  { dark with
    vram := Vector.ofFn fun offset => if offset.val / 16 = 1 then 0xFF else 0
    oam
    raster := { dark.raster with registers, sprites := scanSprites oam registers } }

def leftmost : Sprite := { y := 0, x := 2, tile := 1, flags := 0, index := 1 }
def overlapped : Sprite := { y := 0, x := 4, tile := 1, flags := 0x10, index := 0 }

theorem sprites_overlapping : overlapping.raster.sprites = [overlapped, leftmost] := by
  decide +kernel

theorem spriteColor?_overlapping :
    spriteColor? overlapping.vram overlapping.raster.registers leftmost 4 = some 3 := by
  have low : overlapping.vram.atAddress? 0x8010 = _ := atAddress?_ofFn _ (by decide : 16 < 0x2000)
  have high : overlapping.vram.atAddress? 0x8011 = _ := atAddress?_ofFn _ (by decide : 17 < 0x2000)
  change tileColor? overlapping.vram 0x8010 0 2 = _
  unfold tileColor?
  change (overlapping.vram.atAddress? 0x8010).bind
    (fun low => (overlapping.vram.atAddress? 0x8011).bind _) = _
  rw [low, high]
  rfl

theorem isFront_leftmost :
    IsFront overlapping.vram overlapping.raster.registers overlapping.raster.sprites 4
      leftmost where
  selected := by
    rw [sprites_overlapping]
    decide
  shows := ⟨⟨by decide, by decide, by decide, by decide⟩, 3, spriteColor?_overlapping, by decide⟩
  first t selected _ := by
    have further : ∀ t ∈ [overlapped, leftmost], leftmost.x.toInt < t.x.toInt ∨
        leftmost.x = t.x ∧ leftmost.index ≤ t.index := by
      decide
    rw [sprites_overlapping] at selected
    exact further t selected

theorem drawLine_sprites_overlapping :
    overlapping.raster.sprites = scanSprites overlapping.oam overlapping.raster.registers ∧
      (overlapping.drawLine .grey).frame[4]? = some 0x00000000 := by
  have scanned :
      overlapping.raster.sprites = scanSprites overlapping.oam overlapping.raster.registers := by
    simp only [overlapping]
  obtain ⟨pixel, drawn, column⟩ :=
    (drawLine_sprites .grey overlapping.oam overlapping.raster.registers).2.2
      overlapping scanned rfl (by decide) 4 (by decide)
  have visible : ¬Hides overlapping 4 leftmost := fun hides => by
    cases hides.1
  have black := column.seen leftmost isFront_leftmost visible
  rw [spriteColor?_overlapping] at black
  exact ⟨scanned, drawn.trans black.symm⟩

end Video
end DotMatrix
