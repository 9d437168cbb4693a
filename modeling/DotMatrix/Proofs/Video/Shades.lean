import DotMatrix.Video.Timing

/-! The colours of the picture are put on last: everywhere the unit settles a shade, and the palette
of the host turns it into a colour. Two units that differ in the palette alone draw the same shades
and do everything else alike. -/
namespace DotMatrix

def Palette.SameShade (p q : Palette) (c d : UInt32) : Prop :=
  ∃ shade : Fin 4, c = p[shade] ∧ d = q[shade]

theorem Palette.SameShade.colorOf (p q : Palette) (shade : UInt8) :
    p.SameShade q (Scanline.colorOf p shade) (Scanline.colorOf q shade) :=
  ⟨⟨shade.toNat % 4, Nat.mod_lt _ (by decide)⟩, rfl, rfl⟩

def Frame.Alike (p q : Palette) (f g : Frame) : Prop :=
  ∀ i (inside : i < 23040), p.SameShade q f[i] g[i]

theorem foldl_relates {α β : Type} {rel : α → β → Prop} (n : Nat) (f : α → Fin n → α)
    (g : β → Fin n → β) {a : α} {b : β} (start : rel a b)
    (steps : ∀ a b i, rel a b → rel (f a i) (g b i)) :
    rel (Fin.foldl n f a) (Fin.foldl n g b) := by
  induction n with
  | zero =>
    rw [Fin.foldl_zero, Fin.foldl_zero]
    exact start
  | succ n ih =>
    rw [Fin.foldl_succ_last, Fin.foldl_succ_last]
    exact steps _ _ _ (ih _ _ fun a b i => steps a b _)

namespace Frame.Alike
variable {p q : Palette} {f g : Frame}

theorem filled {c d : UInt32} (same : p.SameShade q c d) : Alike p q (.filled c) (.filled d) := by
  intro i inside
  unfold Frame.filled
  rw [Vector.getElem_replicate, Vector.getElem_replicate]
  exact same

theorem setIfInBounds (h : Alike p q f g) (i : Nat) {c d : UInt32} (same : p.SameShade q c d) :
    Alike p q (f.setIfInBounds i c) (g.setIfInBounds i d) := by
  intro j inside
  rw [Vector.getElem_setIfInBounds, Vector.getElem_setIfInBounds]
  split
  · exact same
  · exact h j inside

theorem setRow (h : Alike p q f g) (line : Nat) {row row' : Vector UInt32 160}
    (same : ∀ x (inside : x < 160), p.SameShade q row[x] row'[x]) :
    Alike p q (f.setRow line row) (g.setRow line row') :=
  foldl_relates 160 _ _ h fun _ _ x drawn => drawn.setIfInBounds _ (same x x.isLt)

theorem drawn (h : Alike p q f g) (line : Nat) (shades : Scanline.Line UInt8) :
    Alike p q (f.setRow line (shades.map (Scanline.colorOf p)))
      (g.setRow line (shades.map (Scanline.colorOf q))) := by
  refine h.setRow line fun x inside => ?_
  rw [Vector.getElem_map, Vector.getElem_map]
  exact .colorOf p q _

end Frame.Alike

namespace Video
variable {p q : Palette} {v w : Video}

/-- The other unit is this one with its picture in the colours of the other palette. -/
inductive Alike (p q : Palette) (v : Video) : Video → Prop
  | recolored (frame : Frame) (same : v.frame.Alike p q frame) : Alike p q v { v with frame }

def AlikeAfter (p q : Palette) (x y : Video × InterruptSet) : Prop :=
  x.1.Alike p q y.1 ∧ x.2 = y.2

namespace Alike

theorem powerOn (p q : Palette) : (Video.powerOn p).Alike p q (.powerOn q) :=
  .recolored _ (.filled ⟨0, rfl, rfl⟩)

theorem raster (h : v.Alike p q w) : v.raster = w.raster := by
  obtain ⟨frame, same⟩ := h
  rfl

theorem frameReady (h : v.Alike p q w) : v.frameReady = w.frameReady := by
  obtain ⟨frame, same⟩ := h
  rfl

theorem withFrameReady (h : v.Alike p q w) (frameReady : Bool) :
    { v with frameReady }.Alike p q { w with frameReady } := by
  obtain ⟨frame, same⟩ := h
  exact .recolored frame same

theorem updateRaster (h : v.Alike p q w) (change : Raster → Raster × InterruptSet) :
    AlikeAfter p q (v.updateRaster change) (w.updateRaster change) := by
  obtain ⟨frame, same⟩ := h
  exact ⟨.recolored frame same, rfl⟩

theorem drawLine (h : v.Alike p q w) : (v.drawLine p).Alike p q (w.drawLine q) := by
  obtain ⟨frame, same⟩ := h
  unfold Video.drawLine
  refine .recolored _ ?_
  dsimp only
  exact same.drawn v.raster.registers.line.toNat (Scanline.shades v.vram v.raster)

theorem nextLine (h : v.Alike p q w) : AlikeAfter p q v.nextLine w.nextLine := by
  obtain ⟨frame, same⟩ := h
  unfold Video.nextLine
  dsimp only
  split
  · exact ⟨.recolored frame same, rfl⟩
  · split
    · exact ⟨.recolored frame same, rfl⟩
    · exact ⟨.recolored frame same, rfl⟩

theorem advanceMode (h : v.Alike p q w) :
    AlikeAfter p q (v.advanceMode p) (w.advanceMode q) := by
  unfold Video.advanceMode
  rw [h.raster]
  split
  · obtain ⟨frame, same⟩ := h
    exact ⟨.recolored frame same, rfl⟩
  · exact h.drawLine.updateRaster _
  · exact h.nextLine
  · exact h.nextLine

theorem tick (h : v.Alike p q w) (n : Nat) (requests : InterruptSet) :
    AlikeAfter p q (v.tick p n requests) (w.tick q n requests) := by
  induction n using Nat.strongRecOn generalizing v w requests with
  | ind n ih =>
    obtain ⟨frame, same⟩ := h
    unfold Video.tick
    dsimp only
    split
    case isTrue => exact ⟨.recolored frame same, rfl⟩
    case isFalse goes =>
      split
      case isTrue => exact ⟨.recolored frame same, rfl⟩
      case isFalse =>
        obtain ⟨next, more⟩ := advanceMode (.recolored frame same :
          Alike p q { v with raster := { v.raster with dot := UInt16.ofNat v.raster.boundary } } _)
        rw [more]
        exact ih _ (by omega) next _

theorem writeControl (h : v.Alike p q w) (value : UInt8) :
    AlikeAfter p q (v.writeControl p value) (w.writeControl q value) := by
  obtain ⟨frame, same⟩ := h
  unfold Video.writeControl
  dsimp only
  split
  · exact ⟨.recolored _ (.filled ⟨0, rfl, rfl⟩), rfl⟩
  · split
    · exact ⟨.recolored frame same, rfl⟩
    · exact ⟨.recolored frame same, rfl⟩

theorem write (h : v.Alike p q w) (address : UInt16) (value : UInt8) :
    AlikeAfter p q (v.write p address value) (w.write q address value) := by
  unfold Video.write
  split
  case h_1 => exact h.writeControl value
  case h_11 => exact ⟨h, rfl⟩
  all_goals exact h.updateRaster _

theorem read (h : v.Alike p q w) (address : UInt16) : v.read address = w.read address := by
  unfold Video.read
  rw [h.raster]

end Alike
end Video
end DotMatrix
