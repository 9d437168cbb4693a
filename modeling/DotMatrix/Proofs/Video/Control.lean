import DotMatrix.Proofs.Range.Board

/-! What a write to the control register does to the picture unit, and what time does to its
registers: the one may switch the LCD, and the other goes through the lines. -/
namespace DotMatrix.Video
variable {v : Video}

theorem write_elsewhere (palette : Palette) {address : UInt16} (value : UInt8)
    (elsewhere : Region.ofAddress address ≠ .video) :
    v.write palette address value = (v, ∅) := by
  unfold write
  split
  case h_11 => rfl
  all_goals exact absurd (by decide) elsewhere

theorem registers_nextLine (v : Video) :
    v.nextLine.1.raster.registers =
      { v.raster.registers with line := v.nextLine.1.raster.registers.line } := by
  unfold nextLine
  dsimp only
  repeat' split
  all_goals rfl

theorem registers_advanceMode (palette : Palette) (v : Video) :
    (v.advanceMode palette).1.raster.registers =
      { v.raster.registers with line := (v.advanceMode palette).1.raster.registers.line } := by
  unfold advanceMode
  split
  · rfl
  · rfl
  · exact registers_nextLine v
  · exact registers_nextLine v

theorem registers_tick (palette : Palette) (n : Nat) (v : Video) (requests : InterruptSet) :
    (v.tick palette n requests).1.raster.registers =
      { v.raster.registers with
        line := (v.tick palette n requests).1.raster.registers.line } := by
  fun_induction tick palette n v requests with
  | case1 | case2 => rfl
  | case3 cycles v requests left stays passes r next more entered ih =>
    have advanced := registers_advanceMode palette v.atBoundary
    rw [show v.atBoundary.advanceMode palette = (next, more) from entered] at advanced
    rw [ih, advanced]
    rfl

theorem lcdOn_tick (palette : Palette) (n : Nat) (v : Video) (requests : InterruptSet) :
    (v.tick palette n requests).1.raster.registers.lcdOn = v.raster.registers.lcdOn := by
  rw [registers_tick]
  rfl

def controlled (value : UInt8) (v : Video) : Video :=
  { v with raster := { v.raster with registers := { v.raster.registers with control := value } } }

section WriteControl
variable (palette : Palette) {value : UInt8}

theorem writeControl_off (on : v.raster.registers.lcdOn = true) (off : value &&& 0x80 = 0) :
    v.writeControl palette value = ((v.controlled value).switchOff palette, ∅) := by
  have power : { v.raster.registers with control := value }.lcdOn = false :=
    bne_eq_false_iff_eq.mpr off
  unfold writeControl
  dsimp only
  rw [on, power]
  rfl

theorem writeControl_on (dark : v.raster.registers.lcdOn = false) (on : value &&& 0x80 ≠ 0) :
    v.writeControl palette value = (v.controlled value).updateRaster switchOn := by
  have power : { v.raster.registers with control := value }.lcdOn = true := bne_iff_ne.mpr on
  unfold writeControl
  dsimp only
  rw [dark, power]
  rfl

theorem writeControl_kept (kept : (value &&& 0x80 != 0) = v.raster.registers.lcdOn) :
    v.writeControl palette value = (v.controlled value, ∅) := by
  have power : { v.raster.registers with control := value }.lcdOn = v.raster.registers.lcdOn :=
    kept
  unfold writeControl
  dsimp only
  rw [power]
  cases v.raster.registers.lcdOn <;> rfl

theorem lcdOn_writeControl (value : UInt8) (v : Video) :
    (v.writeControl palette value).1.raster.registers.lcdOn = (value &&& 0x80 != 0) := by
  unfold writeControl
  dsimp only
  split
  · rfl
  · split <;> rfl

end WriteControl
end DotMatrix.Video
