import DotMatrix.Proofs.Range.Clock

/-! The ranges that the beam keeps. The mode goes with the line, the dot lies between the
boundaries of the mode, and the selected sprites are on the screen. -/
namespace DotMatrix

theorem toInt_byte (b : UInt8) : b.toUInt16.toInt16.toInt = b.toNat := by
  have small := b.toNat_lt
  change b.toUInt16.toBitVec.toInt = _
  rw [BitVec.toInt_eq_toNat_of_lt]
  · rfl
  · change 2 * b.toNat < 2 ^ 16
    omega

theorem toInt_byte_sub (b : UInt8) (k : Int16) (low : 0 ≤ k.toInt) (high : k.toInt ≤ 16) :
    (b.toUInt16.toInt16 - k).toInt = b.toNat - k.toInt := by
  have small := b.toNat_lt
  rw [Int16.toInt_sub, toInt_byte]
  apply Int.bmod_eq_of_le <;> omega

namespace Raster

structure InRange (r : Raster) : Prop where
  spriteCount : r.sprites.length ≤ 10
  onScreen : ∀ s ∈ r.sprites, s.onScreen = true
  line : r.registers.line.toNat < linesPerFrame
  blank : screenHeight ≤ r.registers.line.toNat ↔ r.mode = .verticalBlank
  shortest : minTransferDots ≤ r.transferDots.toNat
  longest : r.transferDots.toNat ≤ maxTransferDots
  dot : r.dotRange.1 ≤ r.dot.toNat ∧ r.dot.toNat < r.dotRange.2

theorem checkLayout_eq_ok (r : Raster) : r.checkLayout = .ok () ↔ r.InRange := by
  have blank : decide (r.registers.line.toNat ≥ screenHeight) = (r.mode == .verticalBlank) ↔
      (screenHeight ≤ r.registers.line.toNat ↔ r.mode = .verticalBlank) := by
    rw [Bool.eq_iff_iff, decide_eq_true_iff, beq_iff_eq]
  simp only [checkLayout, Except.andThen_eq_ok, require_eq_ok, Bool.and_eq_true, beq_iff_eq,
    decide_eq_true_eq, List.all_eq_true, blank]
  constructor
  · rintro ⟨count, onScreen, line, blank, ⟨shortest, longest⟩, dot⟩
    exact ⟨count, onScreen, line, blank, shortest, longest, dot⟩
  · intro h
    exact ⟨h.spriteCount, h.onScreen, h.line, h.blank, ⟨h.shortest, h.longest⟩, h.dot⟩

namespace InRange
variable {r : Raster}

theorem status (h : r.InRange) (coincidence statusLine : Bool) :
    { r with coincidence, statusLine }.InRange :=
  ⟨h.spriteCount, h.onScreen, h.line, h.blank, h.shortest, h.longest, h.dot⟩

theorem updateStatus (h : r.InRange) : r.updateStatus.1.InRange := h.status _ _

theorem updateCoincidence (h : r.InRange) : r.updateCoincidence.1.InRange := h.status _ _

theorem startLine (h : r.InRange) (registers : VideoRegisters) (windowLine : UInt8)
    (windowReached : Bool) (shown : registers.line.toNat < screenHeight) :
    (Raster.startLine { r with dot := 0, registers, windowLine, windowReached }).InRange where
  spriteCount := h.spriteCount
  onScreen := h.onScreen
  line := by
    simp only [screenHeight, linesPerFrame, Raster.startLine] at *
    omega
  blank := by
    simp only [screenHeight, Raster.startLine, reduceCtorEq, iff_false] at *
    omega
  shortest := h.shortest
  longest := h.longest
  dot := ⟨Nat.le_refl 0, (by decide : 0 < oamScanDots)⟩

theorem blankLine (h : r.InRange) (registers : VideoRegisters)
    (below : screenHeight ≤ registers.line.toNat) (inside : registers.line.toNat < linesPerFrame) :
    { r with dot := 0, registers, mode := .verticalBlank }.InRange where
  spriteCount := h.spriteCount
  onScreen := h.onScreen
  line := inside
  blank := ⟨fun _ => rfl, fun _ => below⟩
  shortest := h.shortest
  longest := h.longest
  dot := ⟨Nat.le_refl 0, (by decide : 0 < dotsPerLine)⟩

theorem dark (h : r.InRange) (registers : VideoRegisters) (top : registers.line = 0)
    (off : registers.lcdOn = false) :
    { r with
      registers, dot := 0, mode := .horizontalBlank, statusLine := false, windowReached := false
      windowLine := 0 }.InRange where
  spriteCount := h.spriteCount
  onScreen := h.onScreen
  line := by
    rw [top]
    decide
  blank := by
    rw [top]
    exact ⟨fun below => absurd below (by decide), fun vertical => by cases vertical⟩
  shortest := h.shortest
  longest := h.longest
  dot := by
    simp only [dotRange, off, Bool.false_eq_true, if_false]
    decide

theorem boundary_le (h : r.InRange) : r.boundary ≤ dotsPerLine := by
  have longest := h.longest
  unfold Raster.boundary
  simp only [maxTransferDots, oamScanDots, dotsPerLine] at longest ⊢
  split <;> omega

theorem toNat_boundary (h : r.InRange) : (UInt16.ofNat r.boundary).toNat = r.boundary := by
  have small := h.boundary_le
  simp only [dotsPerLine] at small
  rw [UInt16.toNat_ofNat']
  omega

theorem dot_lt (h : r.InRange) : r.dot.toNat < r.boundary := by
  have dot := h.dot.2
  unfold dotRange at dot
  unfold Raster.boundary
  cases mode : r.mode <;> simpa only [mode] using dot

theorem toNat_move (h : r.InRange) {n : Nat} (within : n < r.boundary - r.dot.toNat) :
    (r.dot + UInt16.ofNat n).toNat = r.dot.toNat + n := by
  have small := h.boundary_le
  simp only [dotsPerLine] at small
  rw [UInt16.toNat_add, UInt16.toNat_ofNat']
  omega

theorem move (h : r.InRange) {n : Nat} (within : n < r.boundary - r.dot.toNat) :
    { r with dot := r.dot + UInt16.ofNat n }.InRange := by
  have dot := h.dot
  have moved := h.toNat_move within
  have before := h.dot_lt
  refine ⟨h.spriteCount, h.onScreen, h.line, h.blank, h.shortest, h.longest, ?_, ?_⟩
  · change r.dotRange.1 ≤ _
    rw [moved]
    omega
  · change _ < r.dotRange.2
    have last : r.dotRange.2 = r.boundary := by
      unfold dotRange Raster.boundary
      cases r.mode <;> rfl
    rw [moved, last]
    omega

end InRange
end Raster

namespace Video

theorem onScreen_of_covers (oam : Memory 0xA0) (r : VideoRegisters) (index : Nat)
    (shown : r.line.toNat < screenHeight) (covers : covers r (spriteAt oam index) = true) :
    (spriteAt oam index).onScreen = true := by
  have hy := (oam.read (4 * index)).toNat_lt
  have hx := (oam.read (4 * index + 1)).toNat_lt
  have sixteen : (16 : Int16).toInt = 16 := by decide
  have eight : (8 : Int16).toInt = 8 := by decide
  have y := toInt_byte_sub (oam.read (4 * index)) 16 (by omega) (by omega)
  have x := toInt_byte_sub (oam.read (4 * index + 1)) 8 (by omega) (by omega)
  simp only [Video.covers, Bool.and_eq_true, decide_eq_true_eq] at covers
  simp only [Sprite.onScreen, Bool.and_eq_true, decide_eq_true_eq]
  simp only [screenHeight, spriteAt] at *
  omega

theorem length_scanSprites (oam : Memory 0xA0) (r : VideoRegisters) :
    (scanSprites oam r).length ≤ 10 := by
  rw [scanSprites, List.length_take]
  omega

theorem onScreen_scanSprites (oam : Memory 0xA0) (r : VideoRegisters)
    (shown : r.line.toNat < screenHeight) : ∀ s ∈ scanSprites oam r, s.onScreen = true := by
  intro s selected
  obtain ⟨listed, covers⟩ := List.mem_filter.mp (List.mem_of_mem_take selected)
  obtain ⟨index, _, rfl⟩ := List.mem_map.mp listed
  exact onScreen_of_covers oam r index shown covers

theorem toNat_transferLength (scrollX : UInt8) (sprites : Nat) :
    (UInt16.ofNat (Raster.transferLength scrollX sprites)).toNat =
      Raster.transferLength scrollX sprites := by
  simp only [Raster.transferLength, minTransferDots, maxTransferDots, UInt16.toNat_ofNat']
  omega

/-- The beam at the end of a mode, about to enter the next. -/
def atBoundary (v : Video) : Video :=
  { v with raster := { v.raster with dot := UInt16.ofNat v.raster.boundary } }

theorem toNat_line_succ {line : UInt8} (inside : line.toNat < linesPerFrame) :
    (line + 1).toNat = line.toNat + 1 := by
  simp only [linesPerFrame] at inside
  rw [UInt8.toNat_add]
  simp only [UInt8.reduceToNat]
  omega

theorem inRange_nextLine (v : Video) (dot : UInt16) (h : v.raster.InRange)
    (between : v.raster.mode = .horizontalBlank ∨ v.raster.mode = .verticalBlank) :
    { v with raster := { v.raster with dot } }.nextLine.1.raster.InRange := by
  have line := h.line
  have blank := h.blank
  simp only [linesPerFrame, screenHeight] at line blank
  have next := toNat_line_succ h.line
  have ne_of_beq : ∀ k : UInt8, ¬(v.raster.registers.line + 1 == k) = true →
      v.raster.registers.line.toNat + 1 ≠ k.toNat := by
    intro k differs same
    exact differs (beq_iff_eq.mpr (UInt8.toNat_inj.mp (next.trans same)))
  unfold nextLine
  dsimp only
  split
  case isTrue below =>
    have below := congrArg UInt8.toNat (eq_of_beq below)
    refine (h.blankLine _ ?_ ?_).updateCoincidence
    · simp only [screenHeight, below]
      decide
    · simp only [linesPerFrame, below]
      decide
  case isFalse notBelow =>
    have notBelow := ne_of_beq 144 notBelow
    split
    case isTrue wrapped =>
      refine (h.startLine _ _ _ ?_).updateCoincidence
      exact (by decide : 0 < screenHeight)
    case isFalse notWrapped =>
      have notWrapped := ne_of_beq 154 notWrapped
      simp only [UInt8.reduceToNat] at notBelow notWrapped
      split
      case isTrue shown =>
        refine (h.startLine _ _ _ ?_).updateCoincidence
        have above : ¬144 ≤ v.raster.registers.line.toNat := by
          rw [blank, shown]
          decide
        simp only [screenHeight, next]
        omega
      case isFalse hidden =>
        have mode : v.raster.mode = .verticalBlank := between.resolve_left hidden
        have below := blank.mpr mode
        have moved := h.blankLine { v.raster.registers with line := v.raster.registers.line + 1 }
          (by simp only [screenHeight, next]; omega) (by simp only [linesPerFrame, next]; omega)
        rw [← mode] at moved
        exact moved.updateCoincidence

theorem inRange_advanceMode (palette : Palette) (v : Video) (h : v.raster.InRange) :
    (v.atBoundary.advanceMode palette).1.raster.InRange := by
  have shortest := h.shortest
  have longest := h.longest
  have blank := h.blank
  have boundary := h.toNat_boundary
  simp only [minTransferDots, maxTransferDots] at shortest longest
  cases mode : v.raster.mode with
  | oamScan =>
    have shown : v.raster.registers.line.toNat < screenHeight := by
      rw [← Nat.not_le, blank, mode]
      decide
    simp only [Raster.boundary, mode] at boundary
    simp only [advanceMode, atBoundary, mode, Raster.boundary]
    refine Raster.InRange.updateStatus ⟨length_scanSprites _ _, onScreen_scanSprites _ _ shown,
      h.line, ?_, ?_, ?_, ?_⟩
    · simp only [reduceCtorEq, iff_false]
      omega
    · rw [toNat_transferLength, Raster.transferLength, minTransferDots, maxTransferDots]
      omega
    · rw [toNat_transferLength, Raster.transferLength]
      omega
    · simp only [Raster.dotRange, boundary, toNat_transferLength]
      simp only [Raster.transferLength, minTransferDots, maxTransferDots]
      omega
  | transfer =>
    simp only [Raster.boundary, mode] at boundary
    simp only [advanceMode, atBoundary, mode, Raster.boundary]
    refine Raster.InRange.updateStatus ⟨h.spriteCount, h.onScreen, h.line, ?_, h.shortest,
      h.longest, ?_⟩
    · have above : ¬screenHeight ≤ v.raster.registers.line.toNat := by
        rw [blank, mode]
        decide
      exact ⟨fun below => absurd below above, fun vertical => by cases vertical⟩
    · simp only [Raster.dotRange, drawLine, boundary]
      simp only [oamScanDots, dotsPerLine]
      split <;> omega
  | horizontalBlank =>
    have next := inRange_nextLine v (UInt16.ofNat v.raster.boundary) h (.inl mode)
    simpa only [advanceMode, atBoundary, mode] using next
  | verticalBlank =>
    have next := inRange_nextLine v (UInt16.ofNat v.raster.boundary) h (.inr mode)
    simpa only [advanceMode, atBoundary, mode] using next

theorem inRange_tick (palette : Palette) (cycles : Nat) (v : Video) (requests : InterruptSet)
    (h : v.raster.InRange) : (v.tick palette cycles requests).1.raster.InRange := by
  fun_induction tick palette cycles v requests with
  | case1 => exact h
  | case2 cycles v requests left stays within r => exact h.move within
  | case3 cycles v requests left stays passes r next more entered ih =>
    apply ih
    have advanced := inRange_advanceMode palette v h
    rw [show v.atBoundary.advanceMode palette = (next, more) from entered] at advanced
    exact advanced

theorem inRange_updateRegisters (v : Video) (h : v.raster.InRange)
    (change : VideoRegisters → VideoRegisters)
    (line : (change v.raster.registers).line = v.raster.registers.line)
    (control : (change v.raster.registers).lcdOn = v.raster.registers.lcdOn) :
    { v.raster with registers := change v.raster.registers }.InRange := by
  refine ⟨h.spriteCount, h.onScreen, ?_, ?_, h.shortest, h.longest, ?_⟩
  · rw [line]
    exact h.line
  · rw [line]
    exact h.blank
  · have dot := h.dot
    unfold Raster.dotRange at dot ⊢
    rw [control]
    exact dot

theorem inRange_writeControl (palette : Palette) (value : UInt8) (v : Video)
    (h : v.raster.InRange) : (v.writeControl palette value).1.raster.InRange := by
  unfold writeControl
  dsimp only
  split
  case isTrue off =>
    rw [Bool.and_eq_true, Bool.not_eq_true'] at off
    exact h.dark { v.raster.registers with control := value, line := 0 } rfl off.2
  case isFalse notOff =>
    split
    case isTrue on =>
      refine (h.startLine _ _ _ ?_).updateCoincidence
      exact (by decide : 0 < screenHeight)
    case isFalse notOn =>
      refine inRange_updateRegisters v h ({ · with control := value }) rfl ?_
      cases before : v.raster.registers.lcdOn <;> simp_all

theorem inRange_write (palette : Palette) (address : UInt16) (value : UInt8) (v : Video)
    (h : v.raster.InRange) : (v.write palette address value).1.raster.InRange := by
  unfold write
  split
  · exact inRange_writeControl palette value v h
  · have selected := inRange_updateRegisters v h ({ · with statusSelect := value &&& 0x78 }) rfl rfl
    exact selected.updateStatus
  · exact inRange_updateRegisters v h ({ · with scrollY := value }) rfl rfl
  · exact inRange_updateRegisters v h ({ · with scrollX := value }) rfl rfl
  · have compared := inRange_updateRegisters v h ({ · with lineCompare := value }) rfl rfl
    exact compared.updateCoincidence
  · exact inRange_updateRegisters v h ({ · with backgroundPalette := value }) rfl rfl
  · exact inRange_updateRegisters v h ({ · with spritePalette0 := value }) rfl rfl
  · exact inRange_updateRegisters v h ({ · with spritePalette1 := value }) rfl rfl
  · exact inRange_updateRegisters v h ({ · with windowY := value }) rfl rfl
  · exact inRange_updateRegisters v h ({ · with windowX := value }) rfl rfl
  · exact h

theorem inRange_powerOn (palette : Palette) : (powerOn palette).raster.InRange := by
  exact (Raster.checkLayout_eq_ok _).mp rfl

end Video

/-- A saved picture unit passes when its raster is in range; the memories always have their
sizes. -/
theorem VideoRecord.checkLayout_ofVideo (v : Video) :
    (VideoRecord.ofVideo v).checkLayout = .ok () ↔ v.raster.InRange := by
  simp [VideoRecord.checkLayout, VideoRecord.ofVideo, Raster.checkLayout_eq_ok]

end DotMatrix
