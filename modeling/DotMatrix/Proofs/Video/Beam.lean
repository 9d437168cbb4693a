import DotMatrix.Proofs.Time.Video

/-! The place of the beam in the picture, counted in dots from the top left. Time moves it on dot
by dot and around, whatever the modes of a line are, and two of its places are events: below the
last line that is shown the vertical blank begins, and at the top left a frame is ready. -/
namespace DotMatrix

namespace InterruptSet
variable {i : Interrupt} {r s : InterruptSet}

theorem mem_union : i ∈ r ∪ s ↔ i ∈ r ∨ i ∈ s := by
  have spread : (r.bits ||| s.bits) &&& i.bit = (r.bits &&& i.bit) ||| (s.bits &&& i.bit) :=
    UInt8.toBitVec_inj.mp BitVec.and_or_distrib_right
  change (r.bits ||| s.bits) &&& i.bit ≠ 0 ↔ r.bits &&& i.bit ≠ 0 ∨ s.bits &&& i.bit ≠ 0
  rw [spread, Ne, UInt8.or_eq_zero_iff, Decidable.not_and_iff_not_or_not]

theorem verticalBlank_not_mem_empty : .verticalBlank ∉ (∅ : InterruptSet) := by
  decide

theorem verticalBlank_not_mem_when (condition : Bool) :
    .verticalBlank ∉ when condition .lcdStatus := by
  cases condition <;> decide

end InterruptSet

namespace Raster

def dotsPerFrame : Nat := linesPerFrame * dotsPerLine

def dotsShown : Nat := screenHeight * dotsPerLine

/-- The dots since the beam was at the top left. -/
def position (r : Raster) : Nat := dotsPerLine * r.registers.line.toNat + r.dot.toNat

def modeAt (line dot transferDots : Nat) : VideoMode :=
  if 144 ≤ line then .verticalBlank
  else if dot < 80 then .oamScan
  else if dot < 80 + transferDots then .transfer
  else .horizontalBlank

/-- The beam is in the picture, and its place settles the mode. -/
structure OnTime (r : Raster) : Prop where
  line : r.registers.line.toNat < 154
  dot : r.dot.toNat < 456
  shortest : 172 ≤ r.transferDots.toNat
  longest : r.transferDots.toNat ≤ 289
  mode : r.mode = modeAt r.registers.line.toNat r.dot.toNat r.transferDots.toNat

namespace InRange
variable {r : Raster}

theorem shown (h : r.InRange) (drawn : r.mode ≠ .verticalBlank) :
    r.registers.line.toNat < 144 :=
  Nat.not_le.mp fun below => drawn (h.blank.mp below)

theorem onTime (h : r.InRange) (on : r.registers.lcdOn = true) : r.OnTime := by
  have dot := h.dot
  simp only [dotRange, on, if_true, oamScanDots, dotsPerLine] at dot
  refine ⟨h.line, Nat.lt_of_lt_of_le h.dot_lt h.boundary_le, h.shortest, h.longest, ?_⟩
  unfold modeAt
  cases mode : r.mode with
  | verticalBlank =>
    have below : 144 ≤ r.registers.line.toNat := h.blank.mpr mode
    rw [if_pos below]
  | oamScan =>
    have line := h.shown (by rw [mode]; decide)
    simp only [mode] at dot
    rw [if_neg (by omega), if_pos dot.2]
  | transfer =>
    have line := h.shown (by rw [mode]; decide)
    simp only [mode] at dot
    rw [if_neg (by omega), if_neg (by omega), if_pos dot.2]
  | horizontalBlank =>
    have line := h.shown (by rw [mode]; decide)
    simp only [mode] at dot
    rw [if_neg (by omega), if_neg (by omega), if_neg (by omega)]

end InRange

/-- Within the next `n` dots the beam comes to a place. -/
def Meets (r : Raster) (n place : Nat) : Prop :=
  ∃ k, 0 < k ∧ k ≤ n ∧ (r.position + k) % dotsPerFrame = place

section
variable {r next : Raster} {a b n place : Nat}

theorem meets_one : r.Meets 1 place ↔ (r.position + 1) % dotsPerFrame = place := by
  constructor
  · rintro ⟨k, some, last, there⟩
    obtain rfl : k = 1 := by omega
    exact there
  · intro there
    exact ⟨1, by decide, by decide, there⟩

theorem meets_add (moved : next.position = (r.position + a) % dotsPerFrame) :
    r.Meets (a + b) place ↔ r.Meets a place ∨ next.Meets b place := by
  have further (k : Nat) : (next.position + k) % dotsPerFrame =
      (r.position + (a + k)) % dotsPerFrame := by
    rw [moved, Nat.mod_add_mod, Nat.add_assoc]
  constructor
  · rintro ⟨k, some, last, there⟩
    by_cases early : k ≤ a
    · exact .inl ⟨k, some, early, there⟩
    · refine .inr ⟨k - a, by omega, by omega, ?_⟩
      rw [further, Nat.add_sub_of_le (by omega), there]
  · rintro (⟨k, some, last, there⟩ | ⟨k, some, last, there⟩)
    · exact ⟨k, some, by omega, there⟩
    · exact ⟨a + k, by omega, by omega, (further k).symm.trans there⟩

theorem InRange.not_meets (h : r.InRange) (within : n < r.boundary - r.dot.toNat) (lines : Nat) :
    ¬r.Meets n (lines * dotsPerLine) := by
  rintro ⟨k, some, last, there⟩
  have line := h.line
  have boundary := h.boundary_le
  simp only [position, dotsPerFrame, linesPerFrame, dotsPerLine] at *
  omega

theorem InRange.meets_boundary (h : r.InRange) (lines : Nat) :
    r.Meets (r.boundary - r.dot.toNat) (lines * dotsPerLine) ↔
      (r.position + (r.boundary - r.dot.toNat)) % dotsPerFrame = lines * dotsPerLine := by
  have before := h.dot_lt
  constructor
  · rintro ⟨k, some, last, there⟩
    by_cases within : k < r.boundary - r.dot.toNat
    · exact absurd ⟨k, some, Nat.le_refl k, there⟩ (h.not_meets within lines)
    · rw [← there, Nat.le_antisymm last (Nat.not_lt.mp within)]
  · intro there
    exact ⟨_, by omega, Nat.le_refl _, there⟩

theorem InRange.position_div (h : r.InRange) :
    r.position / dotsPerLine = r.registers.line.toNat := by
  have dot := Nat.lt_of_lt_of_le h.dot_lt h.boundary_le
  unfold position
  rw [Nat.mul_add_div (by decide), Nat.div_eq_of_lt dot, Nat.add_zero]

theorem InRange.position_lt (h : r.InRange) : r.position < dotsPerFrame := by
  have line := h.line
  rw [← h.position_div, Nat.div_lt_iff_lt_mul (by decide)] at line
  exact line

theorem InRange.meets_top (h : r.InRange) : r.Meets n 0 ↔ dotsPerFrame - r.position ≤ n := by
  have before := h.position_lt
  constructor
  · rintro ⟨k, some, last, there⟩
    have whole := Nat.le_of_dvd (by omega) (Nat.dvd_of_mod_eq_zero there)
    omega
  · intro reaches
    refine ⟨dotsPerFrame - r.position, by omega, reaches, ?_⟩
    rw [Nat.add_sub_of_le (Nat.le_of_lt before), Nat.mod_self]

end
end Raster

namespace Video
variable {a b n : Nat} {v w x : Video} {r s : InterruptSet}

/-- From `v` to `next` the beam has moved on by `n` dots. On its way it has requested the vertical
blank if it has come below the picture, and a frame is ready if it has come to the top left. -/
structure Passed (n : Nat) (v next : Video) (requests : InterruptSet) : Prop where
  on : next.raster.registers.lcdOn = v.raster.registers.lcdOn
  position : next.raster.position = (v.raster.position + n) % Raster.dotsPerFrame
  blank : .verticalBlank ∈ requests ↔ v.raster.Meets n Raster.dotsShown
  ready : next.frameReady = true ↔ v.frameReady = true ∨ v.raster.Meets n 0

theorem Passed.trans (first : Passed a v w r) (second : Passed b w x s) :
    Passed (a + b) v x (r ∪ s) where
  on := second.on.trans first.on
  position := by
    rw [second.position, first.position, Nat.mod_add_mod, Nat.add_assoc]
  blank := by
    rw [InterruptSet.mem_union, first.blank, second.blank, Raster.meets_add first.position]
  ready := by
    rw [second.ready, first.ready, Raster.meets_add first.position, or_assoc]

theorem passed_moved (h : v.raster.InRange) (within : n < v.raster.boundary - v.raster.dot.toNat) :
    Passed n v (v.moved n) ∅ := by
  have none : ¬v.raster.Meets n 0 := by
    simpa using h.not_meets within 0
  have dot : (v.moved n).raster.dot.toNat = v.raster.dot.toNat + n := h.toNat_move within
  have position : (v.moved n).raster.position = v.raster.position + n := by
    unfold Raster.position
    rw [dot]
    exact (Nat.add_assoc _ _ _).symm
  refine ⟨rfl, ?_, ?_, ?_⟩
  · have line := h.line
    have boundary := h.boundary_le
    simp only [linesPerFrame, dotsPerLine] at line boundary
    rw [position, Nat.mod_eq_of_lt]
    simp only [Raster.position, Raster.dotsPerFrame, linesPerFrame, dotsPerLine]
    omega
  · exact iff_of_false InterruptSet.verticalBlank_not_mem_empty (h.not_meets within _)
  · rw [or_iff_left none]
    rfl

theorem beam_nextLine (v : Video) (line : v.raster.registers.line.toNat < linesPerFrame) :
    v.nextLine.1.raster.registers.lcdOn = v.raster.registers.lcdOn ∧
      v.nextLine.1.raster.position =
        dotsPerLine * (v.raster.registers.line.toNat + 1) % Raster.dotsPerFrame ∧
      (.verticalBlank ∈ v.nextLine.2 ↔ v.raster.registers.line.toNat + 1 = screenHeight) ∧
      (v.nextLine.1.frameReady = true ↔
        v.frameReady = true ∨ v.raster.registers.line.toNat + 1 = linesPerFrame) := by
  have next := toNat_line_succ line
  have reaches (k : UInt8) : (v.raster.registers.line + 1 == k) = true ↔
      v.raster.registers.line.toNat + 1 = k.toNat := by
    rw [beq_iff_eq, ← UInt8.toNat_inj, next]
  have start (short : v.raster.registers.line.toNat + 1 < linesPerFrame) :
      dotsPerLine * (v.raster.registers.line + 1).toNat + 0 =
        dotsPerLine * (v.raster.registers.line.toNat + 1) % Raster.dotsPerFrame := by
    rw [next, Nat.mod_eq_of_lt, Nat.add_zero]
    simp only [Raster.dotsPerFrame, linesPerFrame, dotsPerLine] at short ⊢
    omega
  simp only [linesPerFrame, screenHeight] at line start ⊢
  unfold nextLine
  dsimp only
  split
  case isTrue below =>
    have below : v.raster.registers.line.toNat + 1 = 144 := (reaches 144).mp below
    refine ⟨rfl, start (by omega), ?_, ?_⟩
    · exact iff_of_true (InterruptSet.mem_union.mpr (.inl (by decide))) below
    · exact (or_iff_left (by omega)).symm
  case isFalse notBelow =>
    have notBelow : ¬v.raster.registers.line.toNat + 1 = 144 := mt (reaches 144).mpr notBelow
    split
    case isTrue wrapped =>
      have wrapped : v.raster.registers.line.toNat + 1 = 154 := (reaches 154).mp wrapped
      refine ⟨rfl, ?_, ?_, ?_⟩
      · rw [wrapped]
        exact (by decide : dotsPerLine * 0 + 0 = dotsPerLine * 154 % Raster.dotsPerFrame)
      · exact iff_of_false (InterruptSet.verticalBlank_not_mem_when _) notBelow
      · exact iff_of_true rfl (.inr wrapped)
    case isFalse notWrapped =>
      have notWrapped : ¬v.raster.registers.line.toNat + 1 = 154 :=
        mt (reaches 154).mpr notWrapped
      have ready := (or_iff_left (a := v.frameReady = true) notWrapped).symm
      split
      · exact ⟨rfl, start (by omega),
          iff_of_false (InterruptSet.verticalBlank_not_mem_when _) notBelow, ready⟩
      · exact ⟨rfl, start (by omega),
          iff_of_false (InterruptSet.verticalBlank_not_mem_when _) notBelow, ready⟩

theorem passed_mode {next : Video} (h : v.raster.InRange)
    (short : v.raster.boundary < dotsPerLine)
    (on : next.raster.registers.lcdOn = v.raster.registers.lcdOn)
    (same : next.raster.registers.line = v.raster.registers.line)
    (dot : next.raster.dot = UInt16.ofNat v.raster.boundary)
    (ready : next.frameReady = v.frameReady) (quiet : .verticalBlank ∉ r) :
    Passed (v.raster.boundary - v.raster.dot.toNat) v next r := by
  have line := h.line
  have before := h.dot_lt
  have moved : next.raster.position =
      v.raster.position + (v.raster.boundary - v.raster.dot.toNat) := by
    unfold Raster.position
    rw [same, dot, h.toNat_boundary]
    omega
  have inside : next.raster.position % Raster.dotsPerFrame = next.raster.position ∧
      ∀ lines, next.raster.position ≠ lines * dotsPerLine := by
    unfold Raster.position
    rw [same, dot, h.toNat_boundary]
    simp only [Raster.dotsPerFrame, linesPerFrame, dotsPerLine] at *
    refine ⟨by omega, fun lines => ?_⟩
    omega
  have misses (lines : Nat) :
      ¬v.raster.Meets (v.raster.boundary - v.raster.dot.toNat) (lines * dotsPerLine) := by
    rw [h.meets_boundary, ← moved, inside.1]
    exact inside.2 lines
  have top := misses 0
  rw [Nat.zero_mul] at top
  exact ⟨on, by rw [← moved, inside.1], iff_of_false quiet (misses screenHeight),
    by rw [ready, or_iff_left top]⟩

theorem passed_nextLine (h : v.raster.InRange) (last : v.raster.boundary = dotsPerLine) :
    Passed (v.raster.boundary - v.raster.dot.toNat) v v.atBoundary.nextLine.1
      v.atBoundary.nextLine.2 := by
  have line := h.line
  have before := h.dot_lt
  obtain ⟨on, position, vertical, ready⟩ := beam_nextLine v.atBoundary line
  have moved : v.raster.position + (v.raster.boundary - v.raster.dot.toNat) =
      dotsPerLine * (v.raster.registers.line.toNat + 1) := by
    unfold Raster.position
    rw [Nat.mul_succ]
    omega
  have meets (lines : Nat) (inside : lines < linesPerFrame) :
      v.raster.Meets (v.raster.boundary - v.raster.dot.toNat) (lines * dotsPerLine) ↔
        (v.raster.registers.line.toNat + 1) % linesPerFrame = lines := by
    rw [h.meets_boundary, moved]
    simp only [Raster.dotsPerFrame, linesPerFrame, dotsPerLine] at *
    omega
  have top := meets 0 (by decide)
  rw [Nat.zero_mul] at top
  refine ⟨on, by rw [moved, position]; rfl, ?_, ?_⟩
  · refine vertical.trans (Iff.trans ?_ (meets screenHeight (by decide)).symm)
    change v.raster.registers.line.toNat + 1 = screenHeight ↔ _
    simp only [linesPerFrame, screenHeight] at *
    omega
  · refine ready.trans (or_congr Iff.rfl (Iff.trans ?_ top.symm))
    change v.raster.registers.line.toNat + 1 = linesPerFrame ↔ _
    simp only [linesPerFrame] at *
    omega

theorem passed_advanceMode (palette : Palette) (h : v.raster.InRange) :
    Passed (v.raster.boundary - v.raster.dot.toNat) v (v.atBoundary.advanceMode palette).1
      (v.atBoundary.advanceMode palette).2 := by
  cases mode : v.raster.mode with
  | oamScan =>
    have short : v.raster.boundary < dotsPerLine := by
      unfold Raster.boundary
      rw [mode]
      exact (by decide : oamScanDots < dotsPerLine)
    unfold advanceMode
    rw [show v.atBoundary.raster.mode = .oamScan from mode]
    exact passed_mode h short rfl rfl rfl rfl (InterruptSet.verticalBlank_not_mem_when _)
  | transfer =>
    have longest := h.longest
    have short : v.raster.boundary < dotsPerLine := by
      unfold Raster.boundary
      rw [mode]
      simp only [maxTransferDots, oamScanDots, dotsPerLine] at longest ⊢
      omega
    unfold advanceMode
    rw [show v.atBoundary.raster.mode = .transfer from mode]
    exact passed_mode h short rfl rfl rfl rfl (InterruptSet.verticalBlank_not_mem_when _)
  | horizontalBlank | verticalBlank =>
    have last : v.raster.boundary = dotsPerLine := by
      unfold Raster.boundary
      rw [mode]
    unfold advanceMode
    rw [show v.atBoundary.raster.mode = _ from mode]
    exact passed_nextLine h last

theorem passed_zero (h : v.raster.InRange) : Passed 0 v v ∅ := by
  have before := h.dot_lt
  have passed := passed_moved h (n := 0) (by omega)
  rwa [moved_zero] at passed

/-- Time moves the beam on, and it meets everything on its way. -/
theorem passed_tick (palette : Palette) (n : Nat) (h : v.raster.InRange)
    (on : v.raster.registers.lcdOn = true) :
    Passed n v (v.tick palette n ∅).1 (v.tick palette n ∅).2 := by
  induction n using Nat.strongRecOn generalizing v with
  | ind n ih =>
    have before := h.dot_lt
    by_cases none : n = 0
    · rw [none, tick_zero]
      exact passed_zero h
    by_cases within : n < v.raster.boundary - v.raster.dot.toNat
    · rw [tick_within palette n v ∅ h on none within]
      exact passed_moved h within
    have first := passed_advanceMode palette h
    have rest := ih (n - (v.raster.boundary - v.raster.dot.toNat)) (by omega)
      (inRange_advanceMode palette v h) (first.on.trans on)
    have passed := first.trans rest
    rw [Nat.add_sub_of_le (Nat.not_lt.mp within)] at passed
    rw [tick_reach palette n v ∅ h on (Nat.not_lt.mp within), tick_requests,
      InterruptSet.empty_union]
    exact passed

end Video
end DotMatrix
