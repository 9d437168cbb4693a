import DotMatrix.Proofs.Video.ExactTime
import Mathlib.Data.Nat.Bitwise

/-! The status interrupt comes with the rising edges of one line. Mode, line, compare register,
selection and power all feed it, and several of them change at once where a line ends or the LCD
is switched; still the line is looked at once only, when all of them are in place. -/
namespace DotMatrix

namespace InterruptSet

theorem lcdStatus_not_mem_empty : .lcdStatus ∉ (∅ : InterruptSet) := by
  decide

theorem lcdStatus_mem_when (condition : Bool) :
    .lcdStatus ∈ when condition .lcdStatus ↔ condition = true := by
  cases condition <;> decide

theorem lcdStatus_mem_verticalBlank_union (requests : InterruptSet) :
    .lcdStatus ∈ {.verticalBlank} ∪ requests ↔ .lcdStatus ∈ requests := by
  have other : .lcdStatus ∉ ({.verticalBlank} : InterruptSet) := by decide
  rw [mem_union, or_iff_right other]

end InterruptSet

theorem and_mask_ne_zero (value mask : UInt8) (bit : Nat) (single : mask.toNat = 2 ^ bit) :
    (value &&& mask != 0) = value.toNat.testBit bit := by
  rw [Bool.eq_iff_iff, bne_iff_ne, Ne, ← UInt8.toNat_inj, UInt8.toNat_and, single, Nat.and_two_pow]
  cases value.toNat.testBit bit with
  | false => simp
  | true => simp

namespace Raster

/-- A program has selected the source at this bit of the status register. -/
def Selects (r : Raster) (bit : Nat) : Prop := r.registers.statusSelect.toNat.testBit bit = true

/-- The level of the status line: the LCD is on, and it is in a mode or on a line that a program
has selected. -/
def StatusHolds (r : Raster) : Prop :=
  r.registers.lcdOn = true ∧
    (r.mode = .horizontalBlank ∧ r.Selects 3 ∨ r.mode = .verticalBlank ∧ r.Selects 4 ∨
      r.mode = .oamScan ∧ r.Selects 5 ∨ r.registers.line = r.registers.lineCompare ∧ r.Selects 6)

instance (r : Raster) (bit : Nat) : Decidable (r.Selects bit) :=
  inferInstanceAs (Decidable (_ = true))

instance (r : Raster) : Decidable r.StatusHolds := inferInstanceAs (Decidable (_ ∧ _))

def Compared (r : Raster) : Prop :=
  r.coincidence = true ↔ r.registers.line = r.registers.lineCompare

/-- What the raster remembers of the status is up to date. Of the comparison that is asked only
with the LCD on. -/
structure StatusSettled (r : Raster) : Prop where
  compared : r.registers.lcdOn = true → r.Compared
  statusLine : r.statusLine = true ↔ r.StatusHolds

/-- The status is settled after a change, and the change has requested the interrupt exactly if
the line has risen. -/
structure StatusFollows (r next : Raster) (requests : InterruptSet) : Prop where
  settled : next.StatusSettled
  requested : .lcdStatus ∈ requests ↔ ¬r.StatusHolds ∧ next.StatusHolds

variable {r changed : Raster}

theorem statusSource_iff (compared : r.registers.lcdOn = true → r.Compared) :
    r.statusSource = true ↔ r.StatusHolds := by
  unfold statusSource StatusHolds
  rw [Bool.and_eq_true]
  refine and_congr_right fun on => ?_
  rw [and_mask_ne_zero _ 0x08 3 rfl, and_mask_ne_zero _ 0x10 4 rfl, and_mask_ne_zero _ 0x20 5 rfl,
    and_mask_ne_zero _ 0x40 6 rfl, Bool.or_eq_true, Bool.and_eq_true,
    show r.coincidence = true ↔ _ from compared on]
  cases r.mode <;> simp [Selects]

theorem StatusFollows.same (settled : changed.StatusSettled)
    (level : changed.StatusHolds ↔ r.StatusHolds) : StatusFollows r changed ∅ := by
  refine ⟨settled, iff_of_false InterruptSet.lcdStatus_not_mem_empty ?_⟩
  rintro ⟨low, high⟩
  exact low (level.mp high)

theorem StatusFollows.verticalBlank {requests : InterruptSet}
    (follows : StatusFollows r changed requests) :
    StatusFollows r changed ({.verticalBlank} ∪ requests) :=
  ⟨follows.settled,
    (InterruptSet.lcdStatus_mem_verticalBlank_union requests).trans follows.requested⟩

theorem statusFollows_updateStatus (h : r.StatusSettled)
    (compared : changed.registers.lcdOn = true → changed.Compared)
    (kept : changed.statusLine = r.statusLine) :
    StatusFollows r changed.updateStatus.1 changed.updateStatus.2 := by
  have level : changed.updateStatus.1.StatusHolds ↔ changed.StatusHolds := Iff.rfl
  refine ⟨⟨compared, (statusSource_iff compared).trans level.symm⟩, ?_⟩
  change .lcdStatus ∈ InterruptSet.when (changed.statusSource && !changed.statusLine) _ ↔ _
  rw [InterruptSet.lcdStatus_mem_when, Bool.and_eq_true, Bool.not_eq_true', kept,
    statusSource_iff compared, level, and_comm, ← h.statusLine, Bool.not_eq_true]

theorem statusFollows_updateCoincidence (h : r.StatusSettled)
    (kept : changed.statusLine = r.statusLine) :
    StatusFollows r changed.updateCoincidence.1 changed.updateCoincidence.2 := by
  unfold updateCoincidence
  exact statusFollows_updateStatus h (fun _ => beq_iff_eq) kept

end Raster

namespace Video
variable {v : Video}

theorem statusFollows_nextLine (dot : UInt16) (h : v.raster.StatusSettled) :
    v.raster.StatusFollows { v with raster := { v.raster with dot } }.nextLine.1.raster
      { v with raster := { v.raster with dot } }.nextLine.2 := by
  unfold nextLine
  dsimp only
  split
  case isTrue below =>
    apply Raster.StatusFollows.verticalBlank
    exact Raster.statusFollows_updateCoincidence h rfl
  case isFalse notBelow =>
    split
    case isTrue wrapped => exact Raster.statusFollows_updateCoincidence h rfl
    case isFalse notWrapped =>
      split
      · exact Raster.statusFollows_updateCoincidence h rfl
      · exact Raster.statusFollows_updateCoincidence h rfl

theorem statusFollows_advanceMode (palette : Palette) (h : v.raster.StatusSettled) :
    v.raster.StatusFollows (v.atBoundary.advanceMode palette).1.raster
      (v.atBoundary.advanceMode palette).2 := by
  unfold advanceMode
  split
  case h_1 => exact Raster.statusFollows_updateStatus h h.compared rfl
  case h_2 => exact Raster.statusFollows_updateStatus h h.compared rfl
  case h_3 => exact statusFollows_nextLine _ h
  case h_4 => exact statusFollows_nextLine _ h

theorem statusSettled_tick (palette : Palette) (n : Nat) (requests : InterruptSet)
    (h : v.raster.StatusSettled) : (v.tick palette n requests).1.raster.StatusSettled := by
  fun_induction tick palette n v requests with
  | case1 => exact h
  | case2 => exact ⟨h.compared, h.statusLine⟩
  | case3 cycles v requests left stays passes r next more entered ih =>
    have advanced := (statusFollows_advanceMode palette h).settled
    rw [show v.atBoundary.advanceMode palette = (next, more) from entered] at advanced
    exact ih advanced

/-- In a single dot at most one mode ends. -/
theorem statusFollows_dot (palette : Palette) (h : v.raster.StatusSettled) :
    v.raster.StatusFollows (v.tick palette 1 ∅).1.raster (v.tick palette 1 ∅).2 := by
  unfold tick
  dsimp only
  split
  case isTrue => exact .same h Iff.rfl
  case isFalse goes =>
    split
    case isTrue => exact .same ⟨h.compared, h.statusLine⟩ Iff.rfl
    case isFalse reaches =>
      have last : 1 - (v.raster.boundary - v.raster.dot.toNat) = 0 := by omega
      rw [last, tick_zero, InterruptSet.empty_union]
      exact statusFollows_advanceMode palette h

theorem statusFollows_writeControl (palette : Palette) (value : UInt8)
    (h : v.raster.StatusSettled) :
    v.raster.StatusFollows (v.writeControl palette value).1.raster
      (v.writeControl palette value).2 := by
  unfold writeControl
  dsimp only
  split
  case isTrue off =>
    rw [Bool.and_eq_true, Bool.not_eq_true'] at off
    -- Without power the line is low, and nothing rises.
    have dark : ¬{ v.raster.registers with control := value }.lcdOn = true := by
      rw [off.2]
      decide
    refine ⟨⟨fun on => absurd on dark, ?_⟩, iff_of_false InterruptSet.lcdStatus_not_mem_empty ?_⟩
    · exact iff_of_false Bool.false_ne_true fun holds => dark holds.1
    · rintro ⟨_, holds⟩
      exact dark holds.1
  case isFalse notOff =>
    split
    case isTrue on => exact Raster.statusFollows_updateCoincidence h rfl
    case isFalse notOn =>
      have power : { v.raster.registers with control := value }.lcdOn =
          v.raster.registers.lcdOn := by
        cases before : v.raster.registers.lcdOn <;> simp_all
      have level : Raster.StatusHolds
          { v.raster with registers := { v.raster.registers with control := value } } ↔
            v.raster.StatusHolds := by
        unfold Raster.StatusHolds
        dsimp only
        rw [power]
        exact Iff.rfl
      exact .same ⟨fun on => h.compared (power.symm.trans on), h.statusLine.trans level.symm⟩ level

theorem statusFollows_write (palette : Palette) (address : UInt16) (value : UInt8)
    (h : v.raster.StatusSettled) :
    v.raster.StatusFollows (v.write palette address value).1.raster
      (v.write palette address value).2 := by
  unfold write
  split
  case h_1 => exact statusFollows_writeControl palette value h
  case h_2 => exact Raster.statusFollows_updateStatus h h.compared rfl
  case h_5 => exact Raster.statusFollows_updateCoincidence h rfl
  all_goals exact .same ⟨h.compared, h.statusLine⟩ Iff.rfl

/-- The picture units that come about from power-on. -/
inductive FromPowerOn : Video → Prop
  | powerOn (palette : Palette) : FromPowerOn (powerOn palette)
  | operate (v : Video) (before : FromPowerOn v) (op : VideoOperation) :
      FromPowerOn (v.operate op).1

theorem FromPowerOn.statusSettled (reached : v.FromPowerOn) : v.raster.StatusSettled := by
  induction reached with
  | powerOn palette =>
    have compared : (Video.powerOn palette).raster.Compared := iff_of_true rfl rfl
    have level := Raster.statusSource_iff fun _ => compared
    have low : (Video.powerOn palette).raster.statusSource = false := by
      simp [Video.powerOn, Raster.startLine, Raster.statusSource]
    rw [low] at level
    exact ⟨fun _ => compared, level⟩
  | operate v before op ih =>
    cases op with
    | tick palette dots => exact statusSettled_tick palette dots ∅ ih
    | write palette address value => exact (statusFollows_write palette address value ih).settled
    | store vram oam => exact ih
    | takeFrame => exact ih

/-- The status interrupt is requested by the rising edges of the status line and by nothing else,
in every dot and on every write. -/
theorem requests_rising_edges (reached : v.FromPowerOn) (palette : Palette) :
    (v.raster.statusLine = true ↔ v.raster.StatusHolds) ∧
      (.lcdStatus ∈ (v.tick palette 1 ∅).2 ↔
        ¬v.raster.StatusHolds ∧ (v.tick palette 1 ∅).1.raster.StatusHolds) ∧
      ∀ address value, .lcdStatus ∈ (v.write palette address value).2 ↔
        ¬v.raster.StatusHolds ∧ (v.write palette address value).1.raster.StatusHolds := by
  have h := reached.statusSettled
  exact ⟨h.statusLine, (statusFollows_dot palette h).requested,
    fun address value => (statusFollows_write palette address value h).requested⟩

/-- On the first line both the mode and the line are selected at once, which requests the
interrupt; that one of them goes again requests nothing. -/
theorem requests_rising_edges_selected :
    ∃ v w : Video, v.FromPowerOn ∧ w.FromPowerOn ∧
      w = (v.write Settings.standard.colors 0xFF41 0x60).1 ∧
      .lcdStatus ∈ (v.write Settings.standard.colors 0xFF41 0x60).2 ∧
      .lcdStatus ∉ (w.write Settings.standard.colors 0xFF41 0x40).2 := by
  have start : (powerOn Settings.standard.colors).FromPowerOn := .powerOn _
  have selected := start.operate _ (.write Settings.standard.colors 0xFF41 0x60)
  have first := (requests_rising_edges start Settings.standard.colors).2.2 0xFF41 0x60
  have second := (requests_rising_edges selected Settings.standard.colors).2.2 0xFF41 0x40
  refine ⟨_, _, start, selected, rfl, first.mpr (by decide), mt second.mp ?_⟩
  rintro ⟨low, _⟩
  exact low (by decide)

end Video
end DotMatrix
