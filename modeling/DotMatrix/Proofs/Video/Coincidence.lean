import DotMatrix.Proofs.Board.Operation
import DotMatrix.Proofs.Video.Control
import DotMatrix.Proofs.Video.StatusLine
import Mathlib.Data.List.Induction

/-! The coincidence bit of the status register, which tells whether the beam is on the line that a
program waits for. Every change of either side brings it up to date but one: switching the LCD off
takes the line to the top and leaves the bit behind, until the next comparison. -/
namespace DotMatrix

namespace BusOperation

def compares : BusOperation → Bool
  | .write address value => address == 0xFF45 || address == 0xFF40 && value &&& 0x80 != 0
  | _ => false

end BusOperation

namespace Video
variable {v : Video}

theorem statusSelect_write (palette : Palette) (address : UInt16) (value : UInt8)
    (unselected : v.raster.registers.statusSelect.toNat.testBit 2 = false) :
    (v.write palette address value).1.raster.registers.statusSelect.toNat.testBit 2 = false := by
  unfold write
  split
  case h_1 =>
    unfold writeControl
    dsimp only
    split
    · exact unselected
    · split <;> exact unselected
  case h_2 =>
    change (value &&& 0x78).toNat.testBit 2 = false
    rw [UInt8.toNat_and, Nat.testBit_and]
    exact Bool.and_false _
  all_goals exact unselected

theorem testBit_readStatus {r : Raster}
    (unselected : r.registers.statusSelect.toNat.testBit 2 = false) :
    (readStatus r).toNat.testBit 2 = r.coincidence := by
  have constant : (0x80 : UInt8).toNat.testBit 2 = false := by decide
  have bit : (if r.coincidence then 0x04 else 0 : UInt8).toNat.testBit 2 = r.coincidence := by
    cases r.coincidence <;> decide
  have mode : (if r.registers.lcdOn then VideoMode.bits r.mode else 0).toNat.testBit 2 = false := by
    split
    · cases r.mode <;> decide
    · decide
  unfold readStatus
  dsimp only
  rw [UInt8.toNat_or, UInt8.toNat_or, UInt8.toNat_or, Nat.testBit_or, Nat.testBit_or,
    Nat.testBit_or, constant, unselected, bit, mode, Bool.false_or, Bool.false_or, Bool.or_false]

theorem compared_writeControl (palette : Palette) {value : UInt8} (h : v.raster.StatusSettled) :
    ¬(v.writeControl palette value).1.raster.Compared ↔
      (value &&& 0x80 = 0 ∧ v.raster.registers.lcdOn = true ∧
        ¬(v.raster.registers.line = v.raster.registers.lineCompare ↔
          0 = v.raster.registers.lineCompare)) ∨
      ¬v.raster.Compared ∧ value &&& 0x80 = 0 := by
  have same : (v.controlled value).raster.Compared ↔ v.raster.Compared := Iff.rfl
  by_cases on : v.raster.registers.lcdOn = true
  · have compared := h.compared on
    by_cases off : value &&& 0x80 = 0
    · have left : ((v.controlled value).switchOff palette).raster.Compared ↔
          (v.raster.registers.line = v.raster.registers.lineCompare ↔
            0 = v.raster.registers.lineCompare) := iff_congr compared Iff.rfl
      rw [writeControl_off palette on off, left]
      simp [on, off, compared]
    · rw [writeControl_kept palette (by rw [on, bne_iff_ne]; exact off), same]
      simp [off, compared]
  · have dark : v.raster.registers.lcdOn = false := by simpa using on
    by_cases off : value &&& 0x80 = 0
    · rw [writeControl_kept palette (by rw [dark, bne_eq_false_iff_eq]; exact off), same]
      simp [dark, off]
    · have compared : ((v.controlled value).updateRaster switchOn).1.raster.Compared := beq_iff_eq
      rw [writeControl_on palette dark off]
      simp [off, compared]

theorem compared_write (palette : Palette) (address : UInt16) (value : UInt8)
    (h : v.raster.StatusSettled) :
    ¬(v.write palette address value).1.raster.Compared ↔
      (address = 0xFF40 ∧ value &&& 0x80 = 0 ∧ v.raster.registers.lcdOn = true ∧
        ¬(v.raster.registers.line = v.raster.registers.lineCompare ↔
          0 = v.raster.registers.lineCompare)) ∨
      ¬v.raster.Compared ∧ (BusOperation.write address value).compares = false := by
  by_cases control : address = 0xFF40
  · subst control
    have compares : (BusOperation.write 0xFF40 value).compares = false ↔ value &&& 0x80 = 0 := by
      simp [BusOperation.compares]
    rw [compares, eq_self_iff_true, true_and]
    exact compared_writeControl palette h
  by_cases compare : address = 0xFF45
  · subst compare
    have now : (v.write palette 0xFF45 value).1.raster.Compared := beq_iff_eq
    simp [now, BusOperation.compares]
  · have same : (v.write palette address value).1.raster.Compared ↔ v.raster.Compared := by
      unfold write
      split
      case h_1 => exact absurd rfl control
      case h_5 => exact absurd rfl compare
      all_goals exact Iff.rfl
    simp [same, control, compare, BusOperation.compares]

end Video

namespace LiveBoard
variable {live next start : LiveBoard} {op : BusOperation} {ops : List BusOperation}

/-- As a program reads them, the coincidence bit tells whether the line and compare registers are
equal. -/
def CoincidenceCurrent (live : LiveBoard) : Prop :=
  (live.read 0xFF41).toNat.testBit 2 = true ↔ live.read 0xFF44 = live.read 0xFF45

theorem coincidenceCurrent_iff
    (unselected : live.board.video.raster.registers.statusSelect.toNat.testBit 2 = false) :
    live.CoincidenceCurrent ↔ live.board.video.raster.Compared := by
  have bit := Video.testBit_readStatus unselected
  have status : live.read 0xFF41 = Video.readStatus live.board.video.raster := rfl
  unfold CoincidenceCurrent Raster.Compared
  rw [status, bit]
  rfl

def FallsBehind (live : LiveBoard) : BusOperation → Prop
  | .write address value =>
    address = 0xFF40 ∧ value &&& 0x80 = 0 ∧ live.board.video.raster.registers.lcdOn = true ∧
      ¬(live.read 0xFF44 = live.read 0xFF45 ↔ 0 = live.read 0xFF45)
  | _ => False

/-- The bit has fallen behind, and the line has not been compared since then. -/
def LeftBehind (start : LiveBoard) (ops : List BusOperation) : Prop :=
  ∃ before op after live, ops = before ++ op :: after ∧
    before.foldlM operate start = .ok live ∧ live.FallsBehind op ∧
    ∀ later ∈ after, later.compares = false

theorem leftBehind_snoc (runs : ops.foldlM operate start = .ok live) :
    start.LeftBehind (ops ++ [op]) ↔
      live.FallsBehind op ∨ start.LeftBehind ops ∧ op.compares = false := by
  constructor
  · rintro ⟨before, cause, after, middle, cut, reaches, falls, quiet⟩
    rcases List.eq_nil_or_concat after with rfl | ⟨after, last, rfl⟩
    · obtain ⟨rfl, same⟩ := List.append_inj' cut rfl
      cases same
      rw [runs] at reaches
      cases reaches
      exact .inl falls
    · rw [List.concat_eq_append, ← List.cons_append, ← List.append_assoc] at cut
      obtain ⟨rfl, same⟩ := List.append_inj' cut rfl
      cases same
      refine .inr ⟨⟨before, cause, after, middle, rfl, reaches, falls, fun later inside => ?_⟩, ?_⟩
      · exact quiet later (by simp [inside])
      · exact quiet op (by simp)
  · rintro (falls | ⟨⟨before, cause, after, middle, rfl, reaches, falls, quiet⟩, last⟩)
    · exact ⟨ops, op, [], live, rfl, runs, falls, by simp⟩
    · refine ⟨before, cause, after ++ [op], middle, by simp, reaches, falls, ?_⟩
      simpa [or_imp, forall_and] using ⟨quiet, last⟩

theorem raster_write (address : UInt16) (value : UInt8) (live : LiveBoard) :
    (live.write address value).board.video.raster =
      (live.board.video.write live.settings.colors address value).1.raster := by
  have elsewhere (other : Region.ofAddress address ≠ .video) :
      (live.board.video.write live.settings.colors address value).1.raster =
        live.board.video.raster :=
    congrArg (·.1.raster) (Video.write_elsewhere _ value other)
  unfold LiveBoard.write
  cases region : Region.ofAddress address with
  | video => rfl
  | vram | oam =>
    refine Eq.trans ?_ (elsewhere (by simp [region])).symm
    dsimp only
    split <;> rfl
  | oamTransfer =>
    refine Eq.trans ?_ (elsewhere (by simp [region])).symm
    unfold transfer
    rfl
  | _ =>
    refine Eq.trans ?_ (elsewhere (by simp [region])).symm
    rfl

theorem raster_tick {n : Nat} (ticks : live.tick n = .ok next) :
    next.board.video.raster = (live.board.video.tick live.settings.colors n ∅).1.raster := by
  obtain ⟨counter, rfl⟩ := elapsed_of_tick ticks
  rfl

structure StatusKept (live : LiveBoard) : Prop where
  settled : live.board.video.raster.StatusSettled
  unselected : live.board.video.raster.registers.statusSelect.toNat.testBit 2 = false

theorem StatusKept.operate (h : live.StatusKept) (operates : live.operate op = .ok next) :
    next.StatusKept := by
  cases op with
  | write address value =>
    cases operates
    have raster := raster_write address value live
    refine ⟨?_, ?_⟩
    · change (live.write address value).board.video.raster.StatusSettled
      rw [raster]
      exact (Video.statusFollows_write _ address value h.settled).settled
    · change
        (live.write address value).board.video.raster.registers.statusSelect.toNat.testBit 2 = _
      rw [raster]
      exact Video.statusSelect_write _ address value h.unselected
  | tick n =>
    have raster := raster_tick operates
    refine ⟨?_, ?_⟩
    · rw [raster]
      exact Video.statusSettled_tick _ n ∅ h.settled
    · rw [raster, Video.registers_tick]
      exact h.unselected
  | _ =>
    cases operates
    exact ⟨h.settled, h.unselected⟩

theorem compared_operate (h : live.StatusKept) (operates : live.operate op = .ok next) :
    ¬next.board.video.raster.Compared ↔
      live.FallsBehind op ∨ ¬live.board.video.raster.Compared ∧ op.compares = false := by
  cases op with
  | write address value =>
    cases operates
    change ¬(live.write address value).board.video.raster.Compared ↔ _
    rw [raster_write]
    exact Video.compared_write _ address value h.settled
  | tick n =>
    have kept := h.operate operates
    have raster := raster_tick operates
    have power : next.board.video.raster.registers.lcdOn =
        live.board.video.raster.registers.lcdOn := by
      rw [raster]
      exact Video.lcdOn_tick ..
    by_cases on : live.board.video.raster.registers.lcdOn = true
    · simp [h.settled.compared on, kept.settled.compared (power.trans on), FallsBehind]
    · rw [raster, Video.tick_off _ _ _ _ on]
      simp [FallsBehind, BusOperation.compares]
  | _ =>
    cases operates
    exact ⟨fun behind => .inr ⟨behind, rfl⟩, fun | .inr ⟨behind, _⟩ => behind⟩

theorem compared_operations {last : LiveBoard} (h : start.StatusKept)
    (compared : start.board.video.raster.Compared)
    (operates : ops.foldlM operate start = .ok last) :
    last.StatusKept ∧ (¬last.board.video.raster.Compared ↔ start.LeftBehind ops) := by
  induction ops using List.reverseRecOn generalizing last with
  | nil =>
    cases operates
    refine ⟨h, iff_of_false (not_not_intro compared) ?_⟩
    rintro ⟨before, op, after, live, cut, -⟩
    exact List.append_ne_nil_of_right_ne_nil before (List.cons_ne_nil op after) cut.symm
  | append_singleton ops op ih =>
    rw [List.foldlM_append] at operates
    obtain ⟨live, runs, operates⟩ := Except.bind_eq_ok.mp operates
    obtain ⟨next, operates, ends⟩ := Except.bind_eq_ok.mp operates
    cases ends
    obtain ⟨kept, behind⟩ := ih runs
    refine ⟨kept.operate operates, ?_⟩
    rw [compared_operate kept operates, behind, leftBehind_snoc runs]

theorem statusKept_powerOn (image : Image) (settings : Settings) (header : Header) :
    (Console.started image settings header).machine.bus.StatusKept where
  settled := (Video.FromPowerOn.powerOn settings.colors).statusSettled
  unselected := (by decide : (0 : UInt8).toNat.testBit 2 = false)

/-- With the LCD on the bit is current after every operation; with the LCD off it is current
except while it is left behind. -/
theorem coincidence_current_iff {image : Image} {header : Header}
    (accepted : Header.parse image = .ok header) (settings : Settings)
    (ops : List BusOperation) :
    ∃ c, Console.powerOn image settings = .ok c ∧
      ((ops.map BusOperation.cycles).sum < UInt64.size →
        ∃ live, ops.foldlM operate c.machine.bus = .ok live) ∧
      ∀ live, ops.foldlM operate c.machine.bus = .ok live →
        (live.board.video.raster.registers.lcdOn = true → live.CoincidenceCurrent) ∧
          (live.CoincidenceCurrent ↔ ¬c.machine.bus.LeftBehind ops) := by
  have kept := statusKept_powerOn image settings header
  refine ⟨_, Console.powerOn_started accepted settings, fun room => ?_, fun live operates => ?_⟩
  · have start : (Console.started image settings header).machine.bus.board.cycles.toNat = 0 := rfl
    exact exists_operations ops _ (by omega)
  · obtain ⟨last, behind⟩ := compared_operations kept (iff_of_true rfl rfl) operates
    have current := coincidenceCurrent_iff last.unselected
    exact ⟨fun on => current.mpr (last.settled.compared on),
      current.trans (not_iff_comm.mp behind).symm⟩

/-- The LCD is switched off below the first line, and the line it waits for is written again. -/
theorem coincidence_current_again :
    ∃ c live, Console.powerOn Image.blank .standard = .ok c ∧
      [.tick 456, .write 0xFF40 0x11, .write 0xFF45 0x00].foldlM operate c.machine.bus =
        .ok live ∧ live.CoincidenceCurrent := by
  obtain ⟨header, accepted⟩ := Header.parse_blank
  obtain ⟨c, starts, runs, current⟩ := coincidence_current_iff accepted .standard
    [.tick 456, .write 0xFF40 0x11, .write 0xFF45 0x00]
  obtain ⟨live, operates⟩ := runs (by decide)
  refine ⟨c, live, starts, operates, (current live operates).2.mpr ?_⟩
  have cut : [BusOperation.tick 456, .write 0xFF40 0x11, .write 0xFF45 0x00] =
    [.tick 456, .write 0xFF40 0x11] ++ [.write 0xFF45 0x00] := rfl
  rw [cut, List.foldlM_append] at operates
  obtain ⟨before, first, -⟩ := Except.bind_eq_ok.mp operates
  rw [cut, leftBehind_snoc first]
  rintro (⟨control, -⟩ | ⟨-, quiet⟩)
  · exact absurd control (by decide)
  · exact absurd quiet (by decide)

/-- Below the first line the LCD is switched off: both registers read zero then, and the bit says
that they differ. -/
theorem coincidence_stale :
    ∃ c live, Console.powerOn Image.blank .standard = .ok c ∧
      [.tick 456, .write 0xFF40 0x11].foldlM operate c.machine.bus = .ok live ∧
        live.read 0xFF44 = 0 ∧ live.read 0xFF45 = 0 ∧
          (live.read 0xFF41).toNat.testBit 2 = false := by
  obtain ⟨header, accepted⟩ := Header.parse_blank
  let start := (Console.started Image.blank .standard header).machine.bus
  have kept : start.StatusKept := statusKept_powerOn Image.blank .standard header
  have zero : start.board.cycles.toNat = 0 := rfl
  obtain ⟨below, ticks, -⟩ := start.exists_operate (.tick 456) (by rw [zero]; decide)
  have raster : below.board.video.raster =
      ((Video.powerOn Settings.standard.colors).tick Settings.standard.colors 456 ∅).1.raster :=
    raster_tick (show start.tick 456 = .ok below from ticks)
  have inRange := Video.inRange_powerOn Settings.standard.colors
  have passed := Video.passed_tick Settings.standard.colors 456 inRange (by decide)
  have reached := Video.inRange_tick Settings.standard.colors 456 _ ∅ inRange
  have line : below.board.video.raster.registers.line = 1 := by
    rw [raster, ← UInt8.toNat_inj, ← reached.position_div, passed.position]
    rfl
  have compare : below.board.video.raster.registers.lineCompare = 0 := by
    rw [raster, Video.registers_tick]
    rfl
  have stays : below.board.video.raster.registers.lcdOn = true := by
    rw [raster]
    exact passed.on
  have differs : below.board.video.raster.coincidence = false := by
    have compared := (kept.operate ticks).settled.compared stays
    rw [Raster.Compared, line, compare] at compared
    simpa using compared
  -- The write takes the line back and nothing else.
  have dark : (below.write 0xFF40 0x11).board.video.raster =
      ((below.board.video.controlled 0x11).switchOff below.settings.colors).raster :=
    congrArg (·.1.raster) (Video.writeControl_off _ stays (by decide))
  refine ⟨_, below.write 0xFF40 0x11, Console.powerOn_started accepted .standard, ?_, ?_, ?_, ?_⟩
  · rw [List.foldlM_cons, show start.operate (.tick 456) = _ from ticks]
    rfl
  · exact congrArg (·.registers.line) dark
  · exact (congrArg (·.registers.lineCompare) dark).trans compare
  · have last := (kept.operate ticks).operate
      (show operate below (.write 0xFF40 0x11) = _ from rfl)
    refine (Video.testBit_readStatus last.unselected).trans ?_
    exact (congrArg (·.coincidence) dark).trans differs

end LiveBoard
end DotMatrix
