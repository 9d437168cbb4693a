import DotMatrix.Proofs.Console.Lockstep
import DotMatrix.Proofs.Time.Wrapping
import DotMatrix.Proofs.Video.Locked

/-! Frames with a limit of their own. The limit on the steps of a frame is nothing that a program
could notice: under another one a machine takes the same steps, and more or fewer of them belong
to the frame. -/
namespace DotMatrix

def Settings.capped (steps : Nat) (s : Settings) : Settings := { s with maxSteps := steps }

theorem Sound.tick_capped (steps : Nat) (settings : Settings) (cycles : Nat) (s : Sound)
    (samples : Array Single) :
    s.tick (settings.capped steps) cycles samples = s.tick settings cycles samples := by
  fun_induction tick settings cycles s samples with
  | case1 cycles s samples rate cut stays =>
    unfold tick
    exact if_pos stays
  | case2 cycles s samples rate cut goes ran phase before ih =>
    rw [← ih]
    conv => lhs; unfold tick
    exact (if_neg goes).trans (if_pos before)
  | case3 cycles s samples rate cut goes ran phase reached next ih =>
    rw [← ih]
    conv => lhs; unfold tick
    exact (if_neg goes).trans (if_neg reached)

namespace LiveBoard

def capped (steps : Nat) (live : LiveBoard) : LiveBoard :=
  { live with settings := live.settings.capped steps }

theorem write_capped (steps : Nat) (address : UInt16) (value : UInt8) (live : LiveBoard) :
    (live.capped steps).write address value = (live.write address value).capped steps := by
  have vram : (live.capped steps).vramOpen = live.vramOpen := rfl
  have oam : (live.capped steps).oamOpen = live.oamOpen := rfl
  unfold write
  cases Region.ofAddress address with
  | vram offset =>
    dsimp only
    rw [vram]
    split <;> rfl
  | oam offset =>
    dsimp only
    rw [oam]
    split <;> rfl
  | oamTransfer =>
    unfold transfer
    rfl
  | _ => rfl

theorem tick_capped (steps n : Nat) (live : LiveBoard) :
    (live.capped steps).tick n = (live.tick n).map (capped steps) := by
  obtain ⟨image, settings, board, samples, sent⟩ := live
  unfold tick capped
  dsimp only
  rw [Sound.tick_capped]
  cases countUp .cycleCounter board.cycles n <;> rfl

/-- The other board is this one under another limit. -/
structure Recapped (settings : Settings) (steps : Nat) (live other : LiveBoard) : Prop where
  settings : live.settings = settings
  capped : other = live.capped steps

theorem recapped_lockstep (settings : Settings) (steps : Nat) :
    Lockstep (Recapped settings steps) where
  simulation :=
    { read := by
        rintro address live _ ⟨same, rfl⟩
        exact ⟨rfl, same, rfl⟩
      write := by
        rintro address value live _ ⟨same, rfl⟩
        exact ⟨(settings_write address value live).trans same, write_capped ..⟩ }
  tick := by
    rintro n live _ ⟨same, rfl⟩
    rw [tick_capped]
    cases ticked : live.tick n with
    | error fault => exact .error fault
    | ok next =>
      obtain ⟨cycles, rfl⟩ := elapsed_of_tick ticked
      exact .ok _ _ ⟨same, rfl⟩
  takeStall := by
    rintro live _ ⟨same, rfl⟩
    exact ⟨rfl, same, rfl⟩
  frameReady := by
    rintro live _ ⟨_, rfl⟩
    rfl
  registers := by
    rintro live _ ⟨_, rfl⟩
    rfl

end LiveBoard

namespace Wired

def capped (steps : Nat) (m : Wired LiveBoard) : Wired LiveBoard :=
  { m with bus := m.bus.capped steps }

theorem runSteps_capped (limit steps elapsed : Nat) (m : Wired LiveBoard) :
    SameOutcome (Execution.Wiring (LiveBoard.Recapped m.bus.settings limit))
      (m.runSteps steps elapsed) ((m.capped limit).runSteps steps elapsed) :=
  runSteps_lockstep (LiveBoard.recapped_lockstep _ limit) steps elapsed ⟨rfl, rfl, rfl⟩

def course : (steps elapsed : Nat) → Wired LiveBoard → List (Wired LiveBoard)
  | 0, _, _ => []
  | steps + 1, elapsed, m =>
    m ::
      match m.advance with
      | .error _ => []
      | .ok (cycles, next) =>
        if next.frameEnds (elapsed + cycles) then [] else course steps (elapsed + cycles) next

variable {m next last : Wired LiveBoard}

theorem advance_eq_ok {cycles : Nat} :
    m.advance = .ok (cycles, next) ↔
      m.bus.board.cycles.toNat + cycles < UInt64.size ∧ m.pass = (cycles, next) := by
  rw [advance_eq_if]
  constructor
  · intro advances
    split at advances
    case isTrue room =>
      have passes := Except.ok.inj advances
      rw [passes] at room
      exact ⟨room, passes⟩
    case isFalse => cases advances
  · rintro ⟨room, passes⟩
    rw [passes]
    exact if_pos room

theorem time_advance {cycles : Nat} (advances : m.advance = .ok (cycles, next)) :
    4 ≤ cycles ∧ next.bus.board.cycles.toNat = m.bus.board.cycles.toNat + cycles := by
  obtain ⟨room, passes⟩ := advance_eq_ok.mp advances
  have shortest : 4 ≤ m.pass.1 := Nat.le_trans m.cost_step.1 (Nat.le_add_right _ _)
  have counted := m.cycles_pass
  rw [passes] at shortest counted
  dsimp only at counted
  rw [counted]
  exact ⟨shortest, toNat_add_ofNat room⟩

theorem runSteps_last (steps : Nat) {elapsed cycles : Nat}
    (advances : m.advance = .ok (cycles, next))
    (stops : steps = 0 ∨ next.frameEnds (elapsed + cycles) = true) :
    m.runSteps (steps + 1) elapsed = .ok next ∧ m.course (steps + 1) elapsed = [m] := by
  unfold runSteps course
  rw [advances]
  dsimp only
  split
  case isTrue => exact ⟨rfl, rfl⟩
  case isFalse further =>
    obtain rfl := stops.resolve_right further
    exact ⟨rfl, rfl⟩

theorem runSteps_further (steps : Nat) {elapsed cycles : Nat}
    (advances : m.advance = .ok (cycles, next))
    (further : next.frameEnds (elapsed + cycles) = false) :
    m.runSteps (steps + 1) elapsed = next.runSteps steps (elapsed + cycles) ∧
      m.course (steps + 1) elapsed = m :: next.course steps (elapsed + cycles) := by
  constructor
  · rw [runSteps, advances]
    dsimp only
    rw [if_neg (Bool.eq_false_iff.mp further)]
  · rw [course, advances]
    dsimp only
    rw [if_neg (Bool.eq_false_iff.mp further)]

theorem exists_advance {steps elapsed : Nat} (runs : m.runSteps (steps + 1) elapsed = .ok next) :
    ∃ advanced, m.advance = .ok advanced := by
  rw [runSteps] at runs
  cases advances : m.advance with
  | error fault =>
    rw [advances] at runs
    cases runs
  | ok advanced => exact ⟨advanced, rfl⟩

theorem time_course (steps elapsed : Nat) (runs : m.runSteps steps elapsed = .ok last) :
    m.bus.board.cycles.toNat + 4 * (m.course steps elapsed).length ≤
      last.bus.board.cycles.toNat := by
  induction steps generalizing elapsed m with
  | zero =>
    cases runs
    exact Nat.le_refl _
  | succ steps ih =>
    obtain ⟨⟨cycles, next⟩, advances⟩ := exists_advance runs
    obtain ⟨shortest, time⟩ := time_advance advances
    cases ends : next.frameEnds (elapsed + cycles) with
    | true =>
      obtain ⟨stops, single⟩ := runSteps_last steps advances (.inr ends)
      obtain rfl := Except.ok.inj (stops.symm.trans runs)
      rw [single, List.length_singleton]
      omega
    | false =>
      obtain ⟨goes, course⟩ := runSteps_further steps advances ends
      have rest := ih (elapsed + cycles) (goes.symm.trans runs)
      rw [course, List.length_cons]
      omega

end Wired

namespace Console

def capped (steps : Nat) (c : Console) : Console := { c with machine := c.machine.capped steps }

/-- A frame of at most `steps` steps. The console keeps the limit that it has. -/
def runCapped (steps : Nat) (held : ButtonSet) (c : Console) :
    Except Fault (FrameOutput × Console) :=
  ((c.capped steps).runFrame held).map fun (output, next) =>
    (output, next.capped c.machine.bus.settings.maxSteps)

theorem runCapped_eq (steps : Nat) (held : ButtonSet) (c : Console) :
    c.runCapped steps held =
      match (c.beginFrame held).machine.runSteps steps 0 with
      | .error fault => .error fault
      | .ok machine =>
        match countUp .frameCounter c.frames 1 with
        | .error fault => .error fault
        | .ok frames =>
          .ok (⟨machine.bus.samples, machine.bus.board.raised⟩,
            ⟨c.header, endFrame machine, frames⟩) := by
  have ran := Wired.runSteps_capped steps steps 0 (c.beginFrame held).machine
  unfold runCapped
  rw [runFrame_eq]
  change Except.map _ (match ((c.beginFrame held).machine.capped steps).runSteps steps 0 with
    | .error _ => _ | .ok _ => match countUp .frameCounter c.frames 1 with
      | .error _ => _ | .ok _ => _) = _
  revert ran
  generalize (c.beginFrame held).machine.runSteps steps 0 = own
  generalize ((c.beginFrame held).machine.capped steps).runSteps steps 0 = other
  rintro (⟨machine, ⟨cpu, bus⟩, rfl, same, rfl⟩ | fault)
  · dsimp only
    cases countUp .frameCounter c.frames 1 with
    | error fault => rfl
    | ok frames =>
      obtain ⟨cpu, live⟩ := machine
      have same : live.settings = c.machine.bus.settings := same
      simp only [Except.map, capped, Wired.capped, LiveBoard.capped, endFrame, Settings.capped,
        ← same]
  · rfl

def course (steps : Nat) (held : ButtonSet) (c : Console) : List (Wired LiveBoard) :=
  (c.beginFrame held).machine.course steps 0

theorem runCapped_eq_ok {steps : Nat} {held : ButtonSet} {c : Console}
    {result : FrameOutput × Console} :
    c.runCapped steps held = .ok result ↔
      ∃ machine, (c.beginFrame held).machine.runSteps steps 0 = .ok machine ∧
        c.frames.toNat + 1 < UInt64.size ∧
        result = (⟨machine.bus.samples, machine.bus.board.raised⟩,
          ⟨c.header, endFrame machine, c.frames + 1⟩) := by
  rw [runCapped_eq]
  cases (c.beginFrame held).machine.runSteps steps 0 with
  | error fault => simp
  | ok machine =>
    unfold countUp
    by_cases room : c.frames.toNat + 1 < UInt64.size
    · simp [room, eq_comm]
    · simp [room]

theorem runCapped_maxSteps (held : ButtonSet) (c : Console) :
    c.runCapped c.machine.bus.settings.maxSteps held = c.runFrame held :=
  (runCapped_eq _ held c).trans (runFrame_eq held c).symm

end Console

end DotMatrix
