import DotMatrix.Proofs.Console.SaveLoad
import DotMatrix.Proofs.Safe.Processor
import DotMatrix.Proofs.Time.Wrapping

/-! What a console goes through once a snapshot has been accepted. In no session of frames,
buttons, resets and snapshots does anything that is checked fail, except that a counter can run
over: nobody asks a snapshot how full its counters are. -/
namespace DotMatrix

theorem LiveBoard.InRange.stall_le {image : Image} {settings : Settings} {header : Header}
    {live : LiveBoard} (h : live.InRange image settings header) : live.takeStall.1 ≤ 640 :=
  h.board.stall

def longestStep : Nat := 24 + 640

namespace Wired

structure AdvanceSafe (machine : Wired LiveBoard) : Prop where
  step : machine.StepSafe
  time : machine.step.2.bus.TickSafe machine.step.1
  wait : ∀ bus, machine.step.2.bus.tick machine.step.1 = .ok bus →
    bus.takeStall.2.TickSafe bus.takeStall.1
  elapsed : ∀ bus, machine.step.2.bus.tick machine.step.1 = .ok bus →
    machine.step.1 + bus.takeStall.1 < 0x100000000

/-- A condition on every machine from which a step is taken, up to the end of a frame. -/
def Along (p : Wired LiveBoard → Prop) : (steps elapsed : Nat) → Wired LiveBoard → Prop
  | 0, _, _ => True
  | steps + 1, elapsed, machine =>
    p machine ∧ ∀ cycles next, machine.advance = .ok (cycles, next) →
      next.frameEnds (elapsed + cycles) = false → Along p steps (elapsed + cycles) next

section
variable {image : Image} {settings : Settings} {header : Header}

theorem advanceSafe {machine : Wired LiveBoard} (h : machine.bus.InRange image settings header)
    (describes : header.Describes image) : machine.AdvanceSafe := by
  have stepped := inRange_step h
  have cost := machine.cost_step.2
  constructor
  case step => exact stepSafe h describes
  case time => exact stepped.tickSafe _ (by omega)
  case wait =>
    intro bus ticks
    have ticked := stepped.tick ticks
    have stall := ticked.stall_le
    exact ticked.takeStall.tickSafe _ (by omega)
  case elapsed =>
    intro bus ticks
    have stall := (stepped.tick ticks).stall_le
    omega

theorem along_advanceSafe (steps elapsed : Nat) (machine : Wired LiveBoard)
    (h : machine.bus.InRange image settings header) (describes : header.Describes image) :
    machine.Along AdvanceSafe steps elapsed := by
  induction steps generalizing elapsed machine with
  | zero => trivial
  | succ steps ih =>
    exact ⟨advanceSafe h describes, fun cycles next advances _ =>
      ih _ next (inRange_advance h advances)⟩

theorem time_pass_le {machine : Wired LiveBoard} (h : machine.bus.InRange image settings header) :
    machine.pass.1 ≤ longestStep := by
  have cost := machine.cost_step.2
  have stepped : machine.afterStep.InRange image settings header := (inRange_step h).elapse _ _
  have stall := stepped.stall_le
  change machine.step.1 + machine.afterStep.takeStall.1 ≤ longestStep
  unfold longestStep
  omega

theorem inRange_pass {machine : Wired LiveBoard} (h : machine.bus.InRange image settings header) :
    machine.pass.2.bus.InRange image settings header :=
  ((inRange_step h).elapse _ _).takeStall.elapse _ _

theorem time_passSteps_le (steps elapsed : Nat) (machine : Wired LiveBoard)
    (h : machine.bus.InRange image settings header) :
    (machine.passSteps steps elapsed).1 ≤ elapsed + longestStep * steps := by
  induction steps generalizing elapsed machine with
  | zero => exact Nat.le_refl elapsed
  | succ steps ih =>
    have time := time_pass_le h
    rw [Nat.mul_succ]
    unfold passSteps
    dsimp only
    split
    · omega
    · have rest := ih (elapsed + machine.pass.1) machine.pass.2 (inRange_pass h)
      omega

end
end Wired

namespace Console

/-- The calls of a session that change a console or read all of it. -/
inductive Act where
  | runFrame (held : ButtonSet)
  | press (button : Button) (held : Bool)
  | reset
  | save

def perform (c : Console) : Act → Except Fault Console
  | .runFrame held => (c.runFrame held).map Prod.snd
  | .press button held => .ok (c.press button held)
  | .reset => .ok c.reset
  | .save => .ok c

/-- What a call needs, the counters apart. A snapshot is written if the lengths of its parts fit
their words, and a reset boots; buttons use no number that could run over. -/
def ActSafe (c : Console) : Act → Prop
  | .runFrame held =>
    (c.beginFrame held).machine.Along Wired.AdvanceSafe c.machine.bus.settings.maxSteps 0
  | .press _ _ => True
  | .reset => Sound.BootSafe
  | .save => (BoardRecord.ofBoard c.machine.bus.board).Storable

/-- Every call of a session returns, and nothing that is checked fails on the way. -/
def Survives (c : Console) : List Act → Prop
  | [] => True
  | act :: acts => c.ActSafe act ∧ ∃ next, c.perform act = .ok next ∧ next.Survives acts

def frameTime (held : ButtonSet) (c : Console) : Nat :=
  ((c.beginFrame held).machine.passSteps c.machine.bus.settings.maxSteps 0).1

def passFrame (held : ButtonSet) (c : Console) : FrameOutput × Console :=
  let (_, machine) :=
    (c.beginFrame held).machine.passSteps c.machine.bus.settings.maxSteps 0
  ({ samples := machine.bus.samples, interrupts := machine.bus.board.raised },
    { c with machine := endFrame machine, frames := c.frames + 1 })

def pass (c : Console) : Act → Console
  | .runFrame held => (c.passFrame held).2
  | .press button held => c.press button held
  | .reset => c.reset
  | .save => c

/-- A frame needs room in both counters: for its cycles in one, for itself in the other. -/
def ActRoom (c : Console) : Act → Prop
  | .runFrame held =>
    c.machine.bus.board.cycles.toNat + c.frameTime held < UInt64.size ∧
      c.frames.toNat + 1 < UInt64.size
  | _ => True

/-- The counters have room for every frame of a session. -/
def HasRoom (c : Console) : List Act → Prop
  | [] => True
  | act :: acts => c.ActRoom act ∧ (c.pass act).HasRoom acts

theorem runFrame_eq_if (held : ButtonSet) (c : Console) :
    c.runFrame held =
      if c.machine.bus.board.cycles.toNat + c.frameTime held < UInt64.size then
        if c.frames.toNat + 1 < UInt64.size then .ok (c.passFrame held)
        else .error .frameCounter
      else .error .cycleCounter := by
  have counter : (c.beginFrame held).machine.bus.board.cycles = c.machine.bus.board.cycles := rfl
  rw [runFrame_eq, Wired.runSteps_eq_if, Nat.add_zero, counter, ← frameTime]
  by_cases cycles : c.machine.bus.board.cycles.toNat + c.frameTime held < UInt64.size
  · rw [if_pos cycles, if_pos cycles]
    unfold countUp
    by_cases frames : c.frames.toNat + 1 < UInt64.size
    · rw [if_pos frames, if_pos frames]
      rfl
    · rw [if_neg frames, if_neg frames]
  · rw [if_neg cycles, if_neg cycles]

theorem runFrame_eq_ok {held : ButtonSet} {c : Console} {result : FrameOutput × Console} :
    c.runFrame held = .ok result ↔ c.ActRoom (.runFrame held) ∧ c.passFrame held = result := by
  unfold ActRoom
  rw [runFrame_eq_if]
  split
  case isTrue cycles =>
    split
    case isTrue frames => simp [cycles, frames]
    case isFalse frames => simp [frames]
  case isFalse cycles => simp [cycles]

/-- A call returns exactly if the counters have room for it. -/
theorem perform_eq_ok {c next : Console} {act : Act} :
    c.perform act = .ok next ↔ c.ActRoom act ∧ c.pass act = next := by
  have returns {c : Console} :
      (Except.ok c : Except Fault Console) = .ok next ↔ True ∧ c = next := by
    rw [Except.ok.injEq, true_and]
  cases act with
  | runFrame held =>
    simp only [perform, Except.map_eq_ok, runFrame_eq_ok]
    constructor
    · rintro ⟨_, ⟨room, rfl⟩, last⟩
      exact ⟨room, last⟩
    · rintro ⟨room, last⟩
      exact ⟨_, ⟨room, rfl⟩, last⟩
  | press | reset | save => exact returns

namespace InRange
variable {image : Image} {settings : Settings} {c next : Console}

theorem actSafe (h : c.InRange image settings) (act : Act) : c.ActSafe act := by
  have describes := Header.describes_of_parse h.header
  cases act with
  | runFrame held => exact Wired.along_advanceSafe _ _ _ (h.beginFrame held).bus describes
  | press => trivial
  | reset => exact Sound.bootSafe
  | save => exact h.bus.board.storable describes

theorem perform (h : c.InRange image settings) {act : Act} (performs : c.perform act = .ok next) :
    next.InRange image settings := by
  cases act with
  | runFrame held =>
    obtain ⟨result, ran, rfl⟩ := Except.map_eq_ok.mp performs
    exact h.runFrame ran
  | press button held =>
    cases performs
    exact h.step (.press button held)
  | reset =>
    cases performs
    exact h.reset
  | save =>
    cases performs
    exact h

theorem survives_iff (h : c.InRange image settings) (acts : List Act) :
    c.Survives acts ↔ c.HasRoom acts := by
  induction acts generalizing c with
  | nil => exact Iff.rfl
  | cons act acts ih =>
    constructor
    -- A call that has returned had room, and left the console in its ranges.
    · rintro ⟨_, next, performs, survives⟩
      obtain ⟨room, rfl⟩ := perform_eq_ok.mp performs
      exact ⟨room, (ih (h.perform performs)).mp survives⟩
    · rintro ⟨room, rest⟩
      have performs := perform_eq_ok.mpr ⟨room, rfl⟩
      exact ⟨h.actSafe act, _, performs, (ih (h.perform performs)).mpr rest⟩

theorem frameTime_le (h : c.InRange image settings) (held : ButtonSet) :
    c.frameTime held ≤ longestStep * settings.maxSteps := by
  have time := Wired.time_passSteps_le c.machine.bus.settings.maxSteps 0 _ (h.beginFrame held).bus
  rw [h.bus.settings, Nat.zero_add] at time
  unfold frameTime
  rw [h.bus.settings]
  exact time

theorem counters_pass_le (h : c.InRange image settings) (act : Act) :
    (c.pass act).machine.bus.board.cycles.toNat ≤
        c.machine.bus.board.cycles.toNat + longestStep * settings.maxSteps ∧
      (c.pass act).frames.toNat ≤ c.frames.toNat + 1 := by
  cases act with
  | runFrame held =>
    have time := h.frameTime_le held
    have counted := Wired.cycles_passSteps_le c.machine.bus.settings.maxSteps 0
      (c.beginFrame held).machine
    exact ⟨Nat.le_trans counted (Nat.add_le_add_left time _), toNat_add_ofNat_le c.frames 1⟩
  | press | save => exact ⟨Nat.le_add_right _ _, Nat.le_add_right _ _⟩
  | reset => exact ⟨Nat.zero_le _, Nat.zero_le _⟩

/-- Sixty-four bits last long: counters that are not filled up on purpose have room for every
session that a host will get through. -/
theorem hasRoom_of_small (h : c.InRange image settings) (acts : List Act)
    (cycles : c.machine.bus.board.cycles.toNat + longestStep * settings.maxSteps * acts.length <
      UInt64.size)
    (frames : c.frames.toNat + acts.length < UInt64.size) : c.HasRoom acts := by
  induction acts generalizing c with
  | nil => trivial
  | cons act acts ih =>
    rw [List.length_cons, Nat.mul_succ] at cycles
    rw [List.length_cons] at frames
    have room : c.ActRoom act := by
      cases act with
      | runFrame held =>
        have time := h.frameTime_le held
        exact ⟨by omega, by omega⟩
      | press | reset | save => trivial
    obtain ⟨cycles_le, frames_le⟩ := h.counters_pass_le act
    have next := h.perform (perform_eq_ok.mpr ⟨room, rfl⟩)
    exact ⟨room, ih next (by omega) (by omega)⟩

end InRange

/-- An accepted snapshot can be run, however it came about and in every session, exactly if its
two counters have room for the session. -/
theorem load_survives_iff {image : Image} {settings : Settings} {c next : Console}
    (reached : c.Reachable image settings) {bytes : List UInt8}
    (accepted : c.load bytes = .ok next) (acts : List Act) :
    next.Survives acts ↔ next.HasRoom acts :=
  (reached.inRange.load accepted).survives_iff acts

/-- A console that was just switched on takes its own snapshot and survives what follows. -/
theorem load_survives_iff_blank :
    ∃ c restored, Reachable Image.blank .standard c ∧ c.load c.save = .ok restored ∧
      (∀ acts, restored.Survives acts ↔ restored.HasRoom acts) ∧
        ∀ acts : List Act, acts.length < 0x100000000 → restored.Survives acts := by
  obtain ⟨header, parsed⟩ := Header.parse_blank
  have reached := Reachable.powerOn _ (powerOn_started parsed .standard)
  have h := reached.inRange
  have accepted := load_save h h
  have survives := load_survives_iff reached accepted
  refine ⟨_, _, reached, accepted, survives, fun acts short => (survives acts).mpr ?_⟩
  have size : UInt64.size = 0x10000000000000000 := rfl
  have frame : longestStep * Settings.standard.maxSteps = 132800000 := rfl
  refine (h.load accepted).hasRoom_of_small acts ?_ ?_
  · rw [frame]
    change 0 + _ < _
    omega
  · change 0 + _ < _
    omega

/-- The counter of cycles set to its last value. -/
def fillCycles (c : Console) : Console :=
  c.updateBoard ({ · with cycles := 0xFFFFFFFFFFFFFFFF })

/-- A snapshot with a full counter of cycles is accepted, and the first frame runs it over. -/
theorem load_fillCycles :
    ∃ c restored, Console.powerOn Image.blank .standard = .ok c ∧
      c.load c.fillCycles.save = .ok restored ∧
        ∀ held, restored.runFrame held = .error .cycleCounter ∧
          ¬restored.Survives [.runFrame held] := by
  obtain ⟨header, parsed⟩ := Header.parse_blank
  obtain ⟨c, on⟩ : ∃ c, Console.powerOn Image.blank .standard = .ok c :=
    ⟨_, powerOn_started parsed .standard⟩
  have h := InRange.powerOn on
  obtain ⟨stall, cartridge, raster, sound⟩ := h.bus.board
  have filled : c.fillCycles.InRange Image.blank .standard :=
    h.updateBoard ⟨stall, cartridge, raster, sound⟩
  refine ⟨c, _, on, load_save filled h, fun held => ?_⟩
  -- Every step takes time, and the counter has room for none.
  have faults : (c.inStateOf c.fillCycles).runFrame held = .error .cycleCounter := by
    have steps : c.machine.bus.settings.maxSteps = 199999 + 1 :=
      congrArg Settings.maxSteps h.bus.settings
    have time := Wired.lt_passSteps 199999 0
      ((c.inStateOf c.fillCycles).beginFrame held).machine
    rw [← steps] at time
    rw [runFrame_eq_if, if_neg]
    change ¬0xFFFFFFFFFFFFFFFF + (c.inStateOf c.fillCycles).frameTime held < 0x10000000000000000
    change 0 < (c.inStateOf c.fillCycles).frameTime held at time
    omega
  refine ⟨faults, ?_⟩
  rintro ⟨_, next, performs, _⟩
  change ((c.inStateOf c.fillCycles).runFrame held).map Prod.snd = .ok next at performs
  rw [faults] at performs
  cases performs

end Console
end DotMatrix
