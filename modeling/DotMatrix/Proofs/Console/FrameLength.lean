import DotMatrix.Proofs.Safe.Session
import DotMatrix.Proofs.Video.Control
import DotMatrix.Proofs.Video.ExactTime

/-! How long a frame is. As long as a program leaves the power of the LCD alone, nothing else that
the processor does can keep a frame from ending: every step takes time, and time brings the beam
back to the top left. -/
namespace DotMatrix

namespace Video
variable {v w x : Video}

structure Still (v w : Video) : Prop where
  power : w.raster.registers.lcdOn = v.raster.registers.lcdOn
  position : w.raster.position = v.raster.position
  ready : w.frameReady = v.frameReady

theorem Still.refl (v : Video) : v.Still v := ⟨rfl, rfl, rfl⟩

theorem Still.trans (first : v.Still w) (second : w.Still x) : v.Still x :=
  ⟨second.power.trans first.power, second.position.trans first.position,
    second.ready.trans first.ready⟩

theorem Still.passed {n : Nat} {requests : InterruptSet} (still : v.Still w)
    (passed : Passed n w x requests) : Passed n v x requests := by
  obtain ⟨on, position, blank, ready⟩ := passed
  unfold Raster.Meets at blank ready
  rw [still.power] at on
  rw [still.position] at position blank ready
  rw [still.ready] at ready
  exact ⟨on, position, blank, ready⟩

theorem still_write (palette : Palette) (address : UInt16) (value : UInt8)
    (kept : (v.write palette address value).1.raster.registers.lcdOn = v.raster.registers.lcdOn) :
    v.Still (v.write palette address value).1 := by
  unfold write at *
  split
  case h_1 =>
    have power : (value &&& 0x80 != 0) = v.raster.registers.lcdOn :=
      (lcdOn_writeControl palette value v).symm.trans kept
    rw [writeControl_kept palette power]
    exact ⟨power, rfl, rfl⟩
  all_goals exact ⟨rfl, rfl, rfl⟩

/-- The dots that the beam moves in some cycles. Without power it does not move. -/
def dotsIn (n : Nat) (v : Video) : Nat := if v.raster.registers.lcdOn then n else 0

theorem passed_dotsIn (palette : Palette) (n : Nat) (h : v.raster.InRange) :
    Passed (v.dotsIn n) v (v.tick palette n ∅).1 (v.tick palette n ∅).2 := by
  unfold dotsIn
  split
  case isTrue on => exact passed_tick palette n h on
  case isFalse off =>
    rw [tick_off palette n v ∅ off]
    exact passed_zero h

theorem dotsIn_congr (power : w.raster.registers.lcdOn = v.raster.registers.lcdOn) (n : Nat) :
    w.dotsIn n = v.dotsIn n := by
  unfold dotsIn
  rw [power]

theorem dotsIn_add (a b : Nat) (v : Video) : v.dotsIn (a + b) = v.dotsIn a + v.dotsIn b := by
  unfold dotsIn
  split <;> rfl

end Video

namespace LiveBoard

theorem still_write (address : UInt16) (value : UInt8) (live : LiveBoard)
    (kept : (live.write address value).board.video.raster.registers.lcdOn =
      live.board.video.raster.registers.lcdOn) :
    live.board.video.Still (live.write address value).board.video := by
  unfold write at *
  cases region : Region.ofAddress address with
  | video =>
    rw [region] at kept
    exact Video.still_write live.settings.colors address value kept
  | vram | oam =>
    dsimp only
    split <;> exact ⟨rfl, rfl, rfl⟩
  | oamTransfer =>
    unfold transfer
    exact ⟨rfl, rfl, rfl⟩
  | _ => exact .refl _

end LiveBoard

namespace Wired
variable {image : Image} {settings : Settings} {header : Header} {m : Wired LiveBoard}

def lcdOn (m : Wired LiveBoard) : Bool := m.bus.board.video.raster.registers.lcdOn

/-- At every access of the next step and behind the last one, the LCD has the power that it has
before the step. -/
def KeepsPower (m : Wired LiveBoard) : Prop :=
  (m.probe fun _ live => live.board.video.raster.registers.lcdOn = m.lcdOn).step.2.bus.held ∧
    m.step.2.bus.board.video.raster.registers.lcdOn = m.lcdOn

theorem still_step (kept : m.KeepsPower) : m.bus.board.video.Still m.step.2.bus.board.video := by
  obtain ⟨held, last⟩ := kept
  have same := (m.step_probe fun _ live => live.board.video.raster.registers.lcdOn = m.lcdOn).2.2
  have still := @step_keeps (Probed _) _
    (fun w => w.held → w.live.board.video.raster.registers.lcdOn = m.lcdOn →
      m.bus.board.video.Still w.live.board.video)
    (fun _ _ still held on => still held.1 on)
    (fun address value w still held on =>
      (still held.1 held.2).trans (w.live.still_write address value (on.trans held.2.symm)))
    (m.probe fun _ live => live.board.video.raster.registers.lcdOn = m.lcdOn)
    fun _ _ => .refl _
  rw [same] at still
  exact still held last

theorem passed_pass (h : m.bus.InRange image settings header) (kept : m.KeepsPower) :
    ∃ requests, m.bus.board.video.Passed (m.bus.board.video.dotsIn m.pass.1)
      m.pass.2.bus.board.video requests := by
  have still := still_step kept
  have stepped := inRange_step h
  have waiting : m.afterStep.InRange image settings header := stepped.elapse _ _
  have step := still.passed
    (Video.passed_dotsIn m.step.2.bus.settings.colors m.step.1 stepped.board.raster)
  have wait := Video.passed_dotsIn m.afterStep.settings.colors m.afterStep.takeStall.1
    waiting.board.raster
  have power : m.afterStep.board.video.raster.registers.lcdOn =
      m.bus.board.video.raster.registers.lcdOn := step.on
  have whole := step.trans wait
  rw [Video.dotsIn_congr still.power, Video.dotsIn_congr power, ← Video.dotsIn_add] at whole
  exact ⟨_, whole⟩

/-- The cycles up to the end of the frame, of which `elapsed` have passed: until the beam is at the
top left or, with the LCD off, until a frame's time is over. -/
def frameLeft (elapsed : Nat) (m : Wired LiveBoard) : Nat :=
  if m.lcdOn then Raster.dotsPerFrame - m.bus.board.video.raster.position
  else cyclesPerFrame - elapsed

theorem frameLeft_on (elapsed : Nat) (on : m.lcdOn = true) :
    m.frameLeft elapsed = Raster.dotsPerFrame - m.bus.board.video.raster.position :=
  if_pos on

theorem frameLeft_off (elapsed : Nat) (off : m.lcdOn = false) :
    m.frameLeft elapsed = cyclesPerFrame - elapsed := by
  unfold frameLeft
  rw [off]
  rfl

theorem frameLeft_le (elapsed : Nat) (m : Wired LiveBoard) : m.frameLeft elapsed ≤ 70224 := by
  unfold frameLeft
  split
  · exact Nat.sub_le ..
  · exact Nat.sub_le ..

theorem frameEnds_on (elapsed : Nat) (on : m.lcdOn = true) :
    m.frameEnds elapsed = true ↔ m.bus.board.video.frameReady = true := by
  have power : m.bus.board.video.raster.registers.lcdOn = true := on
  unfold frameEnds
  dsimp only
  rw [power, Bool.not_true, Bool.false_and, Bool.or_false]

theorem frameEnds_off (elapsed : Nat) (off : m.lcdOn = false) :
    m.frameEnds elapsed = true ↔
      m.bus.board.video.frameReady = true ∨ cyclesPerFrame ≤ elapsed := by
  have power : m.bus.board.video.raster.registers.lcdOn = false := off
  unfold frameEnds
  dsimp only
  rw [power, Bool.not_false, Bool.true_and, Bool.or_eq_true, decide_eq_true_eq]

/-- What a step leaves of the frame. The frame ends with the first step that takes at least as long
as what is left of it. -/
structure PassesFrame (elapsed : Nat) (m : Wired LiveBoard) : Prop where
  power : m.pass.2.lcdOn = m.lcdOn
  ends : m.pass.2.frameEnds (elapsed + m.pass.1) = true ↔ m.frameLeft elapsed ≤ m.pass.1
  left : m.pass.1 < m.frameLeft elapsed →
    m.pass.2.bus.board.video.frameReady = false ∧
      m.pass.2.frameLeft (elapsed + m.pass.1) = m.frameLeft elapsed - m.pass.1
  wraps : m.lcdOn = true → m.frameLeft elapsed ≤ m.pass.1 →
    m.pass.2.bus.board.video.raster.position = m.pass.1 - m.frameLeft elapsed

theorem passesFrame (h : m.bus.InRange image settings header) (kept : m.KeepsPower)
    (waits : m.bus.board.video.frameReady = false) (elapsed : Nat) : m.PassesFrame elapsed := by
  obtain ⟨requests, power, position, -, ready⟩ := passed_pass h kept
  have power : m.pass.2.lcdOn = m.lcdOn := power
  have time := time_pass_le h
  have before := h.board.raster.position_lt
  rw [waits, or_iff_right Bool.false_ne_true, h.board.raster.meets_top] at ready
  simp only [Raster.dotsPerFrame, linesPerFrame, dotsPerLine, longestStep] at *
  cases lit : m.lcdOn with
  | true =>
    have moves : m.bus.board.video.dotsIn m.pass.1 = m.pass.1 := if_pos lit
    have on := power.trans lit
    rw [moves] at position ready
    have left : m.frameLeft elapsed = 154 * 456 - m.bus.board.video.raster.position :=
      frameLeft_on elapsed lit
    refine ⟨power, ?_, fun short => ⟨?_, ?_⟩, fun _ reaches => ?_⟩
    · rw [frameEnds_on _ on, ready, left]
    · rw [← Bool.not_eq_true, ready]
      omega
    · have next : m.pass.2.frameLeft (elapsed + m.pass.1) =
          154 * 456 - m.pass.2.bus.board.video.raster.position := frameLeft_on _ on
      omega
    · omega
  | false =>
    have rests : m.bus.board.video.dotsIn m.pass.1 = 0 := by
      unfold Video.dotsIn
      rw [show m.bus.board.video.raster.registers.lcdOn = false from lit]
      rfl
    have off := power.trans lit
    rw [rests] at position ready
    have still : m.pass.2.bus.board.video.frameReady = false := by
      rw [← Bool.not_eq_true, ready]
      omega
    have left := frameLeft_off elapsed lit
    refine ⟨power, ?_, fun short => ⟨still, ?_⟩, fun on => ?_⟩
    · rw [frameEnds_off _ off, still, or_iff_right Bool.false_ne_true, left]
      omega
    · rw [frameLeft_off _ off, left]
      omega
    · cases lit.symm.trans on

def countSteps : (steps elapsed : Nat) → Wired LiveBoard → Nat
  | 0, _, _ => 0
  | steps + 1, elapsed, machine =>
    if machine.pass.2.frameEnds (elapsed + machine.pass.1) then 1
    else countSteps steps (elapsed + machine.pass.1) machine.pass.2 + 1

section
variable (steps : Nat) {elapsed : Nat}

theorem passSteps_last (last : m.pass.2.frameEnds (elapsed + m.pass.1) = true) :
    m.passSteps (steps + 1) elapsed = (elapsed + m.pass.1, m.pass.2) :=
  if_pos last

theorem passSteps_further (further : ¬m.pass.2.frameEnds (elapsed + m.pass.1) = true) :
    m.passSteps (steps + 1) elapsed = m.pass.2.passSteps steps (elapsed + m.pass.1) :=
  if_neg further

end

theorem cycles_passSteps (steps elapsed : Nat) (m : Wired LiveBoard)
    (room : m.bus.board.cycles.toNat + (m.passSteps steps elapsed).1 < UInt64.size + elapsed) :
    (m.passSteps steps elapsed).2.bus.board.cycles.toNat + elapsed =
      m.bus.board.cycles.toNat + (m.passSteps steps elapsed).1 := by
  induction steps generalizing elapsed m with
  | zero => rfl
  | succ steps ih =>
    have counted (short : m.bus.board.cycles.toNat + m.pass.1 < UInt64.size) :
        m.pass.2.bus.board.cycles.toNat = m.bus.board.cycles.toNat + m.pass.1 := by
      rw [cycles_pass]
      exact toNat_add_ofNat short
    by_cases last : m.pass.2.frameEnds (elapsed + m.pass.1) = true
    · rw [passSteps_last steps last] at room ⊢
      dsimp only at *
      have time := counted (by omega)
      omega
    · rw [passSteps_further steps last] at room ⊢
      have rest := le_passSteps steps (elapsed + m.pass.1) m.pass.2
      have time := counted (by omega)
      have next := ih (elapsed + m.pass.1) m.pass.2 (by omega)
      omega

/-- A frame comes to its end with the first step behind the time that is left of it. -/
structure EndsOnTime (steps elapsed : Nat) (m : Wired LiveBoard) : Prop where
  count : 4 * m.countSteps steps elapsed < m.frameLeft elapsed + 4
  earliest : elapsed + m.frameLeft elapsed ≤ (m.passSteps steps elapsed).1
  latest : (m.passSteps steps elapsed).1 < elapsed + m.frameLeft elapsed + longestStep
  ends : (m.passSteps steps elapsed).2.frameEnds (m.passSteps steps elapsed).1 = true
  position : m.lcdOn = true → (m.passSteps steps elapsed).2.bus.board.video.raster.position =
    (m.passSteps steps elapsed).1 - (elapsed + m.frameLeft elapsed)

/-- With enough steps for what is left of it, a frame ends on time. -/
theorem endsOnTime (steps elapsed : Nat) (m : Wired LiveBoard)
    (h : m.bus.InRange image settings header) (kept : m.Along KeepsPower steps elapsed)
    (room : m.bus.board.cycles.toNat + (m.passSteps steps elapsed).1 < UInt64.size + elapsed)
    (waits : m.bus.board.video.frameReady = false) (some : 0 < m.frameLeft elapsed)
    (enough : m.frameLeft elapsed ≤ 4 * steps) : m.EndsOnTime steps elapsed := by
  induction steps generalizing elapsed m with
  | zero => omega
  | succ steps ih =>
    obtain ⟨keeps, rest⟩ := kept
    obtain ⟨power, ends, left, wraps⟩ := passesFrame h keeps waits elapsed
    have shortest : 4 ≤ m.pass.1 := Nat.le_trans m.cost_step.1 (Nat.le_add_right _ _)
    have longest := time_pass_le h
    by_cases reaches : m.frameLeft elapsed ≤ m.pass.1
    · have last : m.pass.2.frameEnds (elapsed + m.pass.1) = true := ends.mpr reaches
      have passes := passSteps_last steps last
      have counts : m.countSteps (steps + 1) elapsed = 1 := if_pos last
      refine ⟨?_, ?_, ?_, ?_, fun on => ?_⟩
      · omega
      · rw [passes]
        exact Nat.add_le_add_left reaches elapsed
      · rw [passes]
        dsimp only
        omega
      · rw [passes]
        exact last
      · rw [passes, wraps on reaches, Nat.add_sub_add_left]
    · have further : ¬m.pass.2.frameEnds (elapsed + m.pass.1) = true := mt ends.mp reaches
      have passes := passSteps_further steps further
      have counts : m.countSteps (steps + 1) elapsed =
        m.pass.2.countSteps steps (elapsed + m.pass.1) + 1 := if_neg further
      obtain ⟨waits, left⟩ := left (Nat.not_le.mp reaches)
      -- The counter has room for this step, because it has room for all of them.
      have time := le_passSteps steps (elapsed + m.pass.1) m.pass.2
      rw [passes] at room
      have counted : m.pass.2.bus.board.cycles.toNat = m.bus.board.cycles.toNat + m.pass.1 := by
        rw [cycles_pass]
        exact toNat_add_ofNat (by omega)
      have advances : m.advance = .ok m.pass := by
        rw [advance_eq_if]
        exact if_pos (by omega)
      have next := ih (elapsed + m.pass.1) m.pass.2 (inRange_pass h)
        (rest _ _ advances (Bool.eq_false_iff.mpr further)) (by omega) waits (by omega) (by omega)
      obtain ⟨count, earliest, latest, ends, position⟩ := next
      have sum : elapsed + m.pass.1 + m.pass.2.frameLeft (elapsed + m.pass.1) =
          elapsed + m.frameLeft elapsed := by omega
      rw [sum] at earliest latest position
      rw [← passes] at earliest latest ends position
      exact ⟨by omega, earliest, latest, ends, fun on => position (power.trans on)⟩

theorem step_locked {β : Type} [Bus β] (w : Wired β) (locked : w.cpu.locked = true) :
    w.step = (idleCycles, w) := by
  unfold step Execution.step
  simp only [Execution.run_bind, Execution.run_processor, locked, if_true]
  rfl

theorem along_locked (steps elapsed : Nat) (m : Wired LiveBoard) (locked : m.cpu.locked = true) :
    m.Along KeepsPower steps elapsed := by
  induction steps generalizing elapsed m with
  | zero => trivial
  | succ steps ih =>
    have rests := m.step_locked locked
    refine ⟨⟨?_, ?_⟩, fun cycles next advances _ => ih _ next ?_⟩
    · rw [step_locked (m.probe _) locked]
      trivial
    · rw [rests]
      rfl
    · rw [advance_eq_if] at advances
      split at advances
      · cases advances
        exact (congrArg (·.2.cpu.locked) rests).trans locked
      · cases advances

end Wired

namespace Console
variable {image : Image} {settings : Settings} {c : Console}

def frameSteps (held : ButtonSet) (c : Console) : Nat :=
  (c.beginFrame held).machine.countSteps c.machine.bus.settings.maxSteps 0

/-- In the next frame the power of the LCD is not changed. -/
def KeepsPower (held : ButtonSet) (c : Console) : Prop :=
  (c.beginFrame held).machine.Along Wired.KeepsPower c.machine.bus.settings.maxSteps 0

theorem endsOnTime_beginFrame (h : c.InRange image settings) {held : ButtonSet}
    (room : c.ActRoom (.runFrame held)) (kept : c.KeepsPower held)
    (enough : 17556 ≤ settings.maxSteps) :
    (c.beginFrame held).machine.EndsOnTime c.machine.bus.settings.maxSteps 0 := by
  have begun := (h.beginFrame held).bus
  have steps : c.machine.bus.settings.maxSteps = settings.maxSteps :=
    congrArg Settings.maxSteps h.bus.settings
  have left := Wired.frameLeft_le 0 (c.beginFrame held).machine
  have some : 0 < (c.beginFrame held).machine.frameLeft 0 := by
    unfold Wired.frameLeft
    split
    · exact Nat.sub_pos_of_lt begun.board.raster.position_lt
    · exact (by decide : 0 < cyclesPerFrame - 0)
  exact Wired.endsOnTime _ 0 _ begun kept room.1 rfl some (by omega)

/-- A frame returns exactly if the counters have room for it, and then it has been counted. If in
addition the power of the LCD is left alone, the frame is over on time, whatever the processor
does. -/
theorem runFrame_on_time (reached : c.Reachable image settings) (held : ButtonSet) :
    ((∃ output next, c.runFrame held = .ok (output, next)) ↔ c.ActRoom (.runFrame held)) ∧
    ∀ output next, c.runFrame held = .ok (output, next) →
      next.frames.toNat = c.frames.toNat + 1 ∧
      next.machine.bus.board.cycles.toNat =
        c.machine.bus.board.cycles.toNat + c.frameTime held ∧
      (17556 ≤ settings.maxSteps → c.KeepsPower held →
        c.frameSteps held ≤ 17556 ∧ next.machine.frameEnds (c.frameTime held) = true ∧
        (c.machine.lcdOn = true →
          70224 - c.machine.bus.board.video.raster.position ≤ c.frameTime held ∧
          c.frameTime held ≤ 70224 - c.machine.bus.board.video.raster.position + 663 ∧
          next.machine.bus.board.video.raster.position ≤ 663) ∧
        (c.machine.lcdOn = false → 70224 ≤ c.frameTime held ∧ c.frameTime held ≤ 70887)) := by
  refine ⟨?_, fun output next runs => ?_⟩
  · simp only [runFrame_eq_ok]
    exact ⟨fun ⟨_, _, room, _⟩ => room, fun room => ⟨_, _, room, rfl⟩⟩
  obtain ⟨room, passes⟩ := runFrame_eq_ok.mp runs
  cases passes
  refine ⟨toNat_add_ofNat room.2, Wired.cycles_passSteps _ 0 (c.beginFrame held).machine room.1,
    fun enough kept => ?_⟩
  obtain ⟨count, earliest, latest, ends, position⟩ :=
    endsOnTime_beginFrame reached.inRange room kept enough
  change 4 * c.frameSteps held < _ + 4 at count
  change 0 + _ ≤ c.frameTime held at earliest
  change c.frameTime held < 0 + _ + longestStep at latest
  change _ → _ = c.frameTime held - _ at position
  have most := Wired.frameLeft_le 0 (c.beginFrame held).machine
  have step : longestStep = 664 := rfl
  refine ⟨by omega, ends, fun on => ?_, fun off => ?_⟩
  · have left : (c.beginFrame held).machine.frameLeft 0 =
      70224 - c.machine.bus.board.video.raster.position := Wired.frameLeft_on 0 on
    exact ⟨by omega, by omega, Nat.le_trans (Nat.le_of_eq (position on)) (by omega)⟩
  · have left : (c.beginFrame held).machine.frameLeft 0 = 70224 := Wired.frameLeft_off 0 off
    exact ⟨by omega, by omega⟩

def locked (c : Console) : Console :=
  { c with machine := { c.machine with cpu := { c.machine.cpu with locked := true } } }

/-- A locked processor does not keep the first frame from ending. -/
theorem runFrame_on_time_locked :
    ∃ c, Reachable Image.blank .standard c ∧ c.machine.cpu.locked = true ∧ ∀ held,
      ∃ output next, c.runFrame held = .ok (output, next) ∧ c.frameSteps held ≤ 17556 ∧
        next.machine.bus.board.video.raster.position ≤ 663 := by
  obtain ⟨header, parsed⟩ := Header.parse_blank
  have fresh := Reachable.powerOn _ (powerOn_started parsed .standard)
  have h := fresh.inRange
  have lockedRange : (started Image.blank .standard header).locked.InRange Image.blank .standard :=
    ⟨h.header, h.bus⟩
  have reached := fresh.step _ _ (.load _ _ (load_save lockedRange h))
  refine ⟨_, reached, rfl, fun held => ?_⟩
  obtain ⟨returns, onTime⟩ := runFrame_on_time reached held
  have size : UInt64.size = 0x10000000000000000 := rfl
  have time := reached.inRange.frameTime_le held
  have most : longestStep * Settings.standard.maxSteps = 132800000 := rfl
  obtain ⟨output, next, runs⟩ := returns.mpr
    ⟨show 0 + _ < _ by omega, show 0 + 1 < UInt64.size by omega⟩
  obtain ⟨-, -, frame⟩ := onTime output next runs
  obtain ⟨steps, -, lit, -⟩ := frame (by decide) (Wired.along_locked _ _ _ rfl)
  have on : (Video.powerOn Settings.standard.colors).raster.registers.lcdOn = true := by decide
  exact ⟨output, next, runs, steps, (lit on).2.2⟩

end Console
end DotMatrix
