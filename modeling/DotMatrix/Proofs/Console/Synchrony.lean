import DotMatrix.Proofs.Console.Genuine
import DotMatrix.Proofs.Cpu.HaltBug
import DotMatrix.Proofs.Time.Phase

/-! Machines whose clocks are left to themselves. Every cycle that a step of the processor costs,
and every cycle that it waits for a transfer, reaches each part once, so the clocks stay in step
with one another and with the steps that have been taken. -/
namespace DotMatrix

theorem Video.InPhase.powerOn (palette : Palette) : (Video.powerOn palette).InPhase 0 :=
  ⟨show (0x91 &&& 0x80 != (0 : UInt8)) = true by decide, rfl⟩

namespace Sound.InPhase

theorem powerOn : Sound.powerOn.InPhase 0 := by
  have kept : bootWrites.all (fun entry => entry.1 != 0xFF26) = true := by decide
  unfold Sound.powerOn
  apply List.foldlRecOn (motive := InPhase 0)
  · exact ⟨rfl, rfl, rfl⟩
  · intro s h entry listed
    have other : (entry.1 != 0xFF26) = true := List.all_eq_true.mp kept entry listed
    exact h.write fun control => bne_iff_ne.mp other control.1

end Sound.InPhase

theorem Cartridge.InPhase.powerOn (header : Header) : (Cartridge.powerOn header).InPhase 0 := by
  intro clock plugged
  simp only [Cartridge.powerOn, Mapper.powerOn] at plugged
  split at plugged
  all_goals simp only [Mapper.clock?] at plugged
  all_goals try cases plugged
  split at plugged
  · obtain rfl := Option.mem_some_iff.mp plugged
    exact ⟨rfl, rfl⟩
  · cases plugged

namespace Wired
variable {image : Image} {settings : Settings} {header : Header} {m p next last : Wired LiveBoard}
  {past before after : List (Wired LiveBoard)}

/-- The next step leaves the clocks alone. -/
def SparesClocks (m : Wired LiveBoard) : Prop := LiveBoard.Undisturbed m.accesses m.bus

def charge (m : Wired LiveBoard) : Nat := m.step.1 + 640 * writesTo 0xFF46 m.accesses

/-- The clocks agree on the time, and it is the time for the steps of the past. -/
structure Synchronous (past : List (Wired LiveBoard)) (m : Wired LiveBoard) : Prop where
  counter : m.bus.board.timer.counter.toNat = (0xABCC + m.bus.board.cycles.toNat) % 65536
  beam : 456 * m.bus.board.video.raster.registers.line.toNat +
    m.bus.board.video.raster.dot.toNat = m.bus.board.cycles.toNat % 70224
  sequencerTimer : m.bus.board.sound.sequencerTimer.toNat = m.bus.board.cycles.toNat % 8192
  sequencerStep : m.bus.board.sound.sequencerStep.toNat = m.bus.board.cycles.toNat / 8192 % 8
  subsecond : ∀ clock ∈ m.bus.board.cartridge.mapper.clock?,
    clock.subsecond.toNat = m.bus.board.cycles.toNat % 2 ^ 22
  cycles : m.bus.board.cycles.toNat = (past.map charge).sum

/-- So it is, and the board is one that goes on like this. -/
structure OnSchedule (image : Image) (settings : Settings) (header : Header)
    (past : List (Wired LiveBoard)) (m : Wired LiveBoard) : Prop where
  inRange : m.bus.InRange image settings header
  phase : m.bus.InPhase (past.map charge).sum
  cycles : m.bus.board.cycles.toNat = (past.map charge).sum
  idle : m.bus.board.transferStall = 0

theorem stall_afterStep (idle : m.bus.board.transferStall = 0) :
    m.afterStep.takeStall.1 = 640 * writesTo 0xFF46 m.accesses := by
  have most : writesTo 0xFF46 m.accesses ≤ 1 := m.writesTo_accesses (by decide)
  have stall := LiveBoard.transferStall_accesses m.accesses m.bus
  rw [m.foldl_accesses, idle] at stall
  change m.step.2.bus.board.transferStall.toNat = _
  rw [stall]
  split
  case isTrue none =>
    rw [none]
    rfl
  case isFalse some =>
    rw [show writesTo 0xFF46 m.accesses = 1 by omega]
    rfl

namespace OnSchedule

theorem synchronous (h : m.OnSchedule image settings header past) : m.Synchronous past where
  counter := h.cycles ▸ h.phase.timer
  beam := h.cycles ▸ h.phase.video.beam
  sequencerTimer := h.cycles ▸ h.phase.sound.timer
  sequencerStep := h.cycles ▸ h.phase.sound.step
  subsecond clock plugged := h.cycles ▸ (h.phase.cartridge clock plugged).subsecond
  cycles := h.cycles

theorem advance (h : m.OnSchedule image settings header past) (spares : m.SparesClocks)
    {cycles : Nat} (advances : m.advance = .ok (cycles, next)) :
    next.OnSchedule image settings header (past ++ [m]) := by
  have stall := stall_afterStep h.idle
  have charged : ((past ++ [m]).map charge).sum =
      (past.map charge).sum + m.step.1 + m.afterStep.takeStall.1 := by
    rw [stall, List.map_append, List.sum_append, List.map_singleton, List.sum_singleton, charge,
      Nat.add_assoc]
  have stepped : m.step.2.bus.InPhase (past.map charge).sum := by
    rw [← m.foldl_accesses]
    exact h.phase.accesses spares
  have inRange := inRange_step h.inRange
  have ticked : m.afterStep.InPhase ((past.map charge).sum + m.step.1) :=
    stepped.elapse inRange.board.raster inRange.board.sound _ _
  have inRange : m.afterStep.InRange image settings header := inRange.elapse _ _
  have time := (time_advance advances).2
  obtain ⟨-, passes⟩ := advance_eq_ok.mp advances
  rw [pass_eq] at passes
  obtain ⟨rfl, rfl⟩ := Prod.mk.inj passes
  refine ⟨inRange_advance h.inRange advances, ?_, ?_, rfl⟩
  · rw [charged]
    have taken : m.afterStep.takeStall.2.InPhase ((past.map charge).sum + m.step.1) :=
      ⟨ticked.timer, ticked.video, ticked.sound, ticked.cartridge⟩
    exact taken.elapse inRange.board.raster inRange.board.sound _ _
  · rw [charged, time, h.cycles, Nat.add_assoc]

/-- At every step of a frame the clocks are on schedule, if none has been touched before. -/
theorem course {steps elapsed : Nat} (h : m.OnSchedule image settings header past)
    (split : m.course steps elapsed = before ++ p :: after)
    (spared : ∀ q ∈ before, q.SparesClocks) :
    p.OnSchedule image settings header (past ++ before) := by
  -- With each step that is taken its machine goes over from the course to the past.
  induction steps generalizing elapsed m past before with
  | zero =>
    have empty : before ++ p :: after = [] := split.symm
    simp at empty
  | succ steps ih =>
    unfold Wired.course at split
    cases before with
    | nil =>
      obtain ⟨rfl, -⟩ := List.cons.inj split
      rw [List.append_nil]
      exact h
    | cons q before =>
      obtain ⟨rfl, rest⟩ := List.cons.inj split
      obtain ⟨first, spared⟩ := List.forall_mem_cons.mp spared
      cases advances : m.advance with
      | error fault =>
        rw [advances] at rest
        simp at rest
      | ok advanced =>
        obtain ⟨cycles, next⟩ := advanced
        rw [advances] at rest
        dsimp only at rest
        split at rest
        case isTrue => simp at rest
        case isFalse =>
          rw [List.append_cons]
          exact ih (h.advance first advances) rest spared

theorem runSteps {steps elapsed : Nat} (h : m.OnSchedule image settings header past)
    (runs : m.runSteps steps elapsed = .ok last)
    (spared : ∀ q ∈ m.course steps elapsed, q.SparesClocks) :
    last.OnSchedule image settings header (past ++ m.course steps elapsed) := by
  induction steps generalizing elapsed m past with
  | zero =>
    cases runs
    unfold Wired.course
    rw [List.append_nil]
    exact h
  | succ steps ih =>
    obtain ⟨⟨cycles, next⟩, advances⟩ := exists_advance runs
    cases ends : next.frameEnds (elapsed + cycles) with
    | true =>
      obtain ⟨stops, single⟩ := runSteps_last steps advances (.inr ends)
      obtain rfl := Except.ok.inj (stops.symm.trans runs)
      rw [single] at spared ⊢
      exact h.advance (List.forall_mem_singleton.mp spared) advances
    | false =>
      obtain ⟨goes, rest⟩ := runSteps_further steps advances ends
      rw [rest] at spared ⊢
      obtain ⟨first, spared⟩ := List.forall_mem_cons.mp spared
      rw [List.append_cons]
      exact ih (h.advance first advances) (goes.symm.trans runs) spared

end OnSchedule
end Wired

/-! The first step of a program, on a console that was just switched on. -/

section
open Execution
variable {β : Type} [Bus β]

theorem Execution.run_poll_postBoot (bus : β) (disabled : (Bus.read 0xFFFF bus).1 = 0) :
    poll.run ⟨.postBoot, bus⟩ =
      (.instruction, ⟨.postBoot, (Bus.read 0xFF0F (Bus.read 0xFFFF bus).2).2⟩) := by
  have pending : (pendingInterrupts.run ⟨.postBoot, bus⟩).1 = ∅ := by
    change InterruptSet.mk ((Bus.read 0xFFFF bus).1 &&& _ &&& _) = _
    rw [disabled, UInt8.zero_and, UInt8.zero_and]
    rfl
  change (pollAwake : Execution β Activity).run ⟨.postBoot, bus⟩ = _
  unfold pollAwake
  rw [run_bind, pending]
  rfl

theorem Wired.step_postBoot (bus : β) (disabled : (Bus.read 0xFFFF bus).1 = 0) :
    (Wired.mk .postBoot bus).step =
      (executeAt 0x0100 0x0101).run
        ⟨.postBoot, (Bus.read 0xFF0F (Bus.read 0xFFFF bus).2).2⟩ := by
  have polled := run_poll_postBoot bus disabled
  rw [step_instruction _ (congrArg Prod.fst polled), polled]
  rfl

theorem Wired.step_transfer (bus : LiveBoard) (disabled : bus.read 0xFFFF = 0)
    (opcode : bus.read 0x0100 = 0xE0) (operand : bus.read 0x0101 = 0x46) :
    (Wired.mk .postBoot bus).step.1 = 12 ∧
      (Wired.mk .postBoot bus).accesses =
        [.read 0xFFFF, .read 0xFF0F, .read 0x0100, .read 0x0101, .write 0xFF46 0x01] := by
  constructor
  · rw [step_postBoot bus disabled, executeAt, run_bind, run_readByte,
      show (Bus.read 0x0100 (Bus.read 0xFF0F (Bus.read 0xFFFF bus).2).2).1 = 0xE0 from opcode]
    rfl
  · change (Wired.mk .postBoot (Traced.mk bus [])).step.2.bus.accesses.reverse = _
    rw [step_postBoot (Traced.mk bus []) disabled, executeAt, run_bind, run_readByte,
      show (Bus.read 0x0100 (Bus.read 0xFF0F (Bus.read 0xFFFF (Traced.mk bus [])).2).2).1 = 0xE0
        from opcode]
    change List.reverse
      (Access.write (Word.join 0xFF (Word.low (bus.read 0x0101).toUInt16)) _ :: _) = _
    rw [operand]
    rfl

theorem Wired.advance_transfer (bus : LiveBoard) (disabled : bus.read 0xFFFF = 0)
    (opcode : bus.read 0x0100 = 0xE0) (operand : bus.read 0x0101 = 0x46)
    (start : bus.board.cycles = 0) (idle : bus.board.transferStall = 0) :
    (Wired.mk .postBoot bus).SparesClocks ∧
      ∃ next, (Wired.mk .postBoot bus).advance = .ok (652, next) := by
  obtain ⟨cost, accesses⟩ := step_transfer bus disabled opcode operand
  have free : ¬(Access.write 0xFF46 0x01).Disturbs bus := by
    rintro (divider | lcd | power | ⟨window, -⟩)
    · exact absurd divider (by decide)
    · exact absurd lcd.1 (by decide)
    · exact absurd power.1 (by decide)
    · exact absurd window.2 (by decide)
  have time : (Wired.mk .postBoot bus).pass.1 = 652 := by
    rw [pass_eq, stall_afterStep idle, cost, accesses]
    rfl
  constructor
  · unfold SparesClocks
    rw [accesses]
    exact ⟨id, id, id, id, free, trivial⟩
  · refine ⟨_, advance_eq_ok.mpr ⟨?_, Prod.ext time rfl⟩⟩
    rw [start]
    decide

end

theorem Cartridge.readRom_powerOn (image : Image) (header : Header) {address : UInt16}
    (low : address < 0x4000) :
    (Cartridge.powerOn header).readRom image address = image.byte address.toNat := by
  have bank : (Mapper.powerOn header.hardware).lowBank = 0 := by
    unfold Mapper.powerOn
    cases header.hardware.mapper <;> rfl
  have inside : address.toNat < Image.bankSize := UInt16.lt_iff_toNat_lt.mp low
  unfold readRom romOffset
  rw [if_pos low, Nat.mod_eq_of_lt inside]
  change image.byte ((Mapper.powerOn header.hardware).lowBank % _ * _ + _) = _
  rw [bank, Nat.zero_mod, Nat.zero_mul, Nat.zero_add]

theorem LiveBoard.read_powerOn {live : LiveBoard} {header : Header}
    (fresh : live.board.cartridge = .powerOn header) {address : UInt16}
    (low : address < 0x4000) : live.read address = live.image.byte address.toNat := by
  have program : address < 0x8000 := UInt16.lt_trans low (by decide)
  unfold read
  rw [(Region.ofAddress_eq_rom address).mpr program, ← Cartridge.readRom_powerOn _ header low,
    ← fresh]

def Image.transferByte (offset : Nat) : UInt8 :=
  if offset = 0x0100 then 0xE0 else if offset = 0x0101 then 0x46
  else if offset = 0x014D then 0xE7 else 0

def Image.transferring : Image := ofBytes 0x8000 transferByte

theorem Image.byte_transferring {offset : Nat} (inside : offset < 0x8000) :
    transferring.byte offset = transferByte offset :=
  byte_ofBytes transferByte inside

theorem Image.headerChecksum_transferring : Image.transferring.headerChecksum = 0xE7 :=
  (headerChecksum_ofBytes transferByte (by decide)).trans (by decide)

theorem Header.parse_transferring : ∃ header, Header.parse Image.transferring = .ok header := by
  have size : ByteArray.size Image.transferring = 0x8000 := Image.size_ofBytes ..
  have checksum : Image.transferring.byte 0x014D = 0xE7 := Image.byte_transferring (by decide)
  have type : Image.transferring.byte 0x0147 = 0x00 := Image.byte_transferring (by decide)
  have rom : Image.transferring.byte 0x0148 = 0x00 := Image.byte_transferring (by decide)
  have ram : Image.transferring.byte 0x0149 = 0x00 := Image.byte_transferring (by decide)
  unfold Header.parse
  simp only [size, Image.headerChecksum_transferring, checksum, type, rom, ram]
  exact ⟨_, rfl⟩

namespace Console
variable {image : Image} {settings : Settings} {c : Console} {past : List (Wired LiveBoard)}

/-- The consoles of a session in which the host runs frames and presses buttons, with the machines
from which their steps were taken. -/
inductive ReachedBy (image : Image) (settings : Settings) : List (Wired LiveBoard) → Console → Prop
  | powerOn (c : Console) (on : Console.powerOn image settings = .ok c) :
      ReachedBy image settings [] c
  | frame (past : List (Wired LiveBoard)) (c : Console) (steps : Nat) (held : ButtonSet)
      (output : FrameOutput) (next : Console) (before : ReachedBy image settings past c)
      (runs : c.runCapped steps held = .ok (output, next)) :
      ReachedBy image settings (past ++ c.course steps held) next
  | press (past : List (Wired LiveBoard)) (c : Console) (button : Button) (held : Bool)
      (before : ReachedBy image settings past c) : ReachedBy image settings past (c.press button held)

theorem onSchedule_beginFrame (h : c.InRange image settings)
    (timely : c.machine.OnSchedule image settings c.header past) (held : ButtonSet) :
    (c.beginFrame held).machine.OnSchedule image settings c.header past := by
  obtain ⟨-, ⟨timer, ⟨on, beam⟩, sound, cartridge⟩, cycles, idle⟩ := timely
  exact ⟨(h.beginFrame held).bus, ⟨timer, ⟨on, beam⟩, sound, cartridge⟩, cycles, idle⟩

theorem ReachedBy.onSchedule (h : ReachedBy image settings past c)
    (spared : ∀ m ∈ past, m.SparesClocks) :
    c.InRange image settings ∧ c.machine.OnSchedule image settings c.header past := by
  induction h with
  | powerOn c on =>
    have inRange := InRange.powerOn on
    obtain ⟨header, parsed, rfl⟩ := powerOn_eq_ok.mp on
    exact ⟨inRange, inRange.bus, ⟨rfl, .powerOn _, .powerOn, .powerOn header⟩, rfl, rfl⟩
  | frame past c steps held output next before runs ih =>
    obtain ⟨earlier, frame⟩ := List.forall_mem_append.mp spared
    obtain ⟨inRange, timely⟩ := ih earlier
    have still := inRange.runCapped runs
    obtain ⟨machine, ran, -, result⟩ := runCapped_eq_ok.mp runs
    obtain ⟨-, rfl⟩ := Prod.mk.inj result
    obtain ⟨-, phase, cycles, idle⟩ :=
      (onSchedule_beginFrame inRange timely held).runSteps ran frame
    obtain ⟨timer, video, sound, cartridge⟩ := phase
    exact ⟨still, still.bus, ⟨timer, video, sound, cartridge⟩, cycles, idle⟩
  | press past c button held before ih =>
    obtain ⟨inRange, -, ⟨timer, video, sound, cartridge⟩, cycles, idle⟩ := ih spared
    have still := inRange.step (.press button held)
    exact ⟨still, still.bus, ⟨timer, video, sound, cartridge⟩, cycles, idle⟩

theorem beginFrame_started (image : Image) (settings : Settings) (header : Header)
    (held : ButtonSet) : ∃ m, ((started image settings header).beginFrame held).machine = m ∧
      m.cpu = .postBoot ∧ m.bus.image = image ∧ m.bus.board.cartridge = .powerOn header ∧
        m.bus.board.enabled = 0 ∧ m.bus.board.cycles = 0 ∧ m.bus.board.transferStall = 0 :=
  ⟨_, rfl, rfl, rfl, rfl, rfl, rfl, rfl⟩

/-- All clocks stay in step. Wherever a session has come to, between two calls of the host or
between two steps of a frame, the cycles that are counted are those of the steps that have been
taken, and they say where each clock is, if no step has disturbed one. -/
theorem clocks_in_step (h : ReachedBy image settings past c)
    (spared : ∀ m ∈ past, m.SparesClocks) :
    c.machine.Synchronous past ∧
      ∀ steps held before m after, c.course steps held = before ++ m :: after →
        (∀ p ∈ before, p.SparesClocks) →
          m.Synchronous (past ++ before) ∧
            (m.SparesClocks → ∀ cycles next, m.advance = .ok (cycles, next) →
              next.Synchronous (past ++ before ++ [m])) := by
  obtain ⟨inRange, timely⟩ := h.onSchedule spared
  refine ⟨timely.synchronous, fun steps held before m after split undisturbed => ?_⟩
  have reached := (onSchedule_beginFrame inRange timely held).course split undisturbed
  exact ⟨reached.synchronous, fun spares _ _ advances =>
    (reached.advance spares advances).synchronous⟩

/-- The transfer holds the processor for 640 cycles more, and all clocks have counted them. -/
theorem clocks_in_step_transfer :
    ∃ m c, ReachedBy Image.transferring .standard [m] c ∧ m.SparesClocks ∧
      c.machine.Synchronous [m] ∧ c.machine.bus.board.cycles.toNat = 652 := by
  obtain ⟨header, accepted⟩ := Header.parse_transferring
  have fresh : ReachedBy Image.transferring .standard [] (started _ .standard header) :=
    .powerOn _ (powerOn_started accepted .standard)
  obtain ⟨⟨cpu, bus⟩, begun, rfl, image, cartridge, disabled, start, idle⟩ :=
    beginFrame_started Image.transferring .standard header ⟨0⟩
  have byte {address : UInt16} (low : address < 0x4000) :
      bus.read address = Image.transferByte address.toNat := by
    rw [LiveBoard.read_powerOn cartridge low, image, Image.byte_transferring]
    exact Nat.lt_trans (UInt16.lt_iff_toNat_lt.mp low) (by decide)
  obtain ⟨spares, next, advances⟩ :=
    Wired.advance_transfer bus disabled (byte (by decide)) (byte (by decide)) start idle
  obtain ⟨ends, single⟩ : _ ∧ (Wired.mk .postBoot bus).course 1 0 = _ :=
    Wired.runSteps_last 0 advances (.inl rfl)
  rw [← begun] at ends
  have reached := fresh.frame _ _ 1 ⟨0⟩ _ _
    (runCapped_eq_ok.mpr ⟨next, ends, (by decide : 0 + 1 < UInt64.size), rfl⟩)
  have taken : (started Image.transferring .standard header).course 1 ⟨0⟩ =
      [Wired.mk .postBoot bus] := (congrArg (Wired.course 1 0) begun).trans single
  rw [taken] at reached
  have time := (Wired.time_advance advances).2
  rw [start] at time
  exact ⟨_, _, reached, spares,
    (clocks_in_step reached (List.forall_mem_singleton.mpr spares)).1, time⟩

end Console
end DotMatrix
