import DotMatrix.Proofs.Board.Internal
import DotMatrix.Proofs.Console.Played

/-! A dispatch to the end and back. The source of the highest priority is withdrawn, PC is saved in
internal memory and the handler is entered; a handler that does nothing but return finds all as it
was. -/
namespace DotMatrix

namespace InterruptSet

theorem erase_read (source : Interrupt) (bits : UInt8) :
    (erase ⟨bits ||| 0xE0⟩ source).bits &&& sources = (erase ⟨bits &&& sources⟩ source).bits := by
  have unnamed : 0xE0 &&& (~~~source.bit &&& sources) = 0 := by cases source <;> decide
  have spread : (bits ||| 0xE0) &&& (~~~source.bit &&& sources) =
      (bits &&& (~~~source.bit &&& sources)) ||| (0xE0 &&& (~~~source.bit &&& sources)) :=
    UInt8.toBitVec_inj.mp BitVec.and_or_distrib_right
  change (bits ||| 0xE0) &&& ~~~source.bit &&& sources = bits &&& sources &&& ~~~source.bit
  rw [UInt8.and_assoc, spread, unnamed, UInt8.or_zero, UInt8.and_comm (~~~source.bit),
    UInt8.and_assoc]

theorem erase_or (source : Interrupt) (bits : UInt8) :
    (erase ⟨bits &&& sources⟩ source).bits ||| 0xE0 = (bits ||| 0xE0) &&& ~~~source.bit := by
  have all : ∀ n : Fin UInt8.size, (erase ⟨.ofFin n &&& sources⟩ source).bits ||| 0xE0 =
      (.ofFin n ||| 0xE0) &&& ~~~source.bit := by
    cases source <;> decide +kernel
  exact all bits.toFin

end InterruptSet

/-- PC is saved below SP and the source withdrawn; the rest of the board stays as it is. -/
def LiveBoard.dispatched (source : Interrupt) (sp pc : UInt16) (live : LiveBoard) : LiveBoard :=
  live.update fun b =>
    { (b.store (sp - 1) (Word.high pc)).store (sp - 2) (Word.low pc) with
      requested := InterruptSet.erase ⟨b.requested.bits &&& InterruptSet.sources⟩ source }

theorem LiveBoard.write_saved {sp : UInt16} (room : RoomBelow sp) (pc : UInt16)
    (source : Interrupt) (live : LiveBoard) :
    let saved := (live.write (sp - 1) (Word.high pc)).write (sp - 2) (Word.low pc)
    saved.write 0xFF0F (InterruptSet.erase ⟨saved.read 0xFF0F⟩ source).bits =
      live.dispatched source sp pc := by
  obtain ⟨high, low⟩ := room.internal
  dsimp only
  rw [write_internal high, write_internal low]
  have requested : ((live.update (Board.store (sp - 1) (Word.high pc))).update
      (Board.store (sp - 2) (Word.low pc))).read 0xFF0F = live.board.requested.bits ||| 0xE0 := by
    change ((live.board.store _ _).store _ _).requested.bits ||| 0xE0 = _
    rw [Board.requested_store, Board.requested_store]
  rw [requested]
  exact congrArg
    (fun requested => live.update fun b =>
      { (b.store (sp - 1) (Word.high pc)).store (sp - 2) (Word.low pc) with
        requested := ⟨requested⟩ })
    (InterruptSet.erase_read source live.board.requested.bits)

/-- The processor enters a handler. -/
def Cpu.dispatched (source : Interrupt) (cpu : Cpu) : Cpu :=
  { cpu with
    registers := { cpu.registers with
      pc := UInt16.ofNat (0x40 + 8 * source.index), sp := cpu.registers.sp - 2 }
    interruptsEnabled := false, enableDelay := 0, halted := false }

def Cpu.resumed (cpu : Cpu) : Cpu :=
  { cpu with interruptsEnabled := true, enableDelay := 0, halted := false, haltBug := false }

namespace Wired
open Execution
variable {m : Wired LiveBoard}

/-- The requests that wait for a processor with interrupts enabled. -/
def pending (m : Wired LiveBoard) : InterruptSet :=
  ⟨m.bus.read 0xFFFF &&& m.bus.read 0xFF0F &&& InterruptSet.sources⟩

/-- The machine after a dispatch. -/
def dispatched (source : Interrupt) (m : Wired LiveBoard) : Wired LiveBoard :=
  ⟨m.cpu.dispatched source, m.bus.dispatched source m.cpu.registers.sp m.cpu.registers.pc⟩

theorem run_poll {source : Interrupt} (enabled : m.cpu.interruptsEnabled = true)
    (unlocked : m.cpu.locked = false) (running : m.cpu.stopped = false)
    (first : m.pending.highest? = some source) (nonempty : m.pending ≠ ∅) :
    poll.run m = (.dispatch source, { m with cpu := { m.cpu with halted := false } }) := by
  have waiting : pendingInterrupts.run m = (m.pending, m) := rfl
  have some : (m.pending == ∅) = false := by simpa using nonempty
  simp only [poll, pollAwake, run_bind, run_processor, run_updateCpu, run_pure, unlocked,
    running, waiting, some, first, enabled, Bool.and_false, Bool.false_eq_true, if_false, if_true]

theorem step_dispatched {source : Interrupt} (enabled : m.cpu.interruptsEnabled = true)
    (unlocked : m.cpu.locked = false) (running : m.cpu.stopped = false)
    (first : m.pending.highest? = some source) (nonempty : m.pending ≠ ∅)
    (room : RoomBelow m.cpu.registers.sp) : m.step = (20, m.dispatched source) := by
  have two : m.cpu.registers.sp - 1 - 1 = m.cpu.registers.sp - 2 := by
    grind
  rw [step_eq, run_poll enabled unlocked running first nonempty]
  have saved := LiveBoard.write_saved room m.cpu.registers.pc source m.bus
  rw [← two] at saved
  unfold dispatched Cpu.dispatched
  rw [← saved, ← Interrupt.vector_eq, ← two]
  rfl

end Wired

namespace LiveBoard

theorem read_dispatched {sp : UInt16} (room : RoomBelow sp) (source : Interrupt) (pc : UInt16)
    (live : LiveBoard) :
    (live.dispatched source sp pc).read (sp - 2) = Word.low pc ∧
      (live.dispatched source sp pc).read (sp - 1) = Word.high pc := by
  -- Offsets next to each other do not meet when they wrap at the size of the memory.
  rcases room.regions with ⟨high, low⟩ | ⟨⟨high, low⟩, first⟩
  all_goals simp only [read, dispatched, update, Board.store, high, low]
  · have least := room.two_le
    exact Memory.read_two_writes _ _ _ (by decide) (by omega)
  · have most := sp.toNat_lt
    exact Memory.read_two_writes _ _ _ (by decide) (by omega)

end LiveBoard

theorem Execution.run_executeAt_return {β : Type} [Bus β] (opcode operand : UInt16) (cpu : Cpu)
    {bus : β} (still : ∀ address, (Bus.read address bus).2 = bus)
    (returns : (Bus.read opcode bus).1 = 0xD9) :
    (executeAt opcode operand).run ⟨cpu, bus⟩ =
      (16, ⟨{ cpu with
        registers := { cpu.registers with
          pc := Word.join (Bus.read (cpu.registers.sp + 1) bus).1
            (Bus.read cpu.registers.sp bus).1
          sp := cpu.registers.sp + 2 }
        interruptsEnabled := true, enableDelay := 0 }, bus⟩) := by
  have decoded : Instruction.decode 0xD9 = .returnEnable := rfl
  rw [executeAt, run_bind, run_readByte, returns]
  unfold finishAt
  dsimp only
  rw [decoded]
  simp only [Instruction.operandBytes, operandAt, perform, popWord, setPC, run_bind, run_pure,
    run_readByte, run_registers, run_update, run_updateCpu, still]
  rfl

theorem Execution.bus_poll {β : Type} [Bus β]
    (still : ∀ address (bus : β), (Bus.read address bus).2 = bus) (w : Wired β) :
    (poll.run w).2.bus = w.bus := by
  have pending (w : Wired β) : (pendingInterrupts.run w).2.bus = w.bus := by
    simp only [pendingInterrupts, run_bind, run_readByte, run_pure, still]
  have awake (w : Wired β) : (pollAwake.run w).2.bus = w.bus := by
    simp only [pollAwake, run_bind, run_ite]
    split
    · exact pending w
    · split <;> exact pending w
  simp only [poll, run_bind, run_ite]
  split
  · rfl
  · split
    · split
      · exact still _ _
      · exact (awake _).trans (still _ _)
    · exact awake _

namespace Wired
open Execution
variable {m : Wired LiveBoard}

theorem step_return {source : Interrupt} {next : LiveBoard}
    (unlocked : m.cpu.locked = false) (running : m.cpu.stopped = false)
    (returns : next.read (UInt16.ofNat (0x40 + 8 * source.index)) = 0xD9)
    (low : next.read (m.cpu.registers.sp - 2) = Word.low m.cpu.registers.pc)
    (high : next.read (m.cpu.registers.sp - 1) = Word.high m.cpu.registers.pc) :
    (Wired.mk (m.cpu.dispatched source) next).step = (16, ⟨m.cpu.resumed, next⟩) := by
  -- Awake with interrupts disabled, it neither idles nor dispatches again.
  have executes : (Wired.mk (m.cpu.dispatched source) next).activity = .instruction := by
    cases activity : (Wired.mk (m.cpu.dispatched source) next).activity with
    | idle =>
      obtain ⟨_, asleep⟩ := step_idle _ activity
      simp [Cpu.dispatched, unlocked, running] at asleep
    | dispatch source =>
      obtain ⟨_, enabled, _⟩ := cpu_poll_dispatch _ source activity
      simp [Cpu.dispatched] at enabled
    | instruction => rfl
  have above : m.cpu.registers.sp - 2 + 1 = m.cpu.registers.sp - 1 := by grind
  have back : m.cpu.registers.sp - 2 + 2 = m.cpu.registers.sp := by grind
  have read (address : UInt16) : Bus.read address next = (next.read address, next) := rfl
  have answers : (Bus.read (m.cpu.dispatched source).registers.pc next).1 = 0xD9 := by
    rw [read]
    exact returns
  rw [step_instruction _ executes, bus_poll (fun _ _ => rfl),
    run_executeAt_return _ _ _ (fun _ => rfl) answers]
  simp only [Cpu.dispatched, Cpu.resumed, read, low, high, above, back, Word.join_high_low]
  rw [running]

/-- A dispatch serves the first source that waits and changes nothing but what it has to; when its
handler finds the saved word in place, as it does behind any stretch of time, and returns at once,
the processor goes on where it was. -/
theorem dispatch_and_return (enabled : m.cpu.interruptsEnabled = true)
    (unlocked : m.cpu.locked = false) (running : m.cpu.stopped = false) (nonempty : m.pending ≠ ∅)
    (room : RoomBelow m.cpu.registers.sp) :
    ∃ source ∈ m.pending, (∀ other ∈ m.pending, source.index ≤ other.index) ∧
      m.step = (20, m.dispatched source) ∧
      let vector := UInt16.ofNat (0x40 + 8 * source.index)
      let saved (live : LiveBoard) :=
        live.read (m.cpu.registers.sp - 2) = Word.low m.cpu.registers.pc ∧
          live.read (m.cpu.registers.sp - 1) = Word.high m.cpu.registers.pc
      saved (m.dispatched source).bus ∧
      (m.dispatched source).bus.read 0xFF0F = m.bus.read 0xFF0F &&& ~~~source.bit ∧
      (m.Played → m.cpu.enableDelay = 0 ∧
        (m.dispatched source).bus.board.requested = m.bus.board.requested.erase source) ∧
      (∀ (cycles : List Nat) (next : LiveBoard),
        (m.dispatched source).bus.replay (cycles.map .tick) = .ok next →
          next.read vector = (m.dispatched source).bus.read vector ∧ saved next) ∧
      ∀ next : LiveBoard, next.read vector = 0xD9 → saved next →
        (Wired.mk (m.dispatched source).cpu next).step =
          (16, ⟨m.cpu.resumed, next⟩) := by
  obtain ⟨source, first, waits, least⟩ := InterruptSet.highest?_eq_some (.masked _) nonempty
  have stored := LiveBoard.read_dispatched room source m.cpu.registers.pc m.bus
  obtain ⟨high, low⟩ := room.internal
  refine ⟨source, waits, least, step_dispatched enabled unlocked running first nonempty room,
    stored, ?_, fun played => ⟨played.orderly.enabled enabled, ?_⟩, fun cycles next ticks => ?_,
    fun next returns saved => step_return unlocked running returns saved.1 saved.2⟩
  · exact InterruptSet.erase_or source m.bus.board.requested.bits
  · exact congrArg (fun bits => InterruptSet.erase ⟨bits⟩ source) played.named
  · refine ⟨LiveBoard.read_ticks ticks (.inl ?_), ?_, ?_⟩
    · cases source <;> rfl
    · exact (LiveBoard.read_ticks ticks (.inr low)).trans stored.1
    · exact (LiveBoard.read_ticks ticks (.inr high)).trans stored.2

def returningProgram : Image :=
  ⟨((Array.replicate 0x102 0).set! 0x0040 0xD9).set! 0x0100 0xFB⟩

def returningStart : Wired LiveBoard :=
  (Console.started returningProgram .standard .bare).machine

def awaitingBlank : Wired LiveBoard :=
  let awake := returningStart.step.2.step.2
  awake.withBus (awake.bus.write 0xFFFF 0x01)

theorem played_awaitingBlank : awaitingBlank.Played := by
  have on : returningStart.Played := .powerOn _ _ rfl
  have enabling := on.turn _ _ .step rfl
  have awake := enabling.turn _ _ .step rfl
  exact awake.event _ _ (.access (.write 0xFFFF 0x01)) rfl

/-- The first interrupt is dispatched, and its handler returns. -/
theorem dispatch_and_return_blank :
    let handler := awaitingBlank.dispatched .verticalBlank
    awaitingBlank.Played ∧ awaitingBlank.step = (20, handler) ∧
      handler.cpu.registers.pc = 0x40 ∧
      handler.step = (16, ⟨awaitingBlank.cpu.resumed, handler.bus⟩) := by
  have waiting : awaitingBlank.pending = {.verticalBlank} := by decide +kernel
  obtain ⟨source, waits, -, dispatches, saved, -, -, -, returns⟩ :=
    dispatch_and_return (by decide +kernel : awaitingBlank.cpu.interruptsEnabled = true)
      (by decide +kernel) (by decide +kernel) (by rw [waiting]; decide) (.inr (by decide +kernel))
  rw [waiting] at waits
  obtain rfl := InterruptSet.mem_singleton.mp waits
  have vector : (awaitingBlank.dispatched .verticalBlank).bus.read 0x40 = 0xD9 := by
    decide +kernel
  exact ⟨played_awaitingBlank, dispatches, rfl, returns _ vector saved⟩

end Wired
end DotMatrix
