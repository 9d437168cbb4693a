import DotMatrix.Proofs.Cpu.Fetch
import Mathlib.Data.List.Induction

/-! HALT with interrupts disabled and one pending makes the next fetch stay in place. Here is
when that fetch is the first one of an interrupt handler. -/
namespace DotMatrix
namespace Execution
variable {β : Type} [Bus β]

theorem controlFrame (k : Cpu) :
    Frame fun w w' : Wired β => w = w' ∧ w.cpu = { k with registers := w.cpu.registers } where
  registers := by
    rintro w _ ⟨rfl, _⟩
    rfl
  update change := by
    rintro w _ ⟨rfl, same⟩
    refine ⟨rfl, rfl, ?_⟩
    simp only [run_update]
    rw [same]
  readByte address := by
    rintro w _ ⟨rfl, same⟩
    exact ⟨rfl, rfl, same⟩
  writeByte address value := by
    rintro w _ ⟨rfl, same⟩
    exact ⟨rfl, rfl, same⟩

theorem cpu_perform (operand : UInt16) (instruction : Instruction)
    (ordinary : controls instruction = false) (w : Wired β) :
    ((perform operand instruction).run w).2.cpu =
      { w.cpu with registers := ((perform operand instruction).run w).2.cpu.registers } :=
  ((controlFrame w.cpu).perform operand instruction ordinary w w ⟨rfl, rfl⟩).2.2

theorem haltBug_perform (operand : UInt16) (instruction : Instruction)
    (other : instruction ≠ .halt) (w : Wired β) :
    ((perform operand instruction).run w).2.cpu.haltBug = w.cpu.haltBug := by
  cases kind : controls instruction with
  | false => rw [cpu_perform operand instruction kind]
  | true =>
    cases instruction with
    | halt => exact absurd rfl other
    | enableInterrupts =>
      simp only [perform, run_bind, run_updateCpu, run_pure]
      split <;> rfl
    | stop | disableInterrupts | returnEnable | undefined => rfl
    | _ => cases kind

theorem haltBug_countEnableDelay (cpu : Cpu) : cpu.countEnableDelay.haltBug = cpu.haltBug := by
  unfold Cpu.countEnableDelay
  split <;> rfl

theorem cpu_operandAt (address : UInt16) (count : Nat) (w : Wired β) :
    ((operandAt address count).run w).2.cpu = w.cpu := by
  match count with
  | 0 => rfl
  | 1 => rfl
  | _ + 2 => rfl

theorem haltBug_executeAt (opcode operand : UInt16) (cpu : Cpu) (bus : β)
    (other : Instruction.decode (Bus.read opcode bus).1 ≠ .halt) :
    ((executeAt opcode operand).run ⟨cpu, bus⟩).2.cpu.haltBug = cpu.haltBug := by
  simp only [executeAt, finishAt, run_bind, run_readByte, setPC, run_update, run_updateCpu,
    run_pure, haltBug_countEnableDelay, haltBug_perform _ _ other, cpu_operandAt]

def halted (cpu : Cpu) (pending : InterruptSet) : Cpu :=
  if cpu.interruptsEnabled = true ∨ pending = ∅ then { cpu with halted := true }
  else { cpu with haltBug := true }

theorem haltBug_halted {cpu : Cpu} (clear : cpu.haltBug = false) (pending : InterruptSet) :
    (halted cpu pending).haltBug = true ↔ cpu.interruptsEnabled = false ∧ pending ≠ ∅ := by
  unfold halted
  split
  case isTrue waits =>
    rcases waits with enabled | none
    · simp [clear, enabled]
    · simp [clear, none]
  case isFalse trips =>
    rw [not_or] at trips
    simpa using trips

theorem cpu_executeHalt (w : Wired β) :
    (executeHalt.run w).2.cpu = halted w.cpu (pendingInterrupts.run w).1 := by
  unfold executeHalt halted
  simp only [run_bind, run_ite]
  split
  case isTrue enabled =>
    rw [if_pos (.inl enabled)]
    rfl
  case isFalse disabled =>
    split
    case isTrue none =>
      rw [if_pos (.inr none)]
      rfl
    case isFalse some =>
      rw [if_neg (by rintro (enabled | none) <;> contradiction)]
      rfl

theorem cpu_executeAt_halt (opcode operand : UInt16) (cpu : Cpu) (bus : β)
    (halt : Instruction.decode (Bus.read opcode bus).1 = .halt) :
    ((executeAt opcode operand).run ⟨cpu, bus⟩).2.cpu =
      (halted { cpu with registers := { cpu.registers with pc := operand } }
        (pendingInterrupts.run ⟨cpu, (Bus.read opcode bus).2⟩).1).countEnableDelay := by
  have stays : operand + UInt16.ofNat 0 = operand := by simp
  simp only [executeAt, finishAt, run_bind, run_readByte, setPC, run_update, run_updateCpu,
    run_pure, halt, perform, Instruction.operandBytes, operandAt, stays, cpu_executeHalt]
  rfl

end Execution

open Execution

namespace Wired
variable {β : Type} [Bus β]

def fetched (w : Wired β) : UInt8 × β := Bus.read w.cpu.registers.pc (poll.run w).2.bus

def HaltsPending (w : Wired β) : Prop :=
  w.activity = .instruction ∧ Instruction.decode w.fetched.1 = .halt ∧
    w.cpu.interruptsEnabled = false ∧ (pendingInterrupts.run ⟨w.cpu, w.fetched.2⟩).1 ≠ ∅

end Wired

def Cpu.Alert (cpu : Cpu) : Prop :=
  cpu.haltBug = true → cpu.halted = false ∧ cpu.stopped = false ∧ cpu.locked = false

namespace Wired
variable {β : Type} [Bus β]

theorem cpu_poll_dispatch (w : Wired β) (source : Interrupt)
    (dispatches : w.activity = .dispatch source) :
    (poll.run w).2.cpu = { w.cpu with halted := false, stopped := false } ∧
      w.cpu.interruptsEnabled = true ∧ w.cpu.locked = false := by
  have polled := polled_poll w
  rw [show (poll.run w).1 = .dispatch source from dispatches] at polled
  generalize (poll.run w).2.cpu = cpu at polled
  cases polled with
  | dispatch _ unlocked enabled => exact ⟨rfl, enabled, unlocked⟩

theorem cpu_poll_instruction (w : Wired β) (executes : w.activity = .instruction) :
    (poll.run w).2.cpu = { w.cpu with halted := false, stopped := false } ∧
      w.cpu.locked = false := by
  have polled := polled_poll w
  rw [show (poll.run w).1 = .instruction from executes] at polled
  generalize (poll.run w).2.cpu = cpu at polled
  cases polled with
  | instruction unlocked => exact ⟨rfl, unlocked⟩

theorem step_dispatch (w : Wired β) (source : Interrupt)
    (dispatches : w.activity = .dispatch source) :
    ∃ registers : Registers, registers.pc = source.vector ∧
      w.step.2.cpu =
        { registers, interruptsEnabled := false, enableDelay := 0, halted := false,
          stopped := false, haltBug := w.cpu.haltBug, locked := w.cpu.locked } := by
  have polled := (cpu_poll_dispatch w source dispatches).1
  rw [step_eq, show (poll.run w).1 = .dispatch source from dispatches]
  generalize (poll.run w).2 = awake at polled
  obtain ⟨cpu, bus⟩ := awake
  subst polled
  exact ⟨_, rfl, rfl⟩

theorem step_instruction (w : Wired β) (executes : w.activity = .instruction) :
    w.step = (executeAt w.cpu.registers.pc
      (if w.cpu.haltBug then w.cpu.registers.pc else w.cpu.registers.pc + 1)).run
        ⟨{ w.cpu with halted := false, stopped := false, haltBug := false },
          (poll.run w).2.bus⟩ := by
  rw [step_eq, show (poll.run w).1 = .instruction from executes]
  change executeNext.run _ = _
  rw [run_executeNext, (cpu_poll_instruction w executes).1]

theorem step_idle (w : Wired β) (idles : w.activity = .idle) :
    (∃ stopped, (stopped = true → w.cpu.stopped = true) ∧ w.step.2.cpu = { w.cpu with stopped }) ∧
      (w.cpu.locked = true ∨ w.cpu.stopped = true ∨ w.cpu.halted = true) := by
  have polled := polled_poll w
  rw [step_eq, show (poll.run w).1 = .idle from idles]
  rw [show (poll.run w).1 = .idle from idles] at polled
  change (∃ stopped, _ ∧ (poll.run w).2.cpu = _) ∧ _
  generalize (poll.run w).2.cpu = cpu at polled
  cases polled with
  | idle stopped still asleep => exact ⟨⟨stopped, still, rfl⟩, asleep⟩

theorem not_asleep {cpu : Cpu} (alert : cpu.Alert) (bug : cpu.haltBug = true) :
    ¬(cpu.locked = true ∨ cpu.stopped = true ∨ cpu.halted = true) := by
  obtain ⟨running, awake, unlocked⟩ := alert bug
  simp [running, awake, unlocked]

theorem haltBug_step_instruction (w : Wired β) (executes : w.activity = .instruction)
    (bug : w.step.2.cpu.haltBug = true) : w.HaltsPending := by
  rw [step_instruction w executes] at bug
  by_cases halt : Instruction.decode w.fetched.1 = .halt
  · rw [cpu_executeAt_halt _ _ _ _ halt, haltBug_countEnableDelay, haltBug_halted rfl] at bug
    exact ⟨executes, halt, bug⟩
  · rw [haltBug_executeAt _ _ _ _ halt] at bug
    cases bug

theorem cpu_step_haltsPending (w : Wired β) (trips : w.HaltsPending) :
    ∃ registers : Registers, w.step.2.cpu = Cpu.countEnableDelay
      { w.cpu with registers, halted := false, stopped := false, haltBug := true } := by
  obtain ⟨executes, halt, disabled, pending⟩ := trips
  have trips : ¬(w.cpu.interruptsEnabled = true ∨
      (pendingInterrupts.run ⟨w.cpu, w.fetched.2⟩).1 = ∅) := by
    rintro (enabled | none)
    · simp [disabled] at enabled
    · exact pending none
  rw [step_instruction w executes, cpu_executeAt_halt _ _ _ _ halt, halted]
  exact ⟨_, congrArg Cpu.countEnableDelay (if_neg trips)⟩

theorem alert_step (w : Wired β) (alert : w.cpu.Alert) : w.step.2.cpu.Alert := by
  intro bug
  cases activity : w.activity with
  | idle =>
    obtain ⟨⟨stopped, _, same⟩, asleep⟩ := step_idle w activity
    rw [same] at bug
    exact absurd asleep (not_asleep alert bug)
  | dispatch source =>
    obtain ⟨registers, _, same⟩ := step_dispatch w source activity
    rw [same]
    exact ⟨rfl, rfl, (cpu_poll_dispatch w source activity).2.2⟩
  | instruction =>
    have unlocked := (cpu_poll_instruction w activity).2
    obtain ⟨registers, same⟩ := cpu_step_haltsPending w (haltBug_step_instruction w activity bug)
    rw [same]
    unfold Cpu.countEnableDelay
    split <;> exact ⟨rfl, rfl, unlocked⟩

theorem enabled_haltsPending (w : Wired β) (trips : w.HaltsPending) :
    w.step.2.cpu.interruptsEnabled = true ↔ w.cpu.enableDelay = 1 := by
  have disabled : w.cpu.interruptsEnabled = false := trips.2.2.1
  obtain ⟨registers, same⟩ := cpu_step_haltsPending w trips
  rw [same]
  unfold Cpu.countEnableDelay
  split
  case isTrue zero => simp_all
  case isFalse => simp [disabled]

def HaltsInDelaySlot (w : Wired β) : Prop := w.HaltsPending ∧ w.cpu.enableDelay = 1

/-- Interrupts are enabled and the bug is set only when HALT stood right behind EI. -/
theorem haltBug_step_iff (w : Wired β) (alert : w.cpu.Alert)
    (enabled : w.step.2.cpu.interruptsEnabled = true) :
    w.step.2.cpu.haltBug = true ↔ w.HaltsInDelaySlot := by
  constructor
  · intro bug
    cases activity : w.activity with
    | idle =>
      obtain ⟨⟨stopped, _, same⟩, asleep⟩ := step_idle w activity
      rw [same] at bug
      exact absurd asleep (not_asleep alert bug)
    | dispatch source =>
      obtain ⟨registers, _, same⟩ := step_dispatch w source activity
      rw [same] at enabled
      cases enabled
    | instruction =>
      have trips := haltBug_step_instruction w activity bug
      exact ⟨trips, (enabled_haltsPending w trips).mp enabled⟩
  · rintro ⟨trips, _⟩
    obtain ⟨registers, same⟩ := cpu_step_haltsPending w trips
    rw [same, haltBug_countEnableDelay]

end Wired

/-- The processor after one step on each of the buses. Between two steps anything may have
happened to the bus. -/
def Cpu.after {β : Type} [Bus β] (cpu : Cpu) (buses : List β) : Cpu :=
  buses.foldl (fun cpu bus => (Wired.mk cpu bus).step.2.cpu) cpu

variable {β : Type} [Bus β]

theorem Cpu.after_snoc (cpu : Cpu) (buses : List β) (bus : β) :
    cpu.after (buses ++ [bus]) = (Wired.mk (cpu.after buses) bus).step.2.cpu := by
  simp only [Cpu.after, List.foldl_append, List.foldl_cons, List.foldl_nil]

theorem Cpu.alert_after (buses : List β) : (Cpu.postBoot.after buses).Alert := by
  induction buses using List.reverseRecOn with
  | nil =>
    intro bug
    cases bug
  | append_singleton buses bus ih =>
    rw [Cpu.after_snoc]
    exact Wired.alert_step _ ih

theorem Wired.step_handler (w : Wired β) (source : Interrupt)
    (dispatches : w.activity = .dispatch source) (next : β) :
    let handler := w.step.2.cpu
    (Wired.mk handler next).step =
      (executeAt source.vector
        (if handler.haltBug then source.vector else source.vector + 1)).run
          ⟨{ handler with haltBug := false }, (poll.run ⟨handler, next⟩).2.bus⟩ := by
  intro handler
  obtain ⟨registers, start, same⟩ := w.step_dispatch source dispatches
  have unlocked := (w.cpu_poll_dispatch source dispatches).2.2
  have executes : (Wired.mk handler next).activity = .instruction := by
    cases activity : (Wired.mk handler next).activity with
    | idle =>
      obtain ⟨_, asleep⟩ := (Wired.mk handler next).step_idle activity
      simp [handler, same, unlocked] at asleep
    | dispatch source =>
      obtain ⟨_, enabled, _⟩ := (Wired.mk handler next).cpu_poll_dispatch source activity
      simp [handler, same] at enabled
    | instruction => rfl
  have awake : handler = { handler with halted := false, stopped := false } := by
    simp only [handler, same]
  rw [Wired.step_instruction _ executes, show handler.registers.pc = source.vector by
    simp only [handler, same, start]]
  rw [awake]

/-- The first instruction of a handler. It is executed as it stands, unless the dispatch came
right after a HALT in EI's delay slot: then its first byte is read twice. -/
theorem handler_entry (buses : List β) (bus next : β) (source : Interrupt)
    (dispatches : (Wired.mk (Cpu.postBoot.after buses) bus).activity = .dispatch source) :
    let handler := Cpu.postBoot.after (buses ++ [bus])
    let start := UInt16.ofNat (0x40 + 8 * source.index)
    handler.registers.pc = start ∧
      (handler.haltBug = true ↔
        ∃ earlier last, buses = earlier ++ [last] ∧
          (Wired.mk (Cpu.postBoot.after earlier) last).HaltsInDelaySlot) ∧
      (Wired.mk handler next).step =
        (executeAt start (if handler.haltBug then start else start + 1)).run
          ⟨{ handler with haltBug := false }, (poll.run ⟨handler, next⟩).2.bus⟩ := by
  rw [← Interrupt.vector_eq, Cpu.after_snoc]
  obtain ⟨registers, start, same⟩ := Wired.step_dispatch _ source dispatches
  refine ⟨by rw [same]; exact start, ?_, Wired.step_handler _ source dispatches next⟩
  have enabled := (Wired.cpu_poll_dispatch _ source dispatches).2.1
  rw [same]
  change (Cpu.postBoot.after buses).haltBug = true ↔ _
  -- The bug set by the last step is the only one that can still be there.
  rcases List.eq_nil_or_concat buses with rfl | ⟨earlier, last, rfl⟩
  · cases enabled
  · rw [List.concat_eq_append] at enabled ⊢
    change (Cpu.postBoot.after (earlier ++ [last])).interruptsEnabled = true at enabled
    rw [Cpu.after_snoc] at enabled ⊢
    rw [Wired.haltBug_step_iff _ (Cpu.alert_after earlier) enabled]
    constructor
    · intro trapped
      exact ⟨earlier, last, rfl, trapped⟩
    · rintro ⟨_, _, split, trapped⟩
      obtain ⟨rfl, same⟩ := List.append_inj' split rfl
      obtain rfl := List.singleton_inj.mp same
      exact trapped

/-! A memory given by what it answers shows both sides. -/

instance : Bus (UInt16 → UInt8) where
  read address memory := (memory address, memory)
  write address value memory := Function.update memory address value

/-- EI and a second instruction at the start of the program, INC A in the handler, and a vertical
blank enabled and requested. -/
def delaySlotMemory (second : UInt8) : UInt16 → UInt8
  | 0x0040 => 0x3C
  | 0x0100 => 0xFB
  | 0x0101 => second
  | 0xFF0F => 0x01
  | 0xFFFF => 0x01
  | _ => 0x00

/-- Behind EI and NOP the handler is entered as it should be. -/
theorem handler_entry_nop :
    (Wired.mk (Cpu.postBoot.after (List.replicate 2 (delaySlotMemory 0x00)))
      (delaySlotMemory 0x00)).activity = .dispatch .verticalBlank ∧
    (Cpu.postBoot.after (List.replicate 3 (delaySlotMemory 0x00))).registers.pc = 0x40 := by
  have dispatches : (Wired.mk (Cpu.postBoot.after (List.replicate 2 (delaySlotMemory 0x00)))
      (delaySlotMemory 0x00)).activity = .dispatch .verticalBlank := by decide
  exact ⟨dispatches, (handler_entry _ _ (delaySlotMemory 0x00) _ dispatches).1⟩

/-- Behind EI and HALT the bug is carried into the handler, and INC A is executed without PC
advancing over it. -/
theorem haltBug_reaches_handler :
    (Wired.mk (Cpu.postBoot.after (List.replicate 2 (delaySlotMemory 0x76)))
      (delaySlotMemory 0x76)).activity = .dispatch .verticalBlank ∧
    (Cpu.postBoot.after (List.replicate 3 (delaySlotMemory 0x76))).haltBug = true ∧
    (Cpu.postBoot.after (List.replicate 4 (delaySlotMemory 0x76))).registers.pc = 0x40 := by
  decide

end DotMatrix
