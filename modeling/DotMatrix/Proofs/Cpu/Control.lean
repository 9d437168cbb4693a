import DotMatrix.Proofs.Cpu.FlagByte
import DotMatrix.Proofs.Cpu.HaltBug

/-! The control state of a processor: whether interrupts are enabled or about to be, and the modes
in which it does not simply go on with the next instruction. EI takes effect one instruction later,
and besides it only a return from a handler enables interrupts. -/
namespace DotMatrix
namespace Cpu

def controlled (cpu : Cpu) (pending : InterruptSet) : Instruction → Cpu
  | .stop => { cpu with stopped := true }
  | .halt => Execution.halted cpu pending
  | .disableInterrupts => { cpu with interruptsEnabled := false, enableDelay := 0 }
  | .enableInterrupts =>
    if !cpu.interruptsEnabled && cpu.enableDelay == 0 then { cpu with enableDelay := 2 } else cpu
  | .returnEnable => { cpu with interruptsEnabled := true, enableDelay := 0 }
  | .undefined => { cpu with locked := true }
  | _ => cpu

def underway (cpu : Cpu) : Cpu := { cpu with halted := false, stopped := false, haltBug := false }

def withRegisters (registers : Registers) (cpu : Cpu) : Cpu := { cpu with registers }

theorem controlled_registers (registers : Registers) (cpu : Cpu) (pending : InterruptSet)
    (instruction : Instruction) :
    (cpu.withRegisters registers).controlled pending instruction =
      (cpu.controlled pending instruction).withRegisters registers := by
  cases instruction with
  | halt =>
    unfold controlled Execution.halted
    rw [apply_ite (withRegisters registers)]
    rfl
  | enableInterrupts =>
    unfold controlled
    rw [apply_ite (withRegisters registers)]
    rfl
  | _ => rfl

def modes (cpu : Cpu) : Nat := [cpu.halted, cpu.stopped, cpu.locked, cpu.haltBug].count true

theorem modes_eq_zero {cpu : Cpu} : cpu.modes = 0 ↔
    cpu.halted = false ∧ cpu.stopped = false ∧ cpu.locked = false ∧ cpu.haltBug = false := by
  simp [modes, List.count_eq_zero]

theorem underway_eq {cpu : Cpu} (free : cpu.modes = 0) : cpu.underway = cpu := by
  obtain ⟨halted, stopped, -, inOrder⟩ := modes_eq_zero.mp free
  cases cpu
  cases halted
  cases stopped
  cases inOrder
  rfl

/-- At most one mode, and an enable is pending for one instruction at most, which is about to be
executed. -/
structure Orderly (cpu : Cpu) : Prop where
  delay : cpu.enableDelay = 0 ∨ cpu.enableDelay = 1
  enabled : cpu.interruptsEnabled = true → cpu.enableDelay = 0
  modes : cpu.modes ≤ 1
  ready : cpu.enableDelay = 1 → cpu.modes = 0

theorem Orderly.postBoot : Cpu.postBoot.Orderly where
  delay := .inl rfl
  enabled := by decide
  modes := by decide
  ready := by decide

theorem countEnableDelay_registers (registers : Registers) (cpu : Cpu) :
    (cpu.withRegisters registers).countEnableDelay =
      cpu.countEnableDelay.withRegisters registers := by
  unfold countEnableDelay
  rw [apply_ite (withRegisters registers)]
  rfl

theorem enabled_countEnableDelay (cpu : Cpu) :
    cpu.countEnableDelay.interruptsEnabled = true ↔
      cpu.interruptsEnabled = true ∨ cpu.enableDelay = 1 := by
  unfold countEnableDelay
  split
  case isTrue none =>
    have none : cpu.enableDelay = 0 := by simpa using none
    simp [none]
  case isFalse => simp

theorem delay_countEnableDelay {cpu : Cpu} (delay : cpu.enableDelay = 0 ∨ cpu.enableDelay = 1) :
    cpu.countEnableDelay.enableDelay = 0 := by
  unfold countEnableDelay
  rcases delay with none | pending
  · simp [none]
  · simp [pending]

theorem delay_countEnableDelay_two {cpu : Cpu} (delay : cpu.enableDelay = 2) :
    cpu.countEnableDelay.enableDelay = 1 := by
  simp [countEnableDelay, delay]

theorem modes_countEnableDelay (cpu : Cpu) : cpu.countEnableDelay.modes = cpu.modes := by
  unfold countEnableDelay
  split <;> rfl

theorem orderly_countEnableDelay {cpu : Cpu} (delay : cpu.enableDelay = 0 ∨ cpu.enableDelay = 1)
    (modes : cpu.modes ≤ 1) : cpu.countEnableDelay.Orderly := by
  have settled := delay_countEnableDelay delay
  refine ⟨.inl settled, fun _ => settled, ?_, fun one => ?_⟩
  · rw [modes_countEnableDelay]
    exact modes
  · exact absurd (settled.symm.trans one) (by decide)

theorem orderly_controlled {cpu : Cpu} (h : cpu.Orderly) (free : cpu.modes = 0)
    (pending : InterruptSet) (instruction : Instruction) :
    (cpu.controlled pending instruction).countEnableDelay.Orderly := by
  obtain ⟨halted, stopped, locked, haltBug⟩ := modes_eq_zero.mp free
  cases instruction with
  | stop => exact orderly_countEnableDelay h.delay (by
      simp [controlled, modes, halted, locked, haltBug])
  | undefined => exact orderly_countEnableDelay h.delay (by
      simp [controlled, modes, halted, stopped, haltBug])
  | halt =>
    simp only [controlled, Execution.halted]
    split
    · exact orderly_countEnableDelay h.delay (by simp [modes, stopped, locked, haltBug])
    · exact orderly_countEnableDelay h.delay (by simp [modes, halted, stopped, locked])
  | enableInterrupts =>
    simp only [controlled]
    split
    case isTrue arms =>
      simp only [Bool.and_eq_true, Bool.not_eq_true', beq_iff_eq] at arms
      -- Two instructions to complete, and this is the first of them.
      refine ⟨.inr (delay_countEnableDelay_two rfl), fun enabled => ?_, ?_, fun _ => ?_⟩
      · rw [enabled_countEnableDelay] at enabled
        simp [arms.1] at enabled
      · rw [modes_countEnableDelay]
        exact h.modes
      · rw [modes_countEnableDelay]
        exact free
    case isFalse => exact orderly_countEnableDelay h.delay h.modes
  | disableInterrupts | returnEnable => exact orderly_countEnableDelay (.inl rfl) h.modes
  | _ => exact orderly_countEnableDelay h.delay h.modes

theorem enabled_controlled {cpu : Cpu} (pending : InterruptSet) (instruction : Instruction) :
    (cpu.controlled pending instruction).countEnableDelay.interruptsEnabled = true ↔
      instruction = .returnEnable ∨ instruction ≠ .disableInterrupts ∧
        (cpu.interruptsEnabled = true ∨ cpu.enableDelay = 1) := by
  rw [enabled_countEnableDelay]
  cases instruction with
  | halt =>
    simp only [controlled, Execution.halted]
    split <;> simp
  | enableInterrupts =>
    simp only [controlled]
    split
    case isTrue arms =>
      simp only [Bool.and_eq_true, Bool.not_eq_true', beq_iff_eq] at arms
      simp [arms]
    case isFalse => simp
  | _ => simp [controlled]

theorem delay_controlled {cpu : Cpu} (h : cpu.enableDelay = 0 ∨ cpu.enableDelay = 1)
    (pending : InterruptSet) (instruction : Instruction) :
    (cpu.controlled pending instruction).countEnableDelay.enableDelay = 1 ↔
      instruction = .enableInterrupts ∧ cpu.interruptsEnabled = false ∧ cpu.enableDelay = 0 := by
  have settled (cpu' : Cpu) (delay : cpu'.enableDelay = 0 ∨ cpu'.enableDelay = 1) :
      cpu'.countEnableDelay.enableDelay ≠ 1 := by
    rw [delay_countEnableDelay delay]
    decide
  cases instruction with
  | halt =>
    refine iff_of_false (settled _ ?_) (by simp)
    simp only [controlled, Execution.halted]
    split <;> exact h
  | enableInterrupts =>
    simp only [controlled]
    split
    case isTrue arms =>
      simp only [Bool.and_eq_true, Bool.not_eq_true', beq_iff_eq] at arms
      exact iff_of_true (delay_countEnableDelay_two rfl) ⟨trivial, arms⟩
    case isFalse unarmed =>
      refine iff_of_false (settled _ h) (fun armed => unarmed ?_)
      simp [armed]
  | disableInterrupts | returnEnable => exact iff_of_false (settled _ (.inl rfl)) (by simp)
  | _ => exact iff_of_false (settled _ h) (by simp)

end Cpu

namespace Execution
variable {β : Type} [Bus β]

theorem controlled_perform (operand : UInt16) (instruction : Instruction) (w : Wired β) :
    ∃ registers pending, ((perform operand instruction).run w).2.cpu =
      (w.cpu.controlled pending instruction).withRegisters registers := by
  cases kind : controls instruction with
  | false =>
    refine ⟨((perform operand instruction).run w).2.cpu.registers, ∅, ?_⟩
    rw [cpu_perform operand instruction kind w]
    cases instruction with
    | stop | halt | disableInterrupts | enableInterrupts | returnEnable | undefined => cases kind
    | _ => rfl
  | true =>
    cases instruction with
    | halt =>
      exact ⟨(halted w.cpu (pendingInterrupts.run w).1).registers, _, cpu_executeHalt w⟩
    | enableInterrupts | stop | disableInterrupts | returnEnable | undefined => exact ⟨_, ∅, rfl⟩
    | _ => cases kind

theorem controlled_executeAt (opcode operand : UInt16) (cpu : Cpu) (bus : β) :
    ∃ registers pending, ((executeAt opcode operand).run ⟨cpu, bus⟩).2.cpu =
      (cpu.controlled pending
        (Instruction.decode (Bus.read opcode bus).1)).countEnableDelay.withRegisters
          registers := by
  simp only [executeAt, finishAt, run_bind, run_readByte, setPC, run_update, run_updateCpu,
    run_pure, cpu_operandAt]
  generalize Instruction.decode (Bus.read opcode bus).1 = instruction
  generalize (operandAt operand instruction.operandBytes).run ⟨cpu, (Bus.read opcode bus).2⟩ =
    fetched
  generalize operand + UInt16.ofNat instruction.operandBytes = pc
  obtain ⟨registers, pending, same⟩ := controlled_perform fetched.1 instruction
    (Wired.mk (cpu.withRegisters { cpu.registers with pc }) fetched.2.bus)
  rw [Cpu.controlled_registers] at same
  refine ⟨registers, pending, (congrArg Cpu.countEnableDelay same).trans ?_⟩
  exact Cpu.countEnableDelay_registers registers (cpu.controlled pending instruction)

end Execution

open Execution

namespace Wired
variable {β : Type} [Bus β]

def Executes (w : Wired β) (instruction : Instruction) : Prop :=
  w.activity = .instruction ∧ Instruction.decode w.fetched.1 = instruction

/-- The step executes EI while interrupts are disabled and none is pending to enable them. -/
def ArmsEnable (w : Wired β) : Prop :=
  w.Executes .enableInterrupts ∧ w.cpu.interruptsEnabled = false ∧ w.cpu.enableDelay = 0

theorem step_controlled (w : Wired β) (executes : w.activity = .instruction) :
    ∃ registers pending, w.step.2.cpu =
      (w.cpu.underway.controlled pending
        (Instruction.decode w.fetched.1)).countEnableDelay.withRegisters registers := by
  rw [step_instruction w executes]
  exact controlled_executeAt _ _ _ _

theorem activity_ne_idle (w : Wired β) (awake : w.cpu.modes = 0) : w.activity ≠ .idle := by
  intro idles
  obtain ⟨halted, stopped, locked, -⟩ := Cpu.modes_eq_zero.mp awake
  obtain ⟨-, asleep⟩ := step_idle w idles
  simp [halted, stopped, locked] at asleep

theorem orderly_step (w : Wired β) (h : w.cpu.Orderly) : w.step.2.cpu.Orderly := by
  cases activity : w.activity with
  | idle =>
    obtain ⟨⟨stopped, still, same⟩, -⟩ := step_idle w activity
    rw [same]
    have fewer : Cpu.modes { w.cpu with stopped } ≤ w.cpu.modes := by
      cases stopped with
      | true => simp [Cpu.modes, still rfl]
      | false => cases w.cpu.stopped <;> simp [Cpu.modes, List.count_cons]
    exact ⟨h.delay, h.enabled, Nat.le_trans fewer h.modes,
      fun one => Nat.le_zero.mp (h.ready one ▸ fewer)⟩
  | dispatch source =>
    obtain ⟨registers, -, same⟩ := step_dispatch w source activity
    have unlocked := (cpu_poll_dispatch w source activity).2.2
    rw [same]
    refine ⟨.inl rfl, fun _ => rfl, ?_, fun one => absurd one (by simp)⟩
    cases w.cpu.haltBug <;> simp [Cpu.modes, unlocked]
  | instruction =>
    obtain ⟨registers, pending, same⟩ := step_controlled w activity
    have unlocked := (cpu_poll_instruction w activity).2
    have free : w.cpu.underway.modes = 0 := Cpu.modes_eq_zero.mpr ⟨rfl, rfl, unlocked, rfl⟩
    have start : w.cpu.underway.Orderly :=
      ⟨h.delay, h.enabled, free ▸ Nat.zero_le 1, fun _ => free⟩
    obtain ⟨delay, enabled, modes, ready⟩ :=
      Cpu.orderly_controlled start free pending (Instruction.decode w.fetched.1)
    rw [same]
    exact ⟨delay, enabled, modes, ready⟩

/-- An enable is pending behind EI, and behind nothing else. -/
theorem delay_step_iff (w : Wired β) (h : w.cpu.Orderly) :
    w.step.2.cpu.enableDelay = 1 ↔ w.ArmsEnable := by
  cases activity : w.activity with
  | idle =>
    obtain ⟨⟨stopped, -, same⟩, -⟩ := step_idle w activity
    refine iff_of_false (fun one => ?_) fun arms => by simp [arms.1.1] at activity
    rw [same] at one
    exact w.activity_ne_idle (h.ready one) activity
  | dispatch source =>
    obtain ⟨registers, -, same⟩ := step_dispatch w source activity
    refine iff_of_false (fun one => ?_) fun arms => by simp [arms.1.1] at activity
    simp [same] at one
  | instruction =>
    obtain ⟨registers, pending, same⟩ := step_controlled w activity
    rw [same]
    have delay : w.cpu.underway.enableDelay = 0 ∨ w.cpu.underway.enableDelay = 1 := h.delay
    refine (Cpu.delay_controlled delay pending _).trans ?_
    simp [ArmsEnable, Executes, activity, Cpu.underway]

/-- By what a step enables interrupts. -/
theorem enabled_step_iff (w : Wired β) (disabled : w.cpu.interruptsEnabled = false) :
    w.step.2.cpu.interruptsEnabled = true ↔
      w.Executes .returnEnable ∨
        w.activity = .instruction ∧ ¬w.Executes .disableInterrupts ∧ w.cpu.enableDelay = 1 := by
  cases activity : w.activity with
  | idle =>
    obtain ⟨⟨stopped, -, same⟩, -⟩ := step_idle w activity
    rw [same]
    simp [disabled, Executes, activity]
  | dispatch source =>
    obtain ⟨registers, -, same⟩ := step_dispatch w source activity
    rw [same]
    simp [Executes, activity]
  | instruction =>
    obtain ⟨registers, pending, same⟩ := step_controlled w activity
    rw [same]
    refine (Cpu.enabled_controlled pending _).trans ?_
    simp [disabled, Executes, activity, Cpu.underway]

end Wired

/-- What holds of the control state between any two steps. -/
structure Cpu.WellFormed (cpu : Cpu) : Prop where
  flags : cpu.registers.f &&& 0x0F = 0
  delay : cpu.enableDelay = 0 ∨ cpu.enableDelay = 1
  enabled : cpu.interruptsEnabled = true → cpu.enableDelay = 0
  /-- At most one of the four is set. -/
  modes : [cpu.halted, cpu.stopped, cpu.locked, cpu.haltBug].count true ≤ 1

variable {β : Type} [Bus β]

theorem Cpu.orderly_after (buses : List β) : (Cpu.postBoot.after buses).Orderly := by
  induction buses using List.reverseRecOn with
  | nil => exact .postBoot
  | append_singleton buses bus ih =>
    rw [Cpu.after_snoc]
    exact Wired.orderly_step _ ih

theorem Cpu.clean_after (buses : List β) : (Cpu.postBoot.after buses).registers.Clean := by
  induction buses using List.reverseRecOn with
  | nil => exact (by decide : Cpu.postBoot.registers.f &&& 0x0F = 0)
  | append_singleton buses bus ih =>
    rw [Cpu.after_snoc]
    exact Wired.clean_step _ ih

theorem Wired.step_armed (w : Wired β) (h : w.cpu.Orderly) (armed : w.cpu.enableDelay = 1) :
    w.activity = .instruction ∧
      w.step = (executeAt w.cpu.registers.pc (w.cpu.registers.pc + 1)).run
        ⟨w.cpu, (poll.run w).2.bus⟩ ∧
      (w.step.2.cpu.interruptsEnabled = true ↔ ¬w.Executes .disableInterrupts) := by
  have free := h.ready armed
  have disabled : w.cpu.interruptsEnabled = false := by
    by_contra enabled
    have none := h.enabled (by simpa using enabled)
    exact absurd (none.symm.trans armed) (by decide)
  have executes : w.activity = .instruction := by
    cases activity : w.activity with
    | idle => exact absurd activity (w.activity_ne_idle free)
    | dispatch source =>
      have enabled := (w.cpu_poll_dispatch source activity).2.1
      simp [disabled] at enabled
    | instruction => rfl
  refine ⟨executes, ?_, ?_⟩
  · obtain ⟨-, -, -, inOrder⟩ := Cpu.modes_eq_zero.mp free
    rw [w.step_instruction executes, inOrder]
    exact congrArg (fun cpu => (executeAt _ _).run ⟨cpu, _⟩) (Cpu.underway_eq free)
  · rw [w.enabled_step_iff disabled]
    constructor
    · rintro (returns | ⟨-, other, -⟩)
      · intro disables
        exact absurd (returns.2.symm.trans disables.2) (by decide)
      · exact other
    · intro other
      exact .inr ⟨executes, other, armed⟩

/-- EI takes effect behind the instruction that follows it, which is executed whatever is
requested; besides it only RETI enables interrupts. -/
theorem enable_takes_effect (buses : List β) :
    let cpu := Cpu.postBoot.after buses
    cpu.WellFormed ∧
      (∀ bus next : β, (Wired.mk cpu bus).ArmsEnable →
        let behind := Wired.mk (Cpu.postBoot.after (buses ++ [bus])) next
        behind.activity = .instruction ∧
          behind.step =
            (executeAt behind.cpu.registers.pc (behind.cpu.registers.pc + 1)).run
              ⟨behind.cpu, (poll.run behind).2.bus⟩ ∧
          (behind.step.2.cpu.interruptsEnabled = true ↔ ¬behind.Executes .disableInterrupts)) ∧
      ∀ bus : β, cpu.interruptsEnabled = false →
        (Wired.mk cpu bus).step.2.cpu.interruptsEnabled = true →
          (Wired.mk cpu bus).Executes .returnEnable ∨
            ∃ earlier last, buses = earlier ++ [last] ∧
              (Wired.mk (Cpu.postBoot.after earlier) last).ArmsEnable ∧
              (Wired.mk cpu bus).activity = .instruction := by
  have orderly := Cpu.orderly_after buses
  refine ⟨⟨Cpu.clean_after buses, orderly.delay, orderly.enabled, orderly.modes⟩, ?_, ?_⟩
  · intro bus next arms
    have armed := (Wired.delay_step_iff (Wired.mk (Cpu.postBoot.after buses) bus) orderly).mpr arms
    rw [← Cpu.after_snoc] at armed
    exact Wired.step_armed _ (Cpu.orderly_after _) armed
  · intro bus disabled enabled
    rcases (Wired.enabled_step_iff _ disabled).mp enabled with returns | ⟨executes, -, armed⟩
    · exact .inl returns
    -- Only the last step can have left the enable pending.
    · rcases List.eq_nil_or_concat buses with rfl | ⟨earlier, last, rfl⟩
      · exact absurd (show (0 : UInt8) = 1 from armed) (by decide)
      · rw [List.concat_eq_append] at armed executes ⊢
        change (Cpu.postBoot.after (earlier ++ [last])).enableDelay = 1 at armed
        rw [Cpu.after_snoc] at armed
        have arms := (Wired.delay_step_iff _ (Cpu.orderly_after earlier)).mp armed
        exact .inr ⟨earlier, last, rfl, arms, executes⟩

/-- HALT in the place behind EI, with a vertical blank requested: it is executed, and interrupts
are enabled. -/
theorem enable_takes_effect_halt :
    (Wired.mk Cpu.postBoot (delaySlotMemory 0x76)).ArmsEnable ∧
      (Wired.mk (Cpu.postBoot.after [delaySlotMemory 0x76]) (delaySlotMemory 0x76)).activity =
        .instruction ∧
      (Cpu.postBoot.after
        [delaySlotMemory 0x76, delaySlotMemory 0x76]).interruptsEnabled = true := by
  have arms : (Wired.mk Cpu.postBoot (delaySlotMemory 0x76)).ArmsEnable :=
    ⟨⟨by decide, by decide⟩, by decide, by decide⟩
  obtain ⟨executes, -, enables⟩ :=
    (enable_takes_effect []).2.1 (delaySlotMemory 0x76) (delaySlotMemory 0x76) arms
  exact ⟨arms, executes, enables.mpr fun disables => absurd disables.2 (by decide)⟩

end DotMatrix
