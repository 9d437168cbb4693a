import DotMatrix.Proofs.Cpu.Accesses
import DotMatrix.Proofs.Cpu.HaltBug
import DotMatrix.Proofs.Time.Cost

/-! What the cycles of a step are spent on. The bus takes four cycles for a byte, so that an
instruction costs four cycles for each access that it makes and four for each cycle that it spends
inside the processor; how many of these there are depends on the instruction alone, and on whether
it branches. -/
namespace DotMatrix

/-- Whether the instruction branches; one without a condition always does. -/
def Instruction.branches (r : Registers) : Instruction → Bool
  | .jump condition | .jumpRelative condition | .call condition => condition.all (·.holds r)
  | .returnIf condition => condition.holds r
  | _ => true

theorem Instruction.branches_pc (instruction : Instruction) (r : Registers) (pc : UInt16) :
    instruction.branches { r with pc } = instruction.branches r := by
  cases instruction <;> rfl

/-- The cycles, counted in machine cycles, in which the bus is not used. -/
def Instruction.internalCycles (branches : Bool) : Instruction → Nat
  | .incrementPair _ | .decrementPair _ | .addPair _ | .loadStackPointer | .loadOffset | .push _
  | .restart _ | .ret | .returnEnable => 1
  | .jump _ | .jumpRelative _ | .call _ => if branches then 1 else 0
  | .returnIf _ => if branches then 2 else 1
  | .addOffset => 2
  | _ => 0

/-- Where an instruction looks for interrupts itself: HALT does while they are disabled. -/
def Instruction.polls (cpu : Cpu) : Instruction → List Access
  | .halt => if cpu.interruptsEnabled then [] else [.read 0xFFFF, .read 0xFF0F]
  | _ => []

namespace Execution
section
variable {α β δ : Type} {n k : Nat}

def Makes (n : Nat) (m : Execution (Traced β) α) : Prop :=
  ∀ w, ∃ made, made.length = n ∧ (m.run w).2.bus.accesses = made ++ w.bus.accesses

/-- The cycles that a computation names are four for each access that it makes and for each of `k`
machine cycles besides. -/
def ChargedAt (k : Nat) (m : Execution (Traced β) Nat) (w : Wired (Traced β)) : Prop :=
  ∃ made, (m.run w).2.bus.accesses = made ++ w.bus.accesses ∧
    (m.run w).1 = 4 * (k + made.length)

def Charges (k : Nat) (m : Execution (Traced β) Nat) : Prop := ∀ w, ChargedAt k m w

theorem Charges.pure {cycles : Nat} (exactly : cycles = 4 * k) :
    Charges k (pure cycles : Execution (Traced β) Nat) :=
  fun _ => ⟨[], rfl, exactly⟩

theorem run_taken (condition : Option Condition) (m n : Execution β α) (w : Wired β) :
    (do if ← taken condition then m else n : Execution β α).run w =
      if condition.all (·.holds w.cpu.registers) then m.run w else n.run w := by
  rw [run_bind, run_ite]
  cases condition <;> rfl

theorem chargedAt_taken (k : Bool → Nat) {m n : Execution (Traced β) Nat}
    (condition : Option Condition) (yes : Charges (k true) m) (no : Charges (k false) n)
    (w : Wired (Traced β)) :
    ChargedAt (k (condition.all (·.holds w.cpu.registers)))
      (do if ← taken condition then m else n) w := by
  unfold ChargedAt
  rw [run_taken]
  cases condition.all (·.holds w.cpu.registers) with
  | true => exact yes w
  | false => exact no w

namespace Makes

theorem charges {m : Execution (Traced β) α} {f : α → Execution (Traced β) Nat}
    (first : Makes n m) (rest : ∀ a, Charges (k + n) (f a)) : Charges k (m >>= f) := by
  intro w
  obtain ⟨before, rfl, made⟩ := first w
  obtain ⟨after, madeAfter, cycles⟩ := rest (m.run w).1 (m.run w).2
  refine ⟨after ++ before, ?_, ?_⟩
  · rw [run_bind, madeAfter, made, List.append_assoc]
  · rw [run_bind, cycles, List.length_append]
    omega

theorem bind {l : Nat} {m : Execution (Traced β) α} {f : α → Execution (Traced β) δ}
    (first : Makes n m) (rest : ∀ a, Makes l (f a)) : Makes (n + l) (m >>= f) := by
  intro w
  obtain ⟨before, rfl, made⟩ := first w
  obtain ⟨after, rfl, madeAfter⟩ := rest (m.run w).1 (m.run w).2
  refine ⟨after ++ before, ?_, ?_⟩
  · rw [List.length_append, Nat.add_comm]
  · rw [run_bind, madeAfter, made, List.append_assoc]

theorem pure (a : α) : Makes 0 (pure a : Execution (Traced β) α) := fun _ => ⟨[], rfl, rfl⟩

theorem updateCpu (change : Cpu → Cpu) :
    Makes 0 (updateCpu change : Execution (Traced β) Unit) :=
  fun _ => ⟨[], rfl, rfl⟩

theorem update (change : Registers → Registers) :
    Makes 0 (update change : Execution (Traced β) Unit) :=
  fun _ => ⟨[], rfl, rfl⟩

theorem registers : Makes 0 (registers : Execution (Traced β) Registers) :=
  fun _ => ⟨[], rfl, rfl⟩

theorem locate (operand : UInt16) (location : Location) :
    Makes 0 (locate operand location : Execution (Traced β) UInt16) := by
  cases location <;> exact fun _ => ⟨[], rfl, rfl⟩

theorem addOffset (byte : UInt8) : Makes 0 (addOffset byte : Execution (Traced β) UInt16) :=
  fun _ => ⟨[], rfl, rfl⟩

theorem shiftOperand (shift : Arithmetic.Shift) (value : UInt8) :
    Makes 0 (shiftOperand shift value : Execution (Traced β) UInt8) :=
  fun _ => ⟨[], rfl, rfl⟩

variable [Bus β]

theorem readByte (place : UInt16) : Makes 1 (readByte place : Execution (Traced β) UInt8) :=
  fun _ => ⟨[_], rfl, rfl⟩

theorem writeByte (place : UInt16) (value : UInt8) :
    Makes 1 (writeByte place value : Execution (Traced β) Unit) :=
  fun _ => ⟨[_], rfl, rfl⟩

theorem pushWord (word : UInt16) : Makes 2 (pushWord word : Execution (Traced β) Unit) :=
  (update _).bind fun _ => registers.bind fun _ => (writeByte _ _).bind fun _ =>
    (update _).bind fun _ => registers.bind fun _ => writeByte _ _

theorem popWord : Makes 2 (popWord : Execution (Traced β) UInt16) :=
  registers.bind fun _ => (readByte _).bind fun _ => (readByte _).bind fun _ =>
    (update _).bind fun _ => pure _

theorem callTo (place : UInt16) : Makes 2 (callTo place : Execution (Traced β) Unit) :=
  registers.bind fun _ => (pushWord _).bind fun _ => update _

theorem readOperand (operand : Operand) :
    Makes (operand.cost 1 0) (readOperand operand : Execution (Traced β) UInt8) := by
  cases operand with
  | register register => exact registers.bind fun _ => pure _
  | memory => exact registers.bind fun _ => readByte _

theorem writeOperand (operand : Operand) (value : UInt8) :
    Makes (operand.cost 1 0) (writeOperand operand value : Execution (Traced β) Unit) := by
  cases operand with
  | register register => exact update _
  | memory => exact registers.bind fun _ => writeByte _ _

theorem operandAt (address : UInt16) (count : Nat) (small : count ≤ 2) :
    Makes count (operandAt address count : Execution (Traced β) UInt16) := by
  match count, small with
  | 0, _ => exact pure _
  | 1, _ => exact (readByte _).bind fun _ => pure _
  | 2, _ => exact (readByte _).bind fun _ => (readByte _).bind fun _ => pure _

end Makes

variable [Bus β]

/-- A shift, a test or a change of bits; its byte has been read behind the opcode. -/
theorem charges_executeBit (instruction : BitInstruction) :
    Charges 2 (executeBit instruction : Execution (Traced β) Nat) := by
  cases instruction with
  | shift shift target =>
    refine (Makes.readOperand _).charges fun _ => (Makes.shiftOperand _ _).charges fun _ =>
      (Makes.writeOperand _ _).charges fun _ => .pure ?_
    cases target <;> rfl
  | test bit source =>
    refine (Makes.readOperand _).charges fun _ => (Makes.update _).charges fun _ => .pure ?_
    cases source <;> rfl
  | reset bit target | set bit target =>
    refine (Makes.readOperand _).charges fun _ => (Makes.writeOperand _ _).charges fun _ =>
      .pure ?_
    cases target <;> rfl

theorem chargedAt_perform (operand : UInt16) {instruction : Instruction}
    (other : instruction ≠ .stop ∧ instruction ≠ .halt)
    (decoded : instruction ≠ .load .memory .memory) (w : Wired (Traced β)) :
    ChargedAt (1 + instruction.operandBytes +
        instruction.internalCycles (instruction.branches w.cpu.registers))
      (perform operand instruction) w := by
  cases instruction with
  | stop => exact absurd rfl other.1
  | halt => exact absurd rfl other.2
  | extended => exact charges_executeBit _ w
  | load target source =>
    refine (Makes.readOperand _).charges (fun _ => (Makes.writeOperand _ _).charges fun _ =>
      .pure ?_) w
    cases target <;> cases source <;> first | rfl | exact absurd rfl decoded
  | loadImmediate target =>
    refine (Makes.writeOperand _ _).charges (fun _ => .pure ?_) w
    cases target <;> rfl
  | loadAccumulator source =>
    refine (Makes.locate _ _).charges (fun _ => (Makes.readByte _).charges fun _ =>
      (Makes.update _).charges fun _ => .pure ?_) w
    cases source <;> rfl
  | storeAccumulator target =>
    refine (Makes.locate _ _).charges (fun _ => Makes.registers.charges fun _ =>
      (Makes.writeByte _ _).charges fun _ => .pure ?_) w
    cases target <;> rfl
  | storeStackPointer =>
    exact Makes.registers.charges (fun _ => (Makes.writeByte _ _).charges fun _ =>
      (Makes.writeByte _ _).charges fun _ => .pure rfl) w
  | increment target | decrement target =>
    refine (Makes.readOperand _).charges (fun _ => (Makes.update _).charges fun _ =>
      (Makes.writeOperand _ _).charges fun _ => .pure ?_) w
    cases target <;> rfl
  | arithmetic operation source =>
    refine (Makes.readOperand _).charges (fun _ => (Makes.update _).charges fun _ => .pure ?_) w
    cases source <;> rfl
  | loadOffset | addOffset =>
    exact (Makes.addOffset _).charges (fun _ => (Makes.update _).charges fun _ => .pure rfl) w
  | rotateAccumulator shift =>
    exact Makes.registers.charges (fun _ => (Makes.shiftOperand _ _).charges fun _ =>
      (Makes.update _).charges fun _ => .pure rfl) w
  | jumpRelative condition | jump condition =>
    exact chargedAt_taken (fun branches => _ + if branches then 1 else 0) condition
      ((Makes.update _).charges fun _ => .pure rfl) (.pure rfl) w
  | call condition =>
    exact chargedAt_taken (fun branches => _ + if branches then 1 else 0) condition
      ((Makes.callTo _).charges fun _ => .pure rfl) (.pure rfl) w
  | returnIf condition =>
    exact chargedAt_taken (fun branches => _ + if branches then 2 else 1) (some condition)
      (Makes.popWord.charges fun _ => (Makes.update _).charges fun _ => .pure rfl) (.pure rfl) w
  | ret =>
    exact Makes.popWord.charges (fun _ => (Makes.update _).charges fun _ => .pure rfl) w
  | returnEnable =>
    exact Makes.popWord.charges (fun _ => (Makes.update _).charges fun _ =>
      (Makes.updateCpu _).charges fun _ => .pure rfl) w
  | restart slot => exact (Makes.callTo _).charges (fun _ => .pure rfl) w
  | push source =>
    exact Makes.registers.charges (fun _ => (Makes.pushWord _).charges fun _ => .pure rfl) w
  | pop target =>
    exact Makes.popWord.charges (fun _ => (Makes.update _).charges fun _ => .pure rfl) w
  | nop => exact Charges.pure rfl w
  | _ => exact (Makes.updateCpu _).charges (fun _ => .pure rfl) w

theorem run_executeHalt (w : Wired (Traced β)) :
    (executeHalt.run w).1 = 4 ∧
      (executeHalt.run w).2.bus.accesses =
        (Instruction.halt.polls w.cpu).reverse ++ w.bus.accesses := by
  unfold executeHalt
  simp only [run_bind, run_ite]
  split
  case isTrue enabled =>
    have none : Instruction.halt.polls w.cpu = [] := if_pos enabled
    rw [none]
    exact ⟨rfl, rfl⟩
  case isFalse disabled =>
    have both : Instruction.halt.polls w.cpu = [.read 0xFFFF, .read 0xFF0F] := if_neg disabled
    rw [both]
    split <;> exact ⟨rfl, rfl⟩

theorem run_perform (operand : UInt16) {instruction : Instruction}
    (decoded : instruction ≠ .load .memory .memory) (w : Wired (Traced β)) :
    ∃ made,
      ((perform operand instruction).run w).2.bus.accesses =
          (instruction.polls w.cpu).reverse ++ made ++ w.bus.accesses ∧
        ((perform operand instruction).run w).1 =
          if instruction = .stop then 4
          else 4 * (1 + instruction.operandBytes + made.length +
            instruction.internalCycles (instruction.branches w.cpu.registers)) := by
  by_cases stop : instruction = .stop
  · subst stop
    exact ⟨[], rfl, rfl⟩
  simp only [if_neg stop]
  by_cases halt : instruction = .halt
  · subst halt
    obtain ⟨cycles, accesses⟩ := run_executeHalt w
    refine ⟨[], ?_, cycles⟩
    rw [List.append_nil]
    exact accesses
  · obtain ⟨made, accesses, cycles⟩ := chargedAt_perform operand ⟨stop, halt⟩ decoded w
    refine ⟨made, ?_, ?_⟩
    · cases instruction with
      | halt => exact absurd rfl halt
      | _ => exact accesses
    · rw [cycles]
      omega

theorem run_executeAt (opcode operand : UInt16) (w : Wired (Traced β))
    {instruction : Instruction}
    (decoded : Instruction.decode (Bus.read opcode w.bus).1 = instruction) :
    ∃ made,
      ((executeAt opcode operand).run w).2.bus.accesses =
          (instruction.polls w.cpu).reverse ++ made ++ .read opcode :: w.bus.accesses ∧
        ((executeAt opcode operand).run w).1 =
          if instruction = .stop then 4
          else 4 * (made.length + 1 +
            instruction.internalCycles (instruction.branches w.cpu.registers)) := by
  have legal : instruction ≠ .load .memory .memory := decoded ▸ Instruction.decode_ne_load_memory _
  obtain ⟨bytes, count, read⟩ := Makes.operandAt operand instruction.operandBytes
    (operandBytes_le instruction) ((readByte opcode).run w).2
  have kept := cpu_operandAt operand instruction.operandBytes ((readByte opcode).run w).2
  simp only [executeAt, finishAt, setPC, run_bind, run_update, run_updateCpu, run_pure,
    run_readByte, decoded] at read kept ⊢
  generalize (operandAt operand instruction.operandBytes : Execution (Traced β) _).run _ = fetched
    at read kept ⊢
  obtain ⟨value, cpu, bus⟩ := fetched
  dsimp only at read kept ⊢
  subst kept
  let behind := operand + UInt16.ofNat instruction.operandBytes
  obtain ⟨data, accesses, cycles⟩ := run_perform value legal
    ⟨{ w.cpu with registers := { w.cpu.registers with pc := behind } }, bus⟩
  refine ⟨data ++ bytes, ?_, ?_⟩
  · rw [accesses, read]
    simp only [List.append_assoc]
    rfl
  · rw [cycles, instruction.branches_pc, List.length_append, count]
    split <;> omega

end
end Execution

open Execution

namespace Wired
variable {β : Type} [Bus β]

/-- The instruction that a step executes, if it executes one. -/
def instruction (w : Wired β) : Instruction := Instruction.decode w.fetched.1

def pollsBefore (w : Wired β) : List Access :=
  (if w.cpu.stopped then [.read 0xFF00] else []) ++ [.read 0xFFFF, .read 0xFF0F]

theorem accesses_pollAwake (w : Wired (Traced β)) :
    (pollAwake.run w).2.bus.accesses = [.read 0xFF0F, .read 0xFFFF] ++ w.bus.accesses := by
  simp only [pollAwake, run_bind, run_ite]
  split
  · rfl
  · cases (pendingInterrupts.run w).1.highest? <;> rfl

theorem accesses_poll (w : Wired (Traced β)) (executes : w.activity = .instruction) :
    (poll.run w).2.bus.accesses = w.pollsBefore.reverse ++ w.bus.accesses := by
  simp only [activity, poll, run_bind, run_ite] at executes ⊢
  split at executes
  case isTrue => cases executes
  case isFalse unlocked =>
    rw [if_neg unlocked]
    split at executes
    case isTrue stopped =>
      have before : w.pollsBefore = [.read 0xFF00, .read 0xFFFF, .read 0xFF0F] := by
        simp [pollsBefore, show w.cpu.stopped = true from stopped]
      rw [if_pos stopped, before]
      split at executes
      case isTrue => cases executes
      case isFalse awake =>
        rw [if_neg awake]
        exact accesses_pollAwake _
    case isFalse running =>
      have before : w.pollsBefore = [.read 0xFFFF, .read 0xFF0F] := by
        simp [pollsBefore, show ¬w.cpu.stopped = true from running]
      rw [if_neg running, before]
      exact accesses_pollAwake w

theorem step_idle_cycles (w : Wired β) (idles : w.activity = .idle) : w.step.1 = 4 := by
  rw [step_eq, show (poll.run w).1 = .idle from idles]
  rfl

theorem step_dispatch_cycles (w : Wired β) (source : Interrupt)
    (dispatches : w.activity = .dispatch source) : w.step.1 = 20 := by
  rw [step_eq, show (poll.run w).1 = .dispatch source from dispatches]
  rfl

/-- An instruction on a bus that keeps a record. -/
theorem step_instruction_cycles (w : Wired (Traced β)) (executes : w.activity = .instruction) :
    ∃ made,
      w.step.2.bus.accesses =
          (w.instruction.polls w.cpu).reverse ++ made ++
            .read w.cpu.registers.pc :: (w.pollsBefore.reverse ++ w.bus.accesses) ∧
        w.step.1 =
          if w.instruction = .stop then 4
          else 4 * (made.length + 1 +
            w.instruction.internalCycles (w.instruction.branches w.cpu.registers)) := by
  rw [step_instruction w executes, ← accesses_poll w executes]
  exact run_executeAt _ _ ⟨{ w.cpu with halted := false, stopped := false, haltBug := false },
    (poll.run w).2.bus⟩ rfl

/-- An instruction on any bus; the record starts empty. -/
theorem step_recorded (w : Wired β) (executes : w.activity = .instruction) :
    ∃ made,
      w.accesses.reverse =
          (w.instruction.polls w.cpu).reverse ++ made ++
            .read w.cpu.registers.pc :: w.pollsBefore.reverse ∧
        w.step.1 =
          if w.instruction = .stop then 4
          else 4 * (made.length + 1 +
            w.instruction.internalCycles (w.instruction.branches w.cpu.registers)) := by
  let recorded : Wired (Traced β) := ⟨w.cpu, ⟨w.bus, []⟩⟩
  have sim := Traced.simulation_follows w.bus
  have wired : Wiring (Traced.Follows w.bus) recorded w := ⟨rfl, rfl, rfl⟩
  obtain ⟨activity, _, bus, _⟩ := related_poll sim recorded w wired
  have cycles := (related_step sim recorded w wired).1
  have instruction : recorded.instruction = w.instruction := by
    change Instruction.decode (Bus.read _ (poll.run recorded).2.bus.bus).1 = _
    rw [bus]
    rfl
  have spent := recorded.step_instruction_cycles (activity.trans executes)
  rw [instruction, List.append_nil, show recorded.step.1 = w.step.1 from cycles] at spent
  unfold accesses Execution.accesses
  rw [List.reverse_reverse]
  exact spent

theorem four_dvd_step (w : Wired β) : 4 ∣ w.step.1 := by
  cases activity : w.activity with
  | idle =>
    have spent := w.step_idle_cycles activity
    omega
  | dispatch source =>
    have spent := w.step_dispatch_cycles source activity
    omega
  | instruction =>
    obtain ⟨made, _, cycles⟩ := w.step_recorded activity
    rw [cycles]
    split
    · exact Nat.dvd_refl 4
    · exact Nat.dvd_mul_right 4 _

/-- What a step is spent on. A dispatch takes five machine cycles and an idle slice takes one. An
instruction takes one for each access that it makes, the polls apart, and one for each internal
cycle; only STOP is shorter by the byte that it skips. -/
theorem step_cycles (w : Wired β) :
    (match w.activity with
      | .idle => w.step.1 = 4 ∧ (w.cpu.locked = true ∨ w.cpu.stopped = true ∨ w.cpu.halted = true)
      | .dispatch _ => w.step.1 = 20
      | .instruction => ∃ made,
          w.accesses = w.pollsBefore ++ made ++ w.instruction.polls w.cpu ∧
            made.head? = some (.read w.cpu.registers.pc) ∧
            w.step.1 =
              if w.instruction = .stop then 4
              else 4 * (made.length +
                w.instruction.internalCycles (w.instruction.branches w.cpu.registers))) ∧
      4 ∣ w.step.1 ∧ 4 ≤ w.step.1 ∧ w.step.1 ≤ 24 := by
  refine ⟨?_, w.four_dvd_step, w.cost_step⟩
  cases activity : w.activity with
  | idle => exact ⟨w.step_idle_cycles activity, (w.step_idle activity).2⟩
  | dispatch source => exact w.step_dispatch_cycles source activity
  | instruction =>
    obtain ⟨made, accesses, cycles⟩ := w.step_recorded activity
    refine ⟨.read w.cpu.registers.pc :: made.reverse, ?_, rfl, ?_⟩
    · rw [List.reverse_eq_iff.mp accesses]
      simp
    · rw [cycles, List.length_cons, List.length_reverse]

end Wired
end DotMatrix
