import DotMatrix.Memory
import DotMatrix.Proofs.Cpu.Closed
import DotMatrix.Proofs.Cpu.MachineCycles

/-! What the HALT bug does to one instruction. The byte at PC is read twice: the instruction is
the one that would be executed from the address before PC, had that byte stood there as well. -/
namespace DotMatrix

def Access.address : Access → UInt16
  | .read address => address
  | .write address _ => address

namespace FlatMemory
variable (memory : FlatMemory) (hole : UInt16) (filler : UInt8)

theorem read_write (address : UInt16) :
    (Bus.read address (Bus.write hole filler memory)).1 =
      if address = hole then filler else (Bus.read address memory).1 := by
  refine (Memory.read_write memory hole.toNat address.toNat filler (by decide)).trans ?_
  simp only [Nat.mod_eq_of_lt address.toNat_lt, Nat.mod_eq_of_lt hole.toNat_lt, UInt16.toNat_inj]
  rfl

theorem write_comm {address : UInt16} (apart : address ≠ hole) (value : UInt8) :
    Bus.write address value (Bus.write hole filler memory) =
      Bus.write hole filler (Bus.write address value memory) := by
  have apart : hole.toNat % 65536 ≠ address.toNat % 65536 := by
    rw [Nat.mod_eq_of_lt address.toNat_lt, Nat.mod_eq_of_lt hole.toNat_lt]
    exact fun same => apart (UInt16.toNat_inj.mp same.symm)
  exact Vector.toArray_inj.mp (Array.setIfInBounds_comm _ _ apart)

end FlatMemory

namespace Execution
variable {α δ : Type} {hole : UInt16} {filler : UInt8}

def filled (hole : UInt16) (filler : UInt8) (w : Wired (Traced FlatMemory))
    (record : List Access) : Wired (Traced FlatMemory) :=
  ⟨w.cpu, ⟨Bus.write hole filler w.bus.bus, record⟩⟩

/-- A computation that does not come to a place does the same whatever stands there. -/
def Overlooks (hole : UInt16) (filler : UInt8) (α : Type)
    (m : Execution (Traced FlatMemory) α) : Prop :=
  ∀ w record, ∃ made, (m.run w).2.bus.accesses = made ++ w.bus.accesses ∧
    ((∀ access ∈ made, access.address ≠ hole) →
      m.run (filled hole filler w record) =
        ((m.run w).1, filled hole filler (m.run w).2 (made ++ record)))

theorem closed_overlooks : Closed (Overlooks hole filler) where
  pure _ _ _ := ⟨[], rfl, fun _ => rfl⟩
  bind {_ _ m _} first rest := by
    intro w record
    obtain ⟨before, made, same⟩ := first w record
    obtain ⟨after, madeAfter, sameAfter⟩ := rest (m.run w).1 (m.run w).2 (before ++ record)
    refine ⟨after ++ before, ?_, ?_⟩
    · rw [run_bind, madeAfter, made, List.append_assoc]
    · intro apart
      rw [List.forall_mem_append] at apart
      rw [run_bind, run_bind, same apart.2, sameAfter apart.1, List.append_assoc]
  processor _ _ := ⟨[], rfl, fun _ => rfl⟩
  updateCpu _ _ _ := ⟨[], rfl, fun _ => rfl⟩
  readByte address w record := by
    refine ⟨[.read address], rfl, fun apart => ?_⟩
    have elsewhere : address ≠ hole := apart _ (List.mem_singleton.mpr rfl)
    have answer := FlatMemory.read_write w.bus.bus hole filler address
    rw [if_neg elsewhere] at answer
    exact Prod.ext answer rfl
  writeByte address value w record := by
    refine ⟨[.write address value], rfl, fun apart => ?_⟩
    have elsewhere : address ≠ hole := apart _ (List.mem_singleton.mpr rfl)
    have commute := FlatMemory.write_comm w.bus.bus hole filler elsewhere value
    exact congrArg (fun memory => ((), Wired.mk w.cpu (Traced.mk memory _))) commute

end Execution

structure Cpu.Awake (cpu : Cpu) : Prop where
  unlocked : cpu.locked = false
  unstopped : cpu.stopped = false
  unhalted : cpu.halted = false

namespace Execution

def decided (enabled : Bool) (pending : InterruptSet) : Activity :=
  match pending.highest? with
  | some source => if enabled then .dispatch source else .instruction
  | none => .instruction

theorem run_poll_awake {β : Type} [Bus β] (w : Wired β) (awake : w.cpu.Awake) :
    poll.run w =
      (decided w.cpu.interruptsEnabled (pendingInterrupts.run w).1,
        (pendingInterrupts.run w).2) := by
  obtain ⟨unlocked, unstopped, unhalted⟩ := awake
  have same : { w.cpu with halted := false } = w.cpu := by rw [← unhalted]
  have kept := cpu_pendingInterrupts w
  simp only [poll, pollAwake, run_bind, run_processor, unlocked, unstopped, kept, unhalted,
    Bool.false_eq_true, Bool.false_and, if_false, decided]
  cases (pendingInterrupts.run w).1.highest? with
  | none =>
    simp only [run_updateCpu, run_pure, kept, same]
    rfl
  | some source =>
    simp only [run_updateCpu, run_pure, kept, same]
    rfl

/-- A word goes to the stack, its high byte first. -/
def pushes (sp word : UInt16) : List Access :=
  [.write (sp - 1) (Word.high word), .write (sp - 2) (Word.low word)]

section
variable {β : Type} [Bus β] (operand : UInt16) {opcode : UInt8} (w : Wired (Traced β))

theorem accesses_callTo (address : UInt16) :
    ((callTo address).run w).2.bus.accesses =
      (pushes w.cpu.registers.sp w.cpu.registers.pc).reverse ++ w.bus.accesses := by
  have twice : w.cpu.registers.sp - 1 - 1 = w.cpu.registers.sp - 2 := by
    grind
  simp only [pushes, ← twice]
  rfl

/-- A subroutine at a fixed place is entered; the return address is that of the operand which the
instruction does not have. -/
theorem accesses_finishAt_restart {slot : Fin 8}
    (restart : Instruction.decode opcode = .restart slot) :
    ((finishAt operand opcode).run w).2.bus.accesses =
      (pushes w.cpu.registers.sp operand).reverse ++ w.bus.accesses := by
  have stays : operand + UInt16.ofNat 0 = operand := by simp
  simp only [finishAt, restart, perform, Instruction.operandBytes, operandAt, stays, run_bind,
    run_pure, run_updateCpu, accesses_callTo, setPC, run_update]

theorem accesses_finishAt_call {condition : Option Condition}
    (call : Instruction.decode opcode = .call condition)
    (holds : condition.all (·.holds w.cpu.registers) = true) :
    ((finishAt operand opcode).run w).2.bus.accesses =
      (pushes w.cpu.registers.sp (operand + 2)).reverse ++
        [.read (operand + 1), .read operand] ++ w.bus.accesses := by
  let behind : Wired (Traced β) :=
    { (((operandAt operand 2).run w).2) with
      cpu := { w.cpu with registers := { w.cpu.registers with pc := operand + 2 } } }
  have still : condition.all (·.holds behind.cpu.registers) = true := by
    cases condition <;> exact holds
  have performed (address : UInt16) :
      ((perform address (.call condition)).run behind).2.bus.accesses =
        (pushes w.cpu.registers.sp (operand + 2)).reverse ++ behind.bus.accesses := by
    rw [perform, run_taken, if_pos still]
    exact accesses_callTo behind address
  simp only [finishAt, call, run_bind, setPC, run_update, run_updateCpu, run_pure]
  exact performed _

theorem pc_finishAt_jumpRelative {condition : Option Condition}
    (jump : Instruction.decode opcode = .jumpRelative condition)
    (holds : condition.all (·.holds w.cpu.registers) = true) :
    ((finishAt operand opcode).run w).2.cpu.registers.pc =
      operand + 1 + Word.signed (Bus.read operand w.bus).1 := by
  let behind : Wired (Traced β) :=
    { (((operandAt operand 1).run w).2) with
      cpu := { w.cpu with registers := { w.cpu.registers with pc := operand + 1 } } }
  have still : condition.all (·.holds behind.cpu.registers) = true := by
    cases condition <;> exact holds
  have performed (offset : UInt16) :
      ((perform offset (.jumpRelative condition)).run behind).2.cpu.registers.pc =
        operand + 1 + Word.signed (Word.low offset) := by
    rw [perform, run_taken, if_pos still]
    rfl
  have counted (cpu : Cpu) : cpu.countEnableDelay.registers = cpu.registers := by
    unfold Cpu.countEnableDelay
    split <;> rfl
  have byte : Word.low (Bus.read operand w.bus).1.toUInt16 = (Bus.read operand w.bus).1 :=
    UInt8.toUInt8_toUInt16 _
  simp only [finishAt, jump, run_bind, setPC, run_update, run_updateCpu, run_pure, counted]
  rw [← byte]
  exact performed _

theorem accesses_finishAt_operand (operand : UInt16) {opcode : UInt8}
    (has : 0 < (Instruction.decode opcode).operandBytes) (w : Wired (Traced FlatMemory)) :
    ∃ made, ((finishAt operand opcode).run w).2.bus.accesses =
      made ++ .read operand :: w.bus.accesses := by
  -- Which byte is overlooked does not matter: the record only grows in any case.
  have closed : Closed (Overlooks 0 0) := closed_overlooks
  obtain ⟨bytes, read⟩ : ∃ bytes,
      ((operandAt operand (Instruction.decode opcode).operandBytes).run w).2.bus.accesses =
        bytes ++ .read operand :: w.bus.accesses := by
    match (Instruction.decode opcode).operandBytes, has with
    | 1, _ => exact ⟨[], rfl⟩
    | _ + 2, _ => exact ⟨[_], rfl⟩
  obtain ⟨made, accesses, _⟩ := closed.complete
    (operand + UInt16.ofNat (Instruction.decode opcode).operandBytes)
    ((operandAt operand (Instruction.decode opcode).operandBytes).run w).1
    (Instruction.decode opcode)
    ((operandAt operand (Instruction.decode opcode).operandBytes).run w).2 []
  refine ⟨made ++ bytes, ?_⟩
  rw [List.append_assoc, ← read]
  exact accesses

end
end Execution

open Execution

namespace Wired

section
variable {β : Type} [Bus β] (w : Wired β)

def recorded : Wired (Traced β) := ⟨w.cpu, ⟨w.bus, []⟩⟩

theorem activity_recorded : w.recorded.activity = w.activity :=
  (related_poll (Traced.simulation_follows w.bus) w.recorded w ⟨rfl, rfl, rfl⟩).1

theorem step_recorded_follows :
    w.recorded.step.1 = w.step.1 ∧ w.recorded.step.2.cpu = w.step.2.cpu ∧
      w.recorded.step.2.bus.bus = w.step.2.bus := by
  obtain ⟨cycles, wired⟩ :=
    related_step (Traced.simulation_follows w.bus) w.recorded w ⟨rfl, rfl, rfl⟩
  exact ⟨cycles, wired.1, wired.2.1⟩

theorem accesses_step_recorded : w.recorded.step.2.bus.accesses = w.accesses.reverse :=
  (List.reverse_reverse _).symm

end

def opening (pc : UInt16) : List Access := [.read 0xFFFF, .read 0xFF0F, .read pc]

variable (w : Wired FlatMemory)

def opened : Wired (Traced FlatMemory) :=
  ⟨{ w.cpu with haltBug := false }, ⟨w.bus, (opening w.cpu.registers.pc).reverse⟩⟩

def operandAddress : UInt16 :=
  if w.cpu.haltBug then w.cpu.registers.pc else w.cpu.registers.pc + 1

section
variable {w} (awake : w.cpu.Awake)
include awake

theorem step_opened (executes : w.activity = .instruction) :
    w.recorded.step =
      (finishAt w.operandAddress (Bus.read w.cpu.registers.pc w.bus).1).run w.opened := by
  have same : { w.cpu with halted := false, stopped := false, haltBug := false } =
      { w.cpu with haltBug := false } := by
    simp only [awake.unstopped, awake.unhalted]
  rw [step_instruction _ (w.activity_recorded.trans executes), run_poll_awake w.recorded awake]
  change (executeAt _ _).run ⟨{ w.cpu with halted := false, stopped := false, haltBug := false }, _⟩
    = _
  rw [same]
  rfl

theorem instruction_opened :
    w.instruction = Instruction.decode (Bus.read w.cpu.registers.pc w.bus).1 := by
  unfold instruction fetched
  rw [run_poll_awake w awake]
  rfl

theorem activity_instruction (undisturbed : ∀ source, w.activity ≠ .dispatch source) :
    w.activity = .instruction := by
  cases activity : w.activity with
  | idle =>
    obtain ⟨_, asleep⟩ := w.step_idle activity
    simp [awake.unlocked, awake.unstopped, awake.unhalted] at asleep
  | dispatch source => exact absurd activity (undisturbed source)
  | instruction => rfl

end

/-- The processor one address earlier and without the bug, on the memory in which the byte at PC
stands there as well. -/
def repeated : Wired FlatMemory :=
  let pc := w.cpu.registers.pc
  ⟨{ w.cpu with haltBug := false, registers := { w.cpu.registers with pc := pc - 1 } },
    Bus.write (pc - 1) (Bus.read pc w.bus).1 w.bus⟩

def straight : Wired FlatMemory := { w with cpu := { w.cpu with haltBug := false } }

structure CountsFrom (operand : UInt16) : Prop where
  reads : 0 < w.instruction.operandBytes →
    opening w.cpu.registers.pc ++ [.read operand] <+: w.accesses
  restart : ∀ slot, w.instruction = .restart slot →
    pushes w.cpu.registers.sp operand <:+ w.accesses
  call : ∀ condition, w.instruction = .call condition →
    condition.all (·.holds w.cpu.registers) = true →
      pushes w.cpu.registers.sp (operand + 2) <:+ w.accesses
  jumpRelative : ∀ condition, w.instruction = .jumpRelative condition →
    condition.all (·.holds w.cpu.registers) = true →
      w.step.2.cpu.registers.pc = operand + 1 + Word.signed (Bus.read operand w.bus).1

section
variable {w} (awake : w.cpu.Awake)
include awake

theorem countsFrom (executes : w.activity = .instruction) : w.CountsFrom w.operandAddress := by
  have started := step_opened awake executes
  have record := w.accesses_step_recorded
  rw [started] at record
  constructor
  case reads =>
    intro has
    rw [instruction_opened awake] at has
    obtain ⟨made, accesses⟩ := accesses_finishAt_operand w.operandAddress has w.opened
    refine ⟨made.reverse, ?_⟩
    rw [← List.reverse_inj, ← record, accesses]
    simp [opened]
  case restart =>
    intro slot restart
    rw [instruction_opened awake] at restart
    have accesses := accesses_finishAt_restart w.operandAddress w.opened restart
    refine ⟨opening w.cpu.registers.pc, ?_⟩
    rw [← List.reverse_inj, ← record, accesses, List.reverse_append]
    rfl
  case call =>
    intro condition call holds
    rw [instruction_opened awake] at call
    have accesses := accesses_finishAt_call w.operandAddress w.opened call holds
    refine ⟨opening w.cpu.registers.pc ++
      [.read w.operandAddress, .read (w.operandAddress + 1)], ?_⟩
    rw [← List.reverse_inj, ← record, accesses]
    simp [opened]
  case jumpRelative =>
    intro condition jump holds
    rw [instruction_opened awake] at jump
    rw [← w.step_recorded_follows.2.1, started]
    exact pc_finishAt_jumpRelative w.operandAddress w.opened jump holds

theorem activity_straight : w.straight.activity = w.activity := by
  have awakeToo : w.straight.cpu.Awake := ⟨awake.unlocked, awake.unstopped, awake.unhalted⟩
  unfold activity
  rw [run_poll_awake w awake, run_poll_awake w.straight awakeToo]
  rfl

theorem awake_repeated : w.repeated.cpu.Awake :=
  ⟨awake.unlocked, awake.unstopped, awake.unhalted⟩

theorem activity_repeated (enable : 0xFFFF ≠ w.cpu.registers.pc - 1)
    (request : 0xFF0F ≠ w.cpu.registers.pc - 1) : w.repeated.activity = w.activity := by
  have pending : (pendingInterrupts.run w.repeated).1 = (pendingInterrupts.run w).1 := by
    have enabled := FlatMemory.read_write w.bus (w.cpu.registers.pc - 1)
      (Bus.read w.cpu.registers.pc w.bus).1 0xFFFF
    have requested := FlatMemory.read_write w.bus (w.cpu.registers.pc - 1)
      (Bus.read w.cpu.registers.pc w.bus).1 0xFF0F
    rw [if_neg enable] at enabled
    rw [if_neg request] at requested
    exact congrArg₂ (fun enabled requested : UInt8 =>
      InterruptSet.mk (enabled &&& requested &&& InterruptSet.sources)) enabled requested
  unfold activity
  rw [run_poll_awake w.repeated (awake_repeated awake), run_poll_awake w awake, pending]
  rfl

omit awake in
theorem operandAddress_repeated : w.repeated.operandAddress = w.cpu.registers.pc :=
  UInt16.sub_add_cancel _ _

omit awake in
theorem opcode_repeated :
    (Bus.read w.repeated.cpu.registers.pc w.repeated.bus).1 =
      (Bus.read w.cpu.registers.pc w.bus).1 :=
  (FlatMemory.read_write _ _ _ _).trans (if_pos rfl)

/-- Behind the opcode both do the same, up to the byte that was put in. -/
theorem step_recorded_repeated (bug : w.cpu.haltBug = true) (executes : w.activity = .instruction)
    (apart : ∀ access ∈ w.accesses, access.address ≠ w.cpu.registers.pc - 1) :
    ∃ made,
      w.accesses = opening w.cpu.registers.pc ++ made.reverse ∧
      w.repeated.recorded.step =
        (w.recorded.step.1,
          filled (w.cpu.registers.pc - 1) (Bus.read w.cpu.registers.pc w.bus).1 w.recorded.step.2
            (made ++ (opening (w.cpu.registers.pc - 1)).reverse)) := by
  have started := step_opened awake executes
  rw [operandAddress, if_pos bug] at started
  obtain ⟨made, accesses, same⟩ := closed_overlooks.finishAt w.cpu.registers.pc
    (Bus.read w.cpu.registers.pc w.bus).1 w.opened (opening (w.cpu.registers.pc - 1)).reverse
  rw [← started] at accesses same
  have record : w.accesses = opening w.cpu.registers.pc ++ made.reverse := by
    rw [← List.reverse_inj, ← w.accesses_step_recorded, accesses, List.reverse_append,
      List.reverse_reverse]
    rfl
  have enable : 0xFFFF ≠ w.cpu.registers.pc - 1 :=
    apart (.read 0xFFFF) (by simp [record, opening])
  have request : 0xFF0F ≠ w.cpu.registers.pc - 1 :=
    apart (.read 0xFF0F) (by simp [record, opening])
  refine ⟨made, record, ?_⟩
  rw [← same fun access inside => apart access (by simp [record, inside]),
    step_opened (awake_repeated awake) ((activity_repeated awake enable request).trans executes),
    operandAddress_repeated, opcode_repeated]
  -- The two still differ in PC, which is put behind the operand before anything looks at it.
  exact run_finishAt_pc w.cpu.registers.pc (w.cpu.registers.pc - 1) _
    (Wired.mk { w.cpu with haltBug := false }
      (Traced.mk w.repeated.bus (opening (w.cpu.registers.pc - 1)).reverse))

end
end Wired

/-- The HALT bug is one repeated byte. The step costs, changes and stores what the step without
the bug does from the address before, had the byte at PC stood there as well: behind its opcode it
makes the same accesses. An operand therefore begins with the byte of the opcode, and return
addresses and relative jumps are one lower than without the bug. The address before is not one
that the instruction itself is read from, so that only its data and the polls are to be apart from
it. -/
theorem haltBug_repeats_byte (w : Wired FlatMemory) (bug : w.cpu.haltBug = true)
    (awake : w.cpu.Awake) (undisturbed : ∀ source, w.activity ≠ .dispatch source)
    (apart : ∀ access ∈ w.accesses, access.address ≠ w.cpu.registers.pc - 1) :
    let pc := w.cpu.registers.pc
    w.step.1 = w.repeated.step.1 ∧ w.step.2.cpu = w.repeated.step.2.cpu ∧
      Bus.write (pc - 1) (Bus.read pc w.bus).1 w.step.2.bus = w.repeated.step.2.bus ∧
      (∃ rest, w.accesses = Wired.opening pc ++ rest ∧
        w.repeated.accesses = Wired.opening (pc - 1) ++ rest) ∧
      w.CountsFrom pc ∧ w.straight.CountsFrom (pc + 1) := by
  intro pc
  have executes := Wired.activity_instruction awake undisturbed
  obtain ⟨made, accesses, same⟩ := Wired.step_recorded_repeated awake bug executes apart
  obtain ⟨cycles, cpu, bus⟩ := w.step_recorded_follows
  obtain ⟨cyclesToo, cpuToo, busToo⟩ := w.repeated.step_recorded_follows
  have record := w.repeated.accesses_step_recorded
  rw [same] at cyclesToo cpuToo busToo record
  refine ⟨cycles.symm.trans cyclesToo, cpu.symm.trans cpuToo, ?_, ⟨made.reverse, accesses, ?_⟩, ?_,
    Wired.countsFrom ⟨awake.unlocked, awake.unstopped, awake.unhalted⟩
      ((Wired.activity_straight awake).trans executes)⟩
  · rw [← busToo]
    exact congrArg _ bus.symm
  · rw [← List.reverse_inj, ← record, List.reverse_append, List.reverse_reverse]
    rfl
  · have counts := Wired.countsFrom awake executes
    rwa [Wired.operandAddress, if_pos bug] at counts

section
variable (memory : FlatMemory)

def Wired.bugged : Wired FlatMemory := ⟨{ Cpu.postBoot with haltBug := true }, memory⟩

theorem Wired.awake_bugged : (bugged memory).cpu.Awake := ⟨rfl, rfl, rfl⟩

theorem Wired.activity_bugged : (bugged memory).activity = .instruction := by
  unfold activity
  rw [run_poll_awake (bugged memory) (awake_bugged memory)]
  change decided false _ = _
  unfold decided
  split <;> rfl

theorem Wired.accesses_bugged (jump : (Bus.read 0x0100 memory).1 = 0x18) :
    (bugged memory).accesses = opening 0x0100 ++ [.read 0x0100] := by
  have started := step_opened (awake_bugged memory) (activity_bugged memory)
  rw [show (Bus.read (bugged memory).cpu.registers.pc (bugged memory).bus).1 = 0x18 from jump]
    at started
  rw [← List.reverse_inj, ← accesses_step_recorded, started]
  rfl

end

/-- A relative jump goes forward by its own opcode. -/
theorem haltBug_repeats_jump :
    let w := Wired.bugged (Bus.write 0x0100 0x18 (Memory.zeros : FlatMemory))
    w.cpu.haltBug = true ∧ w.cpu.Awake ∧ (∀ source, w.activity ≠ .dispatch source) ∧
      (∀ access ∈ w.accesses, access.address ≠ w.cpu.registers.pc - 1) ∧
        w.step.2.cpu = w.repeated.step.2.cpu ∧
          w.step.2.cpu.registers.pc = 0x0100 + 1 + 0x18 := by
  -- All that matters of the memory is the one byte; it must not be unfolded.
  generalize byte : Bus.write 0x0100 0x18 (Memory.zeros : FlatMemory) = memory
  intro w
  have jump : (Bus.read 0x0100 memory).1 = 0x18 := by
    rw [← byte]
    exact (FlatMemory.read_write _ _ _ _).trans (if_pos rfl)
  have awake := Wired.awake_bugged memory
  have undisturbed (source : Interrupt) : w.activity ≠ .dispatch source := by
    rw [Wired.activity_bugged memory]
    exact Activity.noConfusion
  have apart : ∀ access ∈ w.accesses, access.address ≠ w.cpu.registers.pc - 1 := by
    rw [Wired.accesses_bugged memory jump]
    change ∀ access ∈ Wired.opening 0x0100 ++ [.read 0x0100], access.address ≠ 0x0100 - 1
    decide
  have instruction : w.instruction = .jumpRelative none := by
    rw [Wired.instruction_opened awake]
    exact congrArg Instruction.decode jump
  obtain ⟨_, cpu, _, _, counts, _⟩ := haltBug_repeats_byte w rfl awake undisturbed apart
  refine ⟨rfl, awake, undisturbed, apart, cpu,
    (counts.jumpRelative none instruction rfl).trans ?_⟩
  rw [show (Bus.read w.cpu.registers.pc w.bus).1 = 0x18 from jump]
  rfl

end DotMatrix
