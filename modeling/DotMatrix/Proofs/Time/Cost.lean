import DotMatrix.Proofs.Cpu.Simulation
import DotMatrix.Console.Basic

/-! What a step of the processor costs: it names its cycles and leaves it to others to let them
pass. -/
namespace DotMatrix
namespace Execution
section
variable {β α δ : Type}

def Gives (p : α → Prop) (m : Execution β α) : Prop := ∀ w, p (m.run w).1

namespace Gives
variable {p : α → Prop}

theorem pure {a : α} (h : p a) : Gives p (pure a : Execution β α) := fun _ => h

theorem bind {m : Execution β δ} {f : δ → Execution β α} (rest : ∀ a, Gives p (f a)) :
    Gives p (m >>= f) :=
  fun w => rest _ (m.run w).2

theorem andThen {m : Execution β α} (first : Gives p m) (rest : Execution β Unit) :
    Gives p (do let a ← m; rest; return a) :=
  first

theorem branch {c : Prop} [Decidable c] {m n : Execution β α} (yes : Gives p m)
    (no : Gives p n) : Gives p (if c then m else n) := by
  split
  · exact yes
  · exact no

end Gives
end

def Cost (cycles : Nat) : Prop := 4 ≤ cycles ∧ cycles ≤ 24

instance : DecidablePred Cost := fun _ => inferInstanceAs (Decidable (_ ∧ _))

theorem cost_operand (operand : Operand) {inMemory inRegister : Nat} (memory : Cost inMemory)
    (register : Cost inRegister) : Cost (operand.cost inMemory inRegister) := by
  cases operand
  · exact register
  · exact memory

theorem cost_transfer (location : Location) : Cost (perform.transferCycles location) := by
  cases location <;> decide

variable {β : Type} [Bus β]

theorem gives_executeBit (instruction : BitInstruction) :
    Gives Cost (executeBit instruction : Execution β Nat) := by
  cases instruction with
  | shift shift target =>
    apply Gives.bind
    intro value
    apply Gives.bind
    intro result
    apply Gives.bind
    intro _
    exact .pure (cost_operand target (by decide) (by decide))
  | test bit target | reset bit target | set bit target =>
    apply Gives.bind
    intro value
    apply Gives.bind
    intro _
    exact .pure (cost_operand target (by decide) (by decide))

theorem gives_executeHalt : Gives Cost (executeHalt : Execution β Nat) := by
  have rest (change : Cpu → Cpu) : Gives Cost (do updateCpu change; return 4 : Execution β Nat) :=
    .bind fun _ => .pure (by decide)
  apply Gives.bind
  intro cpu
  apply Gives.branch (rest _)
  apply Gives.bind
  intro pending
  exact .branch (rest _) (rest _)

theorem gives_perform (operand : UInt16) (instruction : Instruction) :
    Gives Cost (perform operand instruction : Execution β Nat) := by
  cases instruction with
  | extended => exact gives_executeBit _
  | halt => exact gives_executeHalt
  | load target source =>
    intro _
    exact cost_operand target (by decide) (cost_operand source (by decide) (by decide))
  | loadImmediate place | increment place | decrement place | arithmetic _ place =>
    intro _
    exact cost_operand place (by decide) (by decide)
  | loadAccumulator location | storeAccumulator location =>
    intro _
    exact cost_transfer location
  | jumpRelative | jump | call =>
    apply Gives.bind
    intro taken
    exact .branch (.bind fun _ => .pure (by decide)) (.pure (by decide))
  | returnIf =>
    apply Gives.bind
    intro taken
    exact .branch (.bind fun _ => .bind fun _ => .pure (by decide)) (.pure (by decide))
  | loadPair | loadOffset | pop => exact fun _ => (by decide : Cost 12)
  | loadStackPointer | incrementPair | decrementPair | addPair | arithmeticImmediate =>
    exact fun _ => (by decide : Cost 8)
  | addOffset | ret | returnEnable | restart | push => exact fun _ => (by decide : Cost 16)
  | storeStackPointer => exact fun _ => (by decide : Cost 20)
  | _ => exact fun _ => (by decide : Cost 4)

theorem gives_dispatch (source : Interrupt) :
    Gives Cost (dispatch source : Execution β Nat) := by
  -- Nothing on the way to the handler decides on the cost.
  intro _
  exact (by decide : Cost dispatchCycles)

theorem gives_executeNext : Gives Cost (executeNext : Execution β Nat) := by
  apply Gives.bind
  intro opcode
  apply Gives.andThen
  apply Gives.bind
  intro operand
  exact gives_perform operand (Instruction.decode opcode)

theorem gives_step : Gives Cost (step : Execution β Nat) := by
  rw [step_eq]
  apply Gives.bind
  intro activity
  cases activity with
  | idle => exact .pure (by decide)
  | dispatch source => exact gives_dispatch source
  | instruction => exact gives_executeNext

end Execution

namespace LiveBoard

theorem write_eq (address : UInt16) (value : UInt8) (live : LiveBoard) :
    ∃ board sent, live.write address value = { live with board, sent } ∧
      board.cycles = live.board.cycles ∧ board.joypad.held = live.board.joypad.held := by
  unfold write
  cases Region.ofAddress address with
  | vram | oam =>
    dsimp only
    split <;> exact ⟨_, _, rfl, rfl, rfl⟩
  | oamTransfer =>
    unfold transfer
    exact ⟨_, _, rfl, rfl, rfl⟩
  | _ => exact ⟨_, _, rfl, rfl, rfl⟩

theorem cycles_write (address : UInt16) (value : UInt8) (live : LiveBoard) :
    (live.write address value).board.cycles = live.board.cycles := by
  obtain ⟨board, sent, written, cycles, -⟩ := write_eq address value live
  rw [written]
  exact cycles

end LiveBoard

namespace Wired

/-- A step takes at least four cycles, those of a processor that idles, and at most those of a
taken call. -/
theorem cost_step {β : Type} [Bus β] (w : Wired β) : Execution.Cost w.step.1 :=
  Execution.gives_step w

theorem cycles_step (m : Wired LiveBoard) : m.step.2.bus.board.cycles = m.bus.board.cycles :=
  @step_keeps LiveBoard _ (fun live => live.board.cycles = m.bus.board.cycles)
    (fun _ _ same => same)
    (fun address value live same => (live.cycles_write address value).trans same) m rfl

end Wired
end DotMatrix
