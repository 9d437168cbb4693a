import DotMatrix.Proofs.Cpu.Fetch

/-! What holds of everything that the processor does. All its computations are built from the same
few primitives, so that a property of computations that these have, and that sequences keep, is a
property of every instruction. -/
namespace DotMatrix
namespace Execution
variable {β : Type} [Bus β]

/-- A property that the primitives have and sequences keep. -/
structure Closed (P : (α : Type) → Execution β α → Prop) : Prop where
  pure : ∀ {α : Type} (a : α), P α (pure a)
  bind : ∀ {α δ : Type} {m : Execution β α} {f : α → Execution β δ},
    P α m → (∀ a, P δ (f a)) → P δ (m >>= f)
  processor : P Cpu processor
  updateCpu : ∀ change, P Unit (updateCpu change)
  readByte : ∀ address, P UInt8 (readByte address)
  writeByte : ∀ address value, P Unit (writeByte address value)

namespace Closed
variable {P : (α : Type) → Execution β α → Prop} (closed : Closed P)
include closed

theorem update (change : Registers → Registers) : P Unit (update change) := closed.updateCpu _

theorem withRegisters {α : Type} {f : Registers → Execution β α} (rest : ∀ r, P α (f r)) :
    P α (registers >>= f) := by
  have looked : P α (Execution.processor >>= fun cpu => f cpu.registers) :=
    closed.bind closed.processor fun cpu => rest cpu.registers
  exact looked

theorem andReturn {α δ : Type} {m : Execution β α} (first : P α m) (result : δ) :
    P δ (do let _ ← m; return result) :=
  closed.bind first fun _ => closed.pure _

theorem pushWord (word : UInt16) : P Unit (pushWord word) :=
  closed.bind (closed.update _) fun _ => closed.withRegisters fun _ =>
    closed.bind (closed.writeByte _ _) fun _ => closed.bind (closed.update _) fun _ =>
      closed.withRegisters fun _ => closed.writeByte _ _

theorem popWord : P UInt16 popWord :=
  closed.withRegisters fun _ => closed.bind (closed.readByte _) fun _ =>
    closed.bind (closed.readByte _) fun _ => closed.andReturn (closed.update _) _

theorem readOperand (operand : Operand) : P UInt8 (readOperand operand) := by
  cases operand with
  | register r => exact closed.withRegisters fun _ => closed.pure _
  | memory => exact closed.withRegisters fun _ => closed.readByte _

theorem writeOperand (operand : Operand) (value : UInt8) : P Unit (writeOperand operand value) := by
  cases operand with
  | register r => exact closed.update _
  | memory => exact closed.withRegisters fun _ => closed.writeByte _ _

theorem locate (operand : UInt16) (location : Location) : P UInt16 (locate operand location) := by
  cases location with
  | hlIncrement | hlDecrement =>
    exact closed.withRegisters fun _ => closed.andReturn (closed.update _) _
  | bc | de | pageC => exact closed.withRegisters fun _ => closed.pure _
  | page | immediate => exact closed.pure _

theorem pendingInterrupts : P InterruptSet pendingInterrupts :=
  closed.bind (closed.readByte _) fun _ => closed.bind (closed.readByte _) fun _ => closed.pure _

theorem callTo (address : UInt16) : P Unit (callTo address) :=
  closed.withRegisters fun _ => closed.bind (closed.pushWord _) fun _ => closed.update _

theorem addOffset (byte : UInt8) : P UInt16 (addOffset byte) :=
  closed.withRegisters fun _ => closed.andReturn (closed.update _) _

theorem shiftOperand (shift : Arithmetic.Shift) (value : UInt8) :
    P UInt8 (shiftOperand shift value) :=
  closed.withRegisters fun _ => closed.andReturn (closed.update _) _

theorem ifTaken {α : Type} (condition : Option Condition) {m n : Execution β α} (yes : P α m)
    (no : P α n) : P α (do if ← taken condition then m else n) := by
  have either (decided : Bool) : P α (if decided then m else n) := by
    cases decided with
    | true => exact yes
    | false => exact no
  cases condition with
  | none => exact closed.bind (closed.pure true) either
  | some condition => exact closed.bind (closed.withRegisters fun _ => closed.pure _) either

theorem executeBit (instruction : BitInstruction) : P Nat (executeBit instruction) := by
  cases instruction with
  | shift shift target =>
    exact closed.bind (closed.readOperand _) fun _ => closed.bind (closed.shiftOperand _ _)
      fun _ => closed.andReturn (closed.writeOperand _ _) _
  | test bit source =>
    exact closed.bind (closed.readOperand _) fun _ => closed.andReturn (closed.update _) _
  | reset bit target | set bit target =>
    exact closed.bind (closed.readOperand _) fun _ => closed.andReturn (closed.writeOperand _ _) _

theorem executeHalt : P Nat executeHalt := by
  have done (change : Cpu → Cpu) : P Nat (do Execution.updateCpu change; return 4) :=
    closed.andReturn (closed.updateCpu change) 4
  refine closed.bind closed.processor fun cpu => ?_
  split
  · exact done _
  · refine closed.bind closed.pendingInterrupts fun pending => ?_
    split
    · exact done _
    · exact done _

theorem perform (operand : UInt16) (instruction : Instruction) :
    P Nat (perform operand instruction) := by
  cases instruction with
  | nop => exact closed.pure _
  | halt => exact closed.executeHalt
  | extended => exact closed.executeBit _
  | load target source =>
    exact closed.bind (closed.readOperand _) fun _ => closed.andReturn (closed.writeOperand _ _) _
  | loadImmediate target => exact closed.andReturn (closed.writeOperand _ _) _
  | loadAccumulator source =>
    exact closed.bind (closed.locate _ _) fun _ => closed.bind (closed.readByte _) fun _ =>
      closed.andReturn (closed.update _) _
  | storeAccumulator target =>
    exact closed.bind (closed.locate _ _) fun _ => closed.withRegisters fun _ =>
      closed.andReturn (closed.writeByte _ _) _
  | storeStackPointer =>
    exact closed.withRegisters fun _ => closed.bind (closed.writeByte _ _) fun _ =>
      closed.andReturn (closed.writeByte _ _) _
  | loadOffset | addOffset =>
    exact closed.bind (closed.addOffset _) fun _ => closed.andReturn (closed.update _) _
  | increment target | decrement target =>
    exact closed.bind (closed.readOperand _) fun _ => closed.bind (closed.update _) fun _ =>
      closed.andReturn (closed.writeOperand _ _) _
  | rotateAccumulator shift =>
    exact closed.withRegisters fun _ => closed.bind (closed.shiftOperand _ _) fun _ =>
      closed.andReturn (closed.update _) _
  | arithmetic operation source =>
    exact closed.bind (closed.readOperand _) fun _ => closed.andReturn (closed.update _) _
  | jumpRelative condition | jump condition =>
    exact closed.ifTaken condition (closed.andReturn (closed.update _) _) (closed.pure _)
  | call condition =>
    exact closed.ifTaken condition (closed.andReturn (closed.callTo _) _) (closed.pure _)
  | ret => exact closed.bind closed.popWord fun _ => closed.andReturn (closed.update _) _
  | returnIf condition =>
    exact closed.ifTaken (some condition)
      (closed.bind closed.popWord fun _ => closed.andReturn (closed.update _) _) (closed.pure _)
  | returnEnable =>
    exact closed.bind closed.popWord fun _ => closed.bind (closed.update _) fun _ =>
      closed.andReturn (closed.updateCpu _) _
  | restart slot => exact closed.andReturn (closed.callTo _) _
  | push source => exact closed.withRegisters fun _ => closed.andReturn (closed.pushWord _) _
  | pop target => exact closed.bind closed.popWord fun _ => closed.andReturn (closed.update _) _
  | stop | disableInterrupts | enableInterrupts | undefined | loadPair | loadStackPointer
  | incrementPair | decrementPair | addPair | decimalAdjust | complement | setCarry
  | complementCarry | arithmeticImmediate | jumpPair =>
    exact closed.andReturn (closed.updateCpu _) _

theorem operandAt (address : UInt16) (count : Nat) : P UInt16 (operandAt address count) := by
  match count with
  | 0 => exact closed.pure _
  | 1 => exact closed.bind (closed.readByte _) fun _ => closed.pure _
  | _ + 2 =>
    exact closed.bind (closed.readByte _) fun _ => closed.bind (closed.readByte _) fun _ =>
      closed.pure _

theorem complete (behind : UInt16) (operand : UInt16) (instruction : Instruction) :
    P Nat (do
      setPC behind
      let cycles ← Execution.perform operand instruction
      Execution.updateCpu Cpu.countEnableDelay
      return cycles) :=
  closed.bind (closed.update _) fun _ => closed.bind (closed.perform _ _) fun _ =>
    closed.andReturn (closed.updateCpu _) _

theorem finishAt (operand : UInt16) (opcode : UInt8) : P Nat (finishAt operand opcode) :=
  closed.bind (closed.operandAt _ _) fun _ => closed.complete _ _ _

end Closed
end Execution
end DotMatrix
