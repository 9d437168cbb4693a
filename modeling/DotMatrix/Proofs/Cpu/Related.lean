import DotMatrix.Cpu.Step

/-! Two computations run side by side. A relation between two wired processors that agrees on
the registers and survives register changes and bus accesses survives every ordinary
instruction. -/
namespace DotMatrix
namespace Execution
variable {α δ β γ : Type}

@[simp] theorem run_pure (a : α) (w : Wired β) : (pure a : Execution β α).run w = (a, w) := rfl

@[simp] theorem run_bind (m : Execution β α) (f : α → Execution β δ) (w : Wired β) :
    (m >>= f).run w = (f (m.run w).1).run (m.run w).2 := rfl

@[simp] theorem run_ite (c : Prop) [Decidable c] (m n : Execution β α) (w : Wired β) :
    (if c then m else n).run w = if c then m.run w else n.run w := by
  split <;> rfl

@[simp] theorem run_processor (w : Wired β) : (processor : Execution β Cpu).run w = (w.cpu, w) :=
  rfl

@[simp] theorem run_registers (w : Wired β) :
    (registers : Execution β Registers).run w = (w.cpu.registers, w) := rfl

@[simp] theorem run_updateCpu (change : Cpu → Cpu) (w : Wired β) :
    (updateCpu change).run w = ((), { w with cpu := change w.cpu }) := rfl

@[simp] theorem run_update (change : Registers → Registers) (w : Wired β) :
    (update change).run w =
      ((), { w with cpu := { w.cpu with registers := change w.cpu.registers } }) := rfl

@[simp] theorem run_readByte [Bus β] (address : UInt16) (w : Wired β) :
    (readByte address).run w =
      ((Bus.read address w.bus).1, { w with bus := (Bus.read address w.bus).2 }) := rfl

@[simp] theorem run_writeByte [Bus β] (address : UInt16) (value : UInt8) (w : Wired β) :
    (writeByte address value).run w = ((), { w with bus := Bus.write address value w.bus }) := rfl

/-- Started in related states, both give the same value and end in related states. -/
def Related (rel : Wired β → Wired γ → Prop) (m : Execution β α) (m' : Execution γ α) : Prop :=
  ∀ w w', rel w w' → (m.run w).1 = (m'.run w').1 ∧ rel (m.run w).2 (m'.run w').2

namespace Related
variable {rel : Wired β → Wired γ → Prop}

theorem pure (a : α) : Related rel (pure a) (pure a) := fun _ _ h => ⟨rfl, h⟩

theorem bind {m : Execution β α} {m' : Execution γ α} {f : α → Execution β δ}
    {f' : α → Execution γ δ} (first : Related rel m m') (rest : ∀ a, Related rel (f a) (f' a)) :
    Related rel (m >>= f) (m' >>= f') := by
  intro w w' h
  obtain ⟨same, next⟩ := first w w' h
  simp only [run_bind, same]
  exact rest _ _ _ next

theorem branch {c : Prop} [Decidable c] {m n : Execution β α} {m' n' : Execution γ α}
    (yes : Related rel m m') (no : Related rel n n') :
    Related rel (if c then m else n) (if c then m' else n') := by
  split
  · exact yes
  · exact no

end Related

/-- What register changes and bus accesses need of a relation. -/
structure Frame [Bus β] [Bus γ] (rel : Wired β → Wired γ → Prop) : Prop where
  registers : ∀ w w', rel w w' → w.cpu.registers = w'.cpu.registers
  update : ∀ change, Related rel (update change) (update change)
  readByte : ∀ address, Related rel (readByte address) (readByte address)
  writeByte : ∀ address value, Related rel (writeByte address value) (writeByte address value)

namespace Frame
variable [Bus β] [Bus γ] {rel : Wired β → Wired γ → Prop}

theorem readRegisters (frame : Frame rel) :
    Related rel Execution.registers Execution.registers :=
  fun w w' h => ⟨frame.registers w w' h, h⟩

theorem withRegisters (frame : Frame rel) {f : Registers → Execution β α}
    {f' : Registers → Execution γ α} (rest : ∀ r, Related rel (f r) (f' r)) :
    Related rel (Execution.registers >>= f) (Execution.registers >>= f') :=
  frame.readRegisters.bind rest

theorem pushWord (frame : Frame rel) (word : UInt16) :
    Related rel (pushWord word) (pushWord word) :=
  (frame.update _).bind fun _ => frame.withRegisters fun _ => (frame.writeByte _ _).bind fun _ =>
    (frame.update _).bind fun _ => frame.withRegisters fun _ => frame.writeByte _ _

theorem popWord (frame : Frame rel) : Related rel popWord popWord :=
  frame.withRegisters fun _ => (frame.readByte _).bind fun _ => (frame.readByte _).bind fun _ =>
    (frame.update _).bind fun _ => .pure _

theorem readOperand (frame : Frame rel) (operand : Operand) :
    Related rel (readOperand operand) (readOperand operand) := by
  cases operand with
  | register r => exact frame.withRegisters fun _ => .pure _
  | memory => exact frame.withRegisters fun _ => frame.readByte _

theorem writeOperand (frame : Frame rel) (operand : Operand) (value : UInt8) :
    Related rel (writeOperand operand value) (writeOperand operand value) := by
  cases operand with
  | register r => exact frame.update _
  | memory => exact frame.withRegisters fun _ => frame.writeByte _ _

theorem locate (frame : Frame rel) (operand : UInt16) (location : Location) :
    Related rel (locate operand location) (locate operand location) := by
  cases location with
  | hlIncrement | hlDecrement =>
    exact frame.withRegisters fun _ => (frame.update _).bind fun _ => .pure _
  | bc | de | pageC => exact frame.withRegisters fun _ => .pure _
  | page | immediate => exact .pure _

theorem pendingInterrupts (frame : Frame rel) :
    Related rel pendingInterrupts pendingInterrupts :=
  (frame.readByte _).bind fun _ => (frame.readByte _).bind fun _ => .pure _

theorem taken (frame : Frame rel) (condition : Option Condition) :
    Related rel (taken condition) (taken condition) := by
  cases condition with
  | none => exact .pure _
  | some condition => exact frame.withRegisters fun _ => .pure _

theorem callTo (frame : Frame rel) (address : UInt16) :
    Related rel (callTo address) (callTo address) :=
  frame.withRegisters fun _ => (frame.pushWord _).bind fun _ => frame.update _

theorem addOffset (frame : Frame rel) (byte : UInt8) :
    Related rel (addOffset byte) (addOffset byte) :=
  frame.withRegisters fun _ => (frame.update _).bind fun _ => .pure _

theorem shiftOperand (frame : Frame rel) (shift : Arithmetic.Shift) (value : UInt8) :
    Related rel (shiftOperand shift value) (shiftOperand shift value) :=
  frame.withRegisters fun _ => (frame.update _).bind fun _ => .pure _

theorem executeBit (frame : Frame rel) (instruction : BitInstruction) :
    Related rel (executeBit instruction) (executeBit instruction) := by
  cases instruction with
  | shift shift target =>
    exact (frame.readOperand _).bind fun _ => (frame.shiftOperand _ _).bind fun _ =>
      (frame.writeOperand _ _).bind fun _ => .pure _
  | test bit source =>
    exact (frame.readOperand _).bind fun _ => (frame.update _).bind fun _ => .pure _
  | reset bit target | set bit target =>
    exact (frame.readOperand _).bind fun _ => (frame.writeOperand _ _).bind fun _ => .pure _

end Frame

def controls : Instruction → Bool
  | .stop | .halt | .disableInterrupts | .enableInterrupts | .returnEnable | .undefined => true
  | _ => false

theorem Frame.perform [Bus β] [Bus γ] {rel : Wired β → Wired γ → Prop} (frame : Frame rel)
    (operand : UInt16) (instruction : Instruction) (ordinary : controls instruction = false) :
    Related rel (perform operand instruction) (perform operand instruction) := by
  cases instruction with
  | nop => exact .pure _
  | stop | halt | disableInterrupts | enableInterrupts | returnEnable | undefined =>
    cases ordinary
  | extended => exact frame.executeBit _
  | load target source =>
    exact (frame.readOperand _).bind fun _ => (frame.writeOperand _ _).bind fun _ => .pure _
  | loadImmediate target => exact (frame.writeOperand _ _).bind fun _ => .pure _
  | loadAccumulator source =>
    exact (frame.locate _ _).bind fun _ => (frame.readByte _).bind fun _ =>
      (frame.update _).bind fun _ => .pure _
  | storeAccumulator target =>
    exact (frame.locate _ _).bind fun _ => frame.withRegisters fun _ =>
      (frame.writeByte _ _).bind fun _ => .pure _
  | storeStackPointer =>
    exact frame.withRegisters fun _ => (frame.writeByte _ _).bind fun _ =>
      (frame.writeByte _ _).bind fun _ => .pure _
  | loadOffset | addOffset =>
    exact (frame.addOffset _).bind fun _ => (frame.update _).bind fun _ => .pure _
  | increment target | decrement target =>
    exact (frame.readOperand _).bind fun _ => (frame.update _).bind fun _ =>
      (frame.writeOperand _ _).bind fun _ => .pure _
  | rotateAccumulator shift =>
    exact frame.withRegisters fun _ => (frame.shiftOperand _ _).bind fun _ =>
      (frame.update _).bind fun _ => .pure _
  | arithmetic operation source =>
    exact (frame.readOperand _).bind fun _ => (frame.update _).bind fun _ => .pure _
  | jumpRelative condition | jump condition =>
    exact (frame.taken _).bind fun _ =>
      .branch ((frame.update _).bind fun _ => .pure _) (.pure _)
  | call condition =>
    exact (frame.taken _).bind fun _ =>
      .branch ((frame.callTo _).bind fun _ => .pure _) (.pure _)
  | ret => exact frame.popWord.bind fun _ => (frame.update _).bind fun _ => .pure _
  | returnIf condition =>
    exact (frame.taken _).bind fun _ => .branch
      (frame.popWord.bind fun _ => (frame.update _).bind fun _ => .pure _) (.pure _)
  | restart slot => exact (frame.callTo _).bind fun _ => .pure _
  | push source =>
    exact frame.withRegisters fun _ => (frame.pushWord _).bind fun _ => .pure _
  | pop target => exact frame.popWord.bind fun _ => (frame.update _).bind fun _ => .pure _
  | loadPair | loadStackPointer | incrementPair | decrementPair | addPair | decimalAdjust
  | complement | setCarry | complementCarry | arithmeticImmediate | jumpPair =>
    exact (frame.update _).bind fun _ => .pure _

end Execution
end DotMatrix
