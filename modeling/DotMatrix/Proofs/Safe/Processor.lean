import DotMatrix.Proofs.Cpu.Fetch
import DotMatrix.Proofs.Safe.Board

/-! A step of the processor makes only accesses that its bus can answer, and what it computes with
the operands of the instruction fits the types that it is computed in. -/
namespace DotMatrix

namespace Arithmetic

structure SumSafe (a value : UInt8) (carry : Bool) : Prop where
  low : a.toNat % 16 + value.toNat % 16 + bit carry < 0x100
  whole : a.toNat + value.toNat + bit carry < 0x10000

structure DifferenceSafe (value : UInt8) (borrow : Bool) : Prop where
  low : value.toNat % 16 + bit borrow < 0x100
  whole : value.toNat + bit borrow < 0x10000

def Operation.Safe (operation : Operation) (a value : UInt8) (carry : Bool) : Prop :=
  match operation with
  | .add => SumSafe a value false
  | .adc => SumSafe a value carry
  | .sub | .cp => DifferenceSafe value false
  | .sbc => DifferenceSafe value carry
  | .and | .xor | .or => True

structure WordsSafe (left right : UInt16) : Prop where
  low : left.toNat % 4096 + right.toNat % 4096 < 0x10000
  whole : left.toNat + right.toNat < 0x100000000

structure OffsetSafe (word : UInt16) (byte : UInt8) : Prop where
  low : word.toNat % 16 + byte.toNat % 16 < 0x10000
  whole : word.toNat % 256 + byte.toNat < 0x10000

theorem sumSafe (a value : UInt8) (carry : Bool) : SumSafe a value carry := by
  have ha := a.toNat_lt
  have hv := value.toNat_lt
  have hc := bit_le carry
  constructor <;> omega

theorem differenceSafe (value : UInt8) (borrow : Bool) : DifferenceSafe value borrow := by
  have hv := value.toNat_lt
  have hb := bit_le borrow
  constructor <;> omega

theorem Operation.safe (operation : Operation) (a value : UInt8) (carry : Bool) :
    operation.Safe a value carry := by
  cases operation with
  | add | adc => exact sumSafe ..
  | sub | sbc | cp => exact differenceSafe ..
  | and | xor | or => trivial

theorem wordsSafe (left right : UInt16) : WordsSafe left right := by
  have hl := left.toNat_lt
  have hr := right.toNat_lt
  constructor <;> omega

theorem offsetSafe (word : UInt16) (byte : UInt8) : OffsetSafe word byte := by
  have hb := byte.toNat_lt
  constructor <;> omega

end Arithmetic

def BitInstruction.Safe : BitInstruction → Prop
  | .shift .. => True
  | .test bit _ | .reset bit _ | .set bit _ =>
    ((1 : UInt8) <<< UInt8.ofNat bit).toNat = 2 ^ bit.val

theorem BitInstruction.safe (instruction : BitInstruction) : instruction.Safe := by
  have mask (bit : Fin 8) : ((1 : UInt8) <<< UInt8.ofNat bit).toNat = 2 ^ bit.val := by
    revert bit
    decide
  cases instruction with
  | shift => trivial
  | test bit | reset bit | set bit => exact mask bit

namespace Instruction

def Safe {β : Type} [Bus β] (operand : UInt16) (m : Wired β) : Instruction → Prop
  | .arithmetic operation source =>
    operation.Safe m.cpu.registers.a ((Execution.readOperand source).run m).1
      (m.cpu.registers.flag .carry)
  | .arithmeticImmediate operation =>
    operation.Safe m.cpu.registers.a (Word.low operand) (m.cpu.registers.flag .carry)
  | .addPair source => Arithmetic.WordsSafe m.cpu.registers.hl (source.get m.cpu.registers)
  | .addOffset | .loadOffset => Arithmetic.OffsetSafe m.cpu.registers.sp (Word.low operand)
  | .extended => (BitInstruction.decode (Word.low operand)).Safe
  | .restart slot => (UInt16.ofNat (8 * slot)).toNat = 8 * slot.val
  | _ => True

theorem safe {β : Type} [Bus β] (operand : UInt16) (m : Wired β) (instruction : Instruction) :
    instruction.Safe operand m := by
  cases instruction with
  | arithmetic operation | arithmeticImmediate operation => exact operation.safe ..
  | addPair => exact Arithmetic.wordsSafe ..
  | addOffset | loadOffset => exact Arithmetic.offsetSafe ..
  | extended => exact BitInstruction.safe _
  | restart slot =>
    have small := slot.isLt
    exact UInt16.toNat_ofNat_of_lt' (by simp only [UInt16.size]; omega)
  | _ => trivial

theorem digit_of_jumpRelative {opcode : UInt8} {condition : Condition}
    (jumps : decode opcode = .jumpRelative (some condition)) : 4 ≤ (digits opcode).2.1.val := by
  have every : ∀ opcode, ∀ condition ∈ [Condition.notZero, .zero, .notCarry, .carry],
      decode opcode = .jumpRelative (some condition) → 4 ≤ (digits opcode).2.1.val := by
    apply Word.forall_byte
    decide +kernel
  exact every opcode condition (by cases condition <;> simp) jumps

end Instruction

structure Interrupt.DispatchSafe (source : Interrupt) : Prop where
  mask : source.bit.toNat = 2 ^ source.index
  vector : source.vector.toNat = 0x40 + 8 * source.index

theorem Interrupt.dispatchSafe (source : Interrupt) : source.DispatchSafe := by
  cases source <;> exact ⟨rfl, by decide⟩

/-- A board, and whether a property held of it at every access so far. -/
structure Probed (p : Access → LiveBoard → Prop) where
  live : LiveBoard
  held : Prop

instance (p : Access → LiveBoard → Prop) : Bus (Probed p) where
  read address probed :=
    ((Bus.read address probed.live).1,
      ⟨(Bus.read address probed.live).2, probed.held ∧ p (.read address) probed.live⟩)
  write address value probed :=
    ⟨Bus.write address value probed.live, probed.held ∧ p (.write address value) probed.live⟩

def LiveBoard.AccessSafe (access : Access) (live : LiveBoard) : Prop :=
  match access with
  | .read address => live.ReadSafe address
  | .write address value => live.WriteSafe address value

namespace Wired
open Execution

/-- The machine with a probe on its bus. -/
def probe (p : Access → LiveBoard → Prop) (m : Wired LiveBoard) : Wired (Probed p) :=
  ⟨m.cpu, m.bus, True⟩

/-- Being probed changes nothing. -/
theorem step_probe (p : Access → LiveBoard → Prop) (m : Wired LiveBoard) :
    (m.probe p).step.1 = m.step.1 ∧ (m.probe p).step.2.cpu = m.step.2.cpu ∧
      (m.probe p).step.2.bus.live = m.step.2.bus := by
  have sim : Bus.Simulation fun (probed : Probed p) live => probed.live = live :=
    { read := by
        rintro address probed _ rfl
        exact ⟨rfl, rfl⟩
      write := by
        rintro address value probed _ rfl
        rfl }
  exact step_simulation sim rfl rfl

section
variable {β : Type} [Bus β]

def opcode (m : Wired β) : UInt8 := (fetch.run (poll.run m).2).1

def prepared (m : Wired β) : UInt16 × Wired β :=
  (fetchOperand (Instruction.decode m.opcode).operandBytes).run (fetch.run (poll.run m).2).2

def performed (m : Wired β) : Nat × Wired β :=
  (perform m.prepared.1 (Instruction.decode m.opcode)).run m.prepared.2

/-- A step that executes an instruction performs what it has fetched. -/
theorem step_eq_performed {m : Wired β} (executes : m.activity = .instruction) :
    m.step = (m.performed.1,
      { m.performed.2 with cpu := m.performed.2.cpu.countEnableDelay }) := by
  rw [step_eq, show (poll.run m).1 = .instruction from executes]
  change executeNext.run _ = _
  rw [executeNext_eq, run_bind, finish, run_bind, execute, run_bind]
  rfl

structure ExecuteSafe (m : Wired β) : Prop where
  performs : m.step = (m.performed.1,
    { m.performed.2 with cpu := m.performed.2.cpu.countEnableDelay })
  assertion : Instruction.decode m.opcode ≠ .load .memory .memory
  condition : ∀ condition, Instruction.decode m.opcode = .jumpRelative (some condition) →
    4 ≤ (Instruction.digits m.opcode).2.1.val
  operands : (Instruction.decode m.opcode).Safe m.prepared.1 m.prepared.2

theorem executeSafe {m : Wired β} (executes : m.activity = .instruction) : m.ExecuteSafe where
  performs := step_eq_performed executes
  assertion := Instruction.decode_ne_load_memory _
  condition _ jumps := Instruction.digit_of_jumpRelative jumps
  operands := Instruction.safe ..

end

/-- What a step needs. A probe on the bus sees every access and changes nothing. -/
structure StepSafe (m : Wired LiveBoard) : Prop where
  same : (m.probe LiveBoard.AccessSafe).step.1 = m.step.1 ∧
    (m.probe LiveBoard.AccessSafe).step.2.cpu = m.step.2.cpu ∧
    (m.probe LiveBoard.AccessSafe).step.2.bus.live = m.step.2.bus
  accesses : (m.probe LiveBoard.AccessSafe).step.2.bus.held
  dispatch : ∀ source, m.activity = .dispatch source → source.DispatchSafe
  instruction : m.activity = .instruction → m.ExecuteSafe

theorem stepSafe {image : Image} {settings : Settings} {header : Header} {m : Wired LiveBoard}
    (h : m.bus.InRange image settings header) (describes : header.Describes image) :
    m.StepSafe := by
  have probed : (m.probe LiveBoard.AccessSafe).step.2.bus.live.InRange image settings header ∧
      (m.probe LiveBoard.AccessSafe).step.2.bus.held := by
    -- Kept at every access: the ranges, and that no access before this one was without a place.
    apply @step_keeps (Probed _) _ fun w => w.live.InRange image settings header ∧ w.held
    · intro address w ⟨inRange, held⟩
      exact ⟨inRange, held, inRange.readSafe describes address⟩
    · intro address value w ⟨inRange, held⟩
      exact ⟨inRange.write address value, held, inRange.writeSafe describes address value⟩
    · exact ⟨h, trivial⟩
  exact ⟨m.step_probe _, probed.2, fun source _ => source.dispatchSafe, executeSafe⟩

end Wired
end DotMatrix
