import DotMatrix.Proofs.Cpu.Chain
import DotMatrix.Proofs.Cpu.Flags

/-! One byte in the accumulator. An instruction combines it with another byte or shifts it; here is
what the result and the flags come to as numbers. -/
namespace DotMatrix

namespace Arithmetic
variable (x y : UInt8) (c : Bool)

theorem sum_total :
    (sum x y c).1.toNat + 256 * bit (sum x y c).2.carry = x.toNat + y.toNat + bit c := by
  have hx := x.toNat_lt
  have hy := y.toNat_lt
  have hc := bit_le c
  simp only [sum, bit_decide, UInt8.toNat_ofNat']
  split <;> omega

theorem difference_total :
    (difference x y c).1.toNat + y.toNat + bit c =
      x.toNat + 256 * bit (difference x y c).2.carry := by
  have hx := x.toNat_lt
  have hy := y.toNat_lt
  -- Twice the size of a byte is enough for the difference not to be cut off at zero.
  have result : (difference x y c).1.toNat = (x.toNat + 512 - y.toNat - bit c) % 256 := by
    cases c with
    | false =>
      simp only [difference, bit, UInt8.toNat_sub, Bool.false_eq_true, if_false, UInt8.reduceToNat]
      omega
    | true =>
      simp only [difference, bit, UInt8.toNat_sub, if_true, UInt8.reduceToNat]
      omega
  have hc := bit_le c
  rw [result]
  simp only [difference, bit_decide]
  split <;> omega

theorem rl_total :
    (Shift.rl.move x c).1.toNat + 256 * bit (Shift.rl.move x c).2 = 2 * x.toNat + bit c := by
  revert x
  apply Word.forall_byte
  cases c <;> decide +kernel

theorem rr_total :
    2 * (Shift.rr.move x c).1.toNat + bit (Shift.rr.move x c).2 = x.toNat + 256 * bit c := by
  revert x
  apply Word.forall_byte
  cases c <;> decide +kernel

theorem sla_eq : Shift.sla.apply x c = Shift.rl.apply x false := by
  simp [Shift.apply, Shift.move]

theorem srl_eq : Shift.srl.apply x c = Shift.rr.apply x false := by
  simp [Shift.apply, Shift.move]

theorem sra_eq : Shift.sra.apply x c = Shift.rr.apply x (decide (128 ≤ x.toNat)) := by
  revert x
  apply Word.forall_byte
  cases c <;> decide +kernel

end Arithmetic

open Arithmetic

namespace Registers

@[simp] theorem a_operate (r : Registers) (operation : Arithmetic.Operation) (value : UInt8) :
    (r.operate operation value).a = (operation.apply r.a value (r.flag .carry)).1 :=
  rfl

@[simp] theorem flag_operate (r : Registers) (operation : Arithmetic.Operation) (value : UInt8)
    (flag : Flag) :
    (r.operate operation value).flag flag =
      (operation.apply r.a value (r.flag .carry)).2.get flag :=
  flag_setFlags _ _ flag

end Registers

namespace Arithmetic.Operation

def takesCarry : Operation → Bool
  | .adc | .sbc => true
  | _ => false

variable {operation : Operation} (a value : UInt8) (carry : Bool)

theorem apply_sum (adds : operation = .add ∨ operation = .adc) :
    operation.apply a value carry = sum a value (operation.takesCarry && carry) := by
  rcases adds with rfl | rfl <;> rfl

theorem apply_difference (subtracts : operation = .sub ∨ operation = .sbc) :
    operation.apply a value carry = difference a value (operation.takesCarry && carry) := by
  rcases subtracts with rfl | rfl <;> rfl

end Arithmetic.Operation

namespace Registers
variable (r : Registers) (value : UInt8) {operation : Arithmetic.Operation}

theorem flags_sum (adds : operation = .add ∨ operation = .adc) :
    let after := r.operate operation value
    let incoming := bit (operation.takesCarry && r.flag .carry)
    (after.flag .zero = true ↔ after.a = 0) ∧
      (after.flag .halfCarry = true ↔ 16 ≤ r.a.toNat % 16 + value.toNat % 16 + incoming) := by
  simp only [flag_operate, a_operate, Operation.apply_sum _ _ _ adds]
  exact ⟨beq_iff_eq, decide_eq_true_iff⟩

theorem flags_difference (subtracts : operation = .sub ∨ operation = .sbc) :
    let after := r.operate operation value
    let incoming := bit (operation.takesCarry && r.flag .carry)
    (after.flag .zero = true ↔ after.a = 0) ∧
      (after.flag .halfCarry = true ↔ r.a.toNat % 16 < value.toNat % 16 + incoming) := by
  simp only [flag_operate, a_operate, Operation.apply_difference _ _ _ subtracts]
  exact ⟨beq_iff_eq, decide_eq_true_iff⟩

theorem operate_cp : r.operate .cp value = { r.operate .sub value with a := r.a } :=
  rfl

end Registers

def Wired.withCarry {β : Type} (w : Wired β) (carry : Bool) : Wired β :=
  { w with cpu.registers := w.cpu.registers.setFlag .carry carry }

@[simp] theorem Wired.carry_withCarry {β : Type} (w : Wired β) (carry : Bool) :
    (w.withCarry carry).carry = carry := by
  simp [Wired.withCarry, Wired.carry]

namespace Execution
variable {β : Type} [Bus β]

def combine (operation : Arithmetic.Operation) (bytes : UInt8 × UInt8) : Execution β UInt8 := do
  let _ ← perform bytes.1.toUInt16 (.loadImmediate (.register .a))
  let _ ← perform bytes.2.toUInt16 (.arithmeticImmediate operation)
  return (← registers).a

def shiftByte (shift : Shift) (byte : UInt8) : Execution β UInt8 := do
  let _ ← perform byte.toUInt16 (.loadImmediate (.register .a))
  let _ ← executeBit (.shift shift (.register .a))
  return (← registers).a

variable (w : Wired β)

theorem run_combine_operate (operation : Arithmetic.Operation) (bytes : UInt8 × UInt8) :
    let r := { w.cpu.registers with a := bytes.1 }.operate operation bytes.2
    (combine operation bytes).run w = (r.a, { w with cpu.registers := r }) := by
  have loaded (byte : UInt8) : Word.low byte.toUInt16 = byte := UInt8.toUInt8_toUInt16 byte
  simp only [combine, perform, loaded, run_bind]
  rfl

theorem run_combine (operation : Arithmetic.Operation) (bytes : UInt8 × UInt8) :
    (combine operation bytes).run w =
      let (byte, flags) := operation.apply bytes.1 bytes.2 w.carry
      (byte, { w with cpu.registers := { w.cpu.registers with a := byte, f := flags.toByte } }) :=
  run_combine_operate w operation bytes

theorem run_shiftByte (shift : Shift) (byte : UInt8) :
    (shiftByte shift byte).run w =
      let (result, flags) := shift.apply byte w.carry
      (result,
        { w with cpu.registers := { w.cpu.registers with a := result, f := flags.toByte } }) := by
  have loaded : Word.low byte.toUInt16 = byte := UInt8.toUInt8_toUInt16 byte
  simp only [shiftByte, perform, loaded, run_bind]
  rfl

theorem byte_combine (operation : Arithmetic.Operation) (bytes : UInt8 × UInt8) :
    ((combine operation bytes).run w).1 = (operation.apply bytes.1 bytes.2 w.carry).1 := by
  rw [run_combine]

theorem byte_shiftByte (shift : Shift) (byte : UInt8) :
    ((shiftByte shift byte).run w).1 = (shift.move byte w.carry).1 := by
  rw [run_shiftByte]
  rfl

theorem flag_combine (operation : Arithmetic.Operation) (bytes : UInt8 × UInt8) (flag : Flag) :
    ((combine operation bytes).run w).2.cpu.registers.flag flag =
      (operation.apply bytes.1 bytes.2 w.carry).2.get flag := by
  rw [run_combine_operate]
  exact Registers.flag_operate _ operation bytes.2 flag

theorem carry_combine (operation : Arithmetic.Operation) (bytes : UInt8 × UInt8) :
    ((combine operation bytes).run w).2.carry =
      (operation.apply bytes.1 bytes.2 w.carry).2.carry :=
  flag_combine w operation bytes .carry

theorem flag_shiftByte (shift : Shift) (byte : UInt8) (flag : Flag) :
    ((shiftByte shift byte).run w).2.cpu.registers.flag flag =
      (shift.apply byte w.carry).2.get flag := by
  rw [run_shiftByte]
  exact Registers.flag_setFlags w.cpu.registers (shift.apply byte w.carry).2 flag

theorem carry_shiftByte (shift : Shift) (byte : UInt8) :
    ((shiftByte shift byte).run w).2.carry = (shift.move byte w.carry).2 :=
  flag_shiftByte w shift byte .carry

theorem zero_shiftByte (shift : Shift) (byte : UInt8) :
    let ran := (shiftByte shift byte).run w
    ran.2.cpu.registers.flag .zero = true ↔ ran.1 = 0 := by
  intro ran
  rw [flag_shiftByte, byte_shiftByte]
  exact beq_iff_eq

theorem combine_add (bytes : UInt8 × UInt8) :
    (combine .add bytes).run w = (combine .adc bytes).run (w.withCarry false) := by
  rw [run_combine, run_combine, Wired.carry_withCarry]
  rfl

theorem combine_sub (bytes : UInt8 × UInt8) :
    (combine .sub bytes).run w = (combine .sbc bytes).run (w.withCarry false) := by
  rw [run_combine, run_combine, Wired.carry_withCarry]
  rfl

theorem shiftByte_sla (value : UInt8) :
    (shiftByte .sla value).run w = (shiftByte .rl value).run (w.withCarry false) := by
  rw [run_shiftByte, run_shiftByte, Wired.carry_withCarry, sla_eq]
  rfl

theorem shiftByte_srl (value : UInt8) :
    (shiftByte .srl value).run w = (shiftByte .rr value).run (w.withCarry false) := by
  rw [run_shiftByte, run_shiftByte, Wired.carry_withCarry, srl_eq]
  rfl

theorem shiftByte_sra (value : UInt8) :
    (shiftByte .sra value).run w =
      (shiftByte .rr value).run (w.withCarry (decide (128 ≤ value.toNat))) := by
  rw [run_shiftByte, run_shiftByte, Wired.carry_withCarry, sra_eq]
  rfl

end Execution
end DotMatrix
