import DotMatrix.Proofs.Cpu.Activity

/-! Where an instruction finds its bytes. Without the HALT bug they are read in order from PC
on; with it the opcode's byte is read once more. -/
namespace DotMatrix

/-- The opcode that would load memory into memory is that of HALT. -/
theorem Instruction.decode_ne_load_memory (opcode : UInt8) :
    decode opcode ≠ .load .memory .memory := by
  revert opcode
  apply Word.forall_byte
  decide +kernel

namespace Execution
variable {α β : Type} [Bus β]

def operandAt (address : UInt16) : (count : Nat) → Execution β UInt16
  | 0 => return 0
  | 1 => return (← readByte address).toUInt16
  | _ => do
    let low ← readByte address
    let high ← readByte (address + 1)
    return Word.join high low

/-- The rest of an instruction whose opcode has been fetched. -/
def finish (opcode : UInt8) : Execution β Nat := do
  let cycles ← execute (Instruction.decode opcode)
  updateCpu Cpu.countEnableDelay
  return cycles

theorem executeNext_eq : (executeNext : Execution β Nat) = fetch >>= finish := rfl

/-- The rest of an instruction whose operand stands at the given address. PC is put behind the
operand before the instruction takes effect. -/
def finishAt (operand : UInt16) (opcode : UInt8) : Execution β Nat := do
  let instruction := Instruction.decode opcode
  let value ← operandAt operand instruction.operandBytes
  setPC (operand + UInt16.ofNat instruction.operandBytes)
  let cycles ← perform value instruction
  updateCpu Cpu.countEnableDelay
  return cycles

/-- An instruction whose opcode and operand stand at the two given addresses. -/
def executeAt (opcode operand : UInt16) : Execution β Nat := do
  finishAt operand (← readByte opcode)

theorem operandBytes_le (instruction : Instruction) : instruction.operandBytes ≤ 2 := by
  cases instruction with
  | loadAccumulator location | storeAccumulator location => cases location <;> decide
  | _ => simp [Instruction.operandBytes]

theorem run_fetch_inOrder (w : Wired β) (inOrder : w.cpu.haltBug = false) :
    fetch.run w =
      ((Bus.read w.cpu.registers.pc w.bus).1,
        ⟨{ w.cpu with registers := { w.cpu.registers with pc := w.cpu.registers.pc + 1 } },
          (Bus.read w.cpu.registers.pc w.bus).2⟩) := by
  simp only [fetch, run_bind, run_registers, run_readByte, run_updateCpu, run_pure, inOrder,
    Bool.false_eq_true, if_false]

theorem run_fetch_bugged (w : Wired β) (bugged : w.cpu.haltBug = true) :
    fetch.run w =
      ((Bus.read w.cpu.registers.pc w.bus).1,
        ⟨{ w.cpu with haltBug := false }, (Bus.read w.cpu.registers.pc w.bus).2⟩) := by
  simp only [fetch, run_bind, run_registers, run_readByte, run_updateCpu, run_pure, bugged,
    if_true]

theorem run_fetchOperand (count : Nat) (small : count ≤ 2) (w : Wired β)
    (inOrder : w.cpu.haltBug = false) :
    (fetchOperand count).run w =
      (do
        let value ← operandAt w.cpu.registers.pc count
        setPC (w.cpu.registers.pc + UInt16.ofNat count)
        return value : Execution β UInt16).run w := by
  match count, small with
  | 0, _ =>
    have stays : w.cpu.registers.pc + UInt16.ofNat 0 = w.cpu.registers.pc := by simp
    simp only [fetchOperand, operandAt, setPC, run_bind, run_update, run_pure, stays]
  | 1, _ =>
    simp only [fetchOperand, run_fetch_inOrder w inOrder, operandAt, setPC, run_bind,
      run_readByte, run_update, run_pure]
    rfl
  | 2, _ =>
    have next : w.cpu.registers.pc + 1 + 1 = w.cpu.registers.pc + UInt16.ofNat 2 := by
      rw [UInt16.add_assoc]; rfl
    simp only [fetchOperand, fetchWord, run_fetch_inOrder, inOrder, operandAt, setPC, run_bind,
      run_readByte, run_update, run_pure, next]

theorem run_finish (opcode : UInt8) (w : Wired β) (inOrder : w.cpu.haltBug = false) :
    (finish opcode).run w = (finishAt w.cpu.registers.pc opcode).run w := by
  have operand := run_fetchOperand _ (operandBytes_le (Instruction.decode opcode)) w inOrder
  simp only [finish, execute, finishAt, run_bind, operand, run_pure]

theorem run_finishAt_pc (operand pc : UInt16) (opcode : UInt8) (w : Wired β) :
    (finishAt operand opcode).run
        { w with cpu := { w.cpu with registers := { w.cpu.registers with pc } } } =
      (finishAt operand opcode).run w := by
  simp only [finishAt, run_bind]
  generalize (Instruction.decode opcode).operandBytes = count
  match count with
  | 0 => rfl
  | 1 => rfl
  | _ + 2 => rfl

theorem run_executeNext (w : Wired β) :
    executeNext.run w =
      (executeAt w.cpu.registers.pc
        (if w.cpu.haltBug then w.cpu.registers.pc else w.cpu.registers.pc + 1)).run
          { w with cpu := { w.cpu with haltBug := false } } := by
  rw [executeNext_eq, executeAt, run_bind, run_bind, run_readByte]
  by_cases bug : w.cpu.haltBug = true
  · rw [run_fetch_bugged w bug, run_finish, if_pos bug]
    rfl
  · have inOrder : w.cpu.haltBug = false := by simpa using bug
    have clear : { w.cpu with haltBug := false } = w.cpu := by rw [← inOrder]
    rw [run_fetch_inOrder w inOrder, run_finish, if_neg bug, clear]
    · exact run_finishAt_pc _ _ _ ⟨w.cpu, (Bus.read w.cpu.registers.pc w.bus).2⟩
    · exact inOrder

end Execution
end DotMatrix
