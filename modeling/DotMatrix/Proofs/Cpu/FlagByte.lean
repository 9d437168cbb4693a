import DotMatrix.Proofs.Cpu.Fetch

/-! The low nibble of the flag byte. Programs see it as zero whatever is stored there; here is
that nothing but zero is ever stored. -/
namespace DotMatrix

def Registers.Clean (r : Registers) : Prop := r.f &&& 0x0F = 0

theorem Flags.toByte_clean (flags : Flags) : flags.toByte &&& 0x0F = 0 := by
  obtain ⟨zero, subtract, halfCarry, carry⟩ := flags
  cases zero <;> cases subtract <;> cases halfCarry <;> cases carry <;> rfl

theorem Flag.mask_clean (flag : Flag) : flag.mask &&& 0x0F = 0 := by
  cases flag <;> rfl

namespace Registers
variable {r : Registers}

theorem clean_setFlags (r : Registers) (flags : Flags) : (r.setFlags flags).Clean :=
  flags.toByte_clean

theorem clean_setAF (r : Registers) (word : UInt16) : (r.setAF word).Clean := by
  change (Word.low word &&& 0xF0) &&& 0x0F = 0
  rw [UInt8.and_assoc]
  exact UInt8.and_zero

namespace Clean

theorem setFlag (h : r.Clean) (flag : Flag) (value : Bool) : (r.setFlag flag value).Clean := by
  change (if value = true then r.f ||| flag.mask else r.f &&& ~~~flag.mask) &&& 0x0F = 0
  split
  · have spread : (r.f ||| flag.mask) &&& 0x0F = r.f &&& 0x0F ||| flag.mask &&& 0x0F :=
      UInt8.toBitVec_inj.mp BitVec.and_or_distrib_right
    rw [spread, h, flag.mask_clean]
    exact UInt8.or_zero
  · rw [UInt8.and_assoc, UInt8.and_comm (~~~_), ← UInt8.and_assoc, h]
    exact UInt8.zero_and

theorem setStepFlags (h : r.Clean) (zero subtract halfCarry : Bool) :
    (r.setStepFlags zero subtract halfCarry).Clean :=
  ((h.setFlag _ _).setFlag _ _).setFlag _ _

theorem addToHL (h : r.Clean) (value : UInt16) : (r.addToHL value).Clean :=
  ((h.setFlag .subtract _).setFlag .halfCarry _).setFlag .carry _

theorem decimalAdjust (h : r.Clean) : r.decimalAdjust.Clean :=
  have adjusted : Registers.Clean { r with a := _ } := h
  ((adjusted.setFlag .zero _).setFlag .halfCarry _).setFlag .carry _

theorem setCarryOnly (h : r.Clean) (carry : Bool) : (r.setCarryOnly carry).Clean :=
  ((h.setFlag _ _).setFlag _ _).setFlag _ _

theorem complement (h : r.Clean) : r.complement.Clean :=
  have turned : Registers.Clean { r with a := ~~~r.a } := h
  (turned.setFlag .subtract true).setFlag .halfCarry true

theorem set (h : r.Clean) (register : Register) (value : UInt8) :
    (register.set value r).Clean := by
  cases register <;> exact h

theorem setPair (h : r.Clean) (pair : Pair) (word : UInt16) : (pair.set word r).Clean := by
  cases pair <;> exact h

theorem setStackPair (h : r.Clean) (pair : StackPair) (word : UInt16) :
    (pair.set word r).Clean := by
  cases pair with
  | af => exact clean_setAF r word
  | _ => exact h

end Clean
end Registers

namespace Execution
variable {α δ β : Type}

def StaysClean (m : Execution β α) : Prop :=
  ∀ w, w.cpu.registers.Clean → (m.run w).2.cpu.registers.Clean

namespace StaysClean

theorem pure (a : α) : StaysClean (pure a : Execution β α) := fun _ h => h

theorem bind {m : Execution β α} {f : α → Execution β δ} (first : StaysClean m)
    (rest : ∀ a, StaysClean (f a)) : StaysClean (m >>= f) :=
  fun w h => rest _ _ (first w h)

theorem branch {c : Prop} [Decidable c] {m n : Execution β α} (yes : StaysClean m)
    (no : StaysClean n) : StaysClean (if c then m else n) := by
  split
  · exact yes
  · exact no

theorem update {change : Registers → Registers} (keeps : ∀ r, r.Clean → (change r).Clean) :
    StaysClean (update change : Execution β Unit) :=
  fun w h => keeps w.cpu.registers h

theorem updateCpu {change : Cpu → Cpu} (keeps : ∀ cpu, (change cpu).registers = cpu.registers) :
    StaysClean (updateCpu change : Execution β Unit) := by
  intro w h
  change (change w.cpu).registers.Clean
  rw [keeps]
  exact h

theorem registers : StaysClean (registers : Execution β Registers) := fun _ h => h

theorem processor : StaysClean (processor : Execution β Cpu) := fun _ h => h

theorem addOffset (byte : UInt8) : StaysClean (addOffset byte : Execution β UInt16) :=
  fun _ _ => Registers.clean_setFlags _ _

theorem shiftOperand (shift : Arithmetic.Shift) (value : UInt8) :
    StaysClean (shiftOperand shift value : Execution β UInt8) :=
  fun _ _ => Registers.clean_setFlags _ _

theorem taken (condition : Option Condition) : StaysClean (taken condition : Execution β Bool) := by
  cases condition <;> exact fun _ h => h

theorem locate (operand : UInt16) (location : Location) :
    StaysClean (locate operand location : Execution β UInt16) := by
  cases location <;> exact fun _ h => h

theorem countEnableDelay :
    StaysClean (Execution.updateCpu Cpu.countEnableDelay : Execution β Unit) := by
  refine updateCpu fun cpu => ?_
  unfold Cpu.countEnableDelay
  split <;> rfl

variable [Bus β]

theorem readByte (address : UInt16) : StaysClean (readByte address : Execution β UInt8) :=
  fun _ h => h

theorem writeByte (address : UInt16) (value : UInt8) :
    StaysClean (writeByte address value : Execution β Unit) :=
  fun _ h => h

theorem fetch : StaysClean (fetch : Execution β UInt8) := by
  intro w h
  simp only [Execution.fetch, run_bind, run_registers, run_readByte, run_updateCpu, run_pure]
  split <;> exact h

theorem fetchOperand (count : Nat) : StaysClean (fetchOperand count : Execution β UInt16) := by
  match count with
  | 0 => exact .pure _
  | 1 => exact fetch.bind fun _ => .pure _
  | _ + 2 => exact fetch.bind fun _ => fetch.bind fun _ => .pure _

theorem popWord : StaysClean (popWord : Execution β UInt16) := fun _ h => h

theorem pendingInterrupts : StaysClean (pendingInterrupts : Execution β InterruptSet) :=
  fun _ h => h

theorem readOperand (operand : Operand) : StaysClean (readOperand operand : Execution β UInt8) := by
  cases operand <;> exact fun _ h => h

theorem writeOperand (operand : Operand) (value : UInt8) :
    StaysClean (writeOperand operand value : Execution β Unit) := by
  cases operand with
  | register register => exact update fun _ h => h.set register value
  | memory => exact fun _ h => h

theorem executeBit (instruction : BitInstruction) :
    StaysClean (executeBit instruction : Execution β Nat) := by
  cases instruction with
  | shift shift target =>
    exact (readOperand _).bind fun _ => (shiftOperand _ _).bind fun _ =>
      (writeOperand _ _).bind fun _ => .pure _
  | test bit source =>
    exact (readOperand _).bind fun _ =>
      (update fun _ h => ((h.setFlag _ _).setFlag _ _).setFlag _ _).bind fun _ => .pure _
  | reset bit target | set bit target =>
    exact (readOperand _).bind fun _ => (writeOperand _ _).bind fun _ => .pure _

theorem executeHalt : StaysClean (executeHalt : Execution β Nat) := by
  have done {change : Cpu → Cpu} (keeps : ∀ cpu, (change cpu).registers = cpu.registers) :
      StaysClean (do Execution.updateCpu change; return 4 : Execution β Nat) :=
    (updateCpu keeps).bind fun _ => .pure 4
  exact processor.bind fun _ => .branch (done fun _ => rfl) <|
    pendingInterrupts.bind fun _ => .branch (done fun _ => rfl) (done fun _ => rfl)

theorem perform (operand : UInt16) (instruction : Instruction) :
    StaysClean (perform operand instruction : Execution β Nat) := by
  cases instruction with
  | extended => exact executeBit _
  | halt => exact executeHalt
  | enableInterrupts =>
    refine (updateCpu fun cpu => ?_).bind fun _ => .pure _
    split <;> rfl
  | load target source =>
    exact (readOperand _).bind fun _ => (writeOperand _ _).bind fun _ => .pure _
  | loadImmediate target => exact (writeOperand _ _).bind fun _ => .pure _
  | loadPair target => exact (update fun _ h => h.setPair _ _).bind fun _ => .pure _
  | loadAccumulator source =>
    exact (locate _ _).bind fun _ => (readByte _).bind fun _ => fun _ h => h
  | storeAccumulator target =>
    exact (locate _ _).bind fun _ => registers.bind fun _ => (writeByte _ _).bind fun _ => .pure _
  | loadOffset | addOffset =>
    exact (addOffset _).bind fun _ => fun _ h => h
  | increment target | decrement target =>
    exact (readOperand _).bind fun _ => (update fun _ h => h.setStepFlags _ _ _).bind fun _ =>
      (writeOperand _ _).bind fun _ => .pure _
  | incrementPair target | decrementPair target =>
    exact (update fun _ h => h.setPair _ _).bind fun _ => .pure _
  | addPair source => exact (update fun _ h => h.addToHL _).bind fun _ => .pure _
  | rotateAccumulator shift =>
    refine registers.bind fun _ => (shiftOperand _ _).bind fun _ => (update fun r h => ?_).bind
      fun _ => .pure _
    have rotated : Registers.Clean { r with a := _ } := h
    exact rotated.setFlag .zero false
  | decimalAdjust => exact (update fun _ h => h.decimalAdjust).bind fun _ => .pure _
  | complement => exact (update fun _ h => h.complement).bind fun _ => .pure _
  | setCarry | complementCarry =>
    exact (update fun _ h => h.setCarryOnly _).bind fun _ => .pure _
  | arithmetic operation source =>
    exact (readOperand _).bind fun _ =>
      (update fun _ _ => Registers.clean_setFlags _ _).bind fun _ => .pure _
  | arithmeticImmediate operation =>
    exact (update fun _ _ => Registers.clean_setFlags _ _).bind fun _ => .pure _
  | jumpRelative condition | jump condition | call condition =>
    exact (taken _).bind fun _ => .branch (fun _ h => h) (.pure _)
  | returnIf condition =>
    exact (taken _).bind fun _ => .branch (fun _ h => h) (.pure _)
  | pop target =>
    exact popWord.bind fun _ => (update fun _ h => h.setStackPair _ _).bind fun _ => .pure _
  -- The others do not write F, whatever else they change.
  | _ => exact fun _ h => h

theorem executeNext : StaysClean (executeNext : Execution β Nat) :=
  fetch.bind fun _ => ((fetchOperand _).bind fun _ => perform _ _).bind fun _ =>
    countEnableDelay.bind fun _ => .pure _

theorem act (activity : Activity) : StaysClean (act activity : Execution β Nat) := by
  cases activity with
  | idle => exact .pure _
  | dispatch source => exact fun _ h => h
  | instruction => exact executeNext

theorem poll : StaysClean (poll : Execution β Activity) := by
  intro w h
  have polled := polled_poll w
  generalize (Execution.poll.run w).1 = activity at polled
  generalize (Execution.poll.run w).2.cpu = cpu at polled ⊢
  cases polled <;> exact h

end StaysClean
end Execution

theorem Wired.clean_step {β : Type} [Bus β] (w : Wired β) (h : w.cpu.registers.Clean) :
    w.step.2.cpu.registers.Clean := by
  rw [Wired.step_eq]
  exact Execution.StaysClean.act _ _ (Execution.StaysClean.poll w h)

end DotMatrix
