import DotMatrix.Proofs.Cpu.Accesses

/-! How often a step writes to one address. The bytes that an instruction stores go to places that
differ, so no step writes to an address twice. The one exception is the register from which a
dispatch withdraws its request: the stack may lie there as well. -/
namespace DotMatrix

def Access.writes (address : UInt16) : Access → Bool
  | .read _ => false
  | .write place _ => place == address

def writesTo (address : UInt16) (accesses : List Access) : Nat :=
  accesses.countP (Access.writes address)

section
variable (address place : UInt16) (value : UInt8) (accesses : List Access)

theorem writesTo_write :
    writesTo address (.write place value :: accesses) =
      writesTo address accesses + if place = address then 1 else 0 := by
  simp only [writesTo, List.countP_cons, Access.writes, beq_iff_eq]

theorem writesTo_reverse : writesTo address accesses.reverse = writesTo address accesses :=
  List.countP_reverse

end

namespace Execution
variable {α β δ : Type} {address : UInt16} {n : Nat}

def WritesAtMost (n : Nat) (address : UInt16) (m : Execution (Traced β) α) : Prop :=
  ∀ w, writesTo address (m.run w).2.bus.accesses ≤ writesTo address w.bus.accesses + n

namespace WritesAtMost

theorem pure (a : α) : WritesAtMost n address (pure a : Execution (Traced β) α) :=
  fun _ => Nat.le_add_right _ _

theorem after {m : Execution (Traced β) α} {f : α → Execution (Traced β) δ}
    (quiet : WritesAtMost 0 address m) (rest : ∀ a, WritesAtMost n address (f a)) :
    WritesAtMost n address (m >>= f) :=
  fun w => Nat.le_trans (rest _ _) (Nat.add_le_add_right (quiet w) n)

theorem andThen {m : Execution (Traced β) α} {f : α → Execution (Traced β) δ}
    (first : WritesAtMost n address m) (quiet : ∀ a, WritesAtMost 0 address (f a)) :
    WritesAtMost n address (m >>= f) :=
  fun w => Nat.le_trans (quiet _ _) (first w)

theorem branch {c : Prop} [Decidable c] {m n' : Execution (Traced β) α}
    (yes : WritesAtMost n address m) (no : WritesAtMost n address n') :
    WritesAtMost n address (if c then m else n') := by
  split
  · exact yes
  · exact no

theorem updateCpu (change : Cpu → Cpu) :
    WritesAtMost 0 address (updateCpu change : Execution (Traced β) Unit) :=
  fun _ => Nat.le_refl _

theorem update (change : Registers → Registers) :
    WritesAtMost 0 address (update change : Execution (Traced β) Unit) :=
  fun _ => Nat.le_refl _

theorem registers : WritesAtMost 0 address (registers : Execution (Traced β) Registers) :=
  fun _ => Nat.le_refl _

theorem processor : WritesAtMost 0 address (processor : Execution (Traced β) Cpu) :=
  fun _ => Nat.le_refl _

theorem taken (condition : Option Condition) :
    WritesAtMost 0 address (taken condition : Execution (Traced β) Bool) := by
  cases condition <;> exact fun _ => Nat.le_refl _

theorem locate (operand : UInt16) (location : Location) :
    WritesAtMost 0 address (locate operand location : Execution (Traced β) UInt16) := by
  cases location <;> exact fun _ => Nat.le_refl _

theorem shiftOperand (shift : Arithmetic.Shift) (value : UInt8) :
    WritesAtMost 0 address (shiftOperand shift value : Execution (Traced β) UInt8) :=
  fun _ => Nat.le_refl _

variable [Bus β]

theorem readByte (place : UInt16) :
    WritesAtMost 0 address (readByte place : Execution (Traced β) UInt8) :=
  fun _ => Nat.le_refl _

theorem writeByte (place : UInt16) (value : UInt8) :
    WritesAtMost 1 address (writeByte place value : Execution (Traced β) Unit) := by
  intro w
  change writesTo address (.write place value :: w.bus.accesses) ≤ _
  rw [writesTo_write]
  split <;> omega

theorem writeByte_elsewhere {place : UInt16} (value : UInt8) (elsewhere : place ≠ address) :
    WritesAtMost 0 address (Execution.writeByte place value : Execution (Traced β) Unit) := by
  intro w
  apply Nat.le_of_eq
  change writesTo address (.write place value :: w.bus.accesses) = _
  rw [writesTo_write, if_neg elsewhere]

theorem accesses_le (first second : UInt16) (high low : UInt8) (before : List Access)
    (differ : second ≠ first) :
    writesTo address (.write second low :: .write first high :: before) ≤
      writesTo address before + 1 := by
  rw [writesTo_write, writesTo_write]
  split
  case isTrue here =>
    apply Nat.le_of_eq
    rw [if_neg fun same : second = address => differ (same.trans here.symm)]
  case isFalse => split <;> omega

theorem pushWord (word : UInt16) :
    WritesAtMost 1 address (pushWord word : Execution (Traced β) Unit) := by
  intro w
  have differ (sp : UInt16) : sp - 1 ≠ sp := by grind
  exact accesses_le _ _ _ _ _ (differ _)

theorem storeStackPointer (operand : UInt16) :
    WritesAtMost 1 address (perform operand .storeStackPointer : Execution (Traced β) Nat) := by
  intro w
  apply accesses_le
  simp

theorem fetch : WritesAtMost 0 address (fetch : Execution (Traced β) UInt8) :=
  fun _ => Nat.le_refl _

theorem fetchOperand (count : Nat) :
    WritesAtMost 0 address (fetchOperand count : Execution (Traced β) UInt16) := by
  match count with
  | 0 => exact .pure _
  | 1 => exact fetch.after fun _ => .pure _
  | _ + 2 => exact fetch.after fun _ => fetch.after fun _ => .pure _

theorem popWord : WritesAtMost 0 address (popWord : Execution (Traced β) UInt16) :=
  fun _ => Nat.le_refl _

theorem pendingInterrupts :
    WritesAtMost 0 address (pendingInterrupts : Execution (Traced β) InterruptSet) :=
  fun _ => Nat.le_refl _

theorem readOperand (operand : Operand) :
    WritesAtMost 0 address (readOperand operand : Execution (Traced β) UInt8) := by
  cases operand <;> exact fun _ => Nat.le_refl _

theorem writeOperand (operand : Operand) (value : UInt8) :
    WritesAtMost 1 address (writeOperand operand value : Execution (Traced β) Unit) := by
  cases operand with
  | register register => exact fun _ => Nat.le_succ _
  | memory => exact registers.after fun _ => writeByte _ _

theorem executeBit (instruction : BitInstruction) :
    WritesAtMost 1 address (executeBit instruction : Execution (Traced β) Nat) := by
  cases instruction with
  | shift shift target =>
    exact (readOperand _).after fun _ => (shiftOperand _ _).after fun _ =>
      (writeOperand _ _).andThen fun _ => .pure _
  | test bit source =>
    exact (readOperand _).after fun _ => (update _).after fun _ => .pure _
  | reset bit target | set bit target =>
    exact (readOperand _).after fun _ => (writeOperand _ _).andThen fun _ => .pure _

theorem executeHalt : WritesAtMost 1 address (executeHalt : Execution (Traced β) Nat) := by
  have done (change : Cpu → Cpu) : WritesAtMost 1 address
      (do Execution.updateCpu change; return 4 : Execution (Traced β) Nat) :=
    (updateCpu change).after fun _ => .pure 4
  exact processor.after fun _ => .branch (done _) <|
    pendingInterrupts.after fun _ => .branch (done _) (done _)

theorem callTo (place : UInt16) :
    WritesAtMost 1 address (callTo place : Execution (Traced β) Unit) :=
  registers.after fun _ => (pushWord _).andThen fun _ => update _

theorem perform (operand : UInt16) (instruction : Instruction) :
    WritesAtMost 1 address (perform operand instruction : Execution (Traced β) Nat) := by
  cases instruction with
  | extended => exact executeBit _
  | halt => exact executeHalt
  | load target source =>
    exact (readOperand _).after fun _ => (writeOperand _ _).andThen fun _ => .pure _
  | loadImmediate target => exact (writeOperand _ _).andThen fun _ => .pure _
  | loadAccumulator source =>
    exact (locate _ _).after fun _ => (readByte _).after fun _ => (update _).after fun _ => .pure _
  | storeAccumulator target =>
    exact (locate _ _).after fun _ => registers.after fun _ =>
      (writeByte _ _).andThen fun _ => .pure _
  | storeStackPointer => exact storeStackPointer operand
  | increment target | decrement target =>
    exact (readOperand _).after fun _ => (update _).after fun _ =>
      (writeOperand _ _).andThen fun _ => .pure _
  | arithmetic operation source =>
    exact (readOperand _).after fun _ => (update _).after fun _ => .pure _
  | jumpRelative condition | jump condition =>
    exact (taken _).after fun _ => .branch ((update _).after fun _ => .pure _) (.pure _)
  | call condition =>
    exact (taken _).after fun _ => .branch ((callTo _).andThen fun _ => .pure _) (.pure _)
  | returnIf condition =>
    exact (taken _).after fun _ => .branch
      (popWord.after fun _ => (update _).after fun _ => .pure _) (.pure _)
  | restart slot => exact (callTo _).andThen fun _ => .pure _
  | push source => exact registers.after fun _ => (pushWord _).andThen fun _ => .pure _
  -- The others do not write at all.
  | _ => exact fun _ => Nat.le_succ _

theorem executeNext : WritesAtMost 1 address (executeNext : Execution (Traced β) Nat) :=
  fetch.after fun _ => ((fetchOperand _).after fun _ => perform _ _).andThen fun _ =>
    (updateCpu _).after fun _ => .pure _

theorem dispatch (source : Interrupt) (elsewhere : (0xFF0F : UInt16) ≠ address) :
    WritesAtMost 1 address (dispatch source : Execution (Traced β) Nat) :=
  -- PC is saved, and then only the request register is written to.
  (updateCpu _).after fun _ => registers.after fun _ => (pushWord _).andThen fun _ =>
    (readByte _).after fun _ => (writeByte_elsewhere _ elsewhere).after fun _ =>
      (update _).after fun _ => .pure _

theorem pollAwake : WritesAtMost 0 address (pollAwake : Execution (Traced β) Activity) := by
  refine pendingInterrupts.after fun pending => processor.after fun cpu =>
    .branch (.pure _) ((updateCpu _).after fun _ => ?_)
  split <;> exact .pure _

theorem poll : WritesAtMost 0 address (poll : Execution (Traced β) Activity) :=
  processor.after fun _ => .branch (.pure _) <| .branch
    ((readByte _).after fun _ => .branch (.pure _) ((updateCpu _).after fun _ => pollAwake))
    pollAwake

theorem step (elsewhere : (0xFF0F : UInt16) ≠ address) :
    WritesAtMost 1 address (step : Execution (Traced β) Nat) := by
  rw [step_eq]
  refine poll.after fun activity => ?_
  cases activity with
  | idle => exact .pure _
  | dispatch source => exact dispatch source elsewhere
  | instruction => exact executeNext

end WritesAtMost
end Execution

/-- Whatever a step turns out to be, it writes to an address once at most. -/
theorem Wired.writesTo_accesses {β : Type} [Bus β] (w : Wired β) {address : UInt16}
    (elsewhere : (0xFF0F : UInt16) ≠ address) : writesTo address w.accesses ≤ 1 := by
  have most := Execution.WritesAtMost.step (β := β) elsewhere ⟨w.cpu, ⟨w.bus, []⟩⟩
  rw [← writesTo_reverse] at most
  exact most

end DotMatrix
