import DotMatrix.Proofs.Console.Dispatch
import DotMatrix.Proofs.Cpu.Stack

/-! Calls, dispatches, returns, pushes and pops by what they do to the stack. In a run in which as
much is taken off as was put on, each return and each pop gets the word that was put on for it. -/
namespace DotMatrix
namespace Wired
open Execution Stack
variable (w : Wired FlatMemory)

/-- The word that a step puts on the stack: the pair that is pushed, or the address at which the
processor is to go on later. -/
def pushed? : Option UInt16 :=
  match w.activity with
  | .idle => none
  | .dispatch _ => some w.cpu.registers.pc
  | .instruction =>
    match w.instruction with
    | .push source => some (source.get w.cpu.registers)
    | .call condition =>
      if condition.all (·.holds w.cpu.registers) then some (w.operandAddress + 2) else none
    | .restart _ => some w.operandAddress
    | _ => none

inductive Receiver where
  | pair (target : StackPair)
  | counter

def Receiver.Got (word : UInt16) (r : Registers) : Receiver → Prop
  | .pair target => target.Got word r
  | .counter => r.pc = word

/-- Where the word goes that a step takes off. -/
def receiver? : Option Receiver :=
  match w.activity with
  | .idle | .dispatch _ => none
  | .instruction =>
    match w.instruction with
    | .pop target => some (.pair target)
    | .ret | .returnEnable => some .counter
    | .returnIf condition => if condition.holds w.cpu.registers then some .counter else none
    | _ => none

/-- The step is a call or a return under a condition that does not hold. -/
def Untaken : Prop :=
  w.activity = .instruction ∧ ∃ condition : Condition,
    condition.holds w.cpu.registers = false ∧
      (w.instruction = .call (some condition) ∨ w.instruction = .returnIf condition)

def fetchedAll : Wired FlatMemory :=
  ⟨{ w.cpu with
      registers := { w.cpu.registers with
        pc := w.operandAddress + UInt16.ofNat w.instruction.operandBytes }
      halted := false, stopped := false, haltBug := false }, w.bus⟩

variable {w}

theorem instruction_eq :
    w.instruction = Instruction.decode (FlatMemory.byte w.bus w.cpu.registers.pc) := by
  unfold instruction fetched
  rw [bus_poll fun _ _ => rfl]
  rfl

theorem operandAt_still (address : UInt16) (count : Nat) (w : Wired FlatMemory) :
    ((operandAt address count).run w).2 = w := by
  match count with
  | 0 | 1 => rfl
  | _ + 2 => rfl

theorem step_performed (executes : w.activity = .instruction) :
    ∃ operand,
      w.step.2.cpu.registers = ((perform operand w.instruction).run w.fetchedAll).2.cpu.registers ∧
        w.step.2.bus = ((perform operand w.instruction).run w.fetchedAll).2.bus := by
  have counted (cpu : Cpu) : cpu.countEnableDelay.registers = cpu.registers := by
    unfold Cpu.countEnableDelay
    split <;> rfl
  rw [step_instruction w executes, bus_poll fun _ _ => rfl]
  simp only [executeAt, finishAt, run_bind, run_readByte, setPC, run_update, run_updateCpu,
    run_pure, counted, operandAt_still, fetchedAll, instruction_eq]
  exact ⟨_, rfl, rfl⟩

theorem get_withCounter (pair : StackPair) (r : Registers) (pc : UInt16) :
    pair.get { r with pc } = pair.get r := by
  cases pair <;> rfl

theorem holds_fetchedAll (condition : Condition) :
    condition.holds w.fetchedAll.cpu.registers = condition.holds w.cpu.registers := by
  cases condition <;> rfl

theorem all_holds_fetchedAll (condition : Option Condition) :
    condition.all (·.holds w.fetchedAll.cpu.registers) =
      condition.all (·.holds w.cpu.registers) := by
  cases condition with
  | none => rfl
  | some condition => exact holds_fetchedAll condition

theorem performed_pushed {word : UInt16} (executes : w.activity = .instruction)
    (pushes : w.pushed? = some word) (operand : UInt16) :
    let after := ((perform operand w.instruction).run w.fetchedAll).2
    after.cpu.registers.sp = w.cpu.registers.sp - 2 ∧
      after.bus = withWord w.cpu.registers.sp word w.bus := by
  simp only [pushed?, executes] at pushes
  cases instruction : w.instruction with
  | push source =>
    simp only [instruction] at pushes
    cases pushes
    rw [run_push]
    exact ⟨rfl, congrArg (withWord _ · _) (get_withCounter _ _ _)⟩
  | call condition =>
    simp only [instruction] at pushes
    split at pushes
    · next taken =>
      cases pushes
      rw [← all_holds_fetchedAll] at taken
      have counter : w.fetchedAll.cpu.registers.pc = w.operandAddress + 2 := by
        simp only [fetchedAll, instruction]
        rfl
      rw [perform, run_taken, if_pos taken]
      simp only [callTo, run_bind, run_registers, run_pushWord, setPC, run_update, run_pure]
      exact ⟨rfl, congrArg (withWord _ · _) counter⟩
    · cases pushes
  | restart slot =>
    simp only [instruction] at pushes
    cases pushes
    have counter : w.fetchedAll.cpu.registers.pc = w.operandAddress := by
      simp only [fetchedAll, instruction]
      exact UInt16.add_zero _
    simp only [perform, callTo, run_bind, run_registers, run_pushWord, setPC, run_update, run_pure]
    exact ⟨rfl, congrArg (withWord _ · _) counter⟩
  | _ => simp [instruction] at pushes

def withDispatch (sp pc : UInt16) (source : Interrupt) (memory : FlatMemory) : FlatMemory :=
  let saved := withWord sp pc memory
  Bus.write 0xFF0F (InterruptSet.erase ⟨FlatMemory.byte saved 0xFF0F⟩ source).bits saved

theorem step_dispatch_flat {source : Interrupt} (dispatches : w.activity = .dispatch source) :
    w.step.2 =
      ⟨{ w.cpu with
          registers := { w.cpu.registers with
            sp := w.cpu.registers.sp - 2, pc := source.vector }
          interruptsEnabled := false, enableDelay := 0, halted := false, stopped := false },
        withDispatch w.cpu.registers.sp w.cpu.registers.pc source w.bus⟩ := by
  have polled := (cpu_poll_dispatch w source dispatches).1
  have bus : (poll.run w).2.bus = w.bus := bus_poll (fun _ _ => rfl) w
  rw [step_eq, show (poll.run w).1 = .dispatch source from dispatches]
  generalize (poll.run w).2 = awake at polled bus
  obtain ⟨cpu, memory⟩ := awake
  subst polled bus
  simp only [act, dispatch, run_bind, run_updateCpu, run_registers, run_pushWord, run_readByte,
    run_writeByte, setPC, run_update, run_pure]
  rfl

theorem step_pushed {word : UInt16} (pushes : w.pushed? = some word) :
    w.step.2.cpu.registers.sp = w.cpu.registers.sp - 2 ∧
      ∀ address, (∀ source, w.activity = .dispatch source → address ≠ 0xFF0F) →
        FlatMemory.byte w.step.2.bus address =
          FlatMemory.byte (withWord w.cpu.registers.sp word w.bus) address := by
  cases activity : w.activity with
  | idle =>
    simp only [pushed?, activity] at pushes
    cases pushes
  | dispatch source =>
    simp only [pushed?, activity] at pushes
    cases pushes
    rw [step_dispatch_flat activity]
    refine ⟨rfl, fun address apart => ?_⟩
    exact (FlatMemory.byte_write _ _ _ _).trans (if_neg (apart source rfl))
  | instruction =>
    obtain ⟨operand, registers, bus⟩ := step_performed activity
    obtain ⟨sp, stored⟩ := performed_pushed activity pushes operand
    refine ⟨(congrArg Registers.sp registers).trans sp, fun address _ => ?_⟩
    rw [bus, stored]

theorem step_popped {receiver : Receiver} (pops : w.receiver? = some receiver) :
    w.step.2.cpu.registers.sp = w.cpu.registers.sp + 2 ∧ w.step.2.bus = w.bus ∧
      receiver.Got
        (Word.join (FlatMemory.byte w.bus (w.cpu.registers.sp + 1))
          (FlatMemory.byte w.bus w.cpu.registers.sp))
        w.step.2.cpu.registers := by
  have executes : w.activity = .instruction := by
    cases activity : w.activity with
    | instruction => rfl
    | idle | dispatch => simp [receiver?, activity] at pops
  simp only [receiver?, executes] at pops
  obtain ⟨operand, registers, bus⟩ := step_performed executes
  rw [registers, bus]
  cases instruction : w.instruction with
  | pop target =>
    simp only [instruction] at pops
    cases pops
    refine ⟨?_, rfl, target.got_set _ _⟩
    cases target <;> rfl
  | ret | returnEnable =>
    simp only [instruction] at pops
    cases pops
    exact ⟨rfl, rfl, rfl⟩
  | returnIf condition =>
    simp only [instruction] at pops
    split at pops
    · next taken =>
      cases pops
      rw [← holds_fetchedAll] at taken
      have all : (some condition).all (·.holds w.fetchedAll.cpu.registers) = true := taken
      rw [perform, run_taken, if_pos all]
      exact ⟨rfl, rfl, rfl⟩
    · cases pops
  | _ => simp [instruction] at pops

theorem step_untaken (untaken : w.Untaken) :
    w.pushed? = none ∧ w.receiver? = none ∧
      w.step.2.cpu.registers.sp = w.cpu.registers.sp ∧ w.step.2.bus = w.bus := by
  obtain ⟨executes, condition, fails, instruction | instruction⟩ := untaken
  all_goals
    obtain ⟨operand, registers, bus⟩ := step_performed executes
    have otherwise : ¬(some condition).all (·.holds w.fetchedAll.cpu.registers) = true := by
      rw [all_holds_fetchedAll, Option.all_some, fails]
      decide
    rw [instruction, perform, run_taken, if_neg otherwise] at registers bus
    refine ⟨?_, ?_, (congrArg Registers.sp registers).trans rfl, bus⟩
    · simp [pushed?, executes, instruction, fails]
    · simp [receiver?, executes, instruction, fails]

/-- The runs from `start` on in which words are put on the stack and taken off again, together with
the words that are left on it. Steps that do neither may do anything else but move SP or change
these words. A dispatch changes FF0F besides; `guarded` runs have none while that is the address of
a byte on the stack, the saved PC included. -/
inductive Nested (guarded : Bool) (start : Wired FlatMemory) :
    List UInt16 → Wired FlatMemory → Prop
  | start : Nested guarded start [] start
  | push {words : List UInt16} {w : Wired FlatMemory} {word : UInt16}
      (run : Nested guarded start words w) (pushes : w.pushed? = some word)
      (room : words.length < 32768)
      (guard : guarded = true → ∀ source, w.activity = .dispatch source →
        ¬Covers start.cpu.registers.sp (words.length + 1) 0xFF0F) :
      Nested guarded start (word :: words) w.step.2
  | pop {words : List UInt16} {w : Wired FlatMemory} {word : UInt16} {receiver : Receiver}
      (run : Nested guarded start (word :: words) w) (pops : w.receiver? = some receiver) :
      Nested guarded start words w.step.2
  | other {words : List UInt16} {w : Wired FlatMemory}
      (run : Nested guarded start words w) (pushes : w.pushed? = none) (pops : w.receiver? = none)
      (sp : w.step.2.cpu.registers.sp = w.cpu.registers.sp)
      (bytes : ∀ address, Covers start.cpu.registers.sp words.length address →
        FlatMemory.byte w.step.2.bus address = FlatMemory.byte w.bus address) :
      Nested guarded start words w.step.2

/-- The words are where they were put. -/
theorem Nested.stacked {start w : Wired FlatMemory} {words : List UInt16}
    (run : Nested true start words w) : Stacked start.cpu.registers.sp words w := by
  induction run with
  | start => exact stacked_nil start
  | push _ pushes room guard ih =>
    obtain ⟨sp, bytes⟩ := step_pushed pushes
    refine ih.push room sp fun address covers => bytes address fun source dispatches => ?_
    rintro rfl
    exact guard rfl source dispatches covers
  | pop _ pops ih =>
    obtain ⟨sp, bus, -⟩ := step_popped pops
    exact ih.pop sp bus
  | other _ _ _ sp bytes ih => exact ih.keep sp bytes

theorem Nested.got {start w : Wired FlatMemory} {words : List UInt16} {word : UInt16}
    {receiver : Receiver} (run : Nested true start (word :: words) w)
    (pops : w.receiver? = some receiver) : receiver.Got word w.step.2.cpu.registers := by
  obtain ⟨-, -, got⟩ := step_popped pops
  rwa [run.stacked.popped] at got

theorem Nested.untaken {guarded : Bool} {start w : Wired FlatMemory} {words : List UInt16}
    (run : Nested guarded start words w) (untaken : w.Untaken) :
    Nested guarded start words w.step.2 := by
  obtain ⟨pushes, pops, sp, bus⟩ := step_untaken untaken
  refine run.other pushes pops sp fun address _ => ?_
  rw [bus]

end Wired

open Wired Execution in
/-- The stack is last in, first out, wherever it wraps. Words that are pushed come back in reverse
order; and in a run that nests calls, dispatches and pushes, in any depth that the memory has room
for, each return and each pop gets the word that was put on for it. There is room as long as any
address is clear of the stack. -/
theorem stack_lastInFirstOut :
    (∀ (w : Wired FlatMemory) (pushes : List (StackPair × Registers)) (targets : List StackPair),
      targets.length = pushes.length → pushes.length ≤ 32768 →
      Passed w pushes targets ((passAll pushes targets).run w).1
        ((passAll pushes targets).run w).2) ∧
    (∀ (start : Wired FlatMemory) (words : List UInt16) (w : Wired FlatMemory),
      Nested true start words w →
      Stacked start.cpu.registers.sp words w ∧
        (w.Untaken → Nested true start words w.step.2) ∧
        ∀ word rest receiver, words = word :: rest → w.receiver? = some receiver →
          receiver.Got word w.step.2.cpu.registers) ∧
    ∀ (base : UInt16) (count : Nat) (address : UInt16),
      ¬Stack.Covers base count address → count < 32768 := by
  refine ⟨fun w _ _ => passed_passAll w,
    fun start words w run => ⟨run.stacked, run.untaken, ?_⟩,
    fun _ _ _ free => Stack.room_of_not_covers free⟩
  rintro word rest receiver rfl pops
  exact run.got pops

/-- A processor to which an interrupt is requested, on a memory where the handler returns. -/
def Wired.interrupted (sp : UInt16) (memory : FlatMemory) : Wired FlatMemory :=
  ⟨{ Cpu.postBoot with
      interruptsEnabled := true
      registers := { Registers.postBoot with sp, pc := 0x0105 } }, memory⟩

structure FlatMemory.Returns (memory : FlatMemory) : Prop where
  enabled : byte memory 0xFFFF = 0x01
  requested : byte memory 0xFF0F = 0x01
  handler : byte memory 0x0040 = 0xD9

def FlatMemory.returning : FlatMemory :=
  Bus.write 0x0040 0xD9 (Bus.write 0xFF0F 0x01 (Bus.write 0xFFFF 0x01 Memory.zeros))

theorem FlatMemory.returns_returning : returning.Returns := by
  constructor <;> simp only [returning, byte_write] <;> rfl

namespace Wired
open Execution Stack
variable (sp : UInt16) {memory : FlatMemory} (returns : memory.Returns)
include returns

theorem activity_interrupted : (interrupted sp memory).activity = .dispatch .verticalBlank := by
  have pending : (pendingInterrupts.run (interrupted sp memory)).1 =
      ⟨FlatMemory.byte memory 0xFFFF &&& FlatMemory.byte memory 0xFF0F &&&
        InterruptSet.sources⟩ := rfl
  unfold activity
  rw [run_poll_awake _ ⟨rfl, rfl, rfl⟩, pending, returns.enabled, returns.requested]
  rfl

theorem nested_interrupted {guarded : Bool}
    (guard : guarded = true → ¬Covers sp 1 0xFF0F) :
    Nested guarded (interrupted sp memory) [0x0105] (interrupted sp memory).step.2 := by
  have pushes : (interrupted sp memory).pushed? = some 0x0105 := by
    rw [pushed?, activity_interrupted sp returns]
    rfl
  exact .push .start pushes (by decide) fun guarded _ _ => guard guarded

theorem receiver_interrupted (apart : (0x0040 : UInt16) ≠ sp - 2 ∧ (0x0040 : UInt16) ≠ sp - 1) :
    (interrupted sp memory).step.2.receiver? = some .counter := by
  have entered := step_dispatch_flat (activity_interrupted sp returns)
  generalize (interrupted sp memory).step.2 = handler at entered
  have executes : handler.activity = .instruction := by
    unfold activity
    rw [entered, run_poll_awake _ ⟨rfl, rfl, rfl⟩]
    change decided false _ = _
    unfold decided
    split <;> rfl
  have opcode : FlatMemory.byte handler.bus handler.cpu.registers.pc = 0xD9 := by
    rw [entered]
    change FlatMemory.byte (Bus.write 0xFF0F _ (withWord sp _ memory)) 0x0040 = 0xD9
    rw [FlatMemory.byte_write, if_neg (by decide), byte_withWord, if_neg apart.1, if_neg apart.2,
      returns.handler]
  rw [receiver?, executes, instruction_eq, opcode]
  rfl

end Wired

open Wired Execution Stack in
/-- Words go from pair to pair, and a handler returns to where it was called from. -/
theorem stack_lastInFirstOut_returns :
    let start := interrupted 0xFFFE FlatMemory.returning
    Passed start [(.af, .postBoot), (.bc, .postBoot)] [.de, .af]
        ((passAll [(.af, .postBoot), (.bc, .postBoot)] [.de, .af]).run start).1
        ((passAll [(.af, .postBoot), (.bc, .postBoot)] [.de, .af]).run start).2 ∧
      pushedWords [(.af, .postBoot), (.bc, .postBoot)] = [0x01B0, 0x0013] ∧
      Nested true start [0x0105] start.step.2 ∧ start.step.2.receiver? = some .counter ∧
      start.step.2.step.2.cpu.registers.pc = 0x0105 ∧
      ¬Covers start.cpu.registers.sp 1 start.cpu.registers.pc ∧ 1 < 32768 := by
  -- All that matters of the memory are three bytes; it must not be unfolded.
  have returns := FlatMemory.returns_returning
  revert returns
  generalize FlatMemory.returning = memory
  intro returns start
  have run : Nested true start [0x0105] start.step.2 :=
    nested_interrupted 0xFFFE returns fun _ => by
      rw [covers_one]
      decide
  have pops : start.step.2.receiver? = some .counter :=
    receiver_interrupted 0xFFFE returns (by decide)
  have free : ¬Covers 0xFFFE 1 0x0105 := by
    rw [covers_one]
    decide
  exact ⟨stack_lastInFirstOut.1 start _ _ rfl (by decide), by decide, run, pops,
    (stack_lastInFirstOut.2.1 start _ _ run).2.2 _ _ _ rfl pops, free,
    stack_lastInFirstOut.2.2 _ _ _ free⟩

open Wired Execution Stack in
/-- A stack over FF0F loses the return address: the dispatch stores its low byte there and changes
it when it withdraws the request. -/
theorem return_over_request :
    let start := interrupted 0xFF11 FlatMemory.returning
    Nested false start [0x0105] start.step.2 ∧ start.step.2.receiver? = some .counter ∧
      (∀ address ∈ [start.cpu.registers.pc, start.step.2.cpu.registers.pc],
        ¬Covers start.cpu.registers.sp 1 address) ∧
      start.step.2.step.2.cpu.registers.pc = 0x0104 := by
  have returns := FlatMemory.returns_returning
  revert returns
  generalize FlatMemory.returning = memory
  intro returns start
  have pops : start.step.2.receiver? = some .counter :=
    receiver_interrupted 0xFF11 returns (by decide)
  have entered := step_dispatch_flat (activity_interrupted 0xFF11 returns)
  obtain ⟨-, -, got⟩ := step_popped pops
  have vector : start.step.2.cpu.registers.pc = 0x0040 := congrArg (·.cpu.registers.pc) entered
  have sp : start.step.2.cpu.registers.sp = 0xFF0F :=
    (congrArg (·.cpu.registers.sp) entered).trans (show (0xFF11 : UInt16) - 2 = 0xFF0F by decide)
  have bus : start.step.2.bus = withDispatch 0xFF11 0x0105 .verticalBlank memory :=
    congrArg (·.bus) entered
  refine ⟨nested_interrupted 0xFF11 returns nofun, pops, ?_, got.trans ?_⟩
  · rw [vector]
    change ∀ address ∈ [0x0105, 0x0040], ¬Covers 0xFF11 1 address
    rw [List.forall_mem_cons, List.forall_mem_singleton, covers_one, covers_one]
    decide
  · have low : FlatMemory.byte (withWord 0xFF11 0x0105 memory) 0xFF0F = 0x05 := by
      rw [byte_withWord]
      rfl
    have high : FlatMemory.byte (withWord 0xFF11 0x0105 memory) 0xFF10 = 0x01 := by
      rw [byte_withWord]
      rfl
    rw [sp, bus, withDispatch]
    change Word.join (FlatMemory.byte (Bus.write 0xFF0F _ _) 0xFF10) _ = _
    rw [FlatMemory.byte_write, FlatMemory.byte_write, if_pos rfl, if_neg (by decide), low, high]
    rfl

end DotMatrix
