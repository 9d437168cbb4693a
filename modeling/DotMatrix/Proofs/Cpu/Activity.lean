import DotMatrix.Proofs.Cpu.Related

/-! A step first looks around, which decides between idling, a dispatch and an instruction, and
then does what was decided. -/
namespace DotMatrix

/-- What a step turns out to be. -/
inductive Activity where
  | idle
  | dispatch (source : Interrupt)
  | instruction
  deriving DecidableEq

namespace Execution
variable {α β γ : Type} [Bus β] [Bus γ]

def pollAwake : Execution β Activity := do
  let pending ← pendingInterrupts
  let cpu ← processor
  if cpu.halted && pending == ∅ then return .idle
  else
    updateCpu fun cpu => { cpu with halted := false }
    match pending.highest? with
    | some source => return if cpu.interruptsEnabled then .dispatch source else .instruction
    | none => return .instruction

def poll : Execution β Activity := do
  let cpu ← processor
  if cpu.locked then return .idle
  else if cpu.stopped then
    if (← readByte 0xFF00) &&& 0x0F == 0x0F then return .idle
    else
      updateCpu fun cpu => { cpu with stopped := false }
      pollAwake
  else pollAwake

def act : Activity → Execution β Nat
  | .idle => return idleCycles
  | .dispatch source => dispatch source
  | .instruction => executeNext

theorem stepAwake_eq : (stepAwake : Execution β Nat) = pollAwake >>= act := by
  funext w
  change stepAwake.run w = (pollAwake >>= act).run w
  simp only [stepAwake, pollAwake, run_bind, run_ite]
  split
  · rfl
  · cases (pendingInterrupts.run w).1.highest? with
    | none => rfl
    | some source =>
      simp only [run_ite, run_pure]
      split <;> rfl

theorem step_eq : (step : Execution β Nat) = poll >>= act := by
  funext w
  change step.run w = (poll >>= act).run w
  simp only [step, poll, run_bind, run_ite, stepAwake_eq]
  split
  · rfl
  · split
    · split <;> rfl
    · rfl

inductive Polled (cpu : Cpu) : Activity → Cpu → Prop
  | idle (stopped : Bool) (still : stopped = true → cpu.stopped = true)
      (asleep : cpu.locked = true ∨ cpu.stopped = true ∨ cpu.halted = true) :
      Polled cpu .idle { cpu with stopped }
  | dispatch (source : Interrupt) (unlocked : cpu.locked = false)
      (enabled : cpu.interruptsEnabled = true) :
      Polled cpu (.dispatch source) { cpu with halted := false, stopped := false }
  | instruction (unlocked : cpu.locked = false) :
      Polled cpu .instruction { cpu with halted := false, stopped := false }

theorem cpu_pendingInterrupts (w : Wired β) : (pendingInterrupts.run w).2.cpu = w.cpu := rfl

theorem polled_pollAwake (cpu : Cpu) (unlocked : cpu.locked = false) (w : Wired β)
    (woken : w.cpu = { cpu with stopped := false }) :
    Polled cpu (pollAwake.run w).1 (pollAwake.run w).2.cpu := by
  simp only [pollAwake, run_bind, run_ite]
  simp only [run_processor, cpu_pendingInterrupts, woken]
  by_cases waits : (cpu.halted && (pendingInterrupts.run w).1 == ∅) = true
  · have asleep : cpu.halted = true := by simp_all
    simp only [waits, if_true, run_pure, cpu_pendingInterrupts, woken]
    exact .idle false (by simp) (.inr (.inr asleep))
  · simp only [waits, Bool.false_eq_true, if_false]
    cases (pendingInterrupts.run w).1.highest? with
    | none =>
      simp only [run_updateCpu, run_pure, cpu_pendingInterrupts, woken]
      exact .instruction unlocked
    | some source =>
      simp only [run_updateCpu, run_pure, cpu_pendingInterrupts, woken]
      split
      case isTrue enabled => exact .dispatch source unlocked enabled
      case isFalse => exact .instruction unlocked

theorem polled_poll (w : Wired β) : Polled w.cpu (poll.run w).1 (poll.run w).2.cpu := by
  simp only [poll, run_bind, run_ite]
  split
  case isTrue locked => exact .idle w.cpu.stopped id (.inl locked)
  case isFalse unlocked =>
    have unlocked : w.cpu.locked = false := by simpa using unlocked
    split
    case isTrue stopped =>
      split
      · exact .idle w.cpu.stopped id (.inr (.inl stopped))
      · exact polled_pollAwake w.cpu unlocked (Wired.mk { w.cpu with stopped := false } _) rfl
    case isFalse running =>
      have running : w.cpu.stopped = false := by simpa using running
      exact polled_pollAwake w.cpu unlocked w (by rw [← running])

end Execution

open Execution

theorem Wired.step_eq {β : Type} [Bus β] (w : Wired β) :
    w.step = (act (poll.run w).1).run (poll.run w).2 := by
  rw [Wired.step, Execution.step_eq, run_bind]

/-- What the step of a processor on this bus turns out to be. -/
def Wired.activity {β : Type} [Bus β] (w : Wired β) : Activity := (poll.run w).1

end DotMatrix
