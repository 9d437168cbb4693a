import DotMatrix.Proofs.Cpu.Activity

/-! A processor cannot tell apart two buses that answer alike. What reads and writes keep of a
bus, or between two buses, is kept by a whole step. -/
namespace DotMatrix

/-- A relation between two buses that their answers do not tell apart. -/
structure Bus.Simulation {β γ : Type} [Bus β] [Bus γ] (rel : β → γ → Prop) : Prop where
  read : ∀ address bus bus', rel bus bus' →
    (Bus.read address bus).1 = (Bus.read address bus').1 ∧
      rel (Bus.read address bus).2 (Bus.read address bus').2
  write : ∀ address value bus bus', rel bus bus' →
    rel (Bus.write address value bus) (Bus.write address value bus')

namespace Execution
section
variable {β γ : Type} {rel : β → γ → Prop}

def Wiring (rel : β → γ → Prop) (w : Wired β) (w' : Wired γ) : Prop :=
  w.cpu = w'.cpu ∧ rel w.bus w'.bus

theorem related_updateCpu (change : Cpu → Cpu) :
    Related (Wiring rel) (updateCpu change) (updateCpu change) := by
  intro w w' ⟨same, related⟩
  exact ⟨rfl, congrArg change same, related⟩

theorem related_processor : Related (Wiring rel) processor processor :=
  fun _ _ h => ⟨h.1, h⟩

end

variable {β γ : Type} [Bus β] [Bus γ] {rel : β → γ → Prop}

theorem frame_of_simulation (sim : Bus.Simulation rel) : Frame (Wiring rel) where
  registers _ _ h := congrArg Cpu.registers h.1
  update _ := related_updateCpu _
  readByte address := by
    intro w w' ⟨same, related⟩
    obtain ⟨answer, next⟩ := sim.read address _ _ related
    exact ⟨answer, same, next⟩
  writeByte address value := by
    intro w w' ⟨same, related⟩
    exact ⟨rfl, same, sim.write address value _ _ related⟩

theorem related_fetch (sim : Bus.Simulation rel) : Related (Wiring rel) fetch fetch :=
  (frame_of_simulation sim).withRegisters fun _ =>
    ((frame_of_simulation sim).readByte _).bind fun _ =>
      (related_updateCpu _).bind fun _ => .pure _

theorem related_fetchOperand (sim : Bus.Simulation rel) (count : Nat) :
    Related (Wiring rel) (fetchOperand count) (fetchOperand count) := by
  match count with
  | 0 => exact .pure _
  | 1 => exact (related_fetch sim).bind fun _ => .pure _
  | _ + 2 =>
    exact (related_fetch sim).bind fun _ => (related_fetch sim).bind fun _ => .pure _

theorem related_perform (sim : Bus.Simulation rel) (operand : UInt16) (instruction : Instruction) :
    Related (Wiring rel) (perform operand instruction) (perform operand instruction) := by
  have frame := frame_of_simulation sim
  cases kind : controls instruction with
  | false => exact frame.perform operand instruction kind
  | true =>
    cases instruction with
    | stop | disableInterrupts | enableInterrupts | undefined =>
      exact (related_updateCpu _).bind fun _ => .pure _
    | returnEnable =>
      exact frame.popWord.bind fun _ => (frame.update _).bind fun _ =>
        (related_updateCpu _).bind fun _ => .pure _
    | halt =>
      have done (change : Cpu → Cpu) : Related (Wiring rel)
          (do updateCpu change; return 4) (do updateCpu change; return 4) :=
        (related_updateCpu change).bind fun _ => .pure 4
      exact related_processor.bind fun _ => .branch (done _) <|
        frame.pendingInterrupts.bind fun _ => .branch (done _) (done _)
    | _ => cases kind

theorem related_execute (sim : Bus.Simulation rel) (instruction : Instruction) :
    Related (Wiring rel) (execute instruction) (execute instruction) :=
  (related_fetchOperand sim _).bind fun _ => related_perform sim _ _

theorem related_executeNext (sim : Bus.Simulation rel) :
    Related (Wiring rel) executeNext executeNext :=
  (related_fetch sim).bind fun _ => (related_execute sim _).bind fun _ =>
    (related_updateCpu _).bind fun _ => .pure _

theorem related_dispatch (sim : Bus.Simulation rel) (source : Interrupt) :
    Related (Wiring rel) (dispatch source) (dispatch source) := by
  have frame := frame_of_simulation sim
  exact (related_updateCpu _).bind fun _ => frame.withRegisters fun _ =>
    (frame.pushWord _).bind fun _ => (frame.readByte _).bind fun _ =>
      (frame.writeByte _ _).bind fun _ => (frame.update _).bind fun _ => .pure _

theorem related_pollAwake (sim : Bus.Simulation rel) :
    Related (Wiring rel) pollAwake pollAwake := by
  refine (frame_of_simulation sim).pendingInterrupts.bind fun pending =>
    related_processor.bind fun cpu => .branch (.pure _) ?_
  refine (related_updateCpu _).bind fun _ => ?_
  split
  · exact .pure _
  · exact .pure _

theorem related_poll (sim : Bus.Simulation rel) : Related (Wiring rel) poll poll := by
  refine related_processor.bind fun cpu => .branch (.pure _) (.branch ?_ (related_pollAwake sim))
  exact ((frame_of_simulation sim).readByte _).bind fun _ =>
    .branch (.pure _) ((related_updateCpu _).bind fun _ => related_pollAwake sim)

theorem related_step (sim : Bus.Simulation rel) : Related (Wiring rel) step step := by
  rw [step_eq, step_eq]
  refine (related_poll sim).bind fun activity => ?_
  cases activity with
  | idle => exact .pure _
  | dispatch source => exact related_dispatch sim source
  | instruction => exact related_executeNext sim

end Execution

namespace Wired
variable {β γ : Type} [Bus β] [Bus γ]

/-- A step on a bus that answers alike is the same step. -/
theorem step_simulation {rel : β → γ → Prop} (sim : Bus.Simulation rel) {w : Wired β}
    {w' : Wired γ} (same : w.cpu = w'.cpu) (related : rel w.bus w'.bus) :
    w.step.1 = w'.step.1 ∧ w.step.2.cpu = w'.step.2.cpu ∧ rel w.step.2.bus w'.step.2.bus :=
  Execution.related_step sim w w' ⟨same, related⟩

/-- What every read and write keeps, a step keeps. -/
theorem step_keeps {inv : β → Prop} (read : ∀ address bus, inv bus → inv (Bus.read address bus).2)
    (write : ∀ address value bus, inv bus → inv (Bus.write address value bus)) {w : Wired β}
    (holds : inv w.bus) : inv w.step.2.bus := by
  have sim : Bus.Simulation fun bus bus' : β => bus = bus' ∧ inv bus :=
    { read := by
        rintro address bus _ ⟨rfl, holds⟩
        exact ⟨rfl, rfl, read address bus holds⟩
      write := by
        rintro address value bus _ ⟨rfl, holds⟩
        exact ⟨rfl, write address value bus holds⟩ }
  exact (step_simulation sim rfl ⟨rfl, holds⟩).2.2.2

end Wired
end DotMatrix
