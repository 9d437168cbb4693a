import DotMatrix.Proofs.Cpu.Simulation

/-! The accesses that a computation of the processor makes, in order. They say all that it does to
the bus: made one after the other they leave the bus as the computation does. -/
namespace DotMatrix
variable {α β : Type} [Bus β]

def Access.on (bus : β) : Access → β
  | .read address => (Bus.read address bus).2
  | .write address value => Bus.write address value bus

def Traced.Follows (start : β) (traced : Traced β) (bus : β) : Prop :=
  traced.bus = bus ∧ traced.accesses.reverse.foldl Access.on start = bus

theorem Traced.simulation_follows (start : β) : Bus.Simulation (Traced.Follows start) where
  read address := by
    rintro ⟨_, accesses⟩ bus ⟨rfl, made⟩
    refine ⟨rfl, rfl, ?_⟩
    change (Access.read address :: accesses).reverse.foldl Access.on start = _
    rw [List.reverse_cons, List.foldl_append, made]
    rfl
  write address value := by
    rintro ⟨_, accesses⟩ bus ⟨rfl, made⟩
    refine ⟨rfl, ?_⟩
    change (Access.write address value :: accesses).reverse.foldl Access.on start = _
    rw [List.reverse_cons, List.foldl_append, made]
    rfl

namespace Execution

def accesses (m : Execution (Traced β) α) (w : Wired β) : List Access :=
  (m.run ⟨w.cpu, ⟨w.bus, []⟩⟩).2.bus.accesses.reverse

theorem foldl_accesses {m : Execution (Traced β) α} {m' : Execution β α} (w : Wired β)
    (related : Related (Wiring (Traced.Follows w.bus)) m m') :
    (accesses m w).foldl Access.on w.bus = (m'.run w).2.bus :=
  (related ⟨w.cpu, ⟨w.bus, []⟩⟩ w ⟨rfl, rfl, rfl⟩).2.2.2

def saveReturn : Execution β Unit := do
  updateCpu fun cpu => { cpu with interruptsEnabled := false, enableDelay := 0 }
  pushWord (← registers).pc

def enterHandler (source : Interrupt) : Execution β Nat := do
  let requested ← readByte 0xFF0F
  writeByte 0xFF0F (InterruptSet.erase ⟨requested⟩ source).bits
  setPC source.vector
  return dispatchCycles

theorem dispatch_eq (source : Interrupt) :
    (dispatch source : Execution β Nat) = saveReturn >>= fun _ => enterHandler source :=
  rfl

theorem related_saveReturn {γ : Type} [Bus γ] {rel : β → γ → Prop} (sim : Bus.Simulation rel) :
    Related (Wiring rel) saveReturn saveReturn :=
  (related_updateCpu _).bind fun _ => (frame_of_simulation sim).withRegisters fun _ =>
    (frame_of_simulation sim).pushWord _

end Execution

namespace Wired
open Execution

def accesses (w : Wired β) : List Access := Execution.accesses step w

def accessesBeforeWithdrawal (w : Wired β) : List Access :=
  Execution.accesses (do let _ ← poll; saveReturn) w

theorem foldl_accesses (w : Wired β) : w.accesses.foldl Access.on w.bus = w.step.2.bus :=
  Execution.foldl_accesses w (related_step (Traced.simulation_follows w.bus))

theorem foldl_accessesBeforeWithdrawal (w : Wired β) :
    w.accessesBeforeWithdrawal.foldl Access.on w.bus = (saveReturn.run (poll.run w).2).2.bus := by
  have sim := Traced.simulation_follows w.bus
  exact Execution.foldl_accesses w ((related_poll sim).bind fun _ => related_saveReturn sim)

end Wired
end DotMatrix
