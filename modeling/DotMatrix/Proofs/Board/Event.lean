import DotMatrix.Console.Basic
import DotMatrix.Proofs.Checks
import DotMatrix.Proofs.Cpu.Accesses

/-! What happens on the bus of a running console, access by access: a step of the processor is no
longer one change of the board but one for each access, and time and the calls of the host come in
between. -/
namespace DotMatrix

inductive Event where
  /-- An access of the processor's own accord. -/
  | access (access : Access)
  /-- A step withdraws the request of the source that it dispatches. -/
  | withdraw (source : Interrupt)
  | tick (cycles : Nat)
  | takeStall
  | hold (held : ButtonSet)
  /-- The host takes note of the picture. -/
  | takeFrame
  | takeSamples
  | takeRaised

namespace LiveBoard

def undergo (live : LiveBoard) : Event → Except Fault LiveBoard
  | .access access => .ok (access.on live)
  | .withdraw source =>
    .ok (live.write 0xFF0F (InterruptSet.erase ⟨live.read 0xFF0F⟩ source).bits)
  | .tick cycles => live.tick cycles
  | .takeStall => .ok live.takeStall.2
  | .hold held => .ok (live.update (Board.hold held))
  | .takeFrame => .ok (live.update (Console.updateVideo ({ · with frameReady := false })))
  | .takeSamples => .ok live.takeSamples.2
  | .takeRaised => .ok (live.update fun b => b.takeRaised.2)

/-- The board after several events; a counter that is used up ends it. -/
def replay (events : List Event) (live : LiveBoard) : Except Fault LiveBoard :=
  events.foldlM undergo live

variable {live middle last : LiveBoard} {first rest : List Event}

theorem replay_append :
    live.replay (first ++ rest) = .ok last ↔
      ∃ middle, live.replay first = .ok middle ∧ middle.replay rest = .ok last :=
  Except.foldlM_append_eq_ok

theorem replay_cons {event : Event} :
    live.replay (event :: rest) = .ok last ↔
      ∃ middle, live.undergo event = .ok middle ∧ middle.replay rest = .ok last :=
  Except.foldlM_cons_eq_ok

theorem replay_singleton (event : Event) : live.replay [event] = live.undergo event := by
  unfold replay
  rw [List.foldlM_cons]
  exact bind_pure _

theorem replay_accesses (accesses : List Access) (live : LiveBoard) :
    live.replay (accesses.map .access) = .ok (accesses.foldl Access.on live) := by
  induction accesses generalizing live with
  | nil => rfl
  | cons access accesses ih => exact ih (access.on live)

end LiveBoard

namespace Wired
open Execution

def stepEvents (m : Wired LiveBoard) : List Event :=
  match m.activity with
  | .dispatch source => m.accessesBeforeWithdrawal.map .access ++ [.withdraw source]
  | _ => m.accesses.map .access

/-- It is all that the step does. -/
theorem replay_stepEvents (m : Wired LiveBoard) : m.bus.replay m.stepEvents = .ok m.step.2.bus := by
  unfold stepEvents
  cases activity : m.activity with
  | dispatch source =>
    refine LiveBoard.replay_append.mpr ⟨_, LiveBoard.replay_accesses _ _, ?_⟩
    rw [m.foldl_accessesBeforeWithdrawal, LiveBoard.replay_singleton, m.step_eq,
      show (poll.run m).1 = .dispatch source from activity, act, dispatch_eq]
    rfl
  | idle | instruction =>
    rw [LiveBoard.replay_accesses, m.foldl_accesses]

end Wired
end DotMatrix
