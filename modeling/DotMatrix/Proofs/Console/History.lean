import DotMatrix.Proofs.Board.Event
import DotMatrix.Proofs.Console.Reachable

/-! The history of a console: every event on its bus, in order, through steps of the processor and
stretches of time, through frames and through the plays of a host. -/
namespace DotMatrix

/-- What a scheduler does with a machine. -/
inductive Turn where
  | step
  | tick (cycles : Nat)
  /-- The time that the processor owes for a transfer passes. -/
  | stall

namespace Wired
variable {m next last : Wired LiveBoard} {turns : List Turn}

def withBus (m : Wired LiveBoard) (bus : LiveBoard) : Wired LiveBoard := { m with bus }

def turn (m : Wired LiveBoard) : Turn → Except Fault (Wired LiveBoard)
  | .step => .ok m.step.2
  | .tick cycles => (m.bus.tick cycles).map m.withBus
  | .stall => (m.bus.takeStall.2.tick m.bus.takeStall.1).map m.withBus

def turnEvents (m : Wired LiveBoard) : Turn → List Event
  | .step => m.stepEvents
  | .tick cycles => [.tick cycles]
  | .stall => [.takeStall, .tick m.bus.takeStall.1]

def events : List Turn → Wired LiveBoard → List Event
  | [], _ => []
  | turn :: turns, m =>
    m.turnEvents turn ++
      match m.turn turn with
      | .ok next => events turns next
      | .error _ => []

theorem replay_turnEvents {turn : Turn} (goes : m.turn turn = .ok next) :
    m.bus.replay (m.turnEvents turn) = .ok next.bus := by
  cases turn with
  | step =>
    cases goes
    exact m.replay_stepEvents
  | tick cycles =>
    obtain ⟨bus, passes, rfl⟩ := Except.map_eq_ok.mp goes
    exact (LiveBoard.replay_singleton _).trans passes
  | stall =>
    obtain ⟨bus, passes, rfl⟩ := Except.map_eq_ok.mp goes
    refine LiveBoard.replay_cons.mpr ⟨_, rfl, ?_⟩
    exact (LiveBoard.replay_singleton _).trans passes

theorem replay_events (runs : turns.foldlM turn m = .ok last) :
    m.bus.replay (m.events turns) = .ok last.bus := by
  induction turns generalizing m with
  | nil =>
    cases runs
    rfl
  | cons turn turns ih =>
    obtain ⟨next, goes, runs⟩ := Except.foldlM_cons_eq_ok.mp runs
    unfold events
    rw [goes]
    exact LiveBoard.replay_append.mpr ⟨next.bus, replay_turnEvents goes, ih runs⟩

/-- The turns of a frame. -/
def frameTurns : (steps elapsed : Nat) → Wired LiveBoard → List Turn
  | 0, _, _ => []
  | steps + 1, elapsed, m =>
    [.step, .tick m.step.1, .stall] ++
      match m.advance with
      | .error _ => []
      | .ok (cycles, next) =>
        if next.frameEnds (elapsed + cycles) then []
        else frameTurns steps (elapsed + cycles) next

theorem advance_turns (m : Wired LiveBoard) :
    [.step, .tick m.step.1, .stall].foldlM turn m = m.advance.map (·.2) := by
  change ((m.step.2.bus.tick m.step.1).map m.step.2.withBus >>=
    fun next => next.turn .stall >>= pure) = _
  unfold advance
  dsimp only
  cases m.step.2.bus.tick m.step.1 with
  | error fault => rfl
  | ok bus =>
    change ((bus.takeStall.2.tick bus.takeStall.1).map _ >>= pure) = _
    dsimp only
    cases bus.takeStall.2.tick bus.takeStall.1 <;> rfl

theorem runSteps_turns (steps elapsed : Nat) (m : Wired LiveBoard) :
    (m.frameTurns steps elapsed).foldlM turn m = m.runSteps steps elapsed := by
  induction steps generalizing elapsed m with
  | zero => rfl
  | succ steps ih =>
    unfold frameTurns runSteps
    rw [List.foldlM_append, advance_turns]
    cases m.advance with
    | error fault => rfl
    | ok advanced =>
      obtain ⟨cycles, next⟩ := advanced
      change List.foldlM turn next (if next.frameEnds (elapsed + cycles) = true then [] else _) = _
      dsimp only
      split
      · rfl
      · exact ih (elapsed + cycles) next

end Wired

namespace Console
variable {c next last : Console}

/-- A call of a host that plays. -/
inductive Play where
  | frame (held : ButtonSet)
  | press (button : Button) (held : Bool)

def play (c : Console) : Play → Except Fault Console
  | .frame held => (c.runFrame held).map (·.2)
  | .press button held => .ok (c.press button held)

/-- The turns of the processor in a frame. -/
def frameTurns (held : ButtonSet) (c : Console) : List Turn :=
  (c.beginFrame held).machine.frameTurns c.machine.bus.settings.maxSteps 0

def playEvents (c : Console) : Play → List Event
  | .frame held =>
    [.hold held, .takeFrame] ++ (c.beginFrame held).machine.events (c.frameTurns held) ++
      [.takeSamples, .takeRaised]
  | .press button held => [.hold (c.held.set button held)]

def history : List Play → Console → List Event
  | [], _ => []
  | play :: plays, c =>
    c.playEvents play ++
      match c.play play with
      | .ok next => history plays next
      | .error _ => []

theorem runFrame_turns {held : ButtonSet} {output : FrameOutput}
    (runs : c.runFrame held = .ok (output, next)) :
    ∃ machine, (c.frameTurns held).foldlM Wired.turn (c.beginFrame held).machine = .ok machine ∧
      output = ⟨machine.bus.samples, machine.bus.board.raised⟩ ∧
      next.machine = endFrame machine := by
  rw [runFrame_eq] at runs
  split at runs
  · cases runs
  · rename_i machine ran
    split at runs
    · cases runs
    · cases runs
      exact ⟨machine, (Wired.runSteps_turns ..).trans ran, rfl, rfl⟩

theorem replay_playEvents {play : Play} (goes : c.play play = .ok next) :
    c.machine.bus.replay (c.playEvents play) = .ok next.machine.bus := by
  cases play with
  | press button held =>
    cases goes
    exact LiveBoard.replay_singleton _
  | frame held =>
    obtain ⟨⟨output, next⟩, runs, rfl⟩ := Except.map_eq_ok.mp goes
    obtain ⟨machine, ran, -, ended⟩ := runFrame_turns runs
    rw [ended]
    refine LiveBoard.replay_append.mpr ⟨machine.bus, ?_, rfl⟩
    exact LiveBoard.replay_append.mpr
      ⟨(c.beginFrame held).machine.bus, rfl, Wired.replay_events ran⟩

theorem history_append {first rest : List Play} (runs : first.foldlM play c = .ok next) :
    c.history (first ++ rest) = c.history first ++ next.history rest := by
  induction first generalizing c with
  | nil =>
    cases runs
    rfl
  | cons play first ih =>
    obtain ⟨middle, goes, runs⟩ := Except.foldlM_cons_eq_ok.mp runs
    rw [List.cons_append, history, history, goes, List.append_assoc]
    exact congrArg _ (ih runs)

theorem history_singleton (play : Play) (c : Console) : c.history [play] = c.playEvents play := by
  rw [history]
  cases c.play play <;> exact List.append_nil _

/-- The history tells the whole story of the board. -/
theorem replay_history {plays : List Play} (runs : plays.foldlM play c = .ok last) :
    c.machine.bus.replay (c.history plays) = .ok last.machine.bus := by
  induction plays generalizing c with
  | nil =>
    cases runs
    rfl
  | cons play plays ih =>
    obtain ⟨next, goes, runs⟩ := Except.foldlM_cons_eq_ok.mp runs
    unfold history
    rw [goes]
    exact LiveBoard.replay_append.mpr ⟨next.machine.bus, replay_playEvents goes, ih runs⟩

end Console
end DotMatrix
