import DotMatrix.Proofs.Board.Requests
import DotMatrix.Proofs.Console.History
import DotMatrix.Proofs.Safe.PowerOn

/-! The requests in a game. None is lost and none comes from nowhere: at any moment those stand
that were entered and not withdrawn since, and a frame tells the host of all that the parts have
requested since the frame before. -/
namespace DotMatrix

namespace Wired

theorem takeRaised_not_mem_stepEvents (m : Wired LiveBoard) : .takeRaised ∉ m.stepEvents := by
  unfold stepEvents
  split <;> simp

theorem takeRaised_not_mem_events (turns : List Turn) (m : Wired LiveBoard) :
    .takeRaised ∉ m.events turns := by
  induction turns generalizing m with
  | nil => exact List.not_mem_nil
  | cons turn turns ih =>
    have first : .takeRaised ∉ m.turnEvents turn := by
      cases turn with
      | step => exact takeRaised_not_mem_stepEvents m
      | tick | stall => simp [turnEvents]
    unfold events
    rw [List.mem_append]
    rintro (now | later)
    · exact first now
    · split at later
      case h_1 next goes => exact ih next later
      case h_2 => exact List.not_mem_nil later

end Wired

namespace Console
variable {c returned next last : Console}

/-- Buttons are pressed and released. -/
def Play.Presses : Play → Prop
  | .press _ _ => True
  | .frame _ => False

theorem takeRaised_not_mem_history {presses : List Play}
    (only : ∀ play ∈ presses, play.Presses) (c : Console) : .takeRaised ∉ c.history presses := by
  induction presses generalizing c with
  | nil => exact List.not_mem_nil
  | cons play presses ih =>
    obtain ⟨first, rest⟩ := List.forall_mem_cons.mp only
    cases play with
    | frame => exact first.elim
    | press button held =>
      rw [history, List.mem_append]
      rintro (now | later)
      · simp [playEvents] at now
      · exact ih rest _ later

/-- A frame reports what had gathered when it began and what is requested in it, and none of that
is left for the next. -/
theorem interrupts_runFrame {held : ButtonSet} {output : FrameOutput}
    (runs : c.runFrame held = .ok (output, next)) :
    output.interrupts =
        c.machine.bus.board.raised ∪ c.machine.bus.requestsIn (c.playEvents (.frame held)) ∧
      next.machine.bus.board.raised = ∅ := by
  obtain ⟨machine, ran, rfl, ended⟩ := runFrame_turns runs
  refine ⟨?_, congrArg (·.bus.board.raised) ended⟩
  have reaches : c.machine.bus.replay ([.hold held, .takeFrame] ++
      (c.beginFrame held).machine.events (c.frameTurns held)) = .ok machine.bus :=
    LiveBoard.replay_append.mpr ⟨_, rfl, Wired.replay_events ran⟩
  have kept : .takeRaised ∉ [.hold held, .takeFrame] ++
      (c.beginFrame held).machine.events (c.frameTurns held) := by
    simp [Wired.takeRaised_not_mem_events]
  have taking : machine.bus.requestsIn [.takeSamples, .takeRaised] = ∅ :=
    show (∅ ∪ (∅ ∪ ∅) : InterruptSet) = ∅ from rfl
  unfold playEvents
  rw [LiveBoard.requestsIn_append reaches, taking, InterruptSet.union_empty]
  exact LiveBoard.raised_replay kept reaches

/-- The last call before this, if there is one, returned from a frame. -/
def BetweenFrames (earlier : List Play) : Prop :=
  ∀ play ∈ earlier.getLast?, ∃ held, play = .frame held

theorem raised_between {image : Image} {settings : Settings}
    (on : Console.powerOn image settings = .ok c) {earlier : List Play}
    (between : BetweenFrames earlier) (runs : earlier.foldlM play c = .ok returned) :
    returned.machine.bus.board.raised = ∅ := by
  rcases List.eq_nil_or_concat earlier with rfl | ⟨plays, last, rfl⟩
  · cases runs
    obtain ⟨header, -, rfl⟩ := powerOn_eq_ok.mp on
    rfl
  · rw [List.concat_eq_append] at between runs
    obtain ⟨held, rfl⟩ := between last (by simp)
    obtain ⟨before, -, runs⟩ := Except.foldlM_append_eq_ok.mp runs
    obtain ⟨after, goes, same⟩ := Except.foldlM_cons_eq_ok.mp runs
    cases same
    obtain ⟨⟨output, returned⟩, frame, rfl⟩ := Except.map_eq_ok.mp goes
    exact (interrupts_runFrame frame).2

/-- In all that happens in a game a request stands from the moment in which a part makes it, or a
program writes it, to the one in which it is withdrawn, and a frame reports exactly what the parts
have requested since the one before it returned. -/
theorem requests_kept {image : Image} {settings : Settings}
    (on : Console.powerOn image settings = .ok c) {plays : List Play}
    (runs : plays.foldlM play c = .ok last) :
    c.machine.bus.replay (c.history plays) = .ok last.machine.bus ∧
      (∀ past future, c.history plays = past ++ future →
        ∃ live, c.machine.bus.replay past = .ok live ∧
          ∀ i, i ∈ live.board.requested ↔
            c.machine.bus.Entered i past ∨
              i = .verticalBlank ∧ ∀ event ∈ past, ¬event.Withdraws i) ∧
      ∀ earlier presses held, plays = earlier ++ presses ++ [.frame held] →
        BetweenFrames earlier → (∀ play ∈ presses, play.Presses) →
          ∃ returned pressed output, earlier.foldlM play c = .ok returned ∧
            presses.foldlM play returned = .ok pressed ∧
            pressed.runFrame held = .ok (output, last) ∧
            output.interrupts = returned.machine.bus.requestsIn
              (returned.history (presses ++ [.frame held])) := by
  have whole := replay_history runs
  refine ⟨whole, ?_, ?_⟩
  · intro past future cut
    rw [cut] at whole
    obtain ⟨live, reaches, -⟩ := LiveBoard.replay_append.mp whole
    refine ⟨live, reaches, fun i => ?_⟩
    have first : i ∈ c.machine.bus.board.requested ↔ i = .verticalBlank := by
      obtain ⟨header, -, rfl⟩ := powerOn_eq_ok.mp on
      exact InterruptSet.mem_singleton
    rw [LiveBoard.mem_requested_replay reaches, first]
  · rintro earlier presses held rfl between only
    obtain ⟨pressed, runs, ends⟩ := Except.foldlM_append_eq_ok.mp runs
    obtain ⟨next, goes, same⟩ := Except.foldlM_cons_eq_ok.mp ends
    cases same
    obtain ⟨returned, reaches, presses_run⟩ := Except.foldlM_append_eq_ok.mp runs
    obtain ⟨⟨output, next⟩, frame, rfl⟩ := Except.map_eq_ok.mp goes
    refine ⟨returned, pressed, output, reaches, presses_run, frame, ?_⟩
    -- The frame before has taken all there was, so what it finds is from the presses.
    have gathered := LiveBoard.raised_replay (takeRaised_not_mem_history only returned)
      (replay_history presses_run)
    rw [raised_between on between reaches, InterruptSet.empty_union] at gathered
    rw [(interrupts_runFrame frame).1, gathered, history_append presses_run, history_singleton,
      LiveBoard.requestsIn_append (replay_history presses_run)]

/-- Start is pressed before the first frame. -/
theorem requests_kept_start :
    ∃ c pressed output last, Console.powerOn Image.blank .standard = .ok c ∧
      c.play (.press .start true) = .ok pressed ∧
      pressed.runFrame ⟨0x08⟩ = .ok (output, last) ∧
      output.interrupts =
        c.machine.bus.requestsIn (c.history [.press .start true, .frame ⟨0x08⟩]) := by
  obtain ⟨header, parsed⟩ := Header.parse_blank
  have on := powerOn_started parsed .standard
  have inRange := InRange.powerOn on
  let pressed := (started Image.blank .standard header).press .start true
  have pressedRange : pressed.InRange Image.blank .standard :=
    inRange.updateBoard (inRange.bus.board.press .start true)
  have time := pressedRange.frameTime_le ⟨0x08⟩
  have size : UInt64.size = 0x10000000000000000 := rfl
  have most : longestStep * Settings.standard.maxSteps = 132800000 := rfl
  have ran : pressed.runFrame ⟨0x08⟩ = .ok (pressed.passFrame ⟨0x08⟩) :=
    runFrame_eq_ok.mpr ⟨⟨show 0 + _ < _ by omega, show 0 + 1 < UInt64.size by omega⟩, rfl⟩
  have returns : pressed.play (.frame ⟨0x08⟩) = .ok (pressed.passFrame ⟨0x08⟩).2 :=
    Except.map_eq_ok.mpr ⟨_, ran, rfl⟩
  have plays : [.press .start true, .frame ⟨0x08⟩].foldlM play
      (started Image.blank .standard header) = .ok (pressed.passFrame ⟨0x08⟩).2 :=
    Except.foldlM_cons_eq_ok.mpr ⟨pressed, rfl, Except.foldlM_cons_eq_ok.mpr ⟨_, returns, rfl⟩⟩
  obtain ⟨-, -, frames⟩ := requests_kept on plays
  obtain ⟨returned, same, output, nothing, presses, frame, reported⟩ :=
    frames [] [.press .start true] ⟨0x08⟩ rfl (by simp [BetweenFrames])
      (List.forall_mem_singleton.mpr trivial)
  cases nothing
  obtain rfl : pressed = same := Except.ok.inj presses
  exact ⟨_, pressed, output, _, on, rfl, frame, reported⟩

end Console
end DotMatrix
