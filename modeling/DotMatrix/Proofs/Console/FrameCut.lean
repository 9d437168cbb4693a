import DotMatrix.Proofs.Console.Genuine
import DotMatrix.Proofs.Console.Replay
import DotMatrix.Proofs.Safe.PowerOn

/-! A frame can be cut at any step. The host sees the same picture and gets the same sound and the
same requests, in pieces, and the machine cannot tell: at a cut nothing changes for it but what the
host has taken away. -/
namespace DotMatrix

theorem SameOutcome.exists_ok {ε α β : Type} {rel : α → β → Prop} {a : α} {y : Except ε β}
    (same : SameOutcome rel (.ok a) y) : ∃ b, y = .ok b ∧ rel a b := by
  cases same with
  | ok a b related => exact ⟨b, rfl, related⟩

attribute [ext] FrameOutput

instance : Append FrameOutput :=
  ⟨fun first rest => ⟨first.samples ++ rest.samples, first.interrupts ∪ rest.interrupts⟩⟩

namespace FrameOutput

def none : FrameOutput := ⟨#[], ∅⟩

/-- The output of several frames as of one. -/
def gather (outputs : List FrameOutput) : FrameOutput := outputs.foldr (· ++ ·) none

theorem append_assoc (first middle rest : FrameOutput) :
    first ++ middle ++ rest = first ++ (middle ++ rest) := by
  apply FrameOutput.ext
  · exact Array.append_assoc
  · exact InterruptSet.union_assoc ..

theorem append_none (output : FrameOutput) : output ++ none = output := by
  apply FrameOutput.ext
  · exact Array.append_empty
  · exact InterruptSet.union_empty _

theorem none_append (output : FrameOutput) : none ++ output = output := by
  apply FrameOutput.ext
  · exact Array.empty_append
  · exact InterruptSet.empty_union _

end FrameOutput

namespace LiveBoard

def output (live : LiveBoard) : FrameOutput := ⟨live.samples, live.board.raised⟩

/-- The board with earlier output that nobody has taken either. -/
def behind (pending : FrameOutput) (live : LiveBoard) : LiveBoard :=
  { live with
    board := { live.board with raised := pending.interrupts ∪ live.board.raised }
    samples := pending.samples ++ live.samples }

variable {pending : FrameOutput} {held : ButtonSet} {live : LiveBoard}

theorem output_behind (pending : FrameOutput) (live : LiveBoard) :
    (live.behind pending).output = pending ++ live.output :=
  rfl

theorem request_behind (requests raised : InterruptSet) (b : Board) :
    Board.request requests { b with raised := raised ∪ b.raised } =
      { Board.request requests b with raised := raised ∪ (Board.request requests b).raised } := by
  unfold Board.request
  rw [InterruptSet.union_assoc]

theorem write_behind (pending : FrameOutput) (address : UInt16) (value : UInt8)
    (live : LiveBoard) :
    (live.behind pending).write address value = (live.write address value).behind pending := by
  have vram : (live.behind pending).vramOpen = live.vramOpen := rfl
  have oam : (live.behind pending).oamOpen = live.oamOpen := rfl
  unfold write
  cases Region.ofAddress address with
  | vram offset =>
    dsimp only
    rw [vram]
    split <;> rfl
  | oam offset =>
    dsimp only
    rw [oam]
    split <;> rfl
  | joypad =>
    dsimp only [update, writeJoypad, behind]
    rw [← request_behind]
  | video =>
    dsimp only [writeVideo, update, behind]
    rw [← request_behind]
  | oamTransfer =>
    unfold transfer
    rfl
  | _ => rfl

theorem tick_behind (pending : FrameOutput) (n : Nat) (live : LiveBoard) :
    (live.behind pending).tick n = (live.tick n).map (behind pending) := by
  obtain ⟨image, settings, board, samples, sent⟩ := live
  unfold tick behind
  dsimp only
  rw [Sound.tick_append]
  cases countUp .cycleCounter board.cycles n with
  | error fault => rfl
  | ok cycles =>
    dsimp only [Except.map]
    rw [← request_behind]

theorem held_write (address : UInt16) (value : UInt8) (live : LiveBoard) :
    (live.write address value).board.joypad.held = live.board.joypad.held := by
  obtain ⟨board, sent, written, -, held⟩ := write_eq address value live
  rw [written]
  exact held

/-- The board of the whole frame and that of the part which runs now, where `pending` has been
taken. -/
structure Cut (held : ButtonSet) (pending : FrameOutput) (whole part : LiveBoard) : Prop where
  whole : whole = part.behind pending
  held : part.board.joypad.held = held

theorem cut_lockstep (held : ButtonSet) (pending : FrameOutput) : Lockstep (Cut held pending) where
  simulation :=
    { read := by
        rintro address _ part ⟨rfl, same⟩
        exact ⟨rfl, rfl, same⟩
      write := by
        rintro address value _ part ⟨rfl, same⟩
        exact ⟨write_behind .., (held_write ..).trans same⟩ }
  tick := by
    rintro n _ part ⟨rfl, same⟩
    rw [tick_behind]
    cases ticked : part.tick n with
    | error fault => exact .error fault
    | ok next =>
      obtain ⟨cycles, rfl⟩ := elapsed_of_tick ticked
      exact .ok _ _ ⟨rfl, same⟩
  takeStall := by
    rintro _ part ⟨rfl, same⟩
    exact ⟨rfl, rfl, same⟩
  frameReady := by
    rintro _ part ⟨rfl, _⟩
    rfl
  registers := by
    rintro _ part ⟨rfl, _⟩
    rfl

end LiveBoard

theorem Joypad.hold_held (j : Joypad) : j.hold j.held = (j, ∅) := by
  have still : j.lines &&& ~~~j.lines = 0 := UInt8.and_not_self
  unfold hold changed
  rw [still]
  rfl

theorem Board.hold_held (b : Board) : b.hold b.joypad.held = b := by
  unfold hold request
  rw [b.joypad.hold_held]
  dsimp only
  rw [InterruptSet.union_empty, InterruptSet.union_empty]

theorem Board.waiting (b : Board) {held : ButtonSet} (buttons : b.joypad.held = held)
    (waits : b.video.frameReady = false) :
    Console.updateVideo ({ · with frameReady := false }) (b.hold held) = b := by
  subst buttons
  rw [b.hold_held]
  unfold Console.updateVideo
  rw [← waits]

namespace Wired
open Execution (Wiring)
variable {m next whole part : Wired LiveBoard} {held : ButtonSet} {pending : FrameOutput}
  {cycles : Nat}

theorem runSteps_one (m : Wired LiveBoard) : m.runSteps 1 0 = m.advance.map (·.2) := by
  unfold runSteps
  cases m.advance with
  | error fault => rfl
  | ok advanced =>
    dsimp only [Except.map, runSteps]
    split <;> rfl

theorem advance_cut (h : Wiring (LiveBoard.Cut held pending) whole part)
    (advances : whole.advance = .ok (cycles, next)) :
    ∃ later, part.advance = .ok (cycles, later) ∧
      Wiring (LiveBoard.Cut held pending) next later := by
  have both := advance_lockstep (LiveBoard.cut_lockstep held pending) h
  rw [advances] at both
  obtain ⟨⟨_, later⟩, steps, rfl, wired⟩ := both.exists_ok
  exact ⟨later, steps, wired⟩

theorem wiring_endFrame (h : Wiring (LiveBoard.Cut held pending) whole part) :
    Wiring (LiveBoard.Cut held (pending ++ part.bus.output)) whole (Console.endFrame part) := by
  obtain ⟨cpu, same, buttons⟩ := h
  refine ⟨cpu, ?_, buttons⟩
  have samples : (pending ++ part.bus.output).samples ++ #[] =
    pending.samples ++ part.bus.samples := Array.append_empty
  have raised : (pending ++ part.bus.output).interrupts ∪ ∅ =
    pending.interrupts ∪ part.bus.board.raised := InterruptSet.union_empty _
  unfold LiveBoard.behind Console.endFrame
  dsimp only
  rw [same, samples, raised]
  rfl

theorem endFrame_eq (h : Wiring (LiveBoard.Cut held pending) whole part) :
    Console.endFrame part = Console.endFrame whole := by
  obtain ⟨cpu, same, _⟩ := h
  unfold Console.endFrame
  rw [same, cpu]
  rfl

end Wired

namespace Console
open Execution (Wiring)
variable {held : ButtonSet} {pending : FrameOutput} {whole last : Wired LiveBoard} {c : Console}

/-- So many frames of a single step each, and what each of them has put out. -/
def runSingly (held : ButtonSet) : Nat → Console → Except Fault (List FrameOutput × Console)
  | 0, c => .ok ([], c)
  | n + 1, c =>
    match c.runCapped 1 held with
    | .error fault => .error fault
    | .ok (output, next) =>
      (runSingly held n next).map fun (outputs, last) => (output :: outputs, last)

theorem runCapped_one {cycles : Nat} {next : Wired LiveBoard}
    (advances : (c.beginFrame held).machine.advance = .ok (cycles, next)) :
    c.runCapped 1 held = (countUp .frameCounter c.frames 1).map fun frames =>
      (next.bus.output, ⟨c.header, endFrame next, frames⟩) := by
  rw [runCapped_eq, Wired.runSteps_one, advances]
  dsimp only [Except.map]
  cases countUp .frameCounter c.frames 1 <;> rfl

theorem beginFrame_endFrame {header : Header} {frames : UInt64} {next : Wired LiveBoard}
    (buttons : next.bus.board.joypad.held = held)
    (waits : next.bus.board.video.frameReady = false) :
    (beginFrame held ⟨header, endFrame next, frames⟩).machine = endFrame next := by
  have waiting := (endFrame next).bus.board.waiting buttons waits
  unfold beginFrame updateBoard LiveBoard.update
  dsimp only
  rw [waiting]

theorem runSingly_last {steps elapsed cycles : Nat} {next : Wired LiveBoard}
    (h : Wiring (LiveBoard.Cut held pending) whole (c.beginFrame held).machine)
    (advances : whole.advance = .ok (cycles, next))
    (stops : steps = 0 ∨ next.frameEnds (elapsed + cycles) = true)
    (runs : whole.runSteps (steps + 1) elapsed = .ok last) :
    ∃ outputs, pending ++ .gather outputs = last.bus.output ∧
      c.runSingly held (whole.course (steps + 1) elapsed).length =
        (countUp .frameCounter c.frames (whole.course (steps + 1) elapsed).length).map
          fun frames => (outputs, ⟨c.header, endFrame last, frames⟩) := by
  obtain ⟨ends, single⟩ := Wired.runSteps_last steps advances stops
  obtain rfl := Except.ok.inj (ends.symm.trans runs)
  obtain ⟨part, advances', wired⟩ := Wired.advance_cut h advances
  refine ⟨[part.bus.output], ?_, ?_⟩
  · rw [wired.2.whole, LiveBoard.output_behind]
    exact congrArg _ (FrameOutput.append_none _)
  · rw [single, List.length_singleton, runSingly, runCapped_one advances',
      Wired.endFrame_eq wired]
    cases countUp .frameCounter c.frames 1 <;> rfl

/-- The parts of a frame, of which the first ones have put out what is pending, put out the rest
and leave what the whole frame leaves. -/
theorem runSingly_course (steps elapsed : Nat)
    (h : Wiring (LiveBoard.Cut held pending) whole (c.beginFrame held).machine)
    (runs : whole.runSteps (steps + 1) elapsed = .ok last) :
    ∃ outputs, pending ++ .gather outputs = last.bus.output ∧
      c.runSingly held (whole.course (steps + 1) elapsed).length =
        (countUp .frameCounter c.frames (whole.course (steps + 1) elapsed).length).map
          fun frames => (outputs, ⟨c.header, endFrame last, frames⟩) := by
  induction steps generalizing elapsed pending whole c with
  | zero =>
    obtain ⟨⟨cycles, next⟩, advances⟩ := Wired.exists_advance runs
    exact runSingly_last h advances (.inl rfl) runs
  | succ steps ih =>
    obtain ⟨⟨cycles, next⟩, advances⟩ := Wired.exists_advance runs
    cases ends : next.frameEnds (elapsed + cycles) with
    | true => exact runSingly_last h advances (.inr ends) runs
    | false =>
      obtain ⟨goes, course⟩ := Wired.runSteps_further (steps + 1) advances ends
      obtain ⟨part, advances', wired⟩ := Wired.advance_cut h advances
      have waits : part.bus.board.video.frameReady = false := by
        have same := (LiveBoard.cut_lockstep held pending).frameReady _ _ wired.2
        rw [← same]
        exact (Bool.or_eq_false_iff.mp ends).1
      rw [goes] at runs
      have rest (frames : UInt64) : ∃ outputs,
          pending ++ part.bus.output ++ .gather outputs = last.bus.output ∧
            runSingly held (next.course (steps + 1) (elapsed + cycles)).length
                ⟨c.header, endFrame part, frames⟩ =
              (countUp .frameCounter frames
                (next.course (steps + 1) (elapsed + cycles)).length).map
                  fun frames => (outputs, ⟨c.header, endFrame last, frames⟩) := by
        apply ih (elapsed + cycles) _ runs
        rw [beginFrame_endFrame wired.2.held waits]
        exact Wired.wiring_endFrame wired
      rw [course, List.length_cons, Nat.add_comm, countUp_add, Nat.add_comm, runSingly,
        runCapped_one advances']
      cases countUp .frameCounter c.frames 1 with
      | error fault =>
        obtain ⟨outputs, gathered, -⟩ := rest 0
        rw [FrameOutput.append_assoc] at gathered
        exact ⟨part.bus.output :: outputs, gathered, rfl⟩
      | ok frames =>
        obtain ⟨outputs, gathered, left⟩ := rest frames
        rw [FrameOutput.append_assoc] at gathered
        refine ⟨part.bus.output :: outputs, gathered, ?_⟩
        dsimp only [Except.map]
        rw [left]
        dsimp only [bind, Except.bind]
        cases countUp .frameCounter frames (next.course (steps + 1) (elapsed + cycles)).length <;>
          rfl

theorem wiring_beginFrame (held : ButtonSet) (c : Console) :
    Wiring (LiveBoard.Cut held .none) (c.beginFrame held).machine (c.beginFrame held).machine := by
  refine ⟨rfl, ?_, rfl⟩
  have output := FrameOutput.none_append (c.beginFrame held).machine.bus.output
  have samples := congrArg FrameOutput.samples output
  have raised := congrArg FrameOutput.interrupts output
  exact (congr (congrArg (fun raised samples => { (c.beginFrame held).machine.bus with
    board := { (c.beginFrame held).machine.bus.board with raised }
    samples }) raised) samples).symm

/-- A console that has been given neither a forged snapshot nor empty frames has counted so few
that the steps of a frame can be counted as frames. -/
theorem Genuine.frames_room {image : Image} {settings : Settings}
    (h : c.Genuine image 1 settings) {steps : Nat}
    (runs : (c.beginFrame held).machine.runSteps steps 0 = .ok last) :
    c.frames.toNat + (c.course steps held).length < UInt64.size := by
  have frames := h.frames_le Nat.one_pos
  have time := Wired.time_course steps 0 runs
  have counted : last.bus.board.cycles.toNat < UInt64.size := UInt64.toNat_lt _
  change c.machine.bus.board.cycles.toNat + 4 * (c.course steps held).length ≤ _ at time
  omega

/-- A frame can be cut at any step. In as many frames of one step each as the frame has steps, the
console comes to the very state behind the frame, with the same processor, bus and picture, and
what it has put out on the way is the output of the frame in pieces. Only that each piece has been
counted as a frame. -/
theorem runFrame_cut {image : Image} {settings : Settings} {next : Console} {steps : Nat}
    {output : FrameOutput} (c : Console) (held : ButtonSet) (some : 0 < steps)
    (runs : c.runCapped steps held = .ok (output, next)) :
    ∃ outputs,
      c.runSingly held (c.course steps held).length =
        (if c.frames.toNat + (c.course steps held).length < UInt64.size then
          .ok (outputs, { next with
            frames := next.frames + UInt64.ofNat ((c.course steps held).length - 1) })
        else .error .frameCounter) ∧
      .gather outputs = output ∧
      (c.Genuine image 1 settings →
        c.frames.toNat + (c.course steps held).length < UInt64.size) := by
  obtain ⟨machine, ran, room, result⟩ := runCapped_eq_ok.mp runs
  obtain ⟨rfl, rfl⟩ := Prod.mk.inj result
  obtain ⟨more, rfl⟩ : ∃ more, steps = more + 1 := ⟨steps - 1, by omega⟩
  obtain ⟨outputs, gathered, left⟩ := runSingly_course more 0 (wiring_beginFrame held c) ran
  rw [FrameOutput.none_append] at gathered
  refine ⟨outputs, ?_, gathered, fun h => h.frames_room ran⟩
  have counted : c.frames + UInt64.ofNat (c.course (more + 1) held).length =
      c.frames + 1 + UInt64.ofNat ((c.course (more + 1) held).length - 1) := by
    have taken : 0 < (c.course (more + 1) held).length := Nat.succ_pos _
    rw [UInt64.add_assoc, ← UInt64.ofNat_one, ← UInt64.ofNat_add, Nat.add_sub_cancel' taken]
  change c.runSingly held (c.course (more + 1) held).length =
    (countUp _ _ (c.course (more + 1) held).length).map _ at left
  rw [left]
  unfold countUp
  split
  · rw [counted]
    rfl
  · rfl

/-- The first frame of a blank cartridge, under the usual limit. -/
theorem runFrame_cut_blank :
    ∃ c, Genuine Image.blank 1 .standard c ∧ ∀ held, ∃ output next outputs last,
      c.runFrame held = .ok (output, next) ∧
        c.runSingly held (c.course 200000 held).length = .ok (outputs, last) ∧
        .gather outputs = output ∧ last.machine = next.machine := by
  obtain ⟨header, parsed⟩ := Header.parse_blank
  have on := powerOn_started parsed .standard
  have fresh : Genuine Image.blank 1 .standard (started Image.blank .standard header) :=
    .powerOn _ _ on
  refine ⟨_, fresh, fun held => ?_⟩
  have size : UInt64.size = 0x10000000000000000 := rfl
  have time := fresh.inRange.frameTime_le held
  have most : longestStep * Settings.standard.maxSteps = 132800000 := rfl
  have room : (started Image.blank .standard header).ActRoom (.runFrame held) :=
    ⟨show 0 + _ < _ by omega, show 0 + 1 < UInt64.size by omega⟩
  obtain ⟨⟨output, next⟩, runs⟩ : ∃ result,
      (started Image.blank .standard header).runFrame held = .ok result :=
    ⟨_, runFrame_eq_ok.mpr ⟨room, rfl⟩⟩
  obtain ⟨outputs, left, gathered, counted⟩ :=
    runFrame_cut _ held (by decide : 0 < 200000) ((runCapped_maxSteps held _).trans runs)
  rw [if_pos (counted fresh)] at left
  exact ⟨_, _, outputs, _, runs, left, gathered, rfl⟩

end Console
end DotMatrix
