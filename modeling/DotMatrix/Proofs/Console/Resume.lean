import DotMatrix.CommandLine.Session
import DotMatrix.Proofs.Console.FrameCut

/-! A game goes on from a snapshot as if it had never been left. The console that takes the snapshot
up has sent nothing yet; apart from that it does what the one that went on would have done. -/
namespace DotMatrix

namespace LiveBoard

def sentAfter (before : Array UInt8) (live : LiveBoard) : LiveBoard :=
  { live with sent := before ++ live.sent }

theorem write_sentAfter (before : Array UInt8) (address : UInt16) (value : UInt8)
    (live : LiveBoard) :
    (live.sentAfter before).write address value = (live.write address value).sentAfter before := by
  have vram : (live.sentAfter before).vramOpen = live.vramOpen := rfl
  have oam : (live.sentAfter before).oamOpen = live.oamOpen := rfl
  unfold write
  cases Region.ofAddress address with
  | vram offset =>
    dsimp only
    rw [vram]
    split <;> rfl
  | oam offset =>
    dsimp only
    rw [oam]
    split <;> rfl
  | serialControl =>
    unfold writeSerialControl sentAfter
    dsimp only
    cases live.board.serial.sent? value with
    | none => rfl
    | some byte => rw [← Array.push_append]
  | oamTransfer =>
    unfold transfer
    rfl
  | _ => rfl

theorem tick_sentAfter (before : Array UInt8) (n : Nat) (live : LiveBoard) :
    (live.sentAfter before).tick n = (live.tick n).map (sentAfter before) := by
  unfold tick sentAfter
  dsimp only
  cases countUp .cycleCounter live.board.cycles n <;> rfl

theorem sentAfter_lockstep (before : Array UInt8) :
    Lockstep fun whole part => whole = part.sentAfter before where
  simulation :=
    { read := by
        rintro address _ part rfl
        exact ⟨rfl, rfl⟩
      write := by
        rintro address value _ part rfl
        exact write_sentAfter before address value part }
  tick := by
    rintro n _ part rfl
    rw [tick_sentAfter]
    cases part.tick n with
    | error fault => exact .error fault
    | ok next => exact .ok _ _ rfl
  takeStall := by
    rintro _ part rfl
    exact ⟨rfl, rfl⟩
  frameReady := by
    rintro _ part rfl
    rfl
  registers := by
    rintro _ part rfl
    rfl

end LiveBoard

namespace Console
variable {image : Image} {settings : Settings} {c first last other : Console} {n m : Nat}

def sentAfter (before : Array UInt8) (c : Console) : Console :=
  { c with machine := c.machine.withBus (c.machine.bus.sentAfter before) }

theorem runFrame_sentAfter (before : Array UInt8) (held : ButtonSet) (c : Console) :
    (c.sentAfter before).runFrame held =
      (c.runFrame held).map fun (output, next) => (output, next.sentAfter before) := by
  have limit : (c.sentAfter before).machine.bus.settings = c.machine.bus.settings := rfl
  have counted : (c.sentAfter before).frames = c.frames := rfl
  have wired : Execution.Wiring (fun whole part => whole = part.sentAfter before)
      ((c.sentAfter before).beginFrame held).machine (c.beginFrame held).machine := ⟨rfl, rfl⟩
  have ran := Wired.runSteps_lockstep (LiveBoard.sentAfter_lockstep before)
    c.machine.bus.settings.maxSteps 0 wired
  rw [runFrame_eq, runFrame_eq, limit, counted]
  revert ran
  generalize Wired.runSteps _ _ ((c.sentAfter before).beginFrame held).machine = whole
  generalize Wired.runSteps _ _ (c.beginFrame held).machine = part
  rintro (⟨⟨cpu, bus⟩, b, rfl, same⟩ | fault)
  · dsimp only at same ⊢
    subst same
    cases countUp .frameCounter c.frames 1 <;> rfl
  · rfl

theorem runFrames_sentAfter (before : Array UInt8) (n : Nat) (c : Console) :
    (c.sentAfter before).runFrames n = (c.runFrames n).map (sentAfter before) := by
  induction n generalizing c with
  | zero => rfl
  | succ n ih =>
    unfold runFrames
    rw [runFrame_sentAfter]
    cases c.runFrame ⟨0⟩ with
    | error fault => rfl
    | ok result => exact ih result.2

theorem runFrames_add (n m : Nat) (c : Console) :
    c.runFrames (n + m) = c.runFrames n >>= fun next => next.runFrames m := by
  induction n generalizing c with
  | zero =>
    rw [Nat.zero_add]
    rfl
  | succ n ih =>
    rw [Nat.succ_add, runFrames, runFrames]
    cases c.runFrame ⟨0⟩ with
    | error fault => rfl
    | ok result => exact ih result.2

theorem runFrames_keeps {inv : Console → Prop}
    (keeps : ∀ c output next, inv c → c.runFrame ⟨0⟩ = .ok (output, next) → inv next)
    (h : inv c) (runs : c.runFrames n = .ok last) : inv last := by
  induction n generalizing c with
  | zero =>
    cases runs
    exact h
  | succ n ih =>
    rw [runFrames] at runs
    cases ran : c.runFrame ⟨0⟩ with
    | error fault =>
      rw [ran] at runs
      cases runs
    | ok result =>
      rw [ran] at runs
      exact ih (keeps c _ _ h ran) runs

theorem samples_runFrames (taken : c.machine.bus.samples = #[]) (runs : c.runFrames n = .ok last) :
    last.machine.bus.samples = #[] := by
  apply runFrames_keeps _ taken runs
  intro c output next _ ran
  obtain ⟨_, result⟩ := runFrame_eq_ok.mp ran
  rw [← (Prod.mk.inj result).2]
  rfl

theorem InRange.runFrames (h : c.InRange image settings) (runs : c.runFrames n = .ok last) :
    last.InRange image settings :=
  runFrames_keeps (fun _ _ _ h ran => h.runFrame ran) h runs

theorem InRange.exists_runFrames (h : c.InRange image settings) (n : Nat)
    (cycles : c.machine.bus.board.cycles.toNat + longestStep * settings.maxSteps * n < UInt64.size)
    (frames : c.frames.toNat + n < UInt64.size) : ∃ last, c.runFrames n = .ok last := by
  induction n generalizing c with
  | zero => exact ⟨c, rfl⟩
  | succ n ih =>
    rw [Nat.mul_succ] at cycles
    have time := h.frameTime_le ⟨0⟩
    obtain ⟨cycles_le, frames_le⟩ := h.counters_pass_le (.runFrame ⟨0⟩)
    obtain ⟨⟨output, next⟩, passed⟩ : ∃ result, c.passFrame ⟨0⟩ = result := ⟨_, rfl⟩
    have ran : c.runFrame ⟨0⟩ = .ok (output, next) :=
      runFrame_eq_ok.mpr ⟨⟨by omega, by omega⟩, passed⟩
    change (c.passFrame ⟨0⟩).2.machine.bus.board.cycles.toNat ≤ _ at cycles_le
    change (c.passFrame ⟨0⟩).2.frames.toNat ≤ _ at frames_le
    rw [passed] at cycles_le frames_le
    dsimp only at cycles_le frames_le
    rw [Console.runFrames, ran]
    exact ih (h.runFrame ran) (by omega) (by omega)

theorem sentAfter_inStateOf (h : c.InRange image settings) (h' : other.InRange image settings)
    (taken : c.machine.bus.samples = #[]) (silent : other.machine.bus.sent = #[]) :
    (other.inStateOf c).sentAfter c.serialOutput = c := by
  have header : other.header = c.header := Except.ok.inj (h'.header.symm.trans h.header)
  have image := h'.bus.image.trans h.bus.image.symm
  have settings := h'.bus.settings.trans h.bus.settings.symm
  obtain ⟨_, ⟨cpu, ⟨_, _, board, _, sent⟩⟩, frames⟩ := c
  dsimp only at header image settings taken
  unfold sentAfter inStateOf LiveBoard.sentAfter Wired.withBus serialOutput
  dsimp only
  rw [header, image, settings, taken, silent, Array.append_empty]

/-- A snapshot of the console between two parts of a game is taken up by another one that has sent
nothing, and the second part leaves it as the whole game leaves the first, but that it has not sent
what was sent before. -/
theorem InRange.runFrames_resumed (h : c.InRange image settings) (h' : other.InRange image settings)
    (taken : c.machine.bus.samples = #[]) (silent : other.machine.bus.sent = #[])
    (runs : c.runFrames n = .ok first) (whole : c.runFrames (n + m) = .ok last) :
    ∃ resumed, other.load first.save = .ok (other.inStateOf first) ∧
      (other.inStateOf first).runFrames m = .ok resumed ∧
      last = resumed.sentAfter first.serialOutput := by
  have between := h.runFrames runs
  have same := sentAfter_inStateOf between h' (samples_runFrames taken runs) silent
  rw [runFrames_add, runs] at whole
  change first.runFrames m = .ok last at whole
  rw [← same, runFrames_sentAfter, Except.map_eq_ok] at whole
  obtain ⟨resumed, ran, rfl⟩ := whole
  exact ⟨resumed, load_save between h', ran, rfl⟩

end Console
end DotMatrix
