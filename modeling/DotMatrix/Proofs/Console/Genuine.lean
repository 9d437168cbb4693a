import DotMatrix.Proofs.Console.Capped
import DotMatrix.Proofs.Console.History
import DotMatrix.Proofs.Console.SaveLoad

/-! Consoles with a past of their own. What has happened to such a console since power-on was done
by programs, by time and by the calls of a host, and the snapshots that it has taken up were taken
of consoles of the same kind. -/
namespace DotMatrix

namespace LiveBoard
variable {image : Image} {settings : Settings} {header : Header} {live next : LiveBoard}
  {event : Event}

theorem InRange.undergo (h : live.InRange image settings header)
    (happens : live.undergo event = .ok next) : next.InRange image settings header := by
  cases event with
  | access access =>
    cases happens
    cases access with
    | read => exact h
    | write address value => exact h.write address value
  | withdraw =>
    cases happens
    exact h.write _ _
  | tick => exact h.tick happens
  | takeStall =>
    cases happens
    exact h.takeStall
  | hold held =>
    cases happens
    exact h.update (h.board.hold held)
  | takeFrame | takeSamples | takeRaised =>
    cases happens
    obtain ⟨stall, cartridge, raster, sound⟩ := h.board
    exact ⟨h.image, h.settings, stall, cartridge, raster, sound⟩

theorem cycles_undergo_le (happens : live.undergo event = .ok next) :
    live.board.cycles.toNat ≤ next.board.cycles.toNat := by
  cases event with
  | access access =>
    cases happens
    cases access with
    | read => exact Nat.le_refl _
    | write address value => exact Nat.le_of_eq (congrArg UInt64.toNat (cycles_write ..).symm)
  | withdraw =>
    cases happens
    exact Nat.le_of_eq (congrArg UInt64.toNat (cycles_write ..).symm)
  | tick n =>
    rw [undergo, tick_eq_if] at happens
    split at happens
    · cases happens
      rw [cycles_pass, toNat_add_ofNat (by assumption)]
      exact Nat.le_add_right _ _
    · cases happens
  | _ =>
    cases happens
    exact Nat.le_refl _

end LiveBoard

/-- What every event on the bus keeps, the steps of a frame keep. -/
theorem Wired.runSteps_keeps {inv : LiveBoard → Prop}
    (keeps : ∀ live event next, inv live → live.undergo event = .ok next → inv next)
    {m last : Wired LiveBoard} {steps elapsed : Nat} (h : inv m.bus)
    (runs : m.runSteps steps elapsed = .ok last) : inv last.bus := by
  have replays := replay_events ((runSteps_turns steps elapsed m).trans runs)
  exact Except.foldlM_keeps (fun event _ live next => keeps live event next) h replays

namespace Console

/-- The consoles that a host can bring about with an image, without a snapshot that is not of such
a console. No frame is cut below `least` steps. -/
inductive Genuine (image : Image) (least : Nat) : Settings → Console → Prop
  | powerOn (settings : Settings) (c : Console) (on : Console.powerOn image settings = .ok c) :
      Genuine image least settings c
  | frame (settings : Settings) (c : Console) (steps : Nat) (held : ButtonSet)
      (output : FrameOutput) (next : Console) (before : Genuine image least settings c)
      (enough : least ≤ steps) (runs : c.runCapped steps held = .ok (output, next)) :
      Genuine image least settings next
  | press (settings : Settings) (c : Console) (button : Button) (held : Bool)
      (before : Genuine image least settings c) : Genuine image least settings (c.press button held)
  | event (settings : Settings) (c : Console) (event : Event) (bus : LiveBoard)
      (before : Genuine image least settings c) (happens : c.machine.bus.undergo event = .ok bus) :
      Genuine image least settings { c with machine := c.machine.withBus bus }
  | loadBattery (settings : Settings) (c : Console) (data : Array UInt8) (next : Console)
      (before : Genuine image least settings c) (accepted : c.loadBattery data = .ok next) :
      Genuine image least settings next
  | reset (settings : Settings) (c : Console) (before : Genuine image least settings c) :
      Genuine image least settings c.reset
  | resume (settings own : Settings) (c saved next : Console)
      (before : Genuine image least settings c) (kept : Genuine image least own saved)
      (accepted : c.load saved.save = .ok next) : Genuine image least settings next

variable {image : Image} {least : Nat} {settings own : Settings} {c saved next : Console}

theorem InRange.runCapped (h : c.InRange image settings) {steps : Nat} {held : ButtonSet}
    {output : FrameOutput} (runs : c.runCapped steps held = .ok (output, next)) :
    next.InRange image settings := by
  obtain ⟨machine, ran, _, result⟩ := runCapped_eq_ok.mp runs
  cases result
  exact h.endFrame _ (Wired.inRange_runSteps _ _ _ _ (h.beginFrame held).bus ran)

theorem Genuine.inRange (h : c.Genuine image least settings) : c.InRange image settings := by
  induction h with
  | powerOn settings c on => exact .powerOn on
  | frame settings c steps held output next before enough runs ih => exact ih.runCapped runs
  | press settings c button held before ih => exact ih.step (.press button held)
  | event settings c event bus before happens ih => exact ⟨ih.header, ih.bus.undergo happens⟩
  | loadBattery settings c data next before accepted ih => exact ih.loadBattery accepted
  | reset settings c before ih => exact ih.reset
  | resume settings own c saved next before kept accepted ih => exact ih.load accepted

theorem Genuine.write (h : c.Genuine image least settings) (address : UInt16) (value : UInt8) :
    Genuine image least settings
      { c with machine := c.machine.withBus (c.machine.bus.write address value) } :=
  h.event _ _ (.access (.write address value)) _ rfl

theorem Genuine.resumed (h : c.Genuine image least settings)
    (h' : saved.Genuine image least own) (accepted : c.load saved.save = .ok next) :
    next = c.inStateOf saved :=
  Except.ok.inj (accepted.symm.trans (load_save h'.inRange h.inRange))

/-- Frames that are not empty take time. -/
theorem Genuine.frames_le (h : c.Genuine image least settings) (some : 0 < least) :
    4 * c.frames.toNat ≤ c.machine.bus.board.cycles.toNat := by
  induction h with
  | powerOn settings c on =>
    obtain ⟨header, _, rfl⟩ := powerOn_eq_ok.mp on
    exact Nat.zero_le _
  | frame settings c steps held output next before enough runs ih =>
    obtain ⟨machine, ran, room, result⟩ := runCapped_eq_ok.mp runs
    cases result
    have time := Wired.time_course steps 0 ran
    have taken : 0 < (Wired.course steps 0 (c.beginFrame held).machine).length := by
      cases steps with
      | zero => omega
      | succ steps => exact Nat.succ_pos _
    have counted : (c.frames + 1).toNat = c.frames.toNat + 1 := toNat_add_ofNat room
    change 4 * (c.frames + 1).toNat ≤ machine.bus.board.cycles.toNat
    change c.machine.bus.board.cycles.toNat + _ ≤ _ at time
    omega
  | press settings c button held before ih => exact ih
  | event settings c event bus before happens ih =>
    exact Nat.le_trans ih (LiveBoard.cycles_undergo_le happens)
  | loadBattery settings c data next before accepted ih =>
    unfold Console.loadBattery at accepted
    split at accepted
    · cases accepted
    · cases accepted
      exact ih
  | reset settings c before ih => exact Nat.le_refl _
  | resume settings own c saved next before kept accepted ih ih' =>
    rw [before.resumed kept accepted]
    exact ih'

end Console
end DotMatrix
