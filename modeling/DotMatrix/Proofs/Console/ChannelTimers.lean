import DotMatrix.Proofs.Console.Genuine
import DotMatrix.Proofs.Sound.Period

/-! The period timers of the sound channels in consoles and in snapshots. No console gets a timer
above the longest period of its channel by itself. A snapshot may hold one, and is accepted with
it; the channel then waits for longer than any period. -/
namespace DotMatrix

theorem LiveBoard.sound_write (address : UInt16) (value : UInt8) (live : LiveBoard) :
    (live.write address value).board.sound = live.board.sound.write address value ∨
      (live.write address value).board.sound = live.board.sound := by
  unfold LiveBoard.write
  cases Region.ofAddress address with
  | vram | oam =>
    dsimp only
    split <;> exact .inr rfl
  | sound => exact .inl rfl
  | oamTransfer =>
    unfold transfer
    exact .inr rfl
  | _ => exact .inr rfl

section
variable {P : Sound → Prop}
  (tick : ∀ settings cycles s samples, P s → P (Sound.tick settings cycles s samples).1)
  (write : ∀ address value s, P s → P (Sound.write address value s))
include tick write

theorem LiveBoard.sound_undergo {live next : LiveBoard} {event : Event} (h : P live.board.sound)
    (happens : live.undergo event = .ok next) : P next.board.sound := by
  have written (address : UInt16) (value : UInt8) : P (live.write address value).board.sound := by
    obtain reached | same := live.sound_write address value
    · rw [reached]
      exact write address value _ h
    · rw [same]
      exact h
  cases event with
  | access access =>
    cases happens
    cases access with
    | read => exact h
    | write address value => exact written address value
  | withdraw =>
    cases happens
    exact written _ _
  | tick n =>
    obtain ⟨cycles, rfl⟩ := elapsed_of_tick happens
    exact tick live.settings n _ live.samples h
  | _ =>
    cases happens
    exact h

namespace Console
variable {image : Image} {least : Nat} {settings : Settings} {c : Console}

/-- What writes and time keep, and what holds at power-on, holds of every console with a past of
its own. -/
theorem Genuine.sound (start : P .powerOn) (h : c.Genuine image least settings) :
    P c.machine.bus.board.sound := by
  induction h with
  | powerOn settings c on =>
    obtain ⟨header, _, rfl⟩ := powerOn_eq_ok.mp on
    exact start
  | frame settings c steps held output next before enough runs ih =>
    obtain ⟨machine, ran, _, result⟩ := runCapped_eq_ok.mp runs
    cases result
    have began : P (c.beginFrame held).machine.bus.board.sound := ih
    have kept : P machine.bus.board.sound :=
      Wired.runSteps_keeps (fun live event next => LiveBoard.sound_undergo tick write) began ran
    exact kept
  | press settings c button held before ih => exact ih
  | event settings c event bus before happens ih => exact LiveBoard.sound_undergo tick write ih happens
  | loadBattery settings c data next before accepted ih =>
    unfold Console.loadBattery at accepted
    split at accepted
    · cases accepted
    · cases accepted
      exact ih
  | reset settings c before ih => exact start
  | resume settings own c saved next before kept accepted ih ih' =>
    rw [before.resumed kept accepted]
    exact ih'

end Console
end

namespace Console
variable {image : Image} {settings : Settings} {c next : Console}

theorem Genuine.running {least : Nat} (h : c.Genuine image least settings) :
    c.machine.bus.board.sound.Running :=
  h.sound (fun settings cycles _ samples running => running.tick settings cycles samples)
    (fun address value _ running => running.write address value) .powerOn

/-- An accepted snapshot has the fields of its channels in range, and its period timers too if it
was taken of a console with a past of its own. Of others this is not asked: with power, a pulse
channel goes on within the longest period exactly if its timer is not above it. -/
theorem load_channels (reached : c.Reachable image settings) {bytes : List UInt8}
    (accepted : c.load bytes = .ok next) :
    let sound := next.machine.bus.board.sound
    sound.InRange ∧
      (∀ least own saved, Genuine image least own saved →
        saved.machine.bus.board.sound.Running ∧ (bytes = saved.save → sound.TimersInRange)) ∧
      (sound.powered = true → ∀ i playback samples,
        sound.AdvancesWithin Pulse.longestPeriod i playback samples ↔
          (sound.pulse i).timer.toNat ≤ Pulse.longestPeriod) := by
  intro sound
  have inRange : sound.InRange := (reached.inRange.load accepted).bus.board.sound
  refine ⟨inRange, fun least own saved genuine => ⟨genuine.running, ?_⟩, fun on i playback samples =>
    Sound.advancesWithin_iff i playback samples on inRange⟩
  rintro rfl
  have same := Except.ok.inj (accepted.symm.trans (load_save genuine.inRange reached.inRange))
  have taken : sound = saved.machine.bus.board.sound :=
    congrArg (·.machine.bus.board.sound) same
  exact taken ▸ genuine.running.2

/-- A console that was just switched on takes its own snapshot, and its channels go on. -/
theorem load_channels_blank :
    ∃ c restored, Reachable Image.blank .standard c ∧ c.load c.save = .ok restored ∧
      restored.machine.bus.board.sound.TimersInRange ∧
      ∀ i playback samples, restored.machine.bus.board.sound.AdvancesWithin Pulse.longestPeriod i
        playback samples := by
  obtain ⟨header, parsed⟩ := Header.parse_blank
  have on := powerOn_started parsed .standard
  have reached := Reachable.powerOn _ on
  have accepted := load_save reached.inRange reached.inRange
  obtain ⟨-, own, advances⟩ := load_channels reached accepted
  have timers := (own 0 .standard _ (.powerOn _ _ on)).2 rfl
  refine ⟨_, _, reached, accepted, timers, fun i playback samples =>
    (advances rfl i playback samples).mpr ?_⟩
  match i with
  | 0 => exact timers.pulse1
  | 1 => exact timers.pulse2

/-- The period timer of the first channel set to its last value. -/
def fillTimer (c : Console) : Console :=
  c.updateBoard fun b =>
    { b with sound := { b.sound with pulse1 := { b.sound.pulse1 with timer := 0xFFFFFFFF } } }

/-- A snapshot with a full period timer is accepted, and its channel stands still. -/
theorem load_fillTimer :
    ∃ c restored, Console.powerOn Image.blank .standard = .ok c ∧
      c.load c.fillTimer.save = .ok restored ∧
      restored.machine.bus.board.sound.powered = true ∧
      ¬restored.machine.bus.board.sound.TimersInRange ∧
      ∀ playback samples, ¬restored.machine.bus.board.sound.AdvancesWithin Pulse.longestPeriod 0
        playback samples := by
  obtain ⟨header, parsed⟩ := Header.parse_blank
  obtain ⟨c, on⟩ : ∃ c, Console.powerOn Image.blank .standard = .ok c :=
    ⟨_, powerOn_started parsed .standard⟩
  have h := InRange.powerOn on
  obtain ⟨stall, cartridge, raster, timer, step, phase, pulse1, pulse2, wave, noise⟩ := h.bus.board
  obtain ⟨frequency, duty, position, sweep, length, envelope⟩ := pulse1
  have filled : c.fillTimer.InRange Image.blank .standard :=
    h.updateBoard ⟨stall, cartridge, raster, timer, step, phase,
      ⟨frequency, duty, position, sweep, length, envelope⟩, pulse2, wave, noise⟩
  have accepted := load_save filled h
  have inRange : (c.inStateOf c.fillTimer).machine.bus.board.sound.InRange :=
    (h.load accepted).bus.board.sound
  have power : (c.inStateOf c.fillTimer).machine.bus.board.sound.powered = true := by
    obtain ⟨_, _, rfl⟩ := powerOn_eq_ok.mp on
    rfl
  have full : ((c.inStateOf c.fillTimer).machine.bus.board.sound.pulse 0).timer = 0xFFFFFFFF := rfl
  refine ⟨c, _, on, accepted, power, fun timers => ?_, fun playback samples advances => ?_⟩
  · have small := timers.pulse1
    change (0xFFFFFFFF : UInt32).toNat ≤ Pulse.longestPeriod at small
    exact absurd small (by decide)
  · have small := (Sound.advancesWithin_iff 0 playback samples power inRange).mp advances
    rw [full] at small
    exact absurd small (by decide)

end Console
end DotMatrix
