import DotMatrix.Proofs.Range.Cartridge
import DotMatrix.Proofs.Range.Sound
import DotMatrix.Proofs.Range.Video
import DotMatrix.Proofs.Cpu.Simulation

/-! The ranges that a board keeps while a processor uses it and time passes. They are the ones
that a snapshot is checked for. -/
namespace DotMatrix
namespace Board

/-- Every part is in its ranges, and the cartridge is the one that the header describes. -/
structure InRange (header : Header) (b : Board) : Prop where
  stall : b.transferStall ≤ transferCycles
  cartridge : b.cartridge.Fits header
  raster : b.video.raster.InRange
  sound : b.sound.InRange

theorem checkLayout_ofBoard (live b : Board) :
    (BoardRecord.ofBoard b).checkLayout live = .ok () ↔
      b.transferStall ≤ transferCycles ∧ live.cartridge.Replaces b.cartridge ∧
        b.video.raster.InRange ∧ b.sound.InRange := by
  simp only [BoardRecord.checkLayout, Except.andThen_eq_ok, require_eq_ok, decide_eq_true_eq,
    Cartridge.checkLayout_eq_ok, Sound.checkLayout_eq_ok]
  simp only [BoardRecord.ofBoard, VideoRecord.checkLayout_ofVideo, Vector.size_toArray,
    beq_self_eq_true, Bool.and_self, true_and]

theorem toBoard_ofBoard {header : Header} {live b : Board} (h : live.InRange header)
    (h' : b.InRange header) : (BoardRecord.ofBoard b).toBoard live = .ok b := by
  have passes := (checkLayout_ofBoard live b).mpr
    ⟨h'.stall, h.cartridge.replaces h'.cartridge, h'.raster, h'.sound⟩
  rw [BoardRecord.toBoard, passes, BoardRecord.toBoard?_ofBoard]
  rfl

theorem ofVideo_of_toVideo? {saved : VideoRecord} {v : Video} (holds : saved.toVideo? = some v) :
    saved = .ofVideo v := by
  unfold VideoRecord.toVideo? at holds
  split at holds
  · cases holds
    rfl
  · cases holds

theorem ofBoard_of_toBoard? {saved : BoardRecord} {b : Board} (holds : saved.toBoard? = some b) :
    saved = .ofBoard b := by
  unfold BoardRecord.toBoard? at holds
  obtain ⟨video, drawn, holds⟩ := Option.bind_eq_some_iff.mp holds
  split at holds
  · cases holds
    obtain ⟨_, _, _, _, _, _, _, _, _, _, _, _, _, _⟩ := saved
    obtain rfl := ofVideo_of_toVideo? drawn
    rfl
  · cases holds

theorem toBoard_eq_ok {live b : Board} {saved : BoardRecord} :
    saved.toBoard live = .ok b ↔ saved.checkLayout live = .ok () ∧ saved = .ofBoard b := by
  unfold BoardRecord.toBoard
  rw [Except.bind_eq_ok]
  constructor
  · rintro ⟨_, checked, taken⟩
    cases holds : saved.toBoard? with
    | none =>
      rw [holds] at taken
      cases taken
    | some board =>
      rw [holds] at taken
      cases taken
      exact ⟨checked, ofBoard_of_toBoard? holds⟩
  · rintro ⟨checked, rfl⟩
    refine ⟨(), checked, ?_⟩
    rw [BoardRecord.toBoard?_ofBoard]

/-- What a layout check lets through is in range. -/
theorem inRange_of_toBoard {header : Header} {live b : Board} {saved : BoardRecord}
    (h : live.InRange header) (accepted : saved.toBoard live = .ok b) : b.InRange header := by
  obtain ⟨checked, rfl⟩ := toBoard_eq_ok.mp accepted
  obtain ⟨stall, replaces, raster, sound⟩ := (checkLayout_ofBoard live b).mp checked
  exact ⟨stall, Cartridge.fits_of_replaces h.cartridge replaces, raster, sound⟩

namespace InRange
variable {header : Header} {b : Board}

theorem powerOn {cartridge : Cartridge} (fits : cartridge.Fits header) (settings : Settings) :
    (Board.powerOn cartridge settings).InRange header :=
  ⟨(by decide : (0 : UInt32) ≤ transferCycles), fits, Video.inRange_powerOn _, .powerOn⟩

theorem takeStall (h : b.InRange header) : b.takeStall.2.InRange header :=
  ⟨(by decide : (0 : UInt32) ≤ transferCycles), h.cartridge, h.raster, h.sound⟩

theorem hold (h : b.InRange header) (held : ButtonSet) : (b.hold held).InRange header :=
  ⟨h.stall, h.cartridge, h.raster, h.sound⟩

theorem press (h : b.InRange header) (button : Button) (held : Bool) :
    (b.press button held).InRange header :=
  h.hold _

end InRange
end Board

namespace LiveBoard

def elapse (n : Nat) (cycles : UInt64) (live : LiveBoard) : LiveBoard :=
  let { image, settings, board, samples, sent } := live
  let timer := board.timer.tick n
  let serial := board.serial.tick n
  let video := board.video.tick settings.colors n ∅
  let sound := board.sound.tick settings n samples
  { image
    settings
    board := { board with
      cartridge := board.cartridge.tick n
      timer := timer.1
      serial := serial.1
      video := video.1
      sound := sound.1
      cycles }.request (timer.2 ∪ serial.2 ∪ video.2)
    samples := sound.2
    sent }

theorem tick_eq_elapse (n : Nat) (live : LiveBoard) :
    live.tick n =
      (countUp .cycleCounter live.board.cycles n).map fun cycles => live.elapse n cycles := by
  unfold tick
  dsimp only
  split
  case h_1 failed => rw [failed]; rfl
  case h_2 counted => rw [counted]; rfl

theorem elapsed_of_tick {n : Nat} {live next : LiveBoard} (ticks : live.tick n = .ok next) :
    ∃ cycles, live.elapse n cycles = next := by
  rw [tick_eq_elapse] at ticks
  cases counted : countUp .cycleCounter live.board.cycles n with
  | error fault =>
    rw [counted] at ticks
    cases ticks
  | ok cycles =>
    rw [counted] at ticks
    exact ⟨cycles, Except.ok.inj ticks⟩

/-- The board is in range and runs what it was switched on with. -/
structure InRange (image : Image) (settings : Settings) (header : Header) (live : LiveBoard) :
    Prop where
  image : live.image = image
  settings : live.settings = settings
  board : live.board.InRange header

namespace InRange
variable {image : Image} {settings : Settings} {header : Header} {live : LiveBoard}

theorem update (h : live.InRange image settings header) {change : Board → Board}
    (keeps : (change live.board).InRange header) :
    (live.update change).InRange image settings header :=
  ⟨h.image, h.settings, keeps⟩

theorem transfer (h : live.InRange image settings header) (page : UInt8) :
    (live.transfer page).InRange image settings header := by
  obtain ⟨stall, cartridge, raster, sound⟩ := h.board
  unfold LiveBoard.transfer
  exact ⟨h.image, h.settings, UInt32.le_refl Board.transferCycles, cartridge, raster, sound⟩

theorem write (h : live.InRange image settings header) (address : UInt16) (value : UInt8) :
    (live.write address value).InRange image settings header := by
  obtain ⟨stall, cartridge, raster, sound⟩ := h.board
  unfold LiveBoard.write
  cases Region.ofAddress address with
  | rom => exact h.update ⟨stall, cartridge.writeRom address value, raster, sound⟩
  | vram offset | oam offset =>
    dsimp only
    split
    · exact h.update ⟨stall, cartridge, raster, sound⟩
    · exact h
  | cartridgeRam => exact h.update ⟨stall, cartridge.writeRam address value, raster, sound⟩
  | sound => exact h.update ⟨stall, cartridge, raster, sound.write address value⟩
  | oamTransfer => exact h.transfer value
  | video =>
    exact ⟨h.image, h.settings, stall, cartridge, Video.inRange_write _ _ _ _ raster, sound⟩
  | serialControl => exact ⟨h.image, h.settings, stall, cartridge, raster, sound⟩
  | unmapped => exact h
  | wram | joypad | serialData | timer | interruptRequest | hram | interruptEnable =>
    exact h.update ⟨stall, cartridge, raster, sound⟩

theorem elapse (h : live.InRange image settings header) (n : Nat) (cycles : UInt64) :
    (live.elapse n cycles).InRange image settings header := by
  obtain ⟨stall, cartridge, raster, sound⟩ := h.board
  exact ⟨h.image, h.settings, stall, cartridge.tick n, Video.inRange_tick _ _ _ _ raster,
    Sound.inRange_tick _ _ _ _ sound⟩

theorem tick (h : live.InRange image settings header) {n : Nat} {next : LiveBoard}
    (ticks : live.tick n = .ok next) : next.InRange image settings header := by
  obtain ⟨cycles, rfl⟩ := elapsed_of_tick ticks
  exact h.elapse n cycles

theorem takeStall (h : live.InRange image settings header) :
    live.takeStall.2.InRange image settings header :=
  ⟨h.image, h.settings, h.board.takeStall⟩

end InRange
end LiveBoard

namespace Wired
variable {image : Image} {settings : Settings} {header : Header} {machine : Wired LiveBoard}

theorem inRange_step (h : machine.bus.InRange image settings header) :
    machine.step.2.bus.InRange image settings header :=
  step_keeps (fun _ _ h => h) (fun address value _ h => h.write address value) h

theorem inRange_advance (h : machine.bus.InRange image settings header) {cycles : Nat}
    {next : Wired LiveBoard} (advances : machine.advance = .ok (cycles, next)) :
    next.bus.InRange image settings header := by
  have stepped := inRange_step h
  unfold advance at advances
  dsimp only at advances
  split at advances
  · cases advances
  · rename_i ticked passed
    have ticked := stepped.tick passed
    split at advances
    · cases advances
    · rename_i waited passed
      cases advances
      exact ticked.takeStall.tick passed

theorem inRange_runSteps (steps elapsed : Nat) (machine next : Wired LiveBoard)
    (h : machine.bus.InRange image settings header)
    (runs : machine.runSteps steps elapsed = .ok next) :
    next.bus.InRange image settings header := by
  induction steps generalizing elapsed machine with
  | zero =>
    cases runs
    exact h
  | succ steps ih =>
    unfold runSteps at runs
    split at runs
    · cases runs
    · rename_i cycles advanced advances
      have advanced := inRange_advance h advances
      split at runs
      · cases runs
        exact advanced
      · exact ih _ _ advanced runs

end Wired
end DotMatrix
