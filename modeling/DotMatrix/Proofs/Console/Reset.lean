import DotMatrix.Proofs.Console.Battery
import DotMatrix.Proofs.Console.Layout

/-! The power switch. After a reset nothing is left of the session before, except the memory that a
battery keeps: the console is the one that was just switched on, with that memory loaded. -/
namespace DotMatrix

theorem Board.powerOn_cartridge (cartridge other : Cartridge) (settings : Settings) :
    { Board.powerOn other settings with cartridge } = Board.powerOn cartridge settings := by
  -- The parts are named first: a look into the memories would generate all of their noise.
  have parts : ∃ wram hram video sound timer serial joypad requested enabled source stall raised
      cycles, ∀ cartridge, Board.powerOn cartridge settings =
        ⟨cartridge, wram, hram, video, sound, timer, serial, joypad, requested, enabled, source,
          stall, raised, cycles⟩ :=
    ⟨_, _, _, _, _, _, _, _, _, _, _, _, _, fun _ => rfl⟩
  obtain ⟨_, _, _, _, _, _, _, _, _, _, _, _, _, powered⟩ := parts
  rw [powered, powered]

namespace Console
variable {image : Image} {settings : Settings} {header : Header} {cartridge : Cartridge}
  {data : Array UInt8} {c : Console}

def startedWith (image : Image) (settings : Settings) (header : Header) (cartridge : Cartridge) :
    Console :=
  (started image settings header).updateBoard ({ · with cartridge })

theorem startedWith_powerOn (image : Image) (settings : Settings) (header : Header) :
    startedWith image settings header (.powerOn header) = started image settings header := by
  have same := Board.powerOn_cartridge (.powerOn header) (.powerOn header) settings
  unfold startedWith updateBoard LiveBoard.update started
  dsimp only
  rw [same]

theorem InRange.reset_eq (h : c.InRange image settings) :
    c.reset = startedWith image settings c.header
      (resetCartridge c.header c.machine.bus.board.cartridge) := by
  have same := Board.powerOn_cartridge (resetCartridge c.header c.machine.bus.board.cartridge)
    (.powerOn c.header) settings
  have parts : c.reset = ⟨c.header, ⟨.postBoot, c.machine.bus.image, c.machine.bus.settings,
      .powerOn (resetCartridge c.header c.machine.bus.board.cartridge) c.machine.bus.settings,
      #[], #[]⟩, 0⟩ := rfl
  rw [parts, h.bus.image, h.bus.settings, ← same]
  unfold startedWith Console.updateBoard LiveBoard.update started
  rfl

theorem resetCartridge_none (none : c.batteryRam? = none) :
    resetCartridge c.header c.machine.bus.board.cartridge = .powerOn c.header := by
  unfold resetCartridge
  rw [show c.machine.bus.board.cartridge.batteryRam? = _ from none]

theorem resetCartridge_some (some : c.batteryRam? = some data)
    (accepted : (Cartridge.powerOn c.header).loadBattery data = .ok cartridge) :
    resetCartridge c.header c.machine.bus.board.cartridge = cartridge := by
  unfold resetCartridge
  rw [show c.machine.bus.board.cartridge.batteryRam? = _ from some]
  dsimp only
  rw [accepted]
  rfl

/-- Whatever has happened to a console, a reset leaves what power-on gives, with the battery's
memory loaded if there is any. That memory is all there as it was; RAM without a battery is zero
again. -/
theorem reset_eq_powerOn (h : c.Genuine image 0 settings) :
    ∃ fresh, Console.powerOn image settings = .ok fresh ∧
      (c.batteryRam? = none →
        c.reset = fresh ∧
          c.reset.machine.bus.board.cartridge.ram = Array.replicate c.header.ramSize 0) ∧
      (∀ data, c.batteryRam? = some data → fresh.loadBattery data = .ok c.reset) ∧
      c.reset.batteryRam? = c.batteryRam? := by
  have on := powerOn_started h.inRange.header settings
  have kept := h.inRange.batteryRam?_eq
  have after := h.inRange.reset.batteryRam?_eq
  have again := h.inRange.reset_eq
  rw [header_reset] at after
  split at kept
  case isTrue battery =>
    have size := h.inRange.bus.board.cartridge.ramSize_eq
    have taken := Cartridge.loadBattery_eq_ok (Cartridge.fits_powerOn c.header) size h.clean
    rw [resetCartridge_some kept taken] at again
    refine ⟨_, on, ?_, ?_, ?_⟩
    · intro none
      cases kept.symm.trans none
    · intro data handed
      obtain rfl := Option.some.inj (kept.symm.trans handed)
      rw [again]
      exact (InRange.powerOn on).loadBattery_eq_ok size h.clean
    · rw [after, if_pos battery, kept, again]
      rfl
  case isFalse battery =>
    rw [resetCartridge_none kept, startedWith_powerOn] at again
    refine ⟨_, on, ?_, ?_, ?_⟩
    · intro _
      rw [again]
      exact ⟨rfl, rfl⟩
    · intro data handed
      cases kept.symm.trans handed
    · rw [after, if_neg battery, kept]

/-- The byte that a program has stored in an MBC2 is there after a reset. -/
theorem reset_eq_powerOn_halfBytes :
    ∃ c fresh data, Genuine Image.halfBytes 0 .standard c ∧ c.batteryRam? = some data ∧
      data[0]? = some 0x07 ∧ Console.powerOn Image.halfBytes .standard = .ok fresh ∧
      fresh.loadBattery data = .ok c.reset ∧ c.reset.batteryRam? = some data := by
  obtain ⟨c, data, stored, handed, cell⟩ := Genuine.exists_halfBytes
  obtain ⟨fresh, on, -, loads, kept⟩ := reset_eq_powerOn stored
  exact ⟨c, fresh, data, stored, handed, cell, on, loads data handed, kept.trans handed⟩

end Console
end DotMatrix
