import DotMatrix.Board.Access
import DotMatrix.Cpu.Step

/-! The console: a processor wired to a board with a cartridge in its slot. The host runs it
a frame at a time. -/
namespace DotMatrix

structure Console where
  header : Header
  machine : Wired LiveBoard
  /-- Frames completed since power-on. -/
  frames : UInt64

/-- What a frame leaves for the host, besides the picture. -/
structure FrameOutput where
  samples : Array Single
  /-- Every interrupt that a part requested in the frame. -/
  interrupts : InterruptSet

/-- The length of a frame in clock cycles: 154 lines of 456 dots. -/
def cyclesPerFrame : Nat := 70224

namespace Wired

/-- One processor step, the time it takes, and the wait for an OAM transfer if it started one.
Gives the cycles that passed. -/
def advance (machine : Wired LiveBoard) : Except Fault (Nat × Wired LiveBoard) :=
  let (cycles, { cpu, bus }) := machine.step
  match bus.tick cycles with
  | .error fault => .error fault
  | .ok bus =>
    let (stall, bus) := bus.takeStall
    match bus.tick stall with
    | .error fault => .error fault
    | .ok bus => .ok (cycles + stall, { cpu, bus })

/-- A frame ends when the last line wraps or, with the LCD off, after a frame's time. -/
def frameEnds (elapsed : Nat) (machine : Wired LiveBoard) : Bool :=
  let video := machine.bus.board.video
  video.frameReady || !video.raster.registers.lcdOn && elapsed ≥ cyclesPerFrame

/-- At most `steps` processor steps, up to the end of the frame. -/
def runSteps : (steps elapsed : Nat) → Wired LiveBoard → Except Fault (Wired LiveBoard)
  | 0, _, machine => .ok machine
  | steps + 1, elapsed, machine =>
    match machine.advance with
    | .error fault => .error fault
    | .ok (cycles, machine) =>
      if machine.frameEnds (elapsed + cycles) then .ok machine
      else runSteps steps (elapsed + cycles) machine

end Wired

namespace Console

def powerOn (image : Image) (settings : Settings) : Except LoadError Console := do
  let header ← Header.parse image
  let board := Board.powerOn (.powerOn header) settings
  return {
    header
    machine :=
      { cpu := .postBoot, bus := { image, settings, board, samples := #[], sent := #[] } }
    frames := 0 }

@[inline] def updateBoard (change : Board → Board) (c : Console) : Console :=
  let { header, machine := { cpu, bus }, frames } := c
  { header, machine := { cpu, bus := bus.update change }, frames }

def updateVideo (change : Video → Video) (b : Board) : Board :=
  { b with video := change b.video }

/-- Holds the given buttons and runs to the end of the frame. -/
def runFrame (held : ButtonSet) (c : Console) : Except Fault (FrameOutput × Console) := do
  let { header, machine, frames } :=
    c.updateBoard fun b => updateVideo ({ · with frameReady := false }) (b.hold held)
  let { cpu, bus } ← machine.runSteps machine.bus.settings.maxSteps 0
  let frames ← countUp .frameCounter frames 1
  let (samples, bus) := bus.takeSamples
  let (interrupts, board) := bus.board.takeRaised
  return ({ samples, interrupts }, { header, machine := { cpu, bus := { bus with board } }, frames })

def press (button : Button) (held : Bool) (c : Console) : Console :=
  c.updateBoard (Board.press button held)

def held (c : Console) : ButtonSet := c.machine.bus.board.joypad.held

def pixels (c : Console) : Frame := c.machine.bus.board.video.frame

def takeSamples (c : Console) : Array Single × Console :=
  let { header, machine := { cpu, bus }, frames } := c
  let (samples, bus) := bus.takeSamples
  (samples, { header, machine := { cpu, bus }, frames })

def batteryRam? (c : Console) : Option (Array UInt8) := c.machine.bus.board.cartridge.batteryRam?

def loadBattery (data : Array UInt8) (c : Console) : Except LoadError Console :=
  match c.machine.bus.board.cartridge.loadBattery data with
  | .error refusal => .error refusal
  | .ok cartridge => .ok (c.updateBoard ({ · with cartridge }))

def serialOutput (c : Console) : Array UInt8 := c.machine.bus.sent

/-- A new cartridge state with the battery memory of the old one. -/
def resetCartridge (header : Header) (old : Cartridge) : Cartridge :=
  let fresh := Cartridge.powerOn header
  match old.batteryRam? with
  | none => fresh
  | some ram => (fresh.loadBattery ram).toOption.getD fresh

/-- Switches the console off and on again; memory with a battery survives. -/
def reset (c : Console) : Console :=
  let { image, settings, board, .. } := c.machine.bus
  let cartridge := resetCartridge c.header board.cartridge
  { header := c.header
    machine :=
      { cpu := .postBoot
        bus := { image, settings, board := .powerOn cartridge settings, samples := #[], sent := #[] } }
    frames := 0 }

/-- A read as the processor would make it. -/
def read (address : UInt16) (c : Console) : UInt8 := c.machine.bus.read address

end Console
end DotMatrix
