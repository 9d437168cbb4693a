import DotMatrix.Cartridge.Basic
import DotMatrix.Video.Timing
import DotMatrix.Sound.Mixer
import DotMatrix.Timer
import DotMatrix.SerialLink
import DotMatrix.Joypad

/-! Everything that programs reach through the bus. A `Board` is what changes and what a
snapshot keeps; a `LiveBoard` is a board at work, with the image and the settings it runs
under and what it has put out and nobody has taken yet. -/
namespace DotMatrix

structure Board where
  cartridge : Cartridge
  wram : Memory 0x2000
  hram : Memory 0x7F
  video : Video
  sound : Sound
  timer : Timer
  serial : SerialLink
  joypad : Joypad
  requested : InterruptSet
  /-- All eight bits of FFFF are kept. -/
  enabled : UInt8
  transferSource : UInt8
  /-- Cycles that the processor still owes for an OAM transfer. -/
  transferStall : UInt32
  /-- What was requested since the host last looked. -/
  raised : InterruptSet
  /-- Clock cycles since power-on. -/
  cycles : UInt64

structure LiveBoard where
  image : Image
  settings : Settings
  board : Board
  /-- Stereo samples, left before right. -/
  samples : Array Single
  /-- Every byte that the serial link has sent. -/
  sent : Array UInt8

namespace Board

/-- How long an OAM transfer holds the processor. -/
def transferCycles : UInt32 := 640

/-- The step of a generator with 32 bits of state. -/
def scatterNext (x : UInt32) : UInt32 :=
  let x := x ^^^ (x <<< 13)
  let x := x ^^^ (x >>> 17)
  x ^^^ (x <<< 5)

/-- A memory of generated bytes, and the generator's state after it. -/
def scatter (size : Nat) (state : UInt32) : Memory size × UInt32 :=
  Fin.foldl size
    (fun (memory, state) i =>
      let state := scatterNext state
      (memory.set i state.toUInt8, state))
    (Vector.replicate size 0, state)

/-- Internal RAM powers up with fixed noise, and the first interrupt is already requested. -/
def powerOn (cartridge : Cartridge) (settings : Settings) : Board :=
  let wram := scatter 0x2000 0xC0DE1234
  let hram := scatter 0x7F wram.2
  { cartridge
    wram := wram.1
    hram := hram.1
    video := .powerOn settings.colors
    sound := .powerOn
    timer := .powerOn
    serial := .powerOn
    joypad := .powerOn
    requested := {.verticalBlank}
    enabled := 0
    transferSource := 0xFF
    transferStall := 0
    raised := ∅
    cycles := 0 }

def request (requests : InterruptSet) (b : Board) : Board :=
  { b with requested := b.requested ∪ requests, raised := b.raised ∪ requests }

def takeRaised (b : Board) : InterruptSet × Board := (b.raised, { b with raised := ∅ })

def takeStall (b : Board) : Nat × Board := (b.transferStall.toNat, { b with transferStall := 0 })

def hold (held : ButtonSet) (b : Board) : Board :=
  let (joypad, requests) := b.joypad.hold held
  { b with joypad }.request requests

def press (button : Button) (held : Bool) (b : Board) : Board :=
  b.hold (b.joypad.held.set button held)

end Board

/-- A counter that a session has used up. -/
inductive Fault where
  | cycleCounter
  | frameCounter
  deriving DecidableEq

def Fault.message : Fault → String
  | .cycleCounter | .frameCounter => "attempt to add with overflow"

/-- Adds to a 64-bit counter that must not wrap. -/
def countUp (fault : Fault) (counter : UInt64) (n : Nat) : Except Fault UInt64 :=
  if counter.toNat + n < UInt64.size then .ok (counter + UInt64.ofNat n) else .error fault

namespace LiveBoard

def tick (n : Nat) (live : LiveBoard) : Except Fault LiveBoard :=
  let { image, settings, board, samples, sent } := live
  match countUp .cycleCounter board.cycles n with
  | .error fault => .error fault
  | .ok cycles =>
    let (timer, timerRequests) := board.timer.tick n
    let (serial, serialRequests) := board.serial.tick n
    let (video, videoRequests) := board.video.tick settings.colors n ∅
    let (sound, samples) := board.sound.tick settings n samples
    let cartridge := board.cartridge.tick n
    let board := { board with cartridge, timer, serial, video, sound, cycles }.request
      (timerRequests ∪ serialRequests ∪ videoRequests)
    .ok { image, settings, board, samples, sent }

def takeStall (live : LiveBoard) : Nat × LiveBoard :=
  let (stall, board) := live.board.takeStall
  (stall, { live with board })

def takeSamples (live : LiveBoard) : Array Single × LiveBoard :=
  (live.samples, { live with samples := #[] })

end LiveBoard
end DotMatrix
