import DotMatrix.Board.Basic
import DotMatrix.Board.Region
import DotMatrix.Bus

/-! Reads and writes of the processor, and the transfer to sprite memory. -/
namespace DotMatrix
namespace LiveBoard

def vramOpen (live : LiveBoard) : Bool :=
  live.settings.access == .unrestricted || live.board.video.vramOpen

def oamOpen (live : LiveBoard) : Bool :=
  live.settings.access == .unrestricted || live.board.video.oamOpen

def read (address : UInt16) (live : LiveBoard) : UInt8 :=
  let b := live.board
  match Region.ofAddress address with
  | .rom => b.cartridge.readRom live.image address
  | .vram offset => if live.vramOpen then b.video.vram.read offset else 0xFF
  | .cartridgeRam => b.cartridge.readRam address
  | .wram offset => b.wram.read offset
  | .oam offset => if live.oamOpen then b.video.oam.read offset else 0xFF
  | .joypad => b.joypad.read
  | .serialData => b.serial.data
  | .serialControl => b.serial.readControl
  | .timer => b.timer.read address
  | .interruptRequest => b.requested.bits ||| 0xE0
  | .sound => b.sound.read address
  | .oamTransfer => b.transferSource
  | .video => b.video.read address
  | .hram offset => b.hram.read offset
  | .interruptEnable => b.enabled
  | .unmapped => 0xFF

/-- What the transfer reads: no locks, and work RAM behind everything from C000. -/
def transferRead (address : UInt16) (live : LiveBoard) : UInt8 :=
  let b := live.board
  if address < 0x8000 then b.cartridge.readRom live.image address
  else if address < 0xA000 then b.video.vram.read (address.toNat - 0x8000)
  else if address < 0xC000 then b.cartridge.readRam address
  else b.wram.read address.toNat

/-- Copies a page to sprite memory at once. The processor then waits while the rest of the
console runs on. -/
def transfer (page : UInt8) (live : LiveBoard) : LiveBoard :=
  let oam : Memory 0xA0 := Vector.ofFn fun i => live.transferRead (Word.join page (UInt8.ofNat i))
  let { image, settings, board, samples, sent } := live
  { image, settings, samples, sent, board := { board with
      video := { board.video with oam }
      transferSource := page
      transferStall := Board.transferCycles } }

@[inline] def update (change : Board → Board) (live : LiveBoard) : LiveBoard :=
  let { image, settings, board, samples, sent } := live
  { image, settings, board := change board, samples, sent }

def writeVram (offset : Nat) (value : UInt8) (v : Video) : Video :=
  { v with vram := v.vram.write offset value }

def writeOam (offset : Nat) (value : UInt8) (v : Video) : Video :=
  { v with oam := v.oam.write offset value }

/-- A write to the serial control register that starts a transfer sends a byte. -/
def writeSerialControl (value : UInt8) (live : LiveBoard) : LiveBoard :=
  let { image, settings, board, samples, sent } := live
  let sent := match board.serial.sent? value with
    | some byte => sent.push byte
    | none => sent
  { image, settings, samples, sent
    board := { board with serial := board.serial.writeControl value } }

def writeVideo (address : UInt16) (value : UInt8) (live : LiveBoard) : LiveBoard :=
  let palette := live.settings.colors
  live.update fun b =>
    let (video, requests) := b.video.write palette address value
    { b with video }.request requests

def writeJoypad (value : UInt8) (b : Board) : Board :=
  let (joypad, requests) := b.joypad.write value
  { b with joypad }.request requests

def write (address : UInt16) (value : UInt8) (live : LiveBoard) : LiveBoard :=
  match Region.ofAddress address with
  | .rom => live.update fun b => { b with cartridge := b.cartridge.writeRom address value }
  | .vram offset =>
    if live.vramOpen then
      live.update fun b => { b with video := writeVram offset value b.video }
    else live
  | .cartridgeRam =>
    live.update fun b => { b with cartridge := b.cartridge.writeRam address value }
  | .wram offset => live.update fun b => { b with wram := b.wram.write offset value }
  | .oam offset =>
    if live.oamOpen then live.update fun b => { b with video := writeOam offset value b.video }
    else live
  | .joypad => live.update (writeJoypad value)
  | .serialData => live.update fun b => { b with serial := b.serial.writeData value }
  | .serialControl => live.writeSerialControl value
  | .timer => live.update fun b => { b with timer := b.timer.write address value }
  | .interruptRequest =>
    live.update fun b => { b with requested := ⟨value &&& InterruptSet.sources⟩ }
  | .sound => live.update fun b => { b with sound := b.sound.write address value }
  | .oamTransfer => live.transfer value
  | .video => live.writeVideo address value
  | .hram offset => live.update fun b => { b with hram := b.hram.write offset value }
  | .interruptEnable => live.update fun b => { b with enabled := value }
  | .unmapped => live

instance : Bus LiveBoard where
  read address live := (live.read address, live)
  write := write

end LiveBoard
end DotMatrix
