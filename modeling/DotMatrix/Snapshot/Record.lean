import DotMatrix.Board.Basic
import DotMatrix.Cpu.Basic

/-! What a snapshot holds: the processor, the board and the frame counter. In a record the
memories are as long as the bytes say; only a layout check makes a board of it. -/
namespace DotMatrix

structure VideoRecord where
  vram : Array UInt8
  oam : Array UInt8
  raster : Raster
  frame : Array UInt32
  frameReady : Bool

structure BoardRecord where
  cartridge : Cartridge
  wram : Array UInt8
  hram : Array UInt8
  video : VideoRecord
  sound : Sound
  timer : Timer
  serial : SerialLink
  joypad : Joypad
  requested : InterruptSet
  enabled : UInt8
  transferSource : UInt8
  transferStall : UInt32
  raised : InterruptSet
  cycles : UInt64

structure Snapshot where
  cpu : Cpu
  board : BoardRecord
  frames : UInt64

namespace VideoRecord

def ofVideo (v : Video) : VideoRecord :=
  { vram := v.vram.toArray
    oam := v.oam.toArray
    raster := v.raster
    frame := v.frame.toArray
    frameReady := v.frameReady }

def toVideo? (r : VideoRecord) : Option Video :=
  if h : r.vram.size = 0x2000 ∧ r.oam.size = 0xA0 ∧ r.frame.size = 23040 then
    some
      { vram := ⟨r.vram, h.1⟩
        oam := ⟨r.oam, h.2.1⟩
        raster := r.raster
        frame := ⟨r.frame, h.2.2⟩
        frameReady := r.frameReady }
  else none

theorem toVideo?_ofVideo (v : Video) : (ofVideo v).toVideo? = some v := by
  simp [ofVideo, toVideo?]

end VideoRecord

namespace BoardRecord

def ofBoard (b : Board) : BoardRecord :=
  { cartridge := b.cartridge
    wram := b.wram.toArray
    hram := b.hram.toArray
    video := .ofVideo b.video
    sound := b.sound
    timer := b.timer
    serial := b.serial
    joypad := b.joypad
    requested := b.requested
    enabled := b.enabled
    transferSource := b.transferSource
    transferStall := b.transferStall
    raised := b.raised
    cycles := b.cycles }

def toBoard? (r : BoardRecord) : Option Board := do
  let video ← r.video.toVideo?
  if h : r.wram.size = 0x2000 ∧ r.hram.size = 0x7F then
    some
      { cartridge := r.cartridge
        wram := ⟨r.wram, h.1⟩
        hram := ⟨r.hram, h.2⟩
        video
        sound := r.sound
        timer := r.timer
        serial := r.serial
        joypad := r.joypad
        requested := r.requested
        enabled := r.enabled
        transferSource := r.transferSource
        transferStall := r.transferStall
        raised := r.raised
        cycles := r.cycles }
  else none

theorem toBoard?_ofBoard (b : Board) : (ofBoard b).toBoard? = some b := by
  simp [ofBoard, toBoard?, VideoRecord.toVideo?_ofVideo]

end BoardRecord
end DotMatrix
