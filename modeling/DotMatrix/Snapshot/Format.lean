import DotMatrix.Snapshot.Codec
import DotMatrix.Snapshot.Record

/-! The bytes of a snapshot's body, part by part, in the order in which they are stored. -/
namespace DotMatrix.Format
open Codec

def registers : Codec Registers :=
  (byte.pair <| byte.pair <| byte.pair <| byte.pair <| byte.pair <| byte.pair <| byte.pair <|
      byte.pair <| word.pair word).iso
    (fun r => (r.a, r.f, r.b, r.c, r.d, r.e, r.h, r.l, r.sp, r.pc))
    (fun (a, f, b, c, d, e, h, l, sp, pc) => { a, f, b, c, d, e, h, l, sp, pc })

def cpu : Codec Cpu :=
  (registers.pair <| bool.pair <| byte.pair <| bool.pair <| bool.pair <| bool.pair bool).iso
    (fun c => (c.registers, c.interruptsEnabled, c.enableDelay, c.halted, c.stopped, c.haltBug,
      c.locked))
    (fun (registers, interruptsEnabled, enableDelay, halted, stopped, haltBug, locked) =>
      { registers, interruptsEnabled, enableDelay, halted, stopped, haltBug, locked })

def clockTime : Codec ClockTime :=
  (byte.pair <| byte.pair <| byte.pair <| byte.pair byte).iso
    (fun t => (t.seconds, t.minutes, t.hours, t.dayLow, t.control))
    (fun (seconds, minutes, hours, dayLow, control) => { seconds, minutes, hours, dayLow, control })

def clock : Codec Clock :=
  (clockTime.pair <| clockTime.pair <| word32.pair <| byte.option).iso
    (fun c => (c.time, c.latched, c.subsecond, c.lastLatch))
    (fun (time, latched, subsecond, lastLatch) => { time, latched, subsecond, lastLatch })

def mbc1 : Codec Mbc1 :=
  (bool.pair <| byte.pair <| byte.pair bool).iso
    (fun m => (m.ramEnabled, m.low, m.high, m.mode))
    (fun (ramEnabled, low, high, mode) => { ramEnabled, low, high, mode })

def mbc2 : Codec Mbc2 :=
  (bool.pair byte).iso (fun m => (m.ramEnabled, m.romBank))
    (fun (ramEnabled, romBank) => { ramEnabled, romBank })

def mbc3 : Codec Mbc3 :=
  (bool.pair <| byte.pair <| byte.pair <| clock.option).iso
    (fun m => (m.ramEnabled, m.romBank, m.select, m.clock))
    (fun (ramEnabled, romBank, select, clock) => { ramEnabled, romBank, select, clock })

def mbc5 : Codec Mbc5 :=
  (bool.pair <| word.pair <| byte.pair bool).iso
    (fun m => (m.ramEnabled, m.romBank, m.ramBank, m.rumble))
    (fun (ramEnabled, romBank, ramBank, rumble) => { ramEnabled, romBank, ramBank, rumble })

/-- The state that a mapper's index stands for. -/
def mapperState : Fin 5 → Type
  | 0 => Unit
  | 1 => Mbc1
  | 2 => Mbc2
  | 3 => Mbc3
  | 4 => Mbc5

def mapperStateCodec : (i : Fin 5) → Codec (mapperState i)
  | 0 => unit
  | 1 => mbc1
  | 2 => mbc2
  | 3 => mbc3
  | 4 => mbc5

def mapper : Codec Mapper :=
  (sum mapperState mapperStateCodec).iso
    (fun
      | .none => ⟨0, ()⟩
      | .mbc1 m => ⟨1, m⟩
      | .mbc2 m => ⟨2, m⟩
      | .mbc3 m => ⟨3, m⟩
      | .mbc5 m => ⟨4, m⟩)
    (fun
      | ⟨0, _⟩ => .none
      | ⟨1, m⟩ => .mbc1 m
      | ⟨2, m⟩ => .mbc2 m
      | ⟨3, m⟩ => .mbc3 m
      | ⟨4, m⟩ => .mbc5 m)

def cartridge : Codec Cartridge :=
  (byte.array.pair <| mapper.pair <| word64.pair bool).iso
    (fun c => (c.ram, c.mapper, c.romBanks, c.battery))
    (fun (ram, mapper, romBanks, battery) => { ram, mapper, romBanks, battery })

def videoRegisters : Codec VideoRegisters :=
  (byte.pair <| byte.pair <| byte.pair <| byte.pair <| byte.pair <| byte.pair <| byte.pair <|
      byte.pair <| byte.pair <| byte.pair byte).iso
    (fun r => (r.control, r.statusSelect, r.scrollY, r.scrollX, r.line, r.lineCompare,
      r.backgroundPalette, r.spritePalette0, r.spritePalette1, r.windowY, r.windowX))
    (fun (control, statusSelect, scrollY, scrollX, line, lineCompare, backgroundPalette,
        spritePalette0, spritePalette1, windowY, windowX) =>
      { control, statusSelect, scrollY, scrollX, line, lineCompare, backgroundPalette,
        spritePalette0, spritePalette1, windowY, windowX })

def videoMode : Codec VideoMode :=
  (index 4).iso
    (fun
      | .horizontalBlank => 0
      | .verticalBlank => 1
      | .oamScan => 2
      | .transfer => 3)
    (fun
      | 0 => .horizontalBlank
      | 1 => .verticalBlank
      | 2 => .oamScan
      | 3 => .transfer)

def int16 : Codec Int16 := word.iso Int16.toUInt16 UInt16.toInt16

def sprite : Codec Sprite :=
  (int16.pair <| int16.pair <| byte.pair <| byte.pair byte).iso
    (fun s => (s.y, s.x, s.tile, s.flags, s.index))
    (fun (y, x, tile, flags, index) => { y, x, tile, flags, index })

def raster : Codec Raster :=
  (videoRegisters.pair <| videoMode.pair <| word.pair <| word.pair <| bool.pair <| bool.pair <|
      bool.pair <| byte.pair sprite.list).iso
    (fun r => (r.registers, r.mode, r.dot, r.transferDots, r.coincidence, r.statusLine,
      r.windowReached, r.windowLine, r.sprites))
    (fun (registers, mode, dot, transferDots, coincidence, statusLine, windowReached, windowLine,
        sprites) =>
      { registers, mode, dot, transferDots, coincidence, statusLine, windowReached, windowLine,
        sprites })

def video : Codec VideoRecord :=
  (byte.array.pair <| byte.array.pair <| raster.pair <| word32.array.pair bool).iso
    (fun v => (v.vram, v.oam, v.raster, v.frame, v.frameReady))
    (fun (vram, oam, raster, frame, frameReady) => { vram, oam, raster, frame, frameReady })

def length : Codec LengthCounter :=
  (word.pair bool).iso (fun l => (l.counter, l.enabled)) (fun (counter, enabled) =>
    { counter, enabled })

def envelope : Codec Envelope :=
  (byte.pair <| bool.pair <| byte.pair <| byte.pair byte).iso
    (fun e => (e.initial, e.increasing, e.period, e.volume, e.timer))
    (fun (initial, increasing, period, volume, timer) =>
      { initial, increasing, period, volume, timer })

def sweep : Codec Sweep :=
  (byte.pair <| bool.pair <| byte.pair <| byte.pair <| word.pair bool).iso
    (fun s => (s.period, s.negate, s.shift, s.timer, s.shadow, s.enabled))
    (fun (period, negate, shift, timer, shadow, enabled) =>
      { period, negate, shift, timer, shadow, enabled })

def pulse : Codec Pulse :=
  (bool.pair <| bool.pair <| byte.pair <| byte.pair <| word.pair <| word32.pair <| length.pair <|
      envelope.pair sweep.option).iso
    (fun p => (p.enabled, p.converter, p.duty, p.position, p.frequency, p.timer, p.length,
      p.envelope, p.sweep))
    (fun (enabled, converter, duty, position, frequency, timer, length, envelope, sweep) =>
      { enabled, converter, duty, position, frequency, timer, length, envelope, sweep })

def wave : Codec Wave :=
  (bool.pair <| bool.pair <| (byte.vector 16).pair <| byte.pair <| word.pair <| word32.pair <|
      byte.pair length).iso
    (fun w => (w.enabled, w.converter, w.ram, w.volumeCode, w.frequency, w.timer, w.position,
      w.length))
    (fun (enabled, converter, ram, volumeCode, frequency, timer, position, length) =>
      { enabled, converter, ram, volumeCode, frequency, timer, position, length })

def noise : Codec Noise :=
  (bool.pair <| bool.pair <| word.pair <| byte.pair <| bool.pair <| byte.pair <| word32.pair <|
      length.pair envelope).iso
    (fun n => (n.enabled, n.converter, n.register, n.shift, n.narrow, n.divisor, n.timer, n.length,
      n.envelope))
    (fun (enabled, converter, register, shift, narrow, divisor, timer, length, envelope) =>
      { enabled, converter, register, shift, narrow, divisor, timer, length, envelope })

def single : Codec Single := word32.iso Single.bits Single.mk

def highPass : Codec HighPass :=
  (single.pair single).iso (fun h => (h.input, h.output)) (fun (input, output) =>
    { input, output })

def sound : Codec Sound :=
  (bool.pair <| (byte.vector 23).pair <| pulse.pair <| pulse.pair <| wave.pair <| noise.pair <|
      word32.pair <| byte.pair <| word64.pair <| highPass.pair highPass).iso
    (fun s => (s.powered, s.registers, s.pulse1, s.pulse2, s.wave, s.noise, s.sequencerTimer,
      s.sequencerStep, s.samplePhase, s.left, s.right))
    (fun (powered, registers, pulse1, pulse2, wave, noise, sequencerTimer, sequencerStep,
        samplePhase, left, right) =>
      { powered, registers, pulse1, pulse2, wave, noise, sequencerTimer, sequencerStep,
        samplePhase, left, right })

def timer : Codec Timer :=
  (word.pair <| byte.pair <| byte.pair <| byte.pair byte).iso
    (fun t => (t.counter, t.count, t.reload, t.control, t.reloadDelay))
    (fun (counter, count, reload, control, reloadDelay) =>
      { counter, count, reload, control, reloadDelay })

def serial : Codec SerialLink :=
  (byte.pair <| byte.pair <| byte.pair word32).iso
    (fun s => (s.data, s.control, s.bitsRemaining, s.bitTimer))
    (fun (data, control, bitsRemaining, bitTimer) => { data, control, bitsRemaining, bitTimer })

def joypad : Codec Joypad :=
  (byte.pair byte).iso (fun j => (j.select, j.held.bits)) (fun (select, held) => ⟨select, ⟨held⟩⟩)

def interrupts : Codec InterruptSet := byte.iso InterruptSet.bits InterruptSet.mk

def board : Codec BoardRecord :=
  (cartridge.pair <| byte.array.pair <| byte.array.pair <| video.pair <| sound.pair <|
      timer.pair <| serial.pair <| joypad.pair <| interrupts.pair <| byte.pair <| byte.pair <|
      word32.pair <| interrupts.pair word64).iso
    (fun b => (b.cartridge, b.wram, b.hram, b.video, b.sound, b.timer, b.serial, b.joypad,
      b.requested, b.enabled, b.transferSource, b.transferStall, b.raised, b.cycles))
    (fun (cartridge, wram, hram, video, sound, timer, serial, joypad, requested, enabled,
        transferSource, transferStall, raised, cycles) =>
      { cartridge, wram, hram, video, sound, timer, serial, joypad, requested, enabled,
        transferSource, transferStall, raised, cycles })

def snapshot : Codec Snapshot :=
  (cpu.pair <| board.pair word64).iso (fun s => (s.cpu, s.board, s.frames))
    (fun (cpu, board, frames) => { cpu, board, frames })

end DotMatrix.Format
