import DotMatrix.Memory
import DotMatrix.Sound.Envelope
import DotMatrix.Sound.Countdown

/-! The channel that plays 32 half-byte samples from its own memory. -/
namespace DotMatrix

structure Wave where
  enabled : Bool
  /-- The channel's converter is on. -/
  converter : Bool
  ram : Memory 16
  volumeCode : UInt8
  frequency : UInt16
  timer : UInt32
  position : UInt8
  length : LengthCounter

namespace Wave

/-- The pattern that the wave memory powers up with. -/
def powerOnRam : Memory 16 :=
  #v[0x84, 0x40, 0x43, 0xAA, 0x2D, 0x78, 0x92, 0x3C, 0x60, 0x59, 0x59, 0xB0, 0x34, 0xB8, 0x2E,
    0xDA]

/-- A silent channel with the given wave memory. -/
def off (ram : Memory 16) : Wave :=
  { enabled := false, converter := false, ram, volumeCode := 0, frequency := 0, timer := 0
    position := 0, length := .off }

def fullLength : UInt16 := 256

def period (w : Wave) : Nat := (2048 - w.frequency.toNat) * 2

def writeConverter (value : UInt8) (w : Wave) : Wave :=
  let converter := value &&& 0x80 != 0
  { w with converter, enabled := w.enabled && converter }

def writeLength (value : UInt8) (w : Wave) : Wave :=
  { w with length := w.length.load fullLength value.toUInt16 }

def writeVolume (value : UInt8) (w : Wave) : Wave :=
  { w with volumeCode := value >>> 5 &&& 0x03 }

def writeFrequencyLow (value : UInt8) (w : Wave) : Wave :=
  { w with frequency := (w.frequency &&& 0x0700) ||| value.toUInt16 }

def trigger (w : Wave) : Wave :=
  { w with
    enabled := w.converter
    length := w.length.trigger fullLength
    timer := UInt32.ofNat w.period
    position := 0 }

def writeControl (value : UInt8) (w : Wave) : Wave :=
  let w :=
    { w with
      frequency := (w.frequency &&& 0x00FF) ||| ((value &&& 0x07).toUInt16 * 256)
      length := { w.length with enabled := value &&& 0x40 != 0 } }
  if value &&& 0x80 != 0 then w.trigger else w

/-- Positions count up to 31 and start again; with a position from 32 on, which no channel has, they
would be taken modulo 32 even before the first clock. -/
def step (cycles : Nat) (w : Wave) : Wave :=
  let (timer, clocks) := Countdown.advance w.period w.timer.toNat cycles 0
  { w with
    timer := UInt32.ofNat timer
    position := UInt8.ofNat ((w.position.toNat + clocks) % 32) }

def clockLength (w : Wave) : Wave :=
  { w with length := w.length.clock, enabled := w.enabled && !w.length.expires }

/-- The half of a byte that is played; even positions are in the upper one. -/
def half (byte : UInt8) (w : Wave) : UInt8 :=
  if w.position % 2 == 0 then byte >>> 4 else byte &&& 0x0F

def sample (w : Wave) : UInt8 := w.half (w.ram.read (w.position.toNat / 2))

/-- A level from 0 to 15; the volume code halves it one time less than its value, 0 mutes. -/
def output (w : Wave) : UInt8 :=
  if !w.enabled || w.volumeCode == 0 then 0 else w.sample >>> (w.volumeCode - 1)

end Wave
end DotMatrix
