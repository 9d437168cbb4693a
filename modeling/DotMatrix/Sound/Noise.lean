import DotMatrix.Sound.Envelope
import DotMatrix.Sound.Countdown

/-! The channel that plays the low bit of a feedback shift register. -/
namespace DotMatrix

structure Noise where
  enabled : Bool
  /-- The channel's converter is on. -/
  converter : Bool
  register : UInt16
  shift : UInt8
  /-- The register repeats after 127 steps. -/
  narrow : Bool
  divisor : UInt8
  timer : UInt32
  length : LengthCounter
  envelope : Envelope
  deriving DecidableEq

namespace Noise

def startRegister : UInt16 := 0x7FFF

def off : Noise :=
  { enabled := false, converter := false, register := startRegister, shift := 0
    narrow := false, divisor := 0, timer := 0, length := .off, envelope := .off }

def fullLength : UInt16 := 64

/-- Divisor 0 stands for half of divisor 1. -/
def period (n : Noise) : Nat :=
  (if n.divisor == 0 then 8 else 16 * n.divisor.toNat) <<< n.shift.toNat

def writeLength (value : UInt8) (n : Noise) : Noise :=
  { n with length := n.length.load fullLength (value &&& 0x3F).toUInt16 }

/-- A channel goes off with its converter. -/
def writeEnvelope (value : UInt8) (n : Noise) : Noise :=
  let converter := Envelope.powersConverter value
  { n with envelope := n.envelope.write value, converter, enabled := n.enabled && converter }

def writePolynomial (value : UInt8) (n : Noise) : Noise :=
  { n with shift := value >>> 4, narrow := value &&& 0x08 != 0, divisor := value &&& 0x07 }

def trigger (n : Noise) : Noise :=
  { n with
    enabled := n.converter
    length := n.length.trigger fullLength
    timer := UInt32.ofNat n.period
    envelope := n.envelope.trigger
    register := startRegister }

def writeControl (value : UInt8) (n : Noise) : Noise :=
  let n := { n with length := { n.length with enabled := value &&& 0x40 != 0 } }
  if value &&& 0x80 != 0 then n.trigger else n

/-- Shifts right; the feedback enters at bit 14, and at bit 6 too when narrow. -/
def clockRegister (narrow : Bool) (register : UInt16) : UInt16 :=
  let feedback := (register ^^^ (register >>> 1)) &&& 1
  let shifted := (register >>> 1) ||| (feedback <<< 14)
  if narrow then shifted &&& (0xFFBF : UInt16) ||| feedback <<< 6 else shifted

/-- Shifts of 14 and 15 never clock the register. -/
def step (cycles : Nat) (n : Noise) : Noise :=
  if n.shift ≥ 14 then n
  else
    let (timer, clocks) := Countdown.advance n.period n.timer.toNat cycles 0
    { n with
      timer := UInt32.ofNat timer
      register := Nat.repeat (clockRegister n.narrow) clocks n.register }

def clockLength (n : Noise) : Noise :=
  { n with length := n.length.clock, enabled := n.enabled && !n.length.expires }

def clockEnvelope (n : Noise) : Noise := { n with envelope := n.envelope.clock }

def output (n : Noise) : UInt8 :=
  if !n.enabled || n.register &&& 1 != 0 then 0 else n.envelope.volume

end Noise
end DotMatrix
