import DotMatrix.Sound.Envelope
import DotMatrix.Sound.Countdown

/-! The two square-wave channels. The first one can sweep its frequency. -/
namespace DotMatrix

structure Sweep where
  period : UInt8
  negate : Bool
  shift : UInt8
  timer : UInt8
  /-- The frequency that the sweep computes with. -/
  shadow : UInt16
  enabled : Bool
  deriving DecidableEq

structure Pulse where
  enabled : Bool
  /-- The channel's converter is on. -/
  converter : Bool
  duty : UInt8
  position : UInt8
  frequency : UInt16
  timer : UInt32
  length : LengthCounter
  envelope : Envelope
  sweep : Option Sweep
  deriving DecidableEq

/-- Frequencies have eleven bits. -/
def maxFrequency : UInt16 := 2047

namespace Sweep

def off : Sweep := ⟨0, false, 0, 0, 0, false⟩

def write (value : UInt8) (s : Sweep) : Sweep :=
  { s with
    period := value >>> 4 &&& 0x07
    negate := value &&& 0x08 != 0
    shift := value &&& 0x07 }

def next (s : Sweep) : UInt16 :=
  let delta := s.shadow >>> s.shift.toUInt16
  if s.negate then s.shadow - delta else s.shadow + delta

def overflows (s : Sweep) : Bool := s.next > maxFrequency

/-- A period of 0 counts as 8. -/
def reload (s : Sweep) : Sweep := { s with timer := if s.period == 0 then 8 else s.period }

def trigger (frequency : UInt16) (s : Sweep) : Sweep :=
  { s with shadow := frequency, enabled := s.period != 0 || s.shift != 0 }.reload

end Sweep

namespace Pulse

def off (sweeps : Bool) : Pulse :=
  { enabled := false, converter := false, duty := 0, position := 0, frequency := 0, timer := 0
    length := .off, envelope := .off, sweep := if sweeps then some .off else none }

def fullLength : UInt16 := 64

def period (p : Pulse) : Nat := (2048 - p.frequency.toNat) * 4

/-- The eight steps of a waveform, the first in the top bit. -/
def waveform (duty : UInt8) : UInt8 :=
  match duty with
  | 0 => 0b00000001
  | 1 => 0b10000001
  | 2 => 0b10000111
  | _ => 0b01111110

def writeSweep (value : UInt8) (p : Pulse) : Pulse :=
  { p with sweep := p.sweep.map (Sweep.write value) }

def writeDutyLength (value : UInt8) (p : Pulse) : Pulse :=
  { p with
    duty := value >>> 6
    length := p.length.load fullLength (value &&& 0x3F).toUInt16 }

/-- A channel goes off with its converter. -/
def writeEnvelope (value : UInt8) (p : Pulse) : Pulse :=
  let converter := Envelope.powersConverter value
  { p with envelope := p.envelope.write value, converter, enabled := p.enabled && converter }

def writeFrequencyLow (value : UInt8) (p : Pulse) : Pulse :=
  { p with frequency := (p.frequency &&& 0x0700) ||| value.toUInt16 }

def trigger (p : Pulse) : Pulse :=
  let sweep := p.sweep.map (Sweep.trigger p.frequency)
  let overflow := sweep.any fun s => s.shift != 0 && s.overflows
  { p with
    enabled := p.converter && !overflow
    length := p.length.trigger fullLength
    timer := UInt32.ofNat p.period
    envelope := p.envelope.trigger
    sweep }

def writeControl (value : UInt8) (p : Pulse) : Pulse :=
  let p :=
    { p with
      frequency := (p.frequency &&& 0x00FF) ||| ((value &&& 0x07).toUInt16 * 256)
      length := { p.length with enabled := value &&& 0x40 != 0 } }
  if value &&& 0x80 != 0 then p.trigger else p

/-- Positions count up to 7 and start again; with a position from 8 on, which no channel has, they
would be taken modulo 8 even before the first clock. -/
def step (cycles : Nat) (p : Pulse) : Pulse :=
  let (timer, clocks) := Countdown.advance p.period p.timer.toNat cycles 0
  { p with
    timer := UInt32.ofNat timer
    position := UInt8.ofNat ((p.position.toNat + clocks) % 8) }

def clockLength (p : Pulse) : Pulse :=
  { p with length := p.length.clock, enabled := p.enabled && !p.length.expires }

def clockEnvelope (p : Pulse) : Pulse := { p with envelope := p.envelope.clock }

/-- What a sweep does when its timer has run out: the next frequency is taken if it fits, and
checked once more. An overflow ends the note. -/
def applySweep (s : Sweep) (p : Pulse) : Pulse :=
  if !s.enabled || s.period == 0 then { p with sweep := some s }
  else if s.overflows then { p with sweep := some s, enabled := false }
  else if s.shift == 0 then { p with sweep := some s }
  else
    let swept := { s with shadow := s.next }
    { p with
      frequency := s.next
      sweep := some swept
      enabled := p.enabled && !swept.overflows }

def clockSweep (p : Pulse) : Pulse :=
  match p.sweep with
  | none => p
  | some s =>
    let timer := if s.timer > 0 then s.timer - 1 else s.timer
    if timer == 0 then p.applySweep s.reload else { p with sweep := some { s with timer } }

def output (p : Pulse) : UInt8 :=
  if p.enabled && waveform p.duty >>> (7 - p.position) &&& 1 == 1 then p.envelope.volume else 0

end Pulse
end DotMatrix
