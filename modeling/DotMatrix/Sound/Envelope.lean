/-! Two counters that shape a note: the envelope moves the volume by a step at 64 Hz, the
length counter ends the note at 256 Hz. -/
namespace DotMatrix

structure Envelope where
  initial : UInt8
  increasing : Bool
  period : UInt8
  volume : UInt8
  timer : UInt8
  deriving DecidableEq

namespace Envelope

def off : Envelope := ⟨0, false, 0, 0, 0⟩

def write (value : UInt8) (e : Envelope) : Envelope :=
  { e with
    initial := value >>> 4
    increasing := value &&& 0x08 != 0
    period := value &&& 0x07 }

/-- The upper five bits of the envelope register switch the channel's converter. -/
def powersConverter (value : UInt8) : Bool := value &&& 0xF8 != 0

def trigger (e : Envelope) : Envelope := { e with volume := e.initial, timer := e.period }

/-- One step of the volume, within 0 to 15. -/
def stepVolume (e : Envelope) : UInt8 :=
  if e.increasing then
    if e.volume < 15 then e.volume + 1 else e.volume
  else if e.volume > 0 then e.volume - 1 else e.volume

/-- A period of 0 freezes the volume. -/
def clock (e : Envelope) : Envelope :=
  if e.period == 0 then e
  else
    let timer := if e.timer > 0 then e.timer - 1 else e.timer
    if timer == 0 then { e with volume := e.stepVolume, timer := e.period }
    else { e with timer }

end Envelope

structure LengthCounter where
  counter : UInt16
  enabled : Bool
  deriving DecidableEq

namespace LengthCounter

def off : LengthCounter := ⟨0, false⟩

/-- A register value counts from the full length down. -/
def load (full value : UInt16) (l : LengthCounter) : LengthCounter :=
  { l with counter := full - value }

/-- A counter that ran out starts at the full length again. -/
def trigger (full : UInt16) (l : LengthCounter) : LengthCounter :=
  if l.counter == 0 then { l with counter := full } else l

def clock (l : LengthCounter) : LengthCounter :=
  if l.enabled && l.counter > 0 then { l with counter := l.counter - 1 } else l

def expires (l : LengthCounter) : Bool := l.enabled && l.counter == 1

end LengthCounter
end DotMatrix
