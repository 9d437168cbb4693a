import DotMatrix.Word

/-! The real-time clock of an MBC3 cartridge. It counts the console's clock cycles, so a
session replays identically. Programs read a latched copy of the running time. -/
namespace DotMatrix

def cyclesPerSecond : Nat := 0x400000

/-- The five clock registers. The day has nine bits, the ninth being bit 0 of `control`;
there bit 6 halts the clock and bit 7 tells that the day has wrapped. -/
structure ClockTime where
  seconds : UInt8
  minutes : UInt8
  hours : UInt8
  dayLow : UInt8
  control : UInt8
  deriving DecidableEq

namespace ClockTime

def zero : ClockTime := ⟨0, 0, 0, 0, 0⟩

/-- The bits of each register that are wired. -/
def masks : ClockTime := ⟨0x3F, 0x3F, 0x1F, 0xFF, 0xC1⟩

def toList (t : ClockTime) : List UInt8 := [t.seconds, t.minutes, t.hours, t.dayLow, t.control]

def get (t : ClockTime) (select : UInt8) : UInt8 :=
  match select with
  | 0x08 => t.seconds
  | 0x09 => t.minutes
  | 0x0A => t.hours
  | 0x0B => t.dayLow
  | _ => t.control

def set (t : ClockTime) (select value : UInt8) : ClockTime :=
  match select with
  | 0x08 => { t with seconds := value }
  | 0x09 => { t with minutes := value }
  | 0x0A => { t with hours := value }
  | 0x0B => { t with dayLow := value }
  | _ => { t with control := value }

def masked (t : ClockTime) : ClockTime :=
  ⟨t.seconds &&& masks.seconds, t.minutes &&& masks.minutes, t.hours &&& masks.hours,
    t.dayLow &&& masks.dayLow, t.control &&& masks.control⟩

def halted (t : ClockTime) : Bool := t.control &&& 0x40 != 0

def day (t : ClockTime) : Nat := (t.control &&& 0x01).toNat * 256 + t.dayLow.toNat

def setDay (t : ClockTime) (day : Nat) : ClockTime :=
  { t with
    dayLow := UInt8.ofNat day
    control := (t.control &&& ~~~0x01) ||| (UInt8.ofNat (day / 256) &&& 0x01) }

def advanceDay (t : ClockTime) : ClockTime :=
  if t.day + 1 > 0x1FF then
    let t := t.setDay 0
    { t with control := t.control ||| 0x80 }
  else t.setDay (t.day + 1)

def advanceHour (t : ClockTime) : ClockTime :=
  let hours := (t.hours + 1) &&& masks.hours
  if hours == 24 then advanceDay { t with hours := 0 } else { t with hours }

def advanceMinute (t : ClockTime) : ClockTime :=
  let minutes := (t.minutes + 1) &&& masks.minutes
  if minutes == 60 then advanceHour { t with minutes := 0 } else { t with minutes }

/-- A field that was set past its range counts on to its width and wraps without a carry. -/
def advanceSecond (t : ClockTime) : ClockTime :=
  let seconds := (t.seconds + 1) &&& masks.seconds
  if seconds == 60 then advanceMinute { t with seconds := 0 } else { t with seconds }

end ClockTime

structure Clock where
  time : ClockTime
  latched : ClockTime
  /-- Cycles since the last full second. -/
  subsecond : UInt32
  /-- The last value written to the latch; 0 and then 1 takes a copy of the time. -/
  lastLatch : Option UInt8
  deriving DecidableEq

namespace Clock

def start : Clock := ⟨.zero, .zero, 0, none⟩

def tick (cycles : Nat) (clock : Clock) : Clock :=
  if clock.time.halted then clock
  else
    let total := clock.subsecond.toNat + cycles
    { clock with
      time := Nat.repeat ClockTime.advanceSecond (total / cyclesPerSecond) clock.time
      subsecond := UInt32.ofNat (total % cyclesPerSecond) }

def writeLatch (value : UInt8) (clock : Clock) : Clock :=
  let latched := if clock.lastLatch = some 0 ∧ value = 1 then clock.time else clock.latched
  { clock with latched, lastLatch := some value }

def read (select : UInt8) (clock : Clock) : UInt8 := clock.latched.masked.get select

/-- Writing the seconds starts a new second. -/
def write (select value : UInt8) (clock : Clock) : Clock :=
  { clock with
    time := clock.time.set select (value &&& ClockTime.masks.get select)
    subsecond := if select = 0x08 then 0 else clock.subsecond }

end Clock
end DotMatrix
