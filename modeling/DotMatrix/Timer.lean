import DotMatrix.Interrupt
import DotMatrix.Word

/-! The timer. A free-running counter advances every clock cycle; `count` counts the
falling edges of one of its bits. When `count` overflows it reads zero for four cycles,
then takes the reload value, and the timer interrupt is requested. -/
namespace DotMatrix

structure Timer where
  /-- The upper byte is the divider register. -/
  counter : UInt16
  count : UInt8
  reload : UInt8
  /-- Bit 2 enables counting; bits 0 and 1 select the counter bit. -/
  control : UInt8
  /-- Cycles until a reload; 0 when none is pending. -/
  reloadDelay : UInt8
  deriving DecidableEq

namespace Timer

def powerOn : Timer := ⟨0xABCC, 0, 0, 0, 0⟩

def selectedBit (t : Timer) : UInt16 :=
  match t.control &&& 0x03 with
  | 0 => 0x200
  | 1 => 0x008
  | 2 => 0x020
  | _ => 0x080

/-- The line whose falling edges are counted. -/
def input (t : Timer) : Bool := t.control &&& 0x04 != 0 && t.counter &&& t.selectedBit != 0

def increment (t : Timer) : Timer :=
  if t.count == 0xFF then { t with count := 0, reloadDelay := 4 }
  else { t with count := t.count + 1 }

/-- Counts an edge if the input line was high and has fallen. -/
def countEdge (before : Bool) (t : Timer) : Timer :=
  if before && !t.input then t.increment else t

/-- Counts down a pending reload, and tells whether it happened now. -/
def countReload (t : Timer) : Timer × Bool :=
  if t.reloadDelay == 0 then (t, false)
  else if t.reloadDelay == 1 then ({ t with count := t.reload, reloadDelay := 0 }, true)
  else ({ t with reloadDelay := t.reloadDelay - 1 }, false)

@[inline] def cycle (t : Timer) : Timer × Bool :=
  let (t, fired) := t.countReload
  (countEdge t.input { t with counter := t.counter + 1 }, fired)

def cycles : Nat → Timer → Bool → Timer × Bool
  | 0, t, fired => (t, fired)
  | n + 1, t, fired =>
    let (t, now) := t.cycle
    cycles n t (fired || now)

def tick (n : Nat) (t : Timer) : Timer × InterruptSet :=
  let (t, fired) := cycles n t false
  (t, .when fired .timer)

def read (t : Timer) (address : UInt16) : UInt8 :=
  match address with
  | 0xFF04 => Word.high t.counter
  | 0xFF05 => t.count
  | 0xFF06 => t.reload
  | _ => t.control ||| 0xF8

/-- Any write to the divider clears the counter. Writing the count cancels a pending
reload. Clearing the counter or switching its bit can make the input line fall. -/
def write (address : UInt16) (value : UInt8) (t : Timer) : Timer :=
  match address with
  | 0xFF04 => countEdge t.input { t with counter := 0 }
  | 0xFF05 => { t with count := value, reloadDelay := 0 }
  | 0xFF06 => { t with reload := value }
  | _ => countEdge t.input { t with control := value &&& 0x07 }

end Timer
end DotMatrix
