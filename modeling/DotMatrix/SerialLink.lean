import DotMatrix.Interrupt

/-! The serial link, with nothing attached. A transfer on the internal clock shifts eight
bits out, one every 512 cycles, shifts ones in from the open line, and then requests the
serial interrupt. -/
namespace DotMatrix

structure SerialLink where
  data : UInt8
  control : UInt8
  /-- Bits still to shift in the transfer under way. -/
  bitsRemaining : UInt8
  /-- Cycles until the next bit shifts. -/
  bitTimer : UInt32
  deriving DecidableEq

namespace SerialLink

def cyclesPerBit : UInt32 := 512

def powerOn : SerialLink := ⟨0, 0, 0, 0⟩

def readControl (s : SerialLink) : UInt8 := s.control ||| 0x7E

def writeData (value : UInt8) (s : SerialLink) : SerialLink := { s with data := value }

/-- Setting bits 7 and 0 starts a transfer; any other value cancels one. -/
def writeControl (value : UInt8) (s : SerialLink) : SerialLink :=
  let control := value &&& 0x81
  if control == 0x81 then { s with control, bitsRemaining := 8, bitTimer := cyclesPerBit }
  else { s with control, bitsRemaining := 0 }

/-- The byte that a write to the control register sends out. -/
def sent? (value : UInt8) (s : SerialLink) : Option UInt8 :=
  if value &&& 0x81 == 0x81 then some s.data else none

def shift (s : SerialLink) : SerialLink :=
  let bitsRemaining := s.bitsRemaining - 1
  { data := s.data <<< 1 ||| 0x01
    control := if bitsRemaining == 0 then s.control &&& 0x7F else s.control
    bitsRemaining
    bitTimer := cyclesPerBit }

theorem shift_bitsRemaining_lt {s : SerialLink} (h : s.bitsRemaining ≠ 0) :
    s.shift.bitsRemaining.toNat < s.bitsRemaining.toNat := by
  have positive : s.bitsRemaining.toNat ≠ 0 := fun h0 => h (UInt8.toNat_inj.1 h0)
  have := s.bitsRemaining.toNat_lt
  simp only [shift, UInt8.toNat_sub, UInt8.reduceToNat]
  omega

def tick (cycles : Nat) (s : SerialLink) : SerialLink × InterruptSet :=
  if s.bitsRemaining = 0 then (s, ∅)
  else if cycles = 0 then (s, ∅)
  else if cycles < s.bitTimer.toNat then
    ({ s with bitTimer := s.bitTimer - UInt32.ofNat cycles }, ∅)
  else if s.shift.bitsRemaining = 0 then (s.shift, {.serial})
  else tick (cycles - s.bitTimer.toNat) s.shift
termination_by s.bitsRemaining.toNat
decreasing_by exact shift_bitsRemaining_lt (by assumption)

end SerialLink
end DotMatrix
