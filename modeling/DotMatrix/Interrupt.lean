/-! The five interrupt sources, and sets of sources as bytes. Bit order is priority:
of a set, the lowest bit is served first. A set keeps bits that name no source. -/
namespace DotMatrix

inductive Interrupt where
  | verticalBlank | lcdStatus | timer | serial | joypad
  deriving DecidableEq

structure InterruptSet where
  bits : UInt8
  deriving DecidableEq

namespace Interrupt

def index : Interrupt → Nat
  | .verticalBlank => 0
  | .lcdStatus => 1
  | .timer => 2
  | .serial => 3
  | .joypad => 4

def ofIndex? : Nat → Option Interrupt
  | 0 => some .verticalBlank
  | 1 => some .lcdStatus
  | 2 => some .timer
  | 3 => some .serial
  | 4 => some .joypad
  | _ => none

def bit : Interrupt → UInt8
  | .verticalBlank => 0x01
  | .lcdStatus => 0x02
  | .timer => 0x04
  | .serial => 0x08
  | .joypad => 0x10

theorem ofIndex?_index (i : Interrupt) : ofIndex? i.index = some i := by
  cases i <;> rfl

end Interrupt

namespace InterruptSet

def sources : UInt8 := 0x1F

instance : EmptyCollection InterruptSet := ⟨⟨0⟩⟩
instance : Singleton Interrupt InterruptSet := ⟨fun i => ⟨i.bit⟩⟩
instance : Union InterruptSet := ⟨fun s t => ⟨s.bits ||| t.bits⟩⟩
instance : Inter InterruptSet := ⟨fun s t => ⟨s.bits &&& t.bits⟩⟩
instance : Membership Interrupt InterruptSet := ⟨fun s i => s.bits &&& i.bit ≠ 0⟩
instance (i : Interrupt) (s : InterruptSet) : Decidable (i ∈ s) :=
  inferInstanceAs (Decidable (s.bits &&& i.bit ≠ 0))

/-- The set with `i` requested when `condition` holds, empty otherwise. -/
def when (condition : Bool) (i : Interrupt) : InterruptSet := if condition then {i} else ∅

/-- The number of clear bits below the lowest set one; 8 when no bit is set. -/
def lowest (s : InterruptSet) : Nat :=
  ((List.range 8).find? fun i => s.bits.toNat.testBit i).getD 8

/-- The address of the handler for the lowest bit. -/
def vector (s : InterruptSet) : UInt16 := UInt16.ofNat (0x40 + 8 * s.lowest)

/-- The source served first; none when the lowest set bit names no source. -/
def highest? (s : InterruptSet) : Option Interrupt := Interrupt.ofIndex? s.lowest

def erase (s : InterruptSet) (i : Interrupt) : InterruptSet := ⟨s.bits &&& ~~~i.bit⟩

end InterruptSet

def Interrupt.vector (i : Interrupt) : UInt16 := InterruptSet.vector {i}

theorem Interrupt.vector_eq (i : Interrupt) :
    i.vector = UInt16.ofNat (0x40 + 8 * i.index) := by
  cases i <;> decide

end DotMatrix
