import DotMatrix.Word

/-! A bus answers byte reads and takes byte writes; both may change what is behind it.
Words travel low byte first. `Traced` wraps any bus and records every access. -/
namespace DotMatrix

class Bus (β : Type) where
  read : UInt16 → β → UInt8 × β
  write : UInt16 → UInt8 → β → β

namespace Bus

def readWord [Bus β] (address : UInt16) (bus : β) : UInt16 × β :=
  let (low, bus) := read address bus
  let (high, bus) := read (address + 1) bus
  (Word.join high low, bus)

def writeWord [Bus β] (address word : UInt16) (bus : β) : β :=
  write (address + 1) (Word.high word) (write address (Word.low word) bus)

end Bus

inductive Access where
  | read (address : UInt16)
  | write (address : UInt16) (value : UInt8)
  deriving DecidableEq

/-- A bus with the accesses made through it, the latest first. -/
structure Traced (β : Type) where
  bus : β
  accesses : List Access

instance [Bus β] : Bus (Traced β) where
  read address traced :=
    let (value, bus) := Bus.read address traced.bus
    (value, ⟨bus, .read address :: traced.accesses⟩)
  write address value traced :=
    ⟨Bus.write address value traced.bus, .write address value :: traced.accesses⟩

end DotMatrix
