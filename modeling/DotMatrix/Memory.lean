import DotMatrix.Bus

/-! Byte memories of a fixed size. An offset is taken modulo the size, as a memory chip
does that sees only its own address lines. -/
namespace DotMatrix

abbrev Memory (size : Nat) := Vector UInt8 size

namespace Memory
variable {size : Nat}

def zeros : Memory size := Vector.replicate size 0

def read (memory : Memory size) (offset : Nat) : UInt8 := memory[offset % size]?.getD 0

def write (memory : Memory size) (offset : Nat) (value : UInt8) : Memory size :=
  memory.setIfInBounds (offset % size) value

theorem read_write (memory : Memory size) (i j : Nat) (value : UInt8) (positive : 0 < size) :
    (memory.write i value).read j = if j % size = i % size then value else memory.read j := by
  have hi : i % size < size := Nat.mod_lt i positive
  simp only [read, write, Vector.getElem?_setIfInBounds, hi, eq_comm]
  split <;> rfl

/-- A write that fails past the end. -/
def write? (memory : Memory size) (offset : Nat) (value : UInt8) : Option (Memory size) :=
  if inside : offset < size then some (memory.set offset value inside) else none

/-- Within the memory no address line is cut off. -/
theorem getElem?_eq_read (memory : Memory size) {offset : Nat} (inside : offset < size) :
    memory[offset]? = some (memory.read offset) := by
  unfold read
  rw [Nat.mod_eq_of_lt inside, Vector.getElem?_eq_getElem inside]
  rfl

theorem write?_eq (memory : Memory size) {offset : Nat} (value : UInt8) (inside : offset < size) :
    memory.write? offset value = some (memory.write offset value) := by
  unfold write? write
  rw [dif_pos inside, Nat.mod_eq_of_lt inside]
  congr 1
  ext i bound
  simp only [Vector.getElem_set, Vector.getElem_setIfInBounds]

end Memory

/-- Sixty-four kilobytes of plain bytes behind every address. -/
abbrev FlatMemory := Memory 65536

instance : Bus FlatMemory where
  read address memory := (Memory.read memory address.toNat, memory)
  write address value memory := Memory.write memory address.toNat value

end DotMatrix
