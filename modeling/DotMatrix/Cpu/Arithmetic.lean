import DotMatrix.Cpu.Registers

/-! The arithmetic unit: each operation maps operands and incoming flags to a result
and the outgoing flags, without any register in between. -/
namespace DotMatrix.Arithmetic

/-- The eight two-operand operations on the accumulator, in opcode order. -/
inductive Operation where
  | add | adc | sub | sbc | and | xor | or | cp
  deriving DecidableEq

/-- The eight rotations and shifts, in opcode order. -/
inductive Shift where
  | rlc | rrc | rl | rr | sla | sra | swap | srl
  deriving DecidableEq

def bit (b : Bool) : Nat := if b then 1 else 0

theorem bit_le (b : Bool) : bit b ≤ 1 := by
  cases b <;> decide

def sum (a value : UInt8) (carry : Bool) : UInt8 × Flags :=
  let total := a.toNat + value.toNat + bit carry
  let result := UInt8.ofNat total
  (result,
    { zero := result == 0, subtract := false,
      halfCarry := a.toNat % 16 + value.toNat % 16 + bit carry > 15, carry := total > 255 })

def difference (a value : UInt8) (borrow : Bool) : UInt8 × Flags :=
  let result := a - value - (if borrow then 1 else 0)
  (result,
    { zero := result == 0, subtract := true,
      halfCarry := a.toNat % 16 < value.toNat % 16 + bit borrow,
      carry := a.toNat < value.toNat + bit borrow })

def logic (result : UInt8) (halfCarry : Bool) : UInt8 × Flags :=
  (result, { zero := result == 0, subtract := false, halfCarry, carry := false })

/-- The new accumulator and flags. Comparison keeps the accumulator. -/
def Operation.apply (operation : Operation) (a value : UInt8) (carry : Bool) : UInt8 × Flags :=
  match operation with
  | .add => sum a value false
  | .adc => sum a value carry
  | .sub => difference a value false
  | .sbc => difference a value carry
  | .and => logic (a &&& value) true
  | .xor => logic (a ^^^ value) false
  | .or => logic (a ||| value) false
  | .cp => (a, (difference a value false).2)

def Shift.move (shift : Shift) (value : UInt8) (carry : Bool) : UInt8 × Bool :=
  let top := value &&& 0x80
  let bottom := value &&& 0x01
  match shift with
  | .rlc => (value <<< 1 ||| value >>> 7, top != 0)
  | .rrc => (value >>> 1 ||| value <<< 7, bottom != 0)
  | .rl => (value <<< 1 ||| (if carry then 1 else 0), top != 0)
  | .rr => (value >>> 1 ||| (if carry then 0x80 else 0), bottom != 0)
  | .sla => (value <<< 1, top != 0)
  | .sra => (value >>> 1 ||| top, bottom != 0)
  | .swap => (value <<< 4 ||| value >>> 4, false)
  | .srl => (value >>> 1, bottom != 0)

def Shift.apply (shift : Shift) (value : UInt8) (carry : Bool) : UInt8 × Flags :=
  let (result, out) := shift.move value carry
  (result, { zero := result == 0, subtract := false, halfCarry := false, carry := out })

/-- Adds two words; the flags are the carries out of bits 11 and 15. -/
def addWords (left right : UInt16) : UInt16 × Bool × Bool :=
  (left + right, left.toNat % 4096 + right.toNat % 4096 > 4095,
    left.toNat + right.toNat > 65535)

/-- A word plus a signed byte. The flags are those of adding the byte, unsigned, to the
word's low byte. -/
def offset (word : UInt16) (byte : UInt8) : UInt16 × Flags :=
  (word + Word.signed byte,
    { zero := false, subtract := false,
      halfCarry := word.toNat % 16 + byte.toNat % 16 > 15,
      carry := word.toNat % 256 + byte.toNat > 255 })

/-- Corrects a binary sum or difference of packed decimal bytes to packed decimal, and
tells the decimal carry. -/
def decimalAdjust (a : UInt8) (subtract halfCarry carry : Bool) : UInt8 × Bool :=
  if subtract then
    let a := if carry then a - 0x60 else a
    (if halfCarry then a - 0x06 else a, carry)
  else
    let high := carry || a > 0x99
    let a := if high then a + 0x60 else a
    (if halfCarry || a &&& 0x0F > 0x09 then a + 0x06 else a, high)

end DotMatrix.Arithmetic
