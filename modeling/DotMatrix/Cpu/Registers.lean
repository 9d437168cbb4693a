import DotMatrix.Word

/-! The register file. Six byte registers pair up as BC, DE and HL; A pairs with the
flag byte F. Programs see the low nibble of F as zero, through `af`; the byte itself
is kept as it was last stored. -/
namespace DotMatrix

inductive Flag where
  | zero | subtract | halfCarry | carry
  deriving DecidableEq

def Flag.mask : Flag → UInt8
  | .zero => 0x80
  | .subtract => 0x40
  | .halfCarry => 0x20
  | .carry => 0x10

structure Flags where
  zero : Bool
  subtract : Bool
  halfCarry : Bool
  carry : Bool
  deriving DecidableEq

def Flags.toByte (flags : Flags) : UInt8 :=
  (if flags.zero then 0x80 else 0) ||| (if flags.subtract then 0x40 else 0) |||
    (if flags.halfCarry then 0x20 else 0) ||| (if flags.carry then 0x10 else 0)

structure Registers where
  a : UInt8
  f : UInt8
  b : UInt8
  c : UInt8
  d : UInt8
  e : UInt8
  h : UInt8
  l : UInt8
  sp : UInt16
  pc : UInt16
  deriving DecidableEq

namespace Registers

def zero : Registers := ⟨0, 0, 0, 0, 0, 0, 0, 0, 0, 0⟩

/-- What the boot program leaves behind when it jumps to the cartridge at 0100. -/
def postBoot : Registers :=
  { a := 0x01, f := 0xB0, b := 0x00, c := 0x13, d := 0x00, e := 0xD8, h := 0x01, l := 0x4D,
    sp := 0xFFFE, pc := 0x0100 }

def af (r : Registers) : UInt16 := Word.join r.a (r.f &&& 0xF0)
def bc (r : Registers) : UInt16 := Word.join r.b r.c
def de (r : Registers) : UInt16 := Word.join r.d r.e
def hl (r : Registers) : UInt16 := Word.join r.h r.l

def setAF (r : Registers) (w : UInt16) : Registers :=
  { r with a := Word.high w, f := Word.low w &&& 0xF0 }
def setBC (r : Registers) (w : UInt16) : Registers := { r with b := Word.high w, c := Word.low w }
def setDE (r : Registers) (w : UInt16) : Registers := { r with d := Word.high w, e := Word.low w }
def setHL (r : Registers) (w : UInt16) : Registers := { r with h := Word.high w, l := Word.low w }

@[simp] theorem bc_setBC (r : Registers) (w : UInt16) : (r.setBC w).bc = w := by simp [bc, setBC]
@[simp] theorem de_setDE (r : Registers) (w : UInt16) : (r.setDE w).de = w := by simp [de, setDE]
@[simp] theorem hl_setHL (r : Registers) (w : UInt16) : (r.setHL w).hl = w := by simp [hl, setHL]

def flag (r : Registers) (flag : Flag) : Bool := r.f &&& flag.mask != 0

/-- Changes one flag and keeps the other seven bits of F. -/
def setFlag (r : Registers) (flag : Flag) (value : Bool) : Registers :=
  { r with f := if value then r.f ||| flag.mask else r.f &&& ~~~flag.mask }

/-- Stores all four flags; the low nibble of F becomes zero. -/
def setFlags (r : Registers) (flags : Flags) : Registers := { r with f := flags.toByte }

end Registers
end DotMatrix
