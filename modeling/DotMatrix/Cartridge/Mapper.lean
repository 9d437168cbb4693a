import DotMatrix.Cartridge.Clock
import DotMatrix.Cartridge.Header

/-! Bank controllers. A write to the ROM area programs one; it then says which ROM banks
are mapped and what lies behind the RAM window. -/
namespace DotMatrix

/-- Two bank registers of five and two bits. The mode decides whether the upper one also
switches the low ROM area and the RAM. -/
structure Mbc1 where
  ramEnabled : Bool
  low : UInt8
  high : UInt8
  mode : Bool
  deriving DecidableEq

/-- A four-bit bank register, and RAM of half-bytes. -/
structure Mbc2 where
  ramEnabled : Bool
  romBank : UInt8
  deriving DecidableEq

/-- A seven-bit bank register; `select` names a RAM bank or a clock register. -/
structure Mbc3 where
  ramEnabled : Bool
  romBank : UInt8
  select : UInt8
  clock : Option Clock
  deriving DecidableEq

/-- A nine-bit bank register. On rumble boards bit 3 of the RAM bank drives the motor. -/
structure Mbc5 where
  ramEnabled : Bool
  romBank : UInt16
  ramBank : UInt8
  rumble : Bool
  deriving DecidableEq

inductive Mapper where
  | none
  | mbc1 (state : Mbc1)
  | mbc2 (state : Mbc2)
  | mbc3 (state : Mbc3)
  | mbc5 (state : Mbc5)
  deriving DecidableEq

/-- What an address of the RAM window stands for. -/
inductive RamCell where
  | unmapped
  | byte (index : Nat)
  /-- Only the low half of the byte exists. -/
  | nibble (index : Nat)
  /-- A register of the clock. -/
  | clock (select : UInt8)
  deriving DecidableEq

def ramBankSize : Nat := 0x2000

/-- A value whose low half is A enables the RAM. -/
def enablesRam (value : UInt8) : Bool := value &&& 0x0F == 0x0A

/-- Bank 0 cannot be selected for the upper ROM area. -/
def skipZero (bank : UInt8) : UInt8 := if bank == 0 then 1 else bank

/-- The cell of a banked RAM; a RAM smaller than the bank repeats. -/
def bankedCell (bank : Nat) (address : UInt16) (ramSize : Nat) : RamCell :=
  if ramSize = 0 then .unmapped
  else .byte ((bank * ramBankSize + address.toNat % ramBankSize) % ramSize)

def Mbc1.write (address : UInt16) (value : UInt8) (m : Mbc1) : Mbc1 :=
  if address < 0x2000 then { m with ramEnabled := enablesRam value }
  else if address < 0x4000 then { m with low := skipZero (value &&& 0x1F) }
  else if address < 0x6000 then { m with high := value &&& 0x03 }
  else { m with mode := value &&& 0x01 != 0 }

/-- Bit 8 of the address picks the register. -/
def Mbc2.write (address : UInt16) (value : UInt8) (m : Mbc2) : Mbc2 :=
  if address < 0x4000 then
    if address &&& 0x0100 = 0 then { m with ramEnabled := enablesRam value }
    else { m with romBank := skipZero (value &&& 0x0F) }
  else m

def Mbc3.write (address : UInt16) (value : UInt8) (m : Mbc3) : Mbc3 :=
  if address < 0x2000 then { m with ramEnabled := enablesRam value }
  else if address < 0x4000 then { m with romBank := skipZero (value &&& 0x7F) }
  else if address < 0x6000 then { m with select := value &&& 0x0F }
  else { m with clock := m.clock.map (Clock.writeLatch value) }

def Mbc5.write (address : UInt16) (value : UInt8) (m : Mbc5) : Mbc5 :=
  if address < 0x2000 then { m with ramEnabled := enablesRam value }
  else if address < 0x3000 then
    { m with romBank := Word.join (Word.high m.romBank &&& 0x01) value }
  else if address < 0x4000 then
    { m with romBank := Word.join (value &&& 0x01) (Word.low m.romBank) }
  else if address < 0x6000 then
    { m with ramBank := if m.rumble then value &&& 0x07 else value &&& 0x0F }
  else m

namespace Mapper

def powerOn (hardware : Hardware) : Mapper :=
  match hardware.mapper with
  | .none => .none
  | .mbc1 => .mbc1 ⟨false, 1, 0, false⟩
  | .mbc2 => .mbc2 ⟨false, 1⟩
  | .mbc3 => .mbc3 ⟨false, 1, 0, if hardware.clock then some .start else Option.none⟩
  | .mbc5 => .mbc5 ⟨false, 1, 0, hardware.rumble⟩

def kind : Mapper → MapperKind
  | .none => .none
  | .mbc1 _ => .mbc1
  | .mbc2 _ => .mbc2
  | .mbc3 _ => .mbc3
  | .mbc5 _ => .mbc5

def write (address : UInt16) (value : UInt8) : Mapper → Mapper
  | .none => .none
  | .mbc1 m => .mbc1 (m.write address value)
  | .mbc2 m => .mbc2 (m.write address value)
  | .mbc3 m => .mbc3 (m.write address value)
  | .mbc5 m => .mbc5 (m.write address value)

def lowBank : Mapper → Nat
  | .mbc1 m => if m.mode then 32 * m.high.toNat else 0
  | _ => 0

/-- The bank behind 4000 to 7FFF, not yet taken modulo the number of banks. -/
def highBank : Mapper → Nat
  | .none => 1
  | .mbc1 m => 32 * m.high.toNat ||| m.low.toNat
  | .mbc2 m => m.romBank.toNat
  | .mbc3 m => m.romBank.toNat
  | .mbc5 m => m.romBank.toNat

def ramCell (address : UInt16) (ramSize : Nat) : Mapper → RamCell
  | .none => bankedCell 0 address ramSize
  | .mbc1 m =>
    if m.ramEnabled then bankedCell (if m.mode then m.high.toNat else 0) address ramSize
    else .unmapped
  | .mbc2 m => if m.ramEnabled then .nibble (address.toNat % 512) else .unmapped
  | .mbc3 m =>
    if m.ramEnabled then
      if m.select < 4 then bankedCell m.select.toNat address ramSize
      else if 0x08 ≤ m.select ∧ m.select ≤ 0x0C ∧ m.clock.isSome then .clock m.select
      else .unmapped
    else .unmapped
  | .mbc5 m => if m.ramEnabled then bankedCell m.ramBank.toNat address ramSize else .unmapped

def updateClock (change : Clock → Clock) : Mapper → Mapper
  | .mbc3 m => .mbc3 { m with clock := m.clock.map change }
  | mapper => mapper

def readClock (select : UInt8) : Mapper → UInt8
  | .mbc3 m => (m.clock.map (Clock.read select)).getD 0xFF
  | _ => 0xFF

end Mapper
end DotMatrix
