import DotMatrix.Cartridge.Mapper

/-! A cartridge in the slot: bank controller and external RAM. The program memory itself is
an image that never changes, and is passed to what reads it. -/
namespace DotMatrix

structure Cartridge where
  ram : Array UInt8
  mapper : Mapper
  romBanks : UInt64
  battery : Bool

namespace Cartridge

def powerOn (header : Header) : Cartridge :=
  { ram := Array.replicate header.ramSize 0
    mapper := .powerOn header.hardware
    romBanks := UInt64.ofNat (max header.romBanks 1)
    battery := header.hardware.battery }

/-- The offset in the image of an address below 8000. Bank numbers wrap at the number of
banks. -/
def romOffset (address : UInt16) (c : Cartridge) : Nat :=
  let bank := if address < 0x4000 then c.mapper.lowBank else c.mapper.highBank
  bank % c.romBanks.toNat * Image.bankSize + address.toNat % Image.bankSize

def readRom (image : Image) (address : UInt16) (c : Cartridge) : UInt8 :=
  image.byte (c.romOffset address)

def writeRom (address : UInt16) (value : UInt8) (c : Cartridge) : Cartridge :=
  { c with mapper := c.mapper.write address value }

def readRam (address : UInt16) (c : Cartridge) : UInt8 :=
  match c.mapper.ramCell address c.ram.size with
  | .unmapped => 0xFF
  | .byte index => c.ram.getD index 0xFF
  | .nibble index => 0xF0 ||| c.ram.getD index 0x0F
  | .clock select => c.mapper.readClock select

def writeRam (address : UInt16) (value : UInt8) (c : Cartridge) : Cartridge :=
  match c.mapper.ramCell address c.ram.size with
  | .unmapped => c
  | .byte index => { c with ram := c.ram.setIfInBounds index value }
  | .nibble index => { c with ram := c.ram.setIfInBounds index (value &&& 0x0F) }
  | .clock select => { c with mapper := c.mapper.updateClock (Clock.write select value) }

def tick (cycles : Nat) (c : Cartridge) : Cartridge :=
  { c with mapper := c.mapper.updateClock (Clock.tick cycles) }

def batteryRam? (c : Cartridge) : Option (Array UInt8) :=
  if c.battery && !c.ram.isEmpty then some c.ram else none

/-- An MBC2 keeps only the low half of each byte. -/
def loadBattery (data : Array UInt8) (c : Cartridge) : Except LoadError Cartridge :=
  if data.size ≠ c.ram.size then .error (.batteryLength c.ram.size data.size)
  else
    match c.mapper with
    | .mbc2 _ => .ok { c with ram := data.map (· &&& 0x0F) }
    | _ => .ok { c with ram := data }

end Cartridge
end DotMatrix
