import DotMatrix.Word

/-! The memory map: what each of the 65536 addresses belongs to. -/
namespace DotMatrix

inductive Region where
  | rom
  | vram (offset : Nat)
  | cartridgeRam
  /-- Work RAM and its echo above it. -/
  | wram (offset : Nat)
  | oam (offset : Nat)
  | joypad
  | serialData
  | serialControl
  | timer
  | interruptRequest
  | sound
  | oamTransfer
  | video
  | hram (offset : Nat)
  | interruptEnable
  /-- Nothing answers: reads give FF and writes are lost. -/
  | unmapped
  deriving DecidableEq

namespace Region

/-- The registers from FF00 to FF7F. -/
def ofRegister (address : UInt16) : Region :=
  if address = 0xFF00 then .joypad
  else if address = 0xFF01 then .serialData
  else if address = 0xFF02 then .serialControl
  else if 0xFF04 ≤ address ∧ address ≤ 0xFF07 then .timer
  else if address = 0xFF0F then .interruptRequest
  else if 0xFF10 ≤ address ∧ address ≤ 0xFF3F then .sound
  else if address = 0xFF46 then .oamTransfer
  else if 0xFF40 ≤ address ∧ address ≤ 0xFF4B then .video
  else .unmapped

def ofAddress (address : UInt16) : Region :=
  let a := address.toNat
  if a < 0x8000 then .rom
  else if a < 0xA000 then .vram (a - 0x8000)
  else if a < 0xC000 then .cartridgeRam
  else if a < 0xFE00 then .wram (a % 0x2000)
  else if a < 0xFEA0 then .oam (a - 0xFE00)
  else if a < 0xFF00 then .unmapped
  else if a < 0xFF80 then ofRegister address
  else if a < 0xFFFF then .hram (a - 0xFF80)
  else .interruptEnable

end Region
end DotMatrix
