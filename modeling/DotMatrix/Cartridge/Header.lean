import DotMatrix.Cartridge.Error
import DotMatrix.Word

/-! The header of a cartridge image. `Header.parse` accepts the images that can be played;
the checks run in a fixed order and the first that fails is reported. -/
namespace DotMatrix

inductive MapperKind where
  | none | mbc1 | mbc2 | mbc3 | mbc5
  deriving DecidableEq

/-- What the type byte of a header promises about the board. -/
structure Hardware where
  mapper : MapperKind
  ram : Bool
  battery : Bool
  clock : Bool
  rumble : Bool
  deriving DecidableEq

def Hardware.ofType? : UInt8 → Option Hardware
  | 0x00 => some ⟨.none, false, false, false, false⟩
  | 0x08 => some ⟨.none, true, false, false, false⟩
  | 0x09 => some ⟨.none, true, true, false, false⟩
  | 0x01 => some ⟨.mbc1, false, false, false, false⟩
  | 0x02 => some ⟨.mbc1, true, false, false, false⟩
  | 0x03 => some ⟨.mbc1, true, true, false, false⟩
  | 0x05 => some ⟨.mbc2, true, false, false, false⟩
  | 0x06 => some ⟨.mbc2, true, true, false, false⟩
  | 0x0F => some ⟨.mbc3, false, true, true, false⟩
  | 0x10 => some ⟨.mbc3, true, true, true, false⟩
  | 0x11 => some ⟨.mbc3, false, false, false, false⟩
  | 0x12 => some ⟨.mbc3, true, false, false, false⟩
  | 0x13 => some ⟨.mbc3, true, true, false, false⟩
  | 0x19 => some ⟨.mbc5, false, false, false, false⟩
  | 0x1A => some ⟨.mbc5, true, false, false, false⟩
  | 0x1B => some ⟨.mbc5, true, true, false, false⟩
  | 0x1C => some ⟨.mbc5, false, false, false, true⟩
  | 0x1D => some ⟨.mbc5, true, false, false, true⟩
  | 0x1E => some ⟨.mbc5, true, true, false, true⟩
  | _ => Option.none

/-- The external RAM that a RAM code declares, in bytes. -/
def declaredRam? : UInt8 → Option Nat
  | 0x00 => some 0
  | 0x01 => some 0x800
  | 0x02 => some 0x2000
  | 0x03 => some 0x8000
  | 0x04 => some 0x20000
  | 0x05 => some 0x10000
  | _ => none

/-- A cartridge's program memory, as read from a file. -/
abbrev Image := ByteArray

namespace Image

def bankSize : Nat := 0x4000

/-- The byte at an offset; an offset past the end reads as an open bus. -/
def byte (image : Image) (offset : Nat) : UInt8 := image[offset]?.getD 0xFF

def bytes (image : Image) (start count : Nat) : List UInt8 :=
  (List.range count).map fun i => image.byte (start + i)

/-- The checksum over 0134 to 014C: each byte and one more is taken from zero. -/
def headerChecksum (image : Image) : UInt8 :=
  (image.bytes 0x0134 25).foldl (fun sum b => sum - b - 1) 0

end Image

structure Header where
  title : String
  typeCode : UInt8
  hardware : Hardware
  romSize : Nat
  ramSize : Nat
  headerChecksum : UInt8
  globalChecksum : UInt16

namespace Header

def hasRam (header : Header) : Bool := header.ramSize > 0

def romBanks (header : Header) : Nat := header.romSize / Image.bankSize

/-- The RAM of a cartridge: the MBC2 carries 512 half-bytes of its own, whatever is declared. -/
def ramSizeFor (hardware : Hardware) (declared : Nat) : Nat :=
  match hardware.mapper, hardware.ram with
  | .mbc2, _ => 512
  | _, true => declared
  | _, false => 0

/-- The printable characters before the first zero byte, without spaces at the end. -/
def titleOf (bytes : List UInt8) : String :=
  let shown := (bytes.takeWhile (· != 0)).filter fun b => 0x20 ≤ b && b ≤ 0x7E
  String.ofList ((shown.map fun b => Char.ofNat b.toNat).reverse.dropWhile (· == ' ')).reverse

def parse (image : Image) : Except LoadError Header := do
  if image.size < 0x0150 then throw (.tooShort image.size)
  if image.size % Image.bankSize ≠ 0 then throw (.brokenBank image.size)
  let expected := image.byte 0x014D
  let actual := image.headerChecksum
  if expected ≠ actual then throw (.headerChecksum expected actual)
  let typeCode := image.byte 0x0147
  let some hardware := Hardware.ofType? typeCode | throw (.unsupportedType typeCode)
  let romCode := image.byte 0x0148
  if romCode > 8 then throw (.lengthMismatch romCode 0 image.size)
  let romSize := 0x8000 <<< romCode.toNat
  if romSize ≠ image.size then throw (.lengthMismatch romCode romSize image.size)
  let ramCode := image.byte 0x0149
  let some declared := declaredRam? ramCode | throw (.ramCode ramCode)
  return {
    title := titleOf (image.bytes 0x0134 16)
    typeCode
    hardware
    romSize
    ramSize := ramSizeFor hardware declared
    headerChecksum := expected
    globalChecksum := Word.join (image.byte 0x014E) (image.byte 0x014F) }

end Header
end DotMatrix
