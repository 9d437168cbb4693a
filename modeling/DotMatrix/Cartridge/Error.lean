import DotMatrix.Text.Hex

/-! Why a cartridge image or a battery file is refused. -/
namespace DotMatrix

inductive LoadError where
  | tooShort (length : Nat)
  | brokenBank (length : Nat)
  | headerChecksum (expected actual : UInt8)
  | unsupportedType (code : UInt8)
  | lengthMismatch (code : UInt8) (declared actual : Nat)
  | ramCode (code : UInt8)
  | batteryLength (expected actual : Nat)
  deriving DecidableEq

def LoadError.message : LoadError → String
  | .tooShort length =>
    s!"ROM should be at least 336 bytes to hold a header, was {length} bytes"
  | .brokenBank length => s!"ROM length {length} is not a whole number of 16 KiB banks"
  | .headerChecksum expected actual =>
    let stored := Hex.upper 2 expected.toNat
    let computed := Hex.upper 2 actual.toNat
    s!"header checksum mismatch: header says {stored}, computed {computed}"
  | .unsupportedType code =>
    let shown := Hex.upper 2 code.toNat
    s!"unsupported cartridge type byte {shown}"
  | .lengthMismatch code declared actual =>
    let shown := Hex.upper 2 code.toNat
    s!"ROM size code {shown} declares {declared} bytes but image has {actual}"
  | .ramCode code =>
    let shown := Hex.upper 2 code.toNat
    s!"invalid RAM size code {shown}, expected 0 or 2-5"
  | .batteryLength expected actual =>
    s!"battery RAM is {actual} bytes, cartridge expects {expected}"

end DotMatrix
