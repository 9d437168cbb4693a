/-! Single-precision numbers as bit patterns. Arithmetic rounds to nearest. An operation on
a NaN gives that NaN, the first operand's if both are, with the quiet bit set; an invalid
operation on numbers gives the negative quiet NaN. -/
namespace DotMatrix

structure Single where
  bits : UInt32
  deriving DecidableEq

namespace Single

def toFloat (x : Single) : Float32 := Float32.ofBits x.bits

def isNaN (x : Single) : Bool := x.bits &&& 0x7FFFFFFF > 0x7F800000

def quiet (x : Single) : Single := ⟨x.bits ||| 0x00400000⟩

def ofFloat (f : Float32) : Single := if f.isNaN then ⟨0xFFC00000⟩ else ⟨f.toBits⟩

def lift (operation : Float32 → Float32 → Float32) (x y : Single) : Single :=
  if x.isNaN then x.quiet
  else if y.isNaN then y.quiet
  else ofFloat (operation x.toFloat y.toFloat)

instance : Add Single := ⟨lift (· + ·)⟩
instance : Sub Single := ⟨lift (· - ·)⟩
instance : Mul Single := ⟨lift (· * ·)⟩
instance : Div Single := ⟨lift (· / ·)⟩

def zero : Single := ⟨0⟩
def one : Single := ⟨0x3F800000⟩
def minusOne : Single := ⟨0xBF800000⟩

def ofByte (n : UInt8) : Single := ofFloat n.toFloat32

def lt (x y : Single) : Bool := x.toFloat < y.toFloat

/-- A NaN is not clamped. -/
def clamp (x low high : Single) : Single :=
  if x.lt low then low else if high.lt x then high else x

end Single
end DotMatrix
