/-! Reading a 32-bit number in decimal: one plus sign may stand in front. -/
namespace DotMatrix.Number

inductive NumberError where
  | empty
  | invalidDigit
  | tooLarge
  deriving DecidableEq

def NumberError.message : NumberError → String
  | .empty => "cannot parse integer from empty string"
  | .invalidDigit => "invalid digit found in string"
  | .tooLarge => "number too large to fit in target type"

/-- Reads digits from left to right; what comes first, a foreign character or a value past
the limit, is the error. -/
def readDigits (limit value : Nat) : List Char → Except NumberError Nat
  | [] => .ok value
  | c :: rest =>
    if c.isDigit then
      let value := 10 * value + (c.toNat - '0'.toNat)
      if value < limit then readDigits limit value rest else .error .tooLarge
    else .error .invalidDigit

def read32 (text : String) : Except NumberError Nat :=
  match text.toList with
  | [] => .error .empty
  | ['+'] => .error .invalidDigit
  | '+' :: rest => readDigits UInt32.size 0 rest
  | digits => readDigits UInt32.size 0 digits

end DotMatrix.Number
