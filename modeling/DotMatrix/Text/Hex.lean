/-! Upper-case hexadecimal numbers of a least width, as messages print them. -/
namespace DotMatrix.Hex

def upper (width n : Nat) : String :=
  let digits := (Nat.toDigits 16 n).map Char.toUpper
  String.ofList (List.replicate (width - digits.length) '0' ++ digits)

end DotMatrix.Hex
