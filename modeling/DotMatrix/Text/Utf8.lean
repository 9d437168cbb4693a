/-! Reading bytes as UTF-8 where some may be invalid. Each longest part that could have begun
a character, but did not go on as one, becomes a replacement character. -/
namespace DotMatrix.Utf8

def replacement : Char := Char.ofNat 0xFFFD

/-- What a first byte announces: how many bytes follow, the range of the first of them, and
the bits of the character that the first byte gives. -/
structure Lead where
  count : Nat
  low : UInt8
  high : UInt8
  bits : Nat

/-- The ranges leave out long forms, surrogates and what lies past the last character. -/
def lead? (b : UInt8) : Option Lead :=
  let bits := b.toNat
  if b < 0x80 then some ⟨0, 0, 0, bits⟩
  else if b < 0xC2 then none
  else if b < 0xE0 then some ⟨1, 0x80, 0xBF, bits - 0xC0⟩
  else if b < 0xF0 then
    some ⟨2, if b = 0xE0 then 0xA0 else 0x80, if b = 0xED then 0x9F else 0xBF, bits - 0xE0⟩
  else if b < 0xF5 then
    some ⟨3, if b = 0xF0 then 0x90 else 0x80, if b = 0xF4 then 0x8F else 0xBF, bits - 0xF0⟩
  else none

/-- Takes `count` more bytes of a character, the first of them within a range. Gives the
character's number, or none at the first byte that does not belong, and what is left. -/
def follow : (count : Nat) → (low high : UInt8) → (value : Nat) → List UInt8 →
    Option Nat × List UInt8
  | 0, _, _, value, rest => (some value, rest)
  | _ + 1, _, _, _, [] => (none, [])
  | count + 1, low, high, value, b :: rest =>
    if low ≤ b ∧ b ≤ high then follow count 0x80 0xBF (value * 64 + b.toNat % 64) rest
    else (none, b :: rest)

theorem follow_length (count : Nat) (low high : UInt8) (value : Nat) (bytes : List UInt8) :
    (follow count low high value bytes).2.length ≤ bytes.length := by
  induction bytes generalizing count low high value with
  | nil => cases count <;> simp [follow]
  | cons b rest ih =>
    cases count with
    | zero => simp [follow]
    | succ count =>
      simp only [follow]
      split
      · exact Nat.le_succ_of_le (ih ..)
      · simp

/-- The character at the front, after its first byte `b`. -/
def next (b : UInt8) (rest : List UInt8) : Char × List UInt8 :=
  match lead? b with
  | none => (replacement, rest)
  | some lead =>
    let (value, left) := follow lead.count lead.low lead.high lead.bits rest
    ((value.map Char.ofNat).getD replacement, left)

theorem next_length (b : UInt8) (rest : List UInt8) : (next b rest).2.length ≤ rest.length := by
  unfold next
  split
  · simp
  · exact follow_length ..

def appendLossy (text : String) : List UInt8 → String
  | [] => text
  | b :: rest => appendLossy (text.push (next b rest).1) (next b rest).2
termination_by bytes => bytes.length
decreasing_by exact Nat.lt_succ_of_le (next_length b rest)

def lossy (bytes : List UInt8) : String := appendLossy "" bytes

end DotMatrix.Utf8
