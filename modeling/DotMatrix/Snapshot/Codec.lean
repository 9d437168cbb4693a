import DotMatrix.Word

/-! Binary formats. A codec writes a value as bytes and reads one from the front of a byte
string. Numbers have a fixed width and are little-endian; tags are strict; a sequence is its
length and then its elements. -/
namespace DotMatrix

inductive DecodeError where
  | endOfInput
  | boolean (found : UInt8)
  | option (found : UInt8)
  | variant (found : UInt32) (count : Nat)
  deriving DecidableEq

structure Codec (α : Type) where
  encode : α → List UInt8
  decode : List UInt8 → Except DecodeError (α × List UInt8)

namespace Codec
variable {α β : Type}

def byte : Codec UInt8 where
  encode b := [b]
  decode
    | [] => .error .endOfInput
    | b :: rest => .ok (b, rest)

def unit : Codec Unit where
  encode _ := []
  decode input := .ok ((), input)

def pair (first : Codec α) (second : Codec β) : Codec (α × β) where
  encode p := first.encode p.1 ++ second.encode p.2
  decode input :=
    match first.decode input with
    | .error e => .error e
    | .ok (a, rest) =>
      match second.decode rest with
      | .error e => .error e
      | .ok (b, rest) => .ok ((a, b), rest)

/-- The same bytes for another form of the value. -/
def iso (c : Codec β) (there : α → β) (back : β → α) : Codec α where
  encode a := c.encode (there a)
  decode input :=
    match c.decode input with
    | .error e => .error e
    | .ok (b, rest) => .ok (back b, rest)

def bool : Codec Bool where
  encode b := [if b then 1 else 0]
  decode
    | [] => .error .endOfInput
    | b :: rest =>
      if b = 0 then .ok (false, rest)
      else if b = 1 then .ok (true, rest)
      else .error (.boolean b)

def word : Codec UInt16 :=
  (byte.pair byte).iso (fun w => (Word.low w, Word.high w)) (fun (low, high) => Word.join high low)

def word32 : Codec UInt32 :=
  (word.pair word).iso (fun n => (n.toUInt16, (n / 0x10000).toUInt16))
    (fun (low, high) => high.toUInt32 * 0x10000 + low.toUInt32)

def word64 : Codec UInt64 :=
  (word32.pair word32).iso (fun n => (n.toUInt32, (n / 0x100000000).toUInt32))
    (fun (low, high) => high.toUInt64 * 0x100000000 + low.toUInt64)

/-- One tag byte, and the value if the tag is 1. -/
def option (c : Codec α) : Codec (Option α) where
  encode
    | none => [0]
    | some a => 1 :: c.encode a
  decode
    | [] => .error .endOfInput
    | tag :: rest =>
      if tag = 0 then .ok (none, rest)
      else if tag = 1 then
        match c.decode rest with
        | .error e => .error e
        | .ok (a, rest) => .ok (some a, rest)
      else .error (.option tag)

def decodeVector (c : Codec α) :
    (n : Nat) → List UInt8 → Except DecodeError (Vector α n × List UInt8)
  | 0, input => .ok (#v[], input)
  | n + 1, input =>
    match decodeVector c n input with
    | .error e => .error e
    | .ok (front, rest) =>
      match c.decode rest with
      | .error e => .error e
      | .ok (last, rest) => .ok (front.push last, rest)

def vector (n : Nat) (c : Codec α) : Codec (Vector α n) where
  encode v := v.toList.flatMap c.encode
  decode := decodeVector c n

def decodeMany (c : Codec α) :
    Nat → Array α → List UInt8 → Except DecodeError (Array α × List UInt8)
  | 0, done, input => .ok (done, input)
  | n + 1, done, input =>
    match c.decode input with
    | .error e => .error e
    | .ok (a, rest) => decodeMany c n (done.push a) rest

/-- The number of elements in eight bytes, and the elements. -/
def array (c : Codec α) : Codec (Array α) where
  encode a := word64.encode (UInt64.ofNat a.size) ++ a.toList.flatMap c.encode
  decode input :=
    match word64.decode input with
    | .error e => .error e
    | .ok (count, rest) => decodeMany c count.toNat #[] rest

def list (c : Codec α) : Codec (List α) := c.array.iso List.toArray Array.toList

/-- The index of a variant in four bytes, below `count`. -/
def index (count : Nat) : Codec (Fin count) where
  encode i := word32.encode (UInt32.ofNat i)
  decode input :=
    match word32.decode input with
    | .error e => .error e
    | .ok (i, rest) =>
      if h : i.toNat < count then .ok (⟨i.toNat, h⟩, rest) else .error (.variant i count)

/-- A variant index and the payload that belongs to it. -/
def sum {count : Nat} (payload : Fin count → Type) (codec : (i : Fin count) → Codec (payload i)) :
    Codec ((i : Fin count) × payload i) where
  encode v := (index count).encode v.1 ++ (codec v.1).encode v.2
  decode input :=
    match (index count).decode input with
    | .error e => .error e
    | .ok (i, rest) =>
      match (codec i).decode rest with
      | .error e => .error e
      | .ok (a, rest) => .ok (⟨i, a⟩, rest)

end Codec
end DotMatrix
