/-! The SHA-1 digest of a byte string. The message is read as big-endian words of a padded
message that is never built: after the bytes stands one set bit, then zeros, then the length
in bits at the end of the last block. -/
namespace DotMatrix.Sha1

structure State where
  a : UInt32
  b : UInt32
  c : UInt32
  d : UInt32
  e : UInt32
  deriving DecidableEq

namespace State

def start : State := ⟨0x67452301, 0xEFCDAB89, 0x98BADCFE, 0x10325476, 0xC3D2E1F0⟩

def add (s t : State) : State := ⟨s.a + t.a, s.b + t.b, s.c + t.c, s.d + t.d, s.e + t.e⟩

def wordBytes (w : UInt32) : List UInt8 :=
  [(w >>> 24).toUInt8, (w >>> 16).toUInt8, (w >>> 8).toUInt8, w.toUInt8]

def bytes (s : State) : List UInt8 := [s.a, s.b, s.c, s.d, s.e].flatMap wordBytes

end State

def rotate (w : UInt32) (n : UInt32) : UInt32 := w <<< n ||| w >>> (32 - n)

def blockCount (size : Nat) : Nat := (size + 8) / 64 + 1

/-- Byte `i` of the padded message. -/
def paddedByte (message : ByteArray) (i : Nat) : UInt8 :=
  if h : i < message.size then message[i]
  else if i = message.size then 0x80
  else
    let length := 64 * blockCount message.size
    if i + 8 < length then 0 else UInt8.ofNat ((8 * message.size) >>> (8 * (length - 1 - i)))

def word (message : ByteArray) (i : Nat) : UInt32 :=
  let byte (k : Nat) : UInt32 := (paddedByte message (4 * i + k)).toUInt32
  byte 0 <<< 24 ||| byte 1 <<< 16 ||| byte 2 <<< 8 ||| byte 3

/-- The eighty words of a block: its sixteen, and those that they expand to. -/
def schedule (message : ByteArray) (block : Nat) : Array UInt32 :=
  let first := (Array.range 16).map fun t => word message (16 * block + t)
  (List.range 64).foldl (fun w t =>
    w.push (rotate (w.getD (t + 13) 0 ^^^ w.getD (t + 8) 0 ^^^ w.getD (t + 2) 0 ^^^ w.getD t 0) 1))
    first

/-- The mixing function and the constant of a round. -/
def mixing (t : Nat) (s : State) : UInt32 :=
  if t < 20 then (s.b &&& s.c ||| ~~~s.b &&& s.d) + 0x5A827999
  else if t < 40 then (s.b ^^^ s.c ^^^ s.d) + 0x6ED9EBA1
  else if t < 60 then (s.b &&& s.c ||| s.b &&& s.d ||| s.c &&& s.d) + 0x8F1BBCDC
  else (s.b ^^^ s.c ^^^ s.d) + 0xCA62C1D6

def round (s : State) (t : Nat) (w : UInt32) : State :=
  ⟨rotate s.a 5 + mixing t s + s.e + w, s.a, rotate s.b 30, s.c, s.d⟩

def compress (message : ByteArray) (s : State) (block : Nat) : State :=
  let w := schedule message block
  s.add ((List.range 80).foldl (fun s t => round s t (w.getD t 0)) s)

def digest (message : ByteArray) : List UInt8 :=
  (Nat.fold (blockCount message.size) (fun block _ s => compress message s block) .start).bytes

end DotMatrix.Sha1
