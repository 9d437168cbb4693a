import DotMatrix.Console.Basic
import DotMatrix.Digest.Sha1
import DotMatrix.Snapshot.Format
import DotMatrix.Snapshot.Layout

/-! Taking and restoring snapshots. The file starts with a magic word, the version and the
identity of the cartridge; the image itself is not in it. A refused snapshot changes nothing. -/
namespace DotMatrix
namespace Snapshot

def magic : List UInt8 := [0x52, 0x42, 0x47, 0x53]

/-- The header checksum and digest that tell one cartridge from another. -/
def identity (header : Header) (image : Image) : List UInt8 :=
  Codec.word.encode header.globalChecksum ++ Sha1.digest image

def headerLength : Nat := 28

def body (header : Header) (image : Image) (bytes : List UInt8) :
    Except SnapshotError (List UInt8) :=
  if !(magic.take bytes.length).isPrefixOf bytes then .error .badMagic
  else
    match Codec.word.decode (bytes.drop magic.length) with
    | .error _ => .error (.truncated bytes.length)
    | .ok (version, rest) =>
      if version ≠ snapshotVersion then .error (.version version)
      else if bytes.length < headerLength then .error (.truncated bytes.length)
      else if rest.take 22 ≠ identity header image then .error .otherCartridge
      else .ok (rest.drop 22)

/-- Reads the body; what follows it is ignored. -/
def decode (length : Nat) (body : List UInt8) : Except SnapshotError Snapshot :=
  match Format.snapshot.decode body with
  | .error .endOfInput => .error (.truncated length)
  | .error error => .error (.malformed error)
  | .ok (snapshot, _) => .ok snapshot

end Snapshot

namespace Console

def snapshot (c : Console) : Snapshot :=
  { cpu := c.machine.cpu, board := .ofBoard c.machine.bus.board, frames := c.frames }

def save (c : Console) : List UInt8 :=
  Snapshot.magic ++ Codec.word.encode snapshotVersion ++
    Snapshot.identity c.header c.machine.bus.image ++ Format.snapshot.encode c.snapshot

/-- Takes over a snapshot of the same cartridge. Sound that was not yet taken is dropped;
what the serial link has sent is kept. -/
def load (bytes : List UInt8) (c : Console) : Except SnapshotError Console := do
  let bus := c.machine.bus
  let body ← Snapshot.body c.header bus.image bytes
  let snapshot ← Snapshot.decode bytes.length body
  let board ← (snapshot.board.toBoard bus.board).mapError .inconsistent
  return {
    header := c.header
    machine := { cpu := snapshot.cpu, bus := { bus with board, samples := #[] } }
    frames := snapshot.frames }

end Console
end DotMatrix
