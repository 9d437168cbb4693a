import DotMatrix.Proofs.Console.Reachable
import DotMatrix.Proofs.Range.Header
import DotMatrix.Proofs.Snapshot.Preamble
import DotMatrix.Snapshot.Format.Lawful

/-! A snapshot is accepted by every console with the same image, and brings back the state
that it was taken of. -/
namespace DotMatrix
namespace Snapshot

theorem decode_encode (length : Nat) (snapshot : Snapshot) (stored : snapshot.board.Storable) :
    decode length (Format.snapshot.encode snapshot) = .ok snapshot := by
  have read := Format.lawful_snapshot.decode_encode snapshot [] stored
  rw [List.append_nil] at read
  rw [decode, read]

end Snapshot

theorem Board.InRange.storable {header : Header} {image : Image} {b : Board} (h : b.InRange header)
    (describes : header.Describes image) : (BoardRecord.ofBoard b).Storable := by
  have size : UInt64.size = 2 ^ 64 := rfl
  refine ⟨?_, ?_, ?_, ?_, ?_, ?_, ?_⟩
  · have ram := describes.ramSize
    have fits := h.cartridge.ramSize_eq
    change b.cartridge.ram.size < _
    omega
  · exact Nat.lt_of_le_of_lt (Nat.le_of_eq b.wram.size_toArray) (by omega)
  · exact Nat.lt_of_le_of_lt (Nat.le_of_eq b.hram.size_toArray) (by omega)
  · exact Nat.lt_of_le_of_lt (Nat.le_of_eq b.video.vram.size_toArray) (by omega)
  · exact Nat.lt_of_le_of_lt (Nat.le_of_eq b.video.oam.size_toArray) (by omega)
  · exact Nat.lt_of_le_of_lt h.raster.spriteCount (by omega)
  · exact Nat.lt_of_le_of_lt (Nat.le_of_eq b.video.frame.size_toArray) (by omega)

namespace Console
variable {image : Image} {settings own : Settings} {c other : Console}

/-- The console `other` in the state of `c`. Samples that wait in either are not in it. -/
def inStateOf (other c : Console) : Console :=
  { other with
    machine :=
      { cpu := c.machine.cpu
        bus := { other.machine.bus with board := c.machine.bus.board, samples := #[] } }
    frames := c.frames }

theorem load_save (h : c.InRange image settings) (h' : other.InRange image own) :
    other.load c.save = .ok (other.inStateOf c) := by
  have same : other.header = c.header := Except.ok.inj (h'.header.symm.trans h.header)
  have live := h'.bus.board
  rw [same] at live
  refine load_eq_ok.mpr ⟨Format.snapshot.encode c.snapshot, c.snapshot, c.machine.bus.board, ?_,
    ?_, Board.toBoard_ofBoard live h.bus.board, rfl⟩
  · rw [same, h'.bus.image, ← h.bus.image]
    exact Snapshot.body_eq_ok.mpr rfl
  · exact Snapshot.decode_encode _ _
      (h.bus.board.storable (Header.describes_of_parse h.header))

end Console
end DotMatrix
