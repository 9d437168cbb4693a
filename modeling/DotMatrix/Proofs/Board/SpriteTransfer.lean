import DotMatrix.Proofs.Board.Internal
import DotMatrix.Proofs.Video.Locked

/-! The transfer to sprite memory. It finds its way through the map by a decoder of its own, which
knows no locks, no registers and nothing above work RAM. What it copies is nevertheless what programs
could read, if nothing were locked. -/
namespace DotMatrix

theorem Memory.read_mod {size : Nat} (memory : Memory size) (offset : Nat) :
    memory.read (offset % size) = memory.read offset := by
  unfold read
  rw [Nat.mod_mod]

theorem Memory.read_ofFn {size : Nat} (byte : Fin size → UInt8) (i : Fin size) :
    Memory.read (Vector.ofFn byte) i = byte i := by
  unfold read
  rw [Nat.mod_eq_of_lt i.isLt, Vector.getElem?_ofFn, dif_pos i.isLt]
  rfl

theorem Word.join_ofNat (page : UInt8) (i : Fin 0xA0) :
    join page (UInt8.ofNat i) = page.toUInt16 <<< 8 + UInt16.ofNat i := by
  have high := page.toNat_lt
  have low := i.isLt
  have shifted : (page.toUInt16 <<< 8).toNat = 256 * page.toNat := by
    rw [UInt16.toNat_shiftLeft, UInt8.toNat_toUInt16, Nat.shiftLeft_eq]
    simp only [UInt16.reduceToNat, Nat.reduceMod, Nat.reducePow]
    omega
  rw [← UInt16.toNat_inj, toNat_join, UInt16.toNat_add, shifted, UInt8.toNat_ofNat',
    UInt16.toNat_ofNat']
  omega

namespace LiveBoard
variable {address : UInt16}

/-- The board under settings that lock nothing. -/
def unlocked (live : LiveBoard) : LiveBoard :=
  { live with settings := { live.settings with access := .unrestricted } }

/-- What the transfer sees at an address, as an address for programs: from E000 on it is the echo of
work RAM, also where the map has sprites and registers. -/
def transferAddress (address : UInt16) : UInt16 :=
  if address < 0xE000 then address else address - 0x2000

theorem read_unlocked_vram (first : 0x8000 ≤ address) (last : address < 0xA000)
    (live : LiveBoard) :
    live.unlocked.read address = live.board.video.vram.read (address.toNat - 0x8000) := by
  unfold read
  rw [Region.ofAddress_vram first last]
  rfl

theorem read_wram (first : 0xC000 ≤ address) (last : address < 0xFE00) (live : LiveBoard) :
    live.read address = live.board.wram.read address.toNat := by
  unfold read
  rw [Region.ofAddress_wram first last]
  exact live.board.wram.read_mod address.toNat

theorem transferRead_eq (address : UInt16) (live : LiveBoard) :
    live.transferRead address = live.unlocked.read (transferAddress address) := by
  unfold transferRead transferAddress
  dsimp only
  by_cases rom : address < 0x8000
  · rw [if_pos rom, if_pos (by grind)]
    unfold read
    rw [(Region.ofAddress_eq_rom address).mpr rom]
    rfl
  rw [if_neg rom]
  by_cases vram : address < 0xA000
  · rw [if_pos vram, if_pos (by grind), read_unlocked_vram (by grind) vram]
  rw [if_neg vram]
  by_cases window : address < 0xC000
  · rw [if_pos window, if_pos (by grind)]
    unfold read
    rw [(Region.ofAddress_eq_cartridgeRam address).mpr ⟨by grind, window⟩]
    rfl
  rw [if_neg window]
  by_cases echo : address < 0xE000
  · rw [if_pos echo, read_wram (by grind) (by grind)]
    rfl
  · -- The echo is as far from work RAM as work RAM is long.
    have below : (address - 0x2000).toNat = address.toNat - 0x2000 :=
      UInt16.toNat_sub_of_le _ _ (by grind)
    have above : 0xE000 ≤ address.toNat := UInt16.le_iff_toNat_le.mp (UInt16.not_lt.mp echo)
    rw [if_neg echo, read_wram (by grind) (by grind), below, ← Memory.read_mod,
      ← Memory.read_mod _ (address.toNat - 0x2000)]
    exact congrArg _ (by omega)

/-- A write to the transfer register copies a page to sprite memory, byte by byte as programs would
read it if nothing were locked. It also notes the page and stalls the processor, and that is all it
does, whatever the picture unit is at. -/
theorem transfer_copies (page : UInt8) (live : LiveBoard) :
    let done := live.write 0xFF46 page
    (∀ i : Fin 0xA0, done.board.video.oam.read i =
      live.unlocked.read (transferAddress (page.toUInt16 <<< 8 + UInt16.ofNat i))) ∧
    done = { live with board := { live.board with
      video := { live.board.video with oam := done.board.video.oam }
      transferSource := page
      transferStall := 640 } } ∧
    done.read 0xFF46 = page := by
  intro done
  refine ⟨fun i => ?_, rfl, rfl⟩
  have copied : done.board.video.oam.read i =
      live.transferRead (Word.join page (UInt8.ofNat i)) := Memory.read_ofFn _ i
  rw [copied, transferRead_eq, Word.join_ofNat]

end LiveBoard
end DotMatrix
