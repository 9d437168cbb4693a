import DotMatrix.Proofs.Board.Operation
import DotMatrix.Proofs.Safe.Cartridge
import DotMatrix.Proofs.Safe.Sound
import DotMatrix.Proofs.Safe.Video

/-! A board in range answers every address and lets time pass without leaving a memory or a
type. An access is made once more without address lines that wrap, and comes to the same. The one
thing that can run over is the counter of cycles, which is no part of this. -/
namespace DotMatrix

namespace Region

/-- The offset of an address lies in its memory. -/
def Holds : Region → Prop
  | .vram offset | .wram offset => offset < 0x2000
  | .oam offset => offset < 0xA0
  | .hram offset => offset < 0x7F
  | _ => True

theorem holds_ofRegister (address : UInt16) : (ofRegister address).Holds := by
  unfold ofRegister
  repeat' split
  all_goals trivial

theorem holds_ofAddress (address : UInt16) : (ofAddress address).Holds := by
  have range := address.toNat_lt
  unfold ofAddress
  dsimp only
  split
  · trivial
  · split
    · exact (by omega : address.toNat - 0x8000 < 0x2000)
    · split
      · trivial
      · split
        · exact Nat.mod_lt _ (by decide)
        · split
          · exact (by omega : address.toNat - 0xFE00 < 0xA0)
          · split
            · trivial
            · split
              · exact holds_ofRegister address
              · split
                · exact (by omega : address.toNat - 0xFF80 < 0x7F)
                · trivial

end Region

namespace LiveBoard

/-- A read, if there is a place for it in the memory behind the address. -/
def read? (address : UInt16) (live : LiveBoard) : Option UInt8 :=
  let b := live.board
  match Region.ofAddress address with
  | .rom => b.cartridge.readRom? live.image address
  | .vram offset => if live.vramOpen then b.video.vram[offset]? else some 0xFF
  | .cartridgeRam => b.cartridge.readRam? address
  | .wram offset => b.wram[offset]?
  | .oam offset => if live.oamOpen then b.video.oam[offset]? else some 0xFF
  | .sound => b.sound.read? address
  | .hram offset => b.hram[offset]?
  | _ => some (live.read address)

def write? (address : UInt16) (value : UInt8) (live : LiveBoard) : Option LiveBoard :=
  match Region.ofAddress address with
  | .vram offset =>
    if live.vramOpen then do
      let vram ← live.board.video.vram.write? offset value
      some (live.update fun b => { b with video := { b.video with vram } })
    else some live
  | .cartridgeRam => do
    let cartridge ← live.board.cartridge.writeRam? address value
    some (live.update fun b => { b with cartridge })
  | .wram offset => do
    let wram ← live.board.wram.write? offset value
    some (live.update fun b => { b with wram })
  | .oam offset =>
    if live.oamOpen then do
      let oam ← live.board.video.oam.write? offset value
      some (live.update fun b => { b with video := { b.video with oam } })
    else some live
  | .sound => do
    let sound ← live.board.sound.write? address value
    some (live.update fun b => { b with sound })
  | .hram offset => do
    let hram ← live.board.hram.write? offset value
    some (live.update fun b => { b with hram })
  | _ => some (live.write address value)

def transferRead? (address : UInt16) (live : LiveBoard) : Option UInt8 :=
  let b := live.board
  if address < 0x8000 then b.cartridge.readRom? live.image address
  else if address < 0xA000 then b.video.vram[address.toNat - 0x8000]?
  else if address < 0xC000 then b.cartridge.readRam? address
  else b.wram[(address.toNat - 0xC000) % 0x2000]?

structure CartridgeSafe (address : UInt16) (live : LiveBoard) : Prop where
  rom : address < 0x8000 → live.board.cartridge.RomSafe live.image address
  ram : 0xA000 ≤ address → address < 0xC000 → live.board.cartridge.RamSafe address

/-- What a read needs. -/
structure ReadSafe (address : UInt16) (live : LiveBoard) : Prop where
  cartridge : live.CartridgeSafe address
  place : live.read? address = some (live.read address)

/-- What a write needs: a place, what the sound unit makes of it, and for a transfer a whole page
to read. -/
structure WriteSafe (address : UInt16) (value : UInt8) (live : LiveBoard) : Prop where
  cartridge : live.CartridgeSafe address
  place : live.write? address value = some (live.write address value)
  sound : Region.ofAddress address = .sound → live.board.sound.WriteSafe address value
  transfer : Region.ofAddress address = .oamTransfer → ∀ i < 0xA0,
    live.CartridgeSafe (Word.join value (UInt8.ofNat i)) ∧
      live.transferRead? (Word.join value (UInt8.ofNat i)) =
        some (live.transferRead (Word.join value (UInt8.ofNat i)))

/-- What the passing of time needs. -/
structure TickSafe (n : Nat) (live : LiveBoard) : Prop where
  video : Video.TickSafe live.settings.colors
    (live.board.video.tick live.settings.colors n ∅).1 n live.board.video
  sound : Sound.TickSafe live.settings (live.board.sound.tick live.settings n live.samples) n
    live.board.sound live.samples
  clock : ∀ clock ∈ live.board.cartridge.mapper.clock?, clock.time.halted = false →
    clock.TickSafe n

namespace InRange
variable {image : Image} {settings : Settings} {header : Header} {live : LiveBoard}

theorem cartridgeSafe (h : live.InRange image settings header)
    (describes : header.Describes image) (address : UInt16) : live.CartridgeSafe address := by
  have fits := h.board.cartridge
  constructor
  · intro program
    rw [h.image]
    exact (fits.mapped describes).romSafe (fits.banks_eq describes).1 program
  · exact fun _ _ => (fits.mapped describes).ramSafe address

theorem readSafe (h : live.InRange image settings header) (describes : header.Describes image)
    (address : UInt16) : live.ReadSafe address := by
  have safe := h.cartridgeSafe describes address
  have holds := Region.holds_ofAddress address
  refine ⟨safe, ?_⟩
  unfold read?
  unfold LiveBoard.read
  cases region : Region.ofAddress address with
  | rom => exact (safe.rom ((Region.ofAddress_eq_rom address).mp region)).byte
  | cartridgeRam =>
    obtain ⟨first, last⟩ := (Region.ofAddress_eq_cartridgeRam address).mp region
    exact (safe.ram first last).2.1
  | vram offset | oam offset =>
    rw [region] at holds
    dsimp only
    rw [Memory.getElem?_eq_read _ holds]
    split <;> rfl
  | wram offset | hram offset =>
    rw [region] at holds
    exact Memory.getElem?_eq_read _ holds
  | sound => exact Sound.read?_eq ..
  | _ => rfl

theorem transferRead?_eq (h : live.InRange image settings header)
    (describes : header.Describes image) (address : UInt16) :
    live.transferRead? address = some (live.transferRead address) := by
  have safe := h.cartridgeSafe describes address
  unfold transferRead? transferRead
  dsimp only
  split
  case isTrue program => exact (safe.rom program).byte
  case isFalse =>
    split
    case isTrue below =>
      have below : address.toNat < 0xA000 := below
      exact Memory.getElem?_eq_read _ (by omega)
    case isFalse first =>
      split
      case isTrue last => exact (safe.ram (UInt16.not_lt.mp first) last).2.1
      case isFalse above =>
        have above : 0xC000 ≤ address.toNat := Nat.le_of_not_lt above
        -- Counted from C000 or from 0, the place in eight kilobytes is the same.
        have place : (address.toNat - 0xC000) % 0x2000 = address.toNat % 0x2000 := by omega
        rw [place, Memory.getElem?_eq_read _ (Nat.mod_lt _ (by decide))]
        unfold Memory.read
        rw [Nat.mod_mod]

theorem write?_eq (h : live.InRange image settings header) (describes : header.Describes image)
    (address : UInt16) (value : UInt8) :
    live.write? address value = some (live.write address value) := by
  have safe := h.cartridgeSafe describes address
  have holds := Region.holds_ofAddress address
  unfold write?
  cases region : Region.ofAddress address with
  | cartridgeRam =>
    obtain ⟨first, last⟩ := (Region.ofAddress_eq_cartridgeRam address).mp region
    dsimp only
    rw [(safe.ram first last).2.2 value]
    unfold LiveBoard.write
    rw [region]
    rfl
  | vram offset | oam offset =>
    rw [region] at holds
    dsimp only
    rw [Memory.write?_eq _ value holds]
    unfold LiveBoard.write
    rw [region]
    dsimp only
    split <;> rfl
  | wram offset | hram offset =>
    rw [region] at holds
    dsimp only
    rw [Memory.write?_eq _ value holds]
    unfold LiveBoard.write
    rw [region]
    rfl
  | sound =>
    dsimp only
    rw [Sound.write?_eq]
    unfold LiveBoard.write
    rw [region]
    rfl
  | _ => rfl

theorem writeSafe (h : live.InRange image settings header) (describes : header.Describes image)
    (address : UInt16) (value : UInt8) : live.WriteSafe address value where
  cartridge := h.cartridgeSafe describes address
  place := h.write?_eq describes address value
  sound _ := h.board.sound.writeSafe address value
  transfer _ _ _ := ⟨h.cartridgeSafe describes _, h.transferRead?_eq describes _⟩

theorem tickSafe (h : live.InRange image settings header) (n : Nat) (small : n ≤ 0x1000) :
    live.TickSafe n := by
  obtain ⟨_, cartridge, raster, sound⟩ := h.board
  exact ⟨Video.tickSafe _ n _ raster ∅, Sound.tickSafe _ n _ _ sound,
    fun clock present _ => (cartridge.clock clock present).tickSafe n small⟩

end InRange
end LiveBoard
end DotMatrix
