import DotMatrix.Proofs.Board.Event
import DotMatrix.Proofs.Range.Board

/-! Internal memory, in which programs usually keep their stacks. A write to it changes one cell and
nothing else on the board, and time passes it by. -/
namespace DotMatrix

namespace Region
variable {address : UInt16}

theorem ofAddress_wram (first : 0xC000 ≤ address) (last : address < 0xFE00) :
    ofAddress address = .wram (address.toNat % 0x2000) := by
  simp only [UInt16.lt_iff_toNat_lt, UInt16.le_iff_toNat_le, UInt16.reduceToNat] at first last
  unfold ofAddress
  dsimp only
  rw [if_neg (by omega), if_neg (by omega), if_neg (by omega), if_pos last]

theorem ofAddress_hram (first : 0xFF80 ≤ address) (last : address < 0xFFFF) :
    ofAddress address = .hram (address.toNat - 0xFF80) := by
  simp only [UInt16.lt_iff_toNat_lt, UInt16.le_iff_toNat_le, UInt16.reduceToNat] at first last
  unfold ofAddress
  dsimp only
  rw [if_neg (by omega), if_neg (by omega), if_neg (by omega), if_neg (by omega), if_neg (by omega),
    if_neg (by omega), if_neg (by omega), if_pos last]

def Internal : Region → Prop
  | .wram _ | .hram _ => True
  | _ => False

end Region

namespace Board

def store (address : UInt16) (value : UInt8) (b : Board) : Board :=
  match Region.ofAddress address with
  | .wram offset => { b with wram := b.wram.write offset value }
  | .hram offset => { b with hram := b.hram.write offset value }
  | _ => b

theorem requested_store (address : UInt16) (value : UInt8) (b : Board) :
    (b.store address value).requested = b.requested := by
  unfold store
  split <;> rfl

end Board

/-- The word below this address is in internal memory, all of it in one part. -/
def RoomBelow (address : UInt16) : Prop :=
  0xC002 ≤ address ∧ address ≤ 0xFE00 ∨ 0xFF82 ≤ address

namespace RoomBelow
variable {sp : UInt16}

theorem two_le (room : RoomBelow sp) : 2 ≤ sp.toNat := by
  rcases room with ⟨first, -⟩ | first
  all_goals
    rw [UInt16.le_iff_toNat_le] at first
    exact Nat.le_trans (by decide) first

theorem regions (room : RoomBelow sp) :
    (Region.ofAddress (sp - 1) = .wram ((sp.toNat - 1) % 0x2000) ∧
      Region.ofAddress (sp - 2) = .wram ((sp.toNat - 2) % 0x2000)) ∨
    (Region.ofAddress (sp - 1) = .hram (sp.toNat - 1 - 0xFF80) ∧
      Region.ofAddress (sp - 2) = .hram (sp.toNat - 2 - 0xFF80)) ∧ 0xFF82 ≤ sp.toNat := by
  have most := sp.toNat_lt
  have least := room.two_le
  have one : (sp - 1).toNat = sp.toNat - 1 :=
    UInt16.toNat_sub_of_le _ _ (UInt16.le_iff_toNat_le.mpr (Nat.le_trans (by decide) least))
  have two : (sp - 2).toNat = sp.toNat - 2 :=
    UInt16.toNat_sub_of_le _ _ (UInt16.le_iff_toNat_le.mpr least)
  rw [← one, ← two]
  rcases room with ⟨first, last⟩ | first
  · simp only [UInt16.le_iff_toNat_le, UInt16.reduceToNat] at first last
    refine .inl ⟨Region.ofAddress_wram ?_ ?_, Region.ofAddress_wram ?_ ?_⟩
    all_goals
      simp only [UInt16.lt_iff_toNat_lt, UInt16.le_iff_toNat_le, UInt16.reduceToNat, one, two]
      omega
  · simp only [UInt16.le_iff_toNat_le, UInt16.reduceToNat] at first
    refine .inr ⟨⟨Region.ofAddress_hram ?_ ?_, Region.ofAddress_hram ?_ ?_⟩, first⟩
    all_goals
      simp only [UInt16.lt_iff_toNat_lt, UInt16.le_iff_toNat_le, UInt16.reduceToNat, one, two]
      omega

theorem internal (room : RoomBelow sp) :
    (Region.ofAddress (sp - 1)).Internal ∧ (Region.ofAddress (sp - 2)).Internal := by
  rcases room.regions with ⟨high, low⟩ | ⟨⟨high, low⟩, -⟩
  all_goals
    rw [high, low]
    exact ⟨trivial, trivial⟩

end RoomBelow

theorem Cartridge.readRom_tick (image : Image) (address : UInt16) (n : Nat) (c : Cartridge) :
    (c.tick n).readRom image address = c.readRom image address := by
  have banks : (c.tick n).romOffset address = c.romOffset address := by
    unfold romOffset tick Mapper.updateClock
    cases c.mapper <;> rfl
  unfold readRom
  rw [banks]

theorem Memory.read_two_writes {size i j : Nat} (memory : Memory size) (x y : UInt8)
    (positive : 0 < size) (apart : i % size ≠ j % size) :
    ((memory.write i x).write j y).read j = y ∧ ((memory.write i x).write j y).read i = x := by
  rw [read_write _ _ _ _ positive, if_pos rfl, read_write _ _ _ _ positive, if_neg apart,
    read_write _ _ _ _ positive, if_pos rfl]
  exact ⟨rfl, rfl⟩

namespace LiveBoard
variable {live next : LiveBoard} {address : UInt16}

theorem write_internal (inside : (Region.ofAddress address).Internal) (value : UInt8)
    (live : LiveBoard) : live.write address value = live.update (Board.store address value) := by
  unfold write Board.store
  cases region : Region.ofAddress address with
  | wram | hram => rfl
  | _ =>
    rw [region] at inside
    exact inside.elim

theorem read_tick {n : Nat} (ticks : live.tick n = .ok next)
    (kept : Region.ofAddress address = .rom ∨ (Region.ofAddress address).Internal) :
    next.read address = live.read address := by
  obtain ⟨counter, rfl⟩ := elapsed_of_tick ticks
  unfold read
  rcases kept with program | inside
  · rw [program]
    exact Cartridge.readRom_tick ..
  · cases region : Region.ofAddress address with
    | wram | hram => rfl
    | _ => exact absurd inside (by rw [region]; exact id)

theorem read_ticks {cycles : List Nat} (ticks : live.replay (cycles.map .tick) = .ok next)
    (kept : Region.ofAddress address = .rom ∨ (Region.ofAddress address).Internal) :
    next.read address = live.read address := by
  refine Except.foldlM_keeps (P := (·.read address = live.read address)) ?_ rfl ticks
  rintro event inside middle next same happens
  obtain ⟨n, -, rfl⟩ := List.mem_map.mp inside
  exact (read_tick happens kept).trans same

end LiveBoard
end DotMatrix
