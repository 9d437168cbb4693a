import DotMatrix.Proofs.Board.Internal
import DotMatrix.Proofs.Safe.Board
import DotMatrix.Proofs.Video.Locked

/-! The memories of the console as programs see them. Behind every address there is one cell, and
behind every cell one address; only work RAM shows a second time above itself. What is written to a
cell is read there, and read nowhere else. -/
namespace DotMatrix

/-- The address `b` is that of `a` in the echo of work RAM. The echo ends before the last pages. -/
def Echoes (a b : UInt16) : Prop := 0xC000 ≤ a ∧ a ≤ 0xDDFF ∧ b = a + 0x2000

/-- One cell is behind both addresses. -/
def SameCell (a b : UInt16) : Prop := b = a ∨ Echoes a b ∨ Echoes b a

instance (a b : UInt16) : Decidable (Echoes a b) := inferInstanceAs (Decidable (_ ∧ _))

instance (a b : UInt16) : Decidable (SameCell a b) := inferInstanceAs (Decidable (_ ∨ _))

namespace Region
variable {a b : UInt16}

/-- The first address of a cell; registers and the cartridge have none. -/
def home? : Region → Option Nat
  | .vram offset => some (0x8000 + offset)
  | .wram offset => some (0xC000 + offset)
  | .oam offset => some (0xFE00 + offset)
  | .hram offset => some (0xFF80 + offset)
  | .interruptEnable => some 0xFFFF
  | _ => none

theorem home?_ofRegister (address : UInt16) : (ofRegister address).home? = none := by
  unfold ofRegister
  repeat' split
  all_goals rfl

/-- A cell is at its home, or a second time in the echo. -/
theorem eq_of_home? {home : Nat} (cell : (ofAddress a).home? = some home) :
    a.toNat = home ∨ 0xC000 ≤ home ∧ home ≤ 0xDDFF ∧ a.toNat = home + 0x2000 := by
  have range := a.toNat_lt
  have register := home?_ofRegister a
  unfold ofAddress at cell
  dsimp only at cell
  repeat' split at cell
  all_goals try rw [register] at cell
  all_goals simp only [home?, Option.some.injEq, reduceCtorEq] at cell
  all_goals omega

theorem toNat_add_echo (last : a ≤ 0xDDFF) : (a + 0x2000).toNat = a.toNat + 0x2000 := by
  rw [UInt16.le_iff_toNat_le] at last
  simp only [UInt16.reduceToNat] at last
  rw [UInt16.toNat_add]
  simp only [UInt16.reduceToNat]
  omega

theorem ofAddress_echoes (echoes : Echoes a b) : ofAddress b = ofAddress a := by
  obtain ⟨first, last, rfl⟩ := echoes
  have moved := toNat_add_echo last
  simp only [UInt16.le_iff_toNat_le, UInt16.reduceToNat] at first last
  rw [ofAddress_wram, ofAddress_wram, moved]
  · exact congrArg _ (by omega)
  all_goals
    simp only [UInt16.le_iff_toNat_le, UInt16.lt_iff_toNat_lt, moved, UInt16.reduceToNat]
    omega

theorem ofAddress_sameCell (same : SameCell a b) : ofAddress b = ofAddress a := by
  obtain rfl | echoes | echoes := same
  · rfl
  · exact ofAddress_echoes echoes
  · exact (ofAddress_echoes echoes).symm

theorem echoes_of_toNat (first : 0xC000 ≤ a.toNat) (last : a.toNat ≤ 0xDDFF)
    (above : b.toNat = a.toNat + 0x2000) : Echoes a b := by
  refine ⟨UInt16.le_iff_toNat_le.mpr first, UInt16.le_iff_toNat_le.mpr last, ?_⟩
  rw [← UInt16.toNat_inj, toNat_add_echo (UInt16.le_iff_toNat_le.mpr last), above]

theorem ofAddress_eq_iff_sameCell {home : Nat} (cell : (ofAddress a).home? = some home) :
    ofAddress b = ofAddress a ↔ SameCell a b := by
  refine ⟨fun same => ?_, ofAddress_sameCell⟩
  have other : (ofAddress b).home? = some home := same ▸ cell
  obtain atHome | ⟨first, last, echo⟩ := eq_of_home? cell <;>
    obtain atHome' | ⟨first', last', echo'⟩ := eq_of_home? other
  · exact .inl (UInt16.toNat_inj.mp (atHome'.trans atHome.symm))
  · subst atHome
    exact .inr (.inl (echoes_of_toNat first' last' echo'))
  · subst atHome'
    exact .inr (.inr (echoes_of_toNat first last echo))
  · exact .inl (UInt16.toNat_inj.mp (echo'.trans echo.symm))

theorem ofAddress_gap (first : 0xFEA0 ≤ a) (last : a < 0xFF00) : ofAddress a = .unmapped := by
  simp only [UInt16.lt_iff_toNat_lt, UInt16.le_iff_toNat_le, UInt16.reduceToNat] at first last
  unfold ofAddress
  dsimp only
  rw [if_neg (by omega), if_neg (by omega), if_neg (by omega), if_neg (by omega),
    if_neg (by omega), if_pos last]

theorem ofAddress_top (first : 0xFF80 ≤ a) :
    ofAddress a = .hram (a.toNat - 0xFF80) ∨ ofAddress a = .interruptEnable := by
  by_cases last : a < 0xFFFF
  · exact .inl (ofAddress_hram first last)
  · have range := a.toNat_lt
    simp only [UInt16.lt_iff_toNat_lt, UInt16.le_iff_toNat_le, UInt16.reduceToNat] at first last
    obtain rfl : a = 0xFFFF := UInt16.toNat_inj.mp (by simp only [UInt16.reduceToNat]; omega)
    exact .inr rfl

end Region

theorem Memory.read_write_of_lt {size i j : Nat} (memory : Memory size) (value : UInt8)
    (hi : i < size) (hj : j < size) :
    (memory.write i value).read j = if j = i then value else memory.read j := by
  rw [read_write _ _ _ _ (Nat.zero_lt_of_lt hi), Nat.mod_eq_of_lt hi, Nat.mod_eq_of_lt hj]

namespace LiveBoard
variable {live : LiveBoard} {a b : UInt16} {value : UInt8}

def VramLocked (live : LiveBoard) : Prop := live.Guarded ∧ live.board.video.Drawing

def OamLocked (live : LiveBoard) : Prop := live.Guarded ∧ live.board.video.UsesSprites

theorem guarded_iff : (live.settings.access == .unrestricted) = false ↔ live.Guarded := by
  unfold Guarded
  cases live.settings.access <;> decide

theorem vramOpen_eq_true : live.vramOpen = true ↔ ¬live.VramLocked := by
  unfold VramLocked
  rw [← guarded_iff, ← Video.vramOpen_eq_false, ← Bool.or_eq_false_iff, Bool.not_eq_false]
  rfl

theorem oamOpen_eq_true : live.oamOpen = true ↔ ¬live.OamLocked := by
  unfold OamLocked
  rw [← guarded_iff, ← Video.oamOpen_eq_false, ← Bool.or_eq_false_iff, Bool.not_eq_false]
  rfl

/-- The address leads to a memory of the console that is not locked. -/
inductive Reaches (live : LiveBoard) (address : UInt16) : Prop
  | vram (first : 0x8000 ≤ address) (last : address < 0xA000) (free : ¬live.VramLocked)
  | wram (first : 0xC000 ≤ address) (last : address < 0xFE00)
  | oam (first : 0xFE00 ≤ address) (last : address < 0xFEA0) (free : ¬live.OamLocked)
  | top (first : 0xFF80 ≤ address)

/-- The address leads to a memory that is locked, or into the gap behind sprite memory. -/
inductive Misses (live : LiveBoard) (address : UInt16) : Prop
  | vram (first : 0x8000 ≤ address) (last : address < 0xA000) (locked : live.VramLocked)
  | oam (first : 0xFE00 ≤ address) (last : address < 0xFEA0) (locked : live.OamLocked)
  | gap (first : 0xFEA0 ≤ address) (last : address < 0xFF00)

def Opens (live : LiveBoard) : Region → Prop
  | .vram _ => live.vramOpen = true
  | .oam _ => live.oamOpen = true
  | .wram _ | .hram _ | .interruptEnable => True
  | _ => False

def store (region : Region) (value : UInt8) (live : LiveBoard) : LiveBoard :=
  live.update fun b =>
    match region with
    | .vram offset => { b with video := writeVram offset value b.video }
    | .wram offset => { b with wram := b.wram.write offset value }
    | .oam offset => { b with video := writeOam offset value b.video }
    | .hram offset => { b with hram := b.hram.write offset value }
    | .interruptEnable => { b with enabled := value }
    | _ => b

theorem Reaches.opens (reaches : live.Reaches a) : live.Opens (Region.ofAddress a) := by
  cases reaches with
  | vram first last free =>
    rw [Region.ofAddress_vram first last]
    exact vramOpen_eq_true.mpr free
  | wram first last =>
    rw [Region.ofAddress_wram first last]
    trivial
  | oam first last free =>
    rw [Region.ofAddress_oam first last]
    exact oamOpen_eq_true.mpr free
  | top first =>
    obtain region | region := Region.ofAddress_top first
    all_goals
      rw [region]
      trivial

theorem Misses.write (misses : live.Misses a) (value : UInt8) : live.write a value = live := by
  unfold LiveBoard.write
  cases misses with
  | vram first last locked =>
    rw [Region.ofAddress_vram first last]
    exact if_neg fun free => vramOpen_eq_true.mp free locked
  | oam first last locked =>
    rw [Region.ofAddress_oam first last]
    exact if_neg fun free => oamOpen_eq_true.mp free locked
  | gap first last => rw [Region.ofAddress_gap first last]

namespace Opens
variable {region : Region}

theorem exists_home (opens : live.Opens region) : ∃ home, region.home? = some home := by
  cases region with
  | vram | wram | oam | hram | interruptEnable => exact ⟨_, rfl⟩
  | _ => exact opens.elim

theorem write (opens : live.Opens (Region.ofAddress a)) (value : UInt8) :
    live.write a value = live.store (Region.ofAddress a) value := by
  unfold LiveBoard.write store
  cases region : Region.ofAddress a with
  | vram | oam =>
    rw [region] at opens
    exact if_pos opens
  | wram | hram | interruptEnable => rfl
  | _ =>
    rw [region] at opens
    exact opens.elim

/-- A stored byte shows at the addresses of its cell and nowhere else. -/
theorem read_store (opens : live.Opens region) (here : region.Holds) (value : UInt8)
    (b : UInt16) :
    (live.store region value).read b =
      if Region.ofAddress b = region then value else live.read b := by
  have there := Region.holds_ofAddress b
  unfold read store
  -- Only a read of the same memory can see the byte.
  cases region with
  | vram i =>
    cases place : Region.ofAddress b with
    | vram j =>
      rw [place] at there
      have free : live.vramOpen = true := opens
      have stored := live.board.video.vram.read_write_of_lt value here there
      change (if live.vramOpen then (live.board.video.vram.write i value).read j else 0xFF) =
        if _ then value else if live.vramOpen then live.board.video.vram.read j else 0xFF
      rw [if_pos free, if_pos free, stored]
      simp only [Region.vram.injEq]
    | _ => exact (if_neg nofun).symm
  | wram i =>
    cases place : Region.ofAddress b with
    | wram j =>
      rw [place] at there
      simp only [Region.wram.injEq]
      exact live.board.wram.read_write_of_lt value here there
    | _ => exact (if_neg nofun).symm
  | oam i =>
    cases place : Region.ofAddress b with
    | oam j =>
      rw [place] at there
      have free : live.oamOpen = true := opens
      have stored := live.board.video.oam.read_write_of_lt value here there
      change (if live.oamOpen then (live.board.video.oam.write i value).read j else 0xFF) =
        if _ then value else if live.oamOpen then live.board.video.oam.read j else 0xFF
      rw [if_pos free, if_pos free, stored]
      simp only [Region.oam.injEq]
    | _ => exact (if_neg nofun).symm
  | hram i =>
    cases place : Region.ofAddress b with
    | hram j =>
      rw [place] at there
      simp only [Region.hram.injEq]
      exact live.board.hram.read_write_of_lt value here there
    | _ => exact (if_neg nofun).symm
  | interruptEnable =>
    cases Region.ofAddress b with
    | interruptEnable => exact (if_pos rfl).symm
    | _ => exact (if_neg nofun).symm
  | _ => exact opens.elim

end Opens

/-- The memories of the console are arrays, and the echo is the only mirror. A byte that is written
to a cell is read at all its addresses, and all other reads stay as they were; a write to what is
locked, or to the gap, changes no read at all. -/
theorem cells_mirrored (live : LiveBoard) (a : UInt16) (value : UInt8) :
    (live.Reaches a → ∀ b, (live.write a value).read b =
      if SameCell a b then value else live.read b) ∧
    (live.Misses a → ∀ b, (live.write a value).read b = live.read b) := by
  constructor
  · intro reaches b
    obtain ⟨home, cell⟩ := reaches.opens.exists_home
    rw [reaches.opens.write, reaches.opens.read_store (Region.holds_ofAddress a)]
    exact if_congr (Region.ofAddress_eq_iff_sameCell cell) rfl rfl
  · intro misses b
    rw [misses.write]

/-- A board at power-on, when the first line begins. -/
def beginning : LiveBoard := (Console.started Image.blank .standard .bare).machine.bus

/-- The echo shows in work RAM. Sprite memory is being scanned, and what is written to it is lost. -/
theorem cells_mirrored_beginning :
    beginning.Reaches 0xFDFF ∧ beginning.Misses 0xFE00 ∧
      (beginning.write 0xFDFF 0xA5).read 0xDDFF = 0xA5 ∧
      (beginning.write 0xFDFF 0xA5).read 0xDE00 = beginning.read 0xDE00 ∧
      (beginning.write 0xFE00 0xA5).read 0xFE00 = beginning.read 0xFE00 := by
  have reaches : beginning.Reaches 0xFDFF := .wram (by decide) (by decide)
  have locked : beginning.OamLocked := ⟨rfl, rfl, .inl rfl⟩
  have misses : beginning.Misses 0xFE00 := .oam (by decide) (by decide) locked
  have stored := (cells_mirrored beginning 0xFDFF 0xA5).1 reaches
  have dropped := (cells_mirrored beginning 0xFE00 0xA5).2 misses
  refine ⟨reaches, misses, ?_, ?_, dropped 0xFE00⟩
  · rw [stored, if_pos (by decide)]
  · rw [stored, if_neg (by decide)]

end LiveBoard
end DotMatrix
