import DotMatrix.Proofs.Cartridge.Register
import DotMatrix.Proofs.Safe.Cartridge

/-! The RAM of a cartridge, as the history of the bus fills it. The last writes to the bank
registers say where the window leads; a cell holds what was stored in it last, whichever bank was
in view meanwhile. -/
namespace DotMatrix
open BankRegister

namespace History

def ramEnabled (kind : MapperKind) (history : History) : Bool :=
  match kind with
  | .none => true
  | .mbc2 => mbc2Switch.after history
  | _ => ramSwitch.after history

/-- What the registers select for an address, with the RAM switched on. -/
def selected (header : Header) (address : UInt16) (history : History) : RamCell :=
  let banked (bank : Nat) : RamCell :=
    if header.ramSize = 0 then .unmapped
    else .byte ((bank * 0x2000 + address.toNat % 0x2000) % header.ramSize)
  match header.hardware.mapper with
  | .none => banked 0
  | .mbc1 => banked (if mbc1Mode.after history then mbc1High.after history else 0)
  | .mbc2 => .nibble (address.toNat % 512)
  | .mbc3 =>
    let select := mbc3Select.after history
    if select < 4 then banked select
    else if 8 ≤ select ∧ select ≤ 12 ∧ header.hardware.clock then .clock (UInt8.ofNat select)
    else .unmapped
  | .mbc5 => banked ((mbc5Ram header.hardware.rumble).after history)

/-- Where an address of the window leads. -/
def target (header : Header) (address : UInt16) (history : History) : RamCell :=
  if history.ramEnabled header.hardware.mapper then history.selected header address
  else .unmapped

end History

def RamCell.index? : RamCell → Option Nat
  | .byte index | .nibble index => some index
  | .unmapped | .clock _ => none

def Header.kept (header : Header) (value : UInt8) : UInt8 :=
  if header.hardware.mapper = .mbc2 then value &&& 0x0F else value

namespace History

def store? (header : Header) (cell : Nat) (past : History) : BusOperation → Option UInt8
  | .write address value =>
    if (0xA000 ≤ address ∧ address < 0xC000) ∧ (past.target header address).index? = some cell
    then some (header.kept value)
    else none
  | .loadBattery data =>
    if data.size = header.ramSize then data[cell]?.map header.kept else none
  | _ => none

def stored (header : Header) (cell : Nat) : History → UInt8
  | [] => 0
  | op :: past => (store? header cell past op).getD (stored header cell past)

end History

namespace Mapper.Remembers
variable {header : Header} {history : History} {m : Mapper}

theorem ramCell (h : m.Remembers header.hardware history)
    (kind : m.kind = header.hardware.mapper) (address : UInt16) :
    m.ramCell address header.ramSize = history.target header address := by
  unfold History.target History.selected
  rw [← kind]
  cases m with
  | none => rfl
  | mbc1 m =>
    unfold Mapper.ramCell
    dsimp only
    rw [h.ramEnabled, h.high, h.mode]
    rfl
  | mbc2 m =>
    unfold Mapper.ramCell
    dsimp only
    rw [h.ramEnabled]
    rfl
  | mbc3 m =>
    unfold Mapper.ramCell
    dsimp only
    rw [h.ramEnabled, h.clocked, ← h.select, UInt8.ofNat_toNat]
    simp only [UInt8.lt_iff_toNat_lt, UInt8.le_iff_toNat_le]
    rfl
  | mbc5 m =>
    unfold Mapper.ramCell
    dsimp only
    rw [h.ramEnabled, h.ramBank]
    rfl

end Mapper.Remembers

namespace History
variable {header : Header} {history : History} {address : UInt16} {cell : Nat}

theorem target_eq_nibble (half : history.target header address = .nibble cell) :
    header.hardware.mapper = .mbc2 := by
  unfold target selected at half
  grind

theorem target_eq_byte (whole : history.target header address = .byte cell) :
    header.hardware.mapper ≠ .mbc2 := by
  unfold target selected at whole
  grind

end History

namespace Cartridge
variable {header : Header} {history : History} {c : Cartridge}

theorem ram_writeRam (h : c.Fits header) (remembers : c.mapper.Remembers header.hardware history)
    (address : UInt16) (value : UInt8) :
    (c.writeRam address value).ram =
      match (history.target header address).index? with
      | some cell => c.ram.setIfInBounds cell (header.kept value)
      | none => c.ram := by
  unfold writeRam
  rw [h.ramSize_eq, remembers.ramCell h.kind_eq]
  cases leads : history.target header address with
  | unmapped | clock select => rfl
  | byte cell =>
    unfold Header.kept
    rw [if_neg (History.target_eq_byte leads)]
    rfl
  | nibble cell =>
    unfold Header.kept
    rw [if_pos (History.target_eq_nibble leads)]
    rfl

theorem ram_loadBattery (h : c.Fits header) (data : Array UInt8) :
    ((c.loadBattery data).toOption.getD c).ram =
      if data.size = header.ramSize then data.map header.kept else c.ram := by
  have kind := h.kind_eq
  unfold loadBattery
  rw [h.ramSize_eq]
  by_cases size : data.size = header.ramSize
  case neg =>
    rw [if_pos size, if_neg size]
    rfl
  case pos =>
    rw [if_neg (not_not_intro size), if_pos size]
    unfold Header.kept
    cases plugged : c.mapper with
    | mbc2 m =>
      rw [plugged] at kind
      simp only [← kind, Mapper.kind, if_true]
      rfl
    | _ =>
      rw [plugged] at kind
      simp only [← kind, Mapper.kind, reduceCtorEq, if_false, Array.map_id']
      rfl

theorem ram_onCartridge (h : c.Fits header)
    (remembers : c.mapper.Remembers header.hardware history) {cell : Nat}
    (inside : cell < header.ramSize) {byte : UInt8} (holds : c.ram[cell]? = some byte)
    (op : BusOperation) :
    (op.onCartridge c).ram[cell]? = some ((history.store? header cell op).getD byte) := by
  cases op with
  | write address value =>
    unfold History.store?
    dsimp only
    by_cases window : 0xA000 ≤ address ∧ address < 0xC000
    case neg =>
      unfold BusOperation.onCartridge
      dsimp only
      rw [if_neg (not_and_of_not_left _ window), if_neg window]
      split <;> exact holds
    case pos =>
      rw [BusOperation.onCartridge_window window.1 window.2, ram_writeRam h remembers]
      simp only [window, and_self, true_and]
      cases leads : (history.target header address).index? with
      | none => exact holds
      | some other =>
        have size := h.ramSize_eq
        dsimp only
        rw [Array.getElem?_setIfInBounds]
        by_cases same : other = cell
        · subst same
          rw [if_pos rfl, if_pos (size ▸ inside), if_pos rfl]
          rfl
        · rw [if_neg same, if_neg fun found => same (Option.some.inj found)]
          exact holds
  | loadBattery data =>
    unfold BusOperation.onCartridge History.store?
    dsimp only
    rw [ram_loadBattery h]
    split
    case isTrue size =>
      rw [Array.getElem?_map, getElem?_pos data cell (size ▸ inside)]
      rfl
    case isFalse => exact holds
  | _ => exact holds

theorem ram_after (header : Header) (history : History) {cell : Nat}
    (inside : cell < header.ramSize) :
    (after header history).ram[cell]? = some (history.stored header cell) := by
  induction history with
  | nil => exact Array.getElem?_replicate.trans (if_pos inside)
  | cons op past ih =>
    exact ram_onCartridge (fits_after header past) (remembers_after header past) inside ih op

end Cartridge

namespace LiveBoard

/-- The RAM holds what was stored in it, and the window shows it where it leads to RAM. Where it
leads nowhere the bus is open; a register of the clock in the window is no cell of the RAM. -/
structure Recalls (header : Header) (history : History) (live : LiveBoard) : Prop where
  size : live.board.cartridge.ram.size = header.ramSize
  cells : ∀ cell < header.ramSize,
    live.board.cartridge.ram[cell]? = some (history.stored header cell)
  byte : ∀ address cell, 0xA000 ≤ address → address < 0xC000 →
    history.target header address = .byte cell →
      cell < header.ramSize ∧ live.read address = history.stored header cell
  nibble : ∀ address cell, 0xA000 ≤ address → address < 0xC000 →
    history.target header address = .nibble cell →
      cell < header.ramSize ∧ live.read address = 0xF0 ||| history.stored header cell
  unmapped : ∀ address, 0xA000 ≤ address → address < 0xC000 →
    history.target header address = .unmapped → live.read address = 0xFF
  kept : ∀ address value, 0xA000 ≤ address → address < 0xC000 →
    (history.target header address).index? = none →
      (live.write address value).board.cartridge.ram = live.board.cartridge.ram

/-- What the window shows is settled by the cartridge in the slot. -/
theorem recalls_after {image : Image} {header : Header} (describes : header.Describes image)
    {history : History} {live : LiveBoard}
    (cartridge : live.board.cartridge = Cartridge.after header history) :
    live.Recalls header history := by
  have fits := Cartridge.fits_after header history
  have remembers := Cartridge.remembers_after header history
  have target (address : UInt16) :
      (Cartridge.after header history).mapper.ramCell address
        (Cartridge.after header history).ram.size = history.target header address := by
    rw [fits.ramSize_eq, remembers.ramCell fits.kind_eq]
  have within (address : UInt16) :
      (history.target header address).Within header.ramSize := by
    rw [← target, ← fits.ramSize_eq]
    exact (fits.mapped describes).ram address
  have read (address : UInt16) (first : 0xA000 ≤ address) (past : address < 0xC000) :
      live.read address = (Cartridge.after header history).readRam address := by
    have region := (Region.ofAddress_eq_cartridgeRam address).mpr ⟨first, past⟩
    unfold LiveBoard.read
    rw [region, ← cartridge]
  have cells (cell : Nat) (inside : cell < header.ramSize) (fallback : UInt8) :
      (Cartridge.after header history).ram.getD cell fallback = history.stored header cell := by
    rw [Array.getD_eq_getD_getElem?, Cartridge.ram_after header history inside, Option.getD_some]
  constructor
  case size => rw [cartridge, fits.ramSize_eq]
  case cells =>
    intro cell inside
    rw [cartridge, Cartridge.ram_after header history inside]
  case byte =>
    intro address cell first past leads
    have inside : (RamCell.byte cell).Within header.ramSize := leads ▸ within address
    refine ⟨inside, ?_⟩
    rw [read address first past, Cartridge.readRam, target, leads]
    exact cells cell inside 0xFF
  case nibble =>
    intro address cell first past leads
    have inside : (RamCell.nibble cell).Within header.ramSize := leads ▸ within address
    refine ⟨inside, ?_⟩
    rw [read address first past, Cartridge.readRam, target, leads]
    exact congrArg (0xF0 ||| ·) (cells cell inside 0x0F)
  case unmapped =>
    intro address first past leads
    rw [read address first past, Cartridge.readRam, target, leads]
  case kept =>
    intro address value first past leads
    rw [cartridge_write, BusOperation.onCartridge_window first past, cartridge,
      Cartridge.ram_writeRam fits remembers, leads]

/-- Whatever is done on the bus, the RAM behind the window neither loses a byte nor shows one in
the place of another. -/
theorem recalls_operations {image : Image} {header : Header}
    (accepted : Header.parse image = .ok header) (settings : Settings)
    (ops : List BusOperation) :
    ∃ c, Console.powerOn image settings = .ok c ∧
      ((ops.map BusOperation.cycles).sum < UInt64.size →
        ∃ live, ops.foldlM operate c.machine.bus = .ok live) ∧
      ∀ live, ops.foldlM operate c.machine.bus = .ok live →
        live.Recalls header ops.reverse := by
  obtain ⟨c, starts, runs, reached⟩ := Console.operations_powerOn accepted settings ops
  refine ⟨c, starts, runs, fun live operates => ?_⟩
  exact recalls_after (Header.describes_of_parse accepted) (reached live operates).2

/-- Two bytes at one address, in two banks of an MBC1's RAM; then the first bank again. -/
def twoBanks : List BusOperation :=
  [.write 0x0000 0x0A, .write 0x6000 0x01, .write 0xA005 0x42, .write 0x4000 0x01, .tick 8,
    .write 0xA005 0x43, .write 0x4000 0x00]

/-- The first byte is still there. -/
theorem recalls_operations_banked :
    ∃ c live, Console.powerOn Image.banked .standard = .ok c ∧
      twoBanks.foldlM operate c.machine.bus = .ok live ∧ live.read 0xA005 = 0x42 := by
  obtain ⟨header, accepted, hardware, size⟩ := Header.parse_banked
  obtain ⟨c, starts, runs, recalls⟩ := recalls_operations accepted .standard twoBanks
  obtain ⟨live, operates⟩ := runs (by decide)
  refine ⟨c, live, starts, operates, ?_⟩
  obtain ⟨title, typeCode, _, romSize, _, headerChecksum, globalChecksum⟩ := header
  subst hardware size
  have leads : History.target ⟨title, typeCode, ⟨.mbc1, true, true, false, false⟩, romSize, 0x8000,
      headerChecksum, globalChecksum⟩ 0xA005 twoBanks.reverse = .byte 5 := by cbv
  exact ((recalls live operates).byte 0xA005 5 (by decide) (by decide) leads).2.trans rfl

end LiveBoard
end DotMatrix
