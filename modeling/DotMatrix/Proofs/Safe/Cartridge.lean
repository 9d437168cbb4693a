import DotMatrix.Proofs.Range.Board
import DotMatrix.Proofs.Range.Header

/-! The clock of a cartridge counts within its registers, and every address that the cartridge
answers leads to memory that it has: one of program memory to a byte of the image, one of the RAM
window to a cell of the RAM or to a register of the clock, whatever the bank registers hold. -/
namespace DotMatrix

structure ClockTime.AdvanceSafe (t : ClockTime) : Prop where
  seconds : t.seconds.toNat + 1 < 0x100
  minutes : t.minutes.toNat + 1 < 0x100
  hours : t.hours.toNat + 1 < 0x100

structure Clock.TickSafe (n : Nat) (c : Clock) : Prop where
  subsecond : c.subsecond.toNat + n < 0x100000000
  seconds : ∀ i < (c.subsecond.toNat + n) / cyclesPerSecond,
    (Nat.repeat ClockTime.advanceSecond i c.time).AdvanceSafe

theorem ClockTime.Wired.toNat_le {mask value : UInt8} (h : Wired mask value) :
    value.toNat ≤ mask.toNat := by
  rw [← h]
  exact and_le_mask value mask

theorem ClockTime.advanceSafe (t : ClockTime) (h : t.masked = t) : t.AdvanceSafe := by
  obtain ⟨seconds, minutes, hours, _⟩ := (masked_eq_iff t).mp h
  have seconds : t.seconds.toNat ≤ 63 := seconds.toNat_le
  have minutes : t.minutes.toNat ≤ 63 := minutes.toNat_le
  have hours : t.hours.toNat ≤ 31 := hours.toNat_le
  exact ⟨by omega, by omega, by omega⟩

theorem Clock.InRange.tickSafe {c : Clock} (h : c.InRange) (n : Nat) (small : n ≤ 0x1000) :
    c.TickSafe n := by
  have subsecond := h.subsecond
  simp only [cyclesPerSecond] at subsecond
  exact ⟨by omega, fun i _ => ClockTime.advanceSafe _ (ClockTime.masked_repeat i _ h.time)⟩

def RamCell.Within (ramSize : Nat) : RamCell → Prop
  | .byte index | .nibble index => index < ramSize
  | .unmapped | .clock _ => True

namespace Mapper
variable {m : Mapper} {address : UInt16} {ramSize : Nat}

def ramBank : Mapper → Nat
  | .mbc1 m => if m.mode then m.high.toNat else 0
  | .mbc3 m => m.select.toNat
  | .mbc5 m => m.ramBank.toNat
  | _ => 0

def ramPlace (address : UInt16) (m : Mapper) : Nat :=
  m.ramBank * ramBankSize + address.toNat % ramBankSize

theorem ramPlace_lt (address : UInt16) (m : Mapper) : m.ramPlace address < UInt64.size := by
  have inside : address.toNat % ramBankSize < ramBankSize := Nat.mod_lt _ (by decide)
  have bank : m.ramBank < 0x100 := by
    cases m with
    | none | mbc2 => exact Nat.zero_lt_succ _
    | mbc1 m =>
      have high := m.high.toNat_lt
      simp only [ramBank]
      split <;> omega
    | mbc3 m => exact m.select.toNat_lt
    | mbc5 m => exact m.ramBank.toNat_lt
  unfold ramPlace
  simp only [ramBankSize, UInt64.size] at inside ⊢
  omega

/-- Everything that can lie behind an address of the RAM window. A RAM that is smaller than its
banks repeats. -/
theorem ramCell_cases (address : UInt16) (ramSize : Nat) (m : Mapper) :
    m.ramCell address ramSize = .unmapped ∨
      (ramSize ≠ 0 ∧ m.ramCell address ramSize = .byte (m.ramPlace address % ramSize)) ∨
      (m.kind = .mbc2 ∧ m.ramCell address ramSize = .nibble (address.toNat % 512)) ∨
      ∃ select, 8 ≤ select.toNat ∧ select.toNat ≤ 12 ∧
        m.ramCell address ramSize = .clock select := by
  have banked (bank : Nat) : bankedCell bank address ramSize = .unmapped ∨
      (ramSize ≠ 0 ∧ bankedCell bank address ramSize =
        .byte ((bank * ramBankSize + address.toNat % ramBankSize) % ramSize)) := by
    unfold bankedCell
    split
    case isTrue => exact .inl rfl
    case isFalse some => exact .inr ⟨some, rfl⟩
  cases m with
  | none => exact (banked 0).imp_right .inl
  | mbc1 m =>
    simp only [ramCell]
    split
    · exact (banked (if m.mode then m.high.toNat else 0)).imp_right .inl
    · exact .inl rfl
  | mbc2 m =>
    simp only [ramCell]
    split
    · exact .inr (.inr (.inl ⟨rfl, rfl⟩))
    · exact .inl rfl
  | mbc3 m =>
    simp only [ramCell]
    split
    · split
      · exact (banked m.select.toNat).imp_right .inl
      · split
        case isTrue clocked =>
          exact .inr (.inr (.inr ⟨m.select, clocked.1, clocked.2.1, rfl⟩))
        case isFalse => exact .inl rfl
    · exact .inl rfl
  | mbc5 m =>
    simp only [ramCell]
    split
    · exact (banked m.ramBank.toNat).imp_right .inl
    · exact .inl rfl

theorem within_ramCell (address : UInt16) (ramSize : Nat) (m : Mapper)
    (nibbles : m.kind = .mbc2 → 512 ≤ ramSize) : (m.ramCell address ramSize).Within ramSize := by
  obtain cell | ⟨some, cell⟩ | ⟨kind, cell⟩ | ⟨select, _, _, cell⟩ :=
    ramCell_cases address ramSize m <;> rw [cell]
  · trivial
  · exact Nat.mod_lt _ (Nat.pos_of_ne_zero some)
  · have size := nibbles kind
    have place : address.toNat % 512 < 512 := Nat.mod_lt _ (by decide)
    exact Nat.lt_of_lt_of_le place size
  · trivial

end Mapper

theorem ClockTime.getElem?_toList (t : ClockTime) (select : UInt8) (first : 8 ≤ select.toNat)
    (last : select.toNat ≤ 12) : t.toList[select.toNat - 8]? = some (t.get select) := by
  have every : ∀ i < 5, t.toList[i]? = some (t.get (UInt8.ofNat (i + 8))) := by
    intro i small
    match i, small with
    | 0, _ | 1, _ | 2, _ | 3, _ | 4, _ => rfl
  have this := every (select.toNat - 8) (by omega)
  rwa [Nat.sub_add_cancel first, UInt8.ofNat_toNat] at this

namespace Cartridge

structure Mapped (image : Image) (c : Cartridge) : Prop where
  rom : ∀ address < 0x8000, c.romOffset address < image.size
  ram : ∀ address, (c.mapper.ramCell address c.ram.size).Within c.ram.size

theorem romOffset_lt (address : UInt16) (c : Cartridge) (some : 0 < c.romBanks.toNat) :
    c.romOffset address < c.romBanks.toNat * Image.bankSize := by
  have inside : address.toNat % Image.bankSize < Image.bankSize := Nat.mod_lt _ (by decide)
  have bank (n : Nat) : (n % c.romBanks.toNat + 1) * Image.bankSize ≤
      c.romBanks.toNat * Image.bankSize :=
    Nat.mul_le_mul_right _ (Nat.mod_lt n some)
  unfold romOffset
  dsimp only
  split
  · have below := bank c.mapper.lowBank
    rw [Nat.add_mul, Nat.one_mul] at below
    omega
  · have below := bank c.mapper.highBank
    rw [Nat.add_mul, Nat.one_mul] at below
    omega

theorem Fits.banks_eq {header : Header} {image : Image} {c : Cartridge} (h : c.Fits header)
    (describes : header.Describes image) :
    0 < c.romBanks.toNat ∧ c.romBanks.toNat * Image.bankSize = image.size := by
  obtain ⟨code, small, size⟩ := describes.romBanks
  -- With so few banks their number is not cut off by its word.
  have power : 2 ^ code ≤ 2 ^ 8 := Nat.pow_le_pow_right (by decide) small
  have positive : 0 < 2 ^ code := Nat.two_pow_pos code
  have whole := describes.romSize
  have banks : header.romBanks = 2 * 2 ^ code := by
    unfold Header.romBanks
    rw [size, Nat.shiftLeft_eq]
    unfold Image.bankSize
    omega
  have counted : c.romBanks.toNat = 2 * 2 ^ code := by
    rw [h.romBanks, powerOn, UInt64.toNat_ofNat', Nat.mod_eq_of_lt (by omega), banks]
    omega
  refine ⟨by omega, ?_⟩
  rw [counted, ← whole, size, Nat.shiftLeft_eq]
  unfold Image.bankSize
  omega

theorem Fits.mapped {header : Header} {image : Image} {c : Cartridge} (h : c.Fits header)
    (describes : header.Describes image) : c.Mapped image := by
  obtain ⟨some, whole⟩ := h.banks_eq describes
  constructor
  case rom =>
    intro address _
    rw [← whole]
    exact romOffset_lt address c some
  case ram =>
    intro address
    refine Mapper.within_ramCell address _ _ fun nibbles => ?_
    have kind : header.hardware.mapper = .mbc2 := h.kind_eq.symm.trans nibbles
    exact Nat.le_of_eq (h.ramSize_eq.trans (describes.mbc2 kind)).symm

def readRom? (image : Image) (address : UInt16) (c : Cartridge) : Option UInt8 :=
  image[c.romOffset address]?

def readRam? (address : UInt16) (c : Cartridge) : Option UInt8 :=
  match c.mapper.ramCell address c.ram.size with
  | .byte index => c.ram[index]?
  | .nibble index => c.ram[index]?.map (0xF0 ||| ·)
  | _ => some (c.readRam address)

def writeRam? (address : UInt16) (value : UInt8) (c : Cartridge) : Option Cartridge :=
  let store (index : Nat) (value : UInt8) : Option Cartridge :=
    if inside : index < c.ram.size then some { c with ram := c.ram.set index value inside }
    else none
  match c.mapper.ramCell address c.ram.size with
  | .byte index => store index value
  | .nibble index => store index (value &&& 0x0F)
  | _ => some (c.writeRam address value)

/-- What a read of program memory needs: banks to take a remainder by, an offset that a word of the
host holds, and a byte there. -/
structure RomSafe (image : Image) (address : UInt16) (c : Cartridge) : Prop where
  banks : c.romBanks.toNat ≠ 0
  offset : c.romOffset address < UInt64.size
  byte : c.readRom? image address = some (c.readRom image address)

/-- What the way to a cell of the RAM window needs: a place that a word of the host holds and a RAM
to take its remainder by, or the number of a clock register. -/
def CellSafe (address : UInt16) (c : Cartridge) : RamCell → Prop
  | .byte index =>
    c.ram.size ≠ 0 ∧ c.mapper.ramPlace address < UInt64.size ∧
      index = c.mapper.ramPlace address % c.ram.size
  | .clock select =>
    8 ≤ select.toNat ∧ ∀ t : ClockTime, t.toList[select.toNat - 8]? = some (t.get select)
  | .unmapped | .nibble _ => True

def RamSafe (address : UInt16) (c : Cartridge) : Prop :=
  c.CellSafe address (c.mapper.ramCell address c.ram.size) ∧
    c.readRam? address = some (c.readRam address) ∧
    ∀ value, c.writeRam? address value = some (c.writeRam address value)

theorem bank_lt (m : Mapper) : m.lowBank < 0x10000 ∧ m.highBank < 0x10000 := by
  cases m with
  | none => exact ⟨by decide, by decide⟩
  | mbc1 m =>
    have low := m.low.toNat_lt
    have high := m.high.toNat_lt
    constructor
    · simp only [Mapper.lowBank]
      split <;> omega
    · exact Nat.or_lt_two_pow (n := 16) (by omega) (by omega)
  | mbc2 m => exact ⟨Nat.zero_lt_succ _, Nat.lt_trans m.romBank.toNat_lt (by decide)⟩
  | mbc3 m => exact ⟨Nat.zero_lt_succ _, Nat.lt_trans m.romBank.toNat_lt (by decide)⟩
  | mbc5 m => exact ⟨Nat.zero_lt_succ _, m.romBank.toNat_lt⟩

theorem romOffset_lt_size (address : UInt16) (c : Cartridge) :
    c.romOffset address < UInt64.size := by
  obtain ⟨low, high⟩ := bank_lt c.mapper
  have bank_le (bank : Nat) : bank % c.romBanks.toNat ≤ bank := Nat.mod_le ..
  have first := bank_le c.mapper.lowBank
  have second := bank_le c.mapper.highBank
  unfold romOffset Image.bankSize
  simp only [UInt64.size]
  split <;> omega

theorem Mapped.romSafe {image : Image} {c : Cartridge} (h : c.Mapped image)
    (banks : 0 < c.romBanks.toNat) {address : UInt16} (program : address < 0x8000) :
    c.RomSafe image address where
  banks := Nat.pos_iff_ne_zero.mp banks
  offset := c.romOffset_lt_size address
  byte := by
    have inside := h.rom address program
    unfold readRom? readRom Image.byte
    rw [getElem?_pos image _ inside]
    rfl

theorem Mapped.ramSafe {image : Image} {c : Cartridge} (h : c.Mapped image) (address : UInt16) :
    c.RamSafe address := by
  have inside := h.ram address
  unfold RamSafe readRam? writeRam? readRam writeRam
  obtain cell | ⟨some, cell⟩ | ⟨_, cell⟩ | ⟨select, first, last, cell⟩ :=
    c.mapper.ramCell_cases address c.ram.size <;> rw [cell] at inside ⊢
  · exact ⟨trivial, rfl, fun _ => rfl⟩
  · have inside : c.mapper.ramPlace address % c.ram.size < c.ram.size := inside
    refine ⟨⟨some, c.mapper.ramPlace_lt address, rfl⟩, ?_, fun value => ?_⟩
    · simp only [Array.getElem?_eq_getElem inside, Array.getD, inside, dif_pos]
      rfl
    · simp only [inside, dif_pos, Array.setIfInBounds]
  · have inside : address.toNat % 512 < c.ram.size := inside
    refine ⟨trivial, ?_, fun value => ?_⟩
    · simp only [Array.getElem?_eq_getElem inside, Array.getD, inside, dif_pos]
      rfl
    · simp only [inside, dif_pos, Array.setIfInBounds]
  · exact ⟨⟨first, fun t => t.getElem?_toList select first last⟩, rfl, fun _ => rfl⟩

end Cartridge
end DotMatrix
