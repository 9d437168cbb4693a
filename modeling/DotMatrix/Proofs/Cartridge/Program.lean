import DotMatrix.Proofs.Cartridge.Register
import DotMatrix.Proofs.Safe.Cartridge

/-! The program memory, as the history of the bus maps it. Two banks of the image are in view, and
only the last writes to the bank registers say which; every address in view has a byte in the
image. -/
namespace DotMatrix
open BankRegister

namespace History

def lowBank (kind : MapperKind) (history : History) : Nat :=
  match kind with
  | .mbc1 => if mbc1Mode.after history then 32 * mbc1High.after history else 0
  | _ => 0

def highBank (kind : MapperKind) (history : History) : Nat :=
  match kind with
  | .none => 1
  | .mbc1 => 32 * mbc1High.after history + mbc1Low.after history
  | .mbc2 => mbc2Bank.after history
  | .mbc3 => mbc3Bank.after history
  | .mbc5 => mbc5Low.after history + 256 * mbc5High.after history

def romBank (kind : MapperKind) (address : UInt16) (history : History) : Nat :=
  if address < 0x4000 then history.lowBank kind else history.highBank kind

end History

theorem BankRegister.mbc1Low_lt (history : History) : mbc1Low.after history < 2 ^ 5 := by
  refine mbc1Low.after_induction (p := (· < 2 ^ 5)) (by decide) (fun value => ?_) history
  have masked : (value &&& 0x1F).toNat ≤ 0x1F := by
    rw [UInt8.toNat_and]
    exact Nat.and_le_right
  change max 1 (value &&& 0x1F).toNat < 2 ^ 5
  omega

namespace Mapper.Remembers
variable {hardware : Hardware} {history : History} {m : Mapper}

theorem lowBank (h : m.Remembers hardware history) : m.lowBank = history.lowBank m.kind := by
  cases m with
  | mbc1 m =>
    change (if m.mode then 32 * m.high.toNat else 0) = _
    rw [h.mode, h.high]
    rfl
  | _ => rfl

theorem highBank (h : m.Remembers hardware history) : m.highBank = history.highBank m.kind := by
  cases m with
  | none => rfl
  | mbc1 m =>
    -- The lower register has five bits, so that the two do not overlap.
    calc 32 * m.high.toNat ||| m.low.toNat
      _ = 32 * mbc1High.after history ||| mbc1Low.after history := by rw [h.high, h.low]
      _ = 32 * mbc1High.after history + mbc1Low.after history :=
        (Nat.two_pow_add_eq_or_of_lt (mbc1Low_lt history) _).symm
  | mbc2 m => exact h.romBank
  | mbc3 m => exact h.romBank
  | mbc5 m =>
    calc m.romBank.toNat
      _ = (Word.join (Word.high m.romBank) (Word.low m.romBank)).toNat := by
        rw [Word.join_high_low]
      _ = 256 * mbc5High.after history + mbc5Low.after history := by
        rw [Word.toNat_join, h.high, h.low]
      _ = mbc5Low.after history + 256 * mbc5High.after history := Nat.add_comm _ _

end Mapper.Remembers

namespace Cartridge

theorem romOffset_after (address : UInt16) (header : Header) (history : History) :
    (after header history).romOffset address =
      history.romBank header.hardware.mapper address % (after header history).romBanks.toNat *
        Image.bankSize + address.toNat % Image.bankSize := by
  have remembers := remembers_after header history
  unfold romOffset
  rw [remembers.lowBank, remembers.highBank, (fits_after header history).kind_eq]
  rfl

theorem readRom_after {header : Header} {image : Image} (describes : header.Describes image)
    (history : History) {address : UInt16} (program : address < 0x8000) :
    image[history.romBank header.hardware.mapper address % (image.size / Image.bankSize) *
        Image.bankSize + address.toNat % Image.bankSize]? =
      some ((after header history).readRom image address) := by
  have fits := fits_after header history
  have banks : (after header history).romBanks.toNat = image.size / Image.bankSize := by
    rw [← (fits.banks_eq describes).2, Nat.mul_div_cancel _ (by decide)]
  have inside := (fits.mapped describes).rom address program
  unfold readRom
  rw [romOffset_after, banks] at inside ⊢
  unfold Image.byte
  rw [getElem?_pos image _ inside, Option.getD_some]

end Cartridge

namespace LiveBoard

/-- Whatever is done on the bus, an address of program memory reads the byte of the image that the
last writes to the bank registers put there. -/
theorem read_program {image : Image} {header : Header}
    (accepted : Header.parse image = .ok header) (settings : Settings)
    (ops : List BusOperation) :
    ∃ c, Console.powerOn image settings = .ok c ∧
      ((ops.map BusOperation.cycles).sum < UInt64.size →
        ∃ live, ops.foldlM operate c.machine.bus = .ok live) ∧
      ∀ live, ops.foldlM operate c.machine.bus = .ok live → ∀ address < 0x8000,
        image[History.romBank header.hardware.mapper address ops.reverse %
            (image.size / 0x4000) * 0x4000 + address.toNat % 0x4000]? =
          some (live.read address) := by
  obtain ⟨c, starts, runs, reached⟩ := Console.operations_powerOn accepted settings ops
  refine ⟨c, starts, runs, fun live operates address program => ?_⟩
  obtain ⟨same, cartridge⟩ := reached live operates
  have region := (Region.ofAddress_eq_rom address).mpr program
  have read : live.read address = live.board.cartridge.readRom live.image address := by
    unfold LiveBoard.read
    rw [region]
  rw [read, same, cartridge]
  exact Cartridge.readRom_after (Header.describes_of_parse accepted) ops.reverse program

/-- Bank 2 of four, brought into view. -/
theorem read_program_banked :
    ∃ c live, Console.powerOn Image.banked .standard = .ok c ∧
      [.write 0x2000 0x02, .tick 8].foldlM operate c.machine.bus = .ok live ∧
        live.read 0x4123 = 0x5A := by
  obtain ⟨header, accepted, hardware, -⟩ := Header.parse_banked
  obtain ⟨c, starts, runs, reads⟩ :=
    read_program accepted .standard [.write 0x2000 0x02, .tick 8]
  obtain ⟨live, operates⟩ := runs (by decide)
  refine ⟨c, live, starts, operates, ?_⟩
  have read := reads live operates 0x4123 (by decide)
  have size : ByteArray.size Image.banked = 0x10000 := Image.size_ofBytes ..
  have place : Image.banked.byte 0x8123 = 0x5A := Image.byte_banked (by decide)
  rw [hardware, size] at read
  change Image.banked[0x8123]? = _ at read
  rw [Image.byte, read, Option.getD_some] at place
  exact place

end LiveBoard
end DotMatrix
