import DotMatrix.Proofs.Board.Operation
import DotMatrix.Proofs.Console.Reachable
import Mathlib.Data.Nat.Bitwise

/-! The registers of a bank controller can only be written. Each holds what it keeps of the byte
that was written last to an address of its own; nothing else that was done on the bus matters. -/
namespace DotMatrix

/-- What was done on the bus since power-on, the latest operation first. -/
abbrev History := List BusOperation

def History.lastWrite? (addresses : UInt16 → Bool) (history : History) : Option UInt8 :=
  history.findSome? fun
    | .write address value => if addresses address then some value else none
    | _ => none

/-- A register by the addresses that reach it, all of them in program memory, what it holds at
power-on, and what it keeps of a byte. -/
structure BankRegister (α : Type) where
  addresses : UInt16 → Bool
  powerOn : α
  keep : UInt8 → α
  below : ∀ address, addresses address = true → address.toNat < 0x8000

namespace BankRegister
variable {α : Type} {history : History}

def after (r : BankRegister α) (history : History) : α :=
  ((history.lastWrite? r.addresses).map r.keep).getD r.powerOn

def within (first past : Nat) (inside : past ≤ 0x8000) (powerOn : α) (keep : UInt8 → α) :
    BankRegister α where
  addresses address := first ≤ address.toNat && address.toNat < past
  powerOn := powerOn
  keep := keep
  below address selected := by
    simp only [Bool.and_eq_true, decide_eq_true_eq] at selected
    omega

def atBit8 (set : Bool) (powerOn : α) (keep : UInt8 → α) : BankRegister α where
  addresses address := address.toNat < 0x4000 && address.toNat.testBit 8 == set
  powerOn := powerOn
  keep := keep
  below address selected := by
    simp only [Bool.and_eq_true, decide_eq_true_eq] at selected
    omega

theorem after_write (r : BankRegister α) (address : UInt16) (value : UInt8) (history : History) :
    r.after (.write address value :: history) =
      if r.addresses address then r.keep value else r.after history := by
  unfold after History.lastWrite?
  rw [List.findSome?_cons]
  by_cases selected : r.addresses address = true
  · simp only [selected, if_true, Option.map_some, Option.getD_some]
  · simp only [selected, Bool.false_eq_true, if_false]

theorem after_write_above (r : BankRegister α) {address : UInt16} (above : ¬ address < 0x8000)
    (value : UInt8) (history : History) :
    r.after (.write address value :: history) = r.after history := by
  rw [after_write, if_neg]
  intro selected
  exact above (r.below address selected)

/-- What holds of every value that the register can keep holds of what is in it. -/
theorem after_induction (r : BankRegister α) {p : α → Prop} (first : p r.powerOn)
    (kept : ∀ value, p (r.keep value)) (history : History) : p (r.after history) := by
  unfold after
  cases history.lastWrite? r.addresses with
  | none => exact first
  | some value => exact kept value

/-! The registers of the four controllers. Bank 0 cannot be selected for the upper area, except by
the last one. -/

def ramSwitch : BankRegister Bool :=
  within 0x0000 0x2000 (by decide) false fun value => value &&& 0x0F == 0x0A

def mbc1Low : BankRegister Nat :=
  within 0x2000 0x4000 (by decide) 1 fun value => max 1 (value &&& 0x1F).toNat

def mbc1High : BankRegister Nat :=
  within 0x4000 0x6000 (by decide) 0 fun value => (value &&& 0x03).toNat

def mbc1Mode : BankRegister Bool :=
  within 0x6000 0x8000 (by decide) false fun value => value.toNat.testBit 0

def mbc2Switch : BankRegister Bool := atBit8 false false fun value => value &&& 0x0F == 0x0A

def mbc2Bank : BankRegister Nat := atBit8 true 1 fun value => max 1 (value &&& 0x0F).toNat

def mbc3Bank : BankRegister Nat :=
  within 0x2000 0x4000 (by decide) 1 fun value => max 1 (value &&& 0x7F).toNat

def mbc3Select : BankRegister Nat :=
  within 0x4000 0x6000 (by decide) 0 fun value => (value &&& 0x0F).toNat

def mbc5Low : BankRegister Nat := within 0x2000 0x3000 (by decide) 1 UInt8.toNat

def mbc5High : BankRegister Nat :=
  within 0x3000 0x4000 (by decide) 0 fun value => (value &&& 0x01).toNat

def mbc5Ram (rumble : Bool) : BankRegister Nat :=
  within 0x4000 0x6000 (by decide) 0 fun value =>
    (value &&& if rumble then 0x07 else 0x0F).toNat

end BankRegister

open BankRegister

theorem toNat_skipZero (bank : UInt8) : (skipZero bank).toNat = max 1 bank.toNat := by
  unfold skipZero
  by_cases zero : bank = 0
  · subst zero
    rfl
  · have positive : bank.toNat ≠ 0 := fun same => zero (UInt8.toNat_inj.mp same)
    rw [if_neg (by simpa using zero)]
    omega

theorem toNat_and_one (value : UInt8) : (value &&& 0x01).toNat = value.toNat % 2 := by
  rw [UInt8.toNat_and]
  exact Nat.and_one_is_mod _

theorem and_one_ne_zero (value : UInt8) : (value &&& 0x01 != 0) = value.toNat.testBit 0 := by
  rw [Bool.eq_iff_iff, bne_iff_ne, Ne, ← UInt8.toNat_inj, toNat_and_one, Nat.testBit_zero,
    decide_eq_true_iff]
  exact Nat.mod_two_ne_zero

theorem and_bit8_eq_zero (address : UInt16) :
    address &&& 0x0100 = 0 ↔ address.toNat.testBit 8 = false := by
  have masked : (address &&& 0x0100).toNat = (address.toNat.testBit 8).toNat * 2 ^ 8 := by
    rw [UInt16.toNat_and]
    exact Nat.and_two_pow _ 8
  rw [← UInt16.toNat_inj, masked]
  cases address.toNat.testBit 8 <;> decide

/-! What a controller holds, register by register. A write moves one register, by the range that
its address lies in, and leaves the others. -/

structure Mbc1.Remembers (history : History) (m : Mbc1) : Prop where
  ramEnabled : m.ramEnabled = ramSwitch.after history
  low : m.low.toNat = mbc1Low.after history
  high : m.high.toNat = mbc1High.after history
  mode : m.mode = mbc1Mode.after history

structure Mbc2.Remembers (history : History) (m : Mbc2) : Prop where
  ramEnabled : m.ramEnabled = mbc2Switch.after history
  romBank : m.romBank.toNat = mbc2Bank.after history

structure Mbc3.Remembers (clocked : Bool) (history : History) (m : Mbc3) : Prop where
  ramEnabled : m.ramEnabled = ramSwitch.after history
  romBank : m.romBank.toNat = mbc3Bank.after history
  select : m.select.toNat = mbc3Select.after history
  clocked : m.clock.isSome = clocked

structure Mbc5.Remembers (rumble : Bool) (history : History) (m : Mbc5) : Prop where
  ramEnabled : m.ramEnabled = ramSwitch.after history
  low : (Word.low m.romBank).toNat = mbc5Low.after history
  high : (Word.high m.romBank).toNat = mbc5High.after history
  ramBank : m.ramBank.toNat = (mbc5Ram rumble).after history
  rumble : m.rumble = rumble

def Mapper.Remembers (hardware : Hardware) (history : History) : Mapper → Prop
  | .none => True
  | .mbc1 m => m.Remembers history
  | .mbc2 m => m.Remembers history
  | .mbc3 m => m.Remembers hardware.clock history
  | .mbc5 m => m.Remembers hardware.rumble history

section Write
variable {history : History} {address : UInt16} (value : UInt8) (below : address < 0x8000)
include below

theorem Mbc1.Remembers.write {m : Mbc1} (h : m.Remembers history) :
    (m.write address value).Remembers (.write address value :: history) := by
  obtain ⟨ramEnabled, low, high, mode⟩ := h
  have below : address.toNat < 0x8000 := below
  unfold Mbc1.write
  simp only [UInt16.lt_iff_toNat_lt, UInt16.reduceToNat]
  repeat' split
  all_goals
    constructor
    all_goals
      simp only [after_write, ramSwitch, mbc1Low, mbc1High, mbc1Mode, within, Bool.and_eq_true,
        decide_eq_true_eq] at *
      grind [toNat_skipZero, enablesRam, and_one_ne_zero]

theorem Mbc2.Remembers.write {m : Mbc2} (h : m.Remembers history) :
    (m.write address value).Remembers (.write address value :: history) := by
  obtain ⟨ramEnabled, romBank⟩ := h
  have below : address.toNat < 0x8000 := below
  unfold Mbc2.write
  simp only [UInt16.lt_iff_toNat_lt, UInt16.reduceToNat, and_bit8_eq_zero]
  repeat' split
  all_goals
    constructor
    all_goals
      simp only [after_write, mbc2Switch, mbc2Bank, atBit8, Bool.and_eq_true, decide_eq_true_eq,
        beq_iff_eq] at *
      grind [toNat_skipZero, enablesRam]

theorem Mbc3.Remembers.write {clocked : Bool} {m : Mbc3} (h : m.Remembers clocked history) :
    (m.write address value).Remembers clocked (.write address value :: history) := by
  obtain ⟨ramEnabled, romBank, select, clocked⟩ := h
  have below : address.toNat < 0x8000 := below
  unfold Mbc3.write
  simp only [UInt16.lt_iff_toNat_lt, UInt16.reduceToNat]
  repeat' split
  all_goals
    constructor
    all_goals
      simp only [after_write, ramSwitch, mbc3Bank, mbc3Select, within, Bool.and_eq_true,
        decide_eq_true_eq, Option.isSome_map] at *
      grind [toNat_skipZero, enablesRam]

theorem Mbc5.Remembers.write {rumble : Bool} {m : Mbc5} (h : m.Remembers rumble history) :
    (m.write address value).Remembers rumble (.write address value :: history) := by
  have ninth : mbc5High.after history < 2 := by
    refine mbc5High.after_induction (p := (· < 2)) (by decide) (fun value => ?_) history
    change (value &&& 0x01).toNat < 2
    rw [toNat_and_one]
    omega
  obtain ⟨ramEnabled, low, high, ramBank, rumble⟩ := h
  have below : address.toNat < 0x8000 := below
  -- A write of the low half takes the ninth bit through a mask.
  have masked : (Word.high m.romBank &&& 0x01).toNat = (Word.high m.romBank).toNat := by
    rw [toNat_and_one, high, Nat.mod_eq_of_lt ninth]
  unfold Mbc5.write
  simp only [UInt16.lt_iff_toNat_lt, UInt16.reduceToNat]
  repeat' split
  all_goals
    constructor
    all_goals
      simp only [after_write, ramSwitch, mbc5Low, mbc5High, mbc5Ram, within, Bool.and_eq_true,
        decide_eq_true_eq, Word.high_join, Word.low_join] at *
      grind [enablesRam]

theorem Mapper.Remembers.write {hardware : Hardware} {m : Mapper}
    (h : m.Remembers hardware history) :
    (m.write address value).Remembers hardware (.write address value :: history) := by
  cases m with
  | none => trivial
  | mbc1 m => exact Mbc1.Remembers.write value below h
  | mbc2 m => exact Mbc2.Remembers.write value below h
  | mbc3 m => exact Mbc3.Remembers.write value below h
  | mbc5 m => exact Mbc5.Remembers.write value below h

end Write

namespace Mapper.Remembers
variable {hardware : Hardware} {history history' : History} {m : Mapper}

theorem congr (h : m.Remembers hardware history)
    (same : ∀ {α : Type} (r : BankRegister α), r.after history' = r.after history) :
    m.Remembers hardware history' := by
  cases m with
  | none => trivial
  | mbc1 m =>
    obtain ⟨ramEnabled, low, high, mode⟩ := h
    constructor
    all_goals
      rw [same]
      assumption
  | mbc2 m =>
    obtain ⟨ramEnabled, romBank⟩ := h
    constructor
    all_goals
      rw [same]
      assumption
  | mbc3 m =>
    obtain ⟨ramEnabled, romBank, select, clocked⟩ := h
    constructor
    case clocked => exact clocked
    all_goals
      rw [same]
      assumption
  | mbc5 m =>
    obtain ⟨ramEnabled, low, high, ramBank, rumble⟩ := h
    constructor
    case rumble => exact rumble
    all_goals
      rw [same]
      assumption

theorem updateClock (h : m.Remembers hardware history) (change : Clock → Clock) :
    (m.updateClock change).Remembers hardware history := by
  cases m with
  | mbc3 m => exact ⟨h.ramEnabled, h.romBank, h.select, Option.isSome_map.trans h.clocked⟩
  | _ => exact h

theorem powerOn (hardware : Hardware) : (Mapper.powerOn hardware).Remembers hardware [] := by
  unfold Mapper.powerOn
  cases hardware.mapper with
  | none => trivial
  | mbc3 =>
    constructor
    case clocked => cases hardware.clock <;> rfl
    all_goals rfl
  | mbc5 =>
    constructor
    case low => exact (by decide : (Word.low 1).toNat = 1)
    case high => exact (by decide : (Word.high 1).toNat = 0)
    all_goals rfl
  | _ => constructor <;> rfl

end Mapper.Remembers

namespace Cartridge
variable {header : Header} {history : History} {c : Cartridge}

theorem mapper_loadBattery (data : Array UInt8) (c : Cartridge) :
    ((c.loadBattery data).toOption.getD c).mapper = c.mapper := by
  unfold loadBattery
  split
  · rfl
  · split <;> rfl

theorem remembers_writeRam {hardware : Hardware} (h : c.mapper.Remembers hardware history)
    (address : UInt16) (value : UInt8) :
    (c.writeRam address value).mapper.Remembers hardware history := by
  unfold writeRam
  split
  · exact h
  · exact h
  · exact h
  · exact h.updateClock _

theorem remembers_onCartridge {hardware : Hardware} (h : c.mapper.Remembers hardware history)
    (op : BusOperation) : (op.onCartridge c).mapper.Remembers hardware (op :: history) := by
  cases op with
  | write address value =>
    unfold BusOperation.onCartridge
    dsimp only
    split
    case isTrue below => exact h.write value below
    case isFalse above =>
      have kept := h.congr fun r => r.after_write_above above value history
      split
      · exact remembers_writeRam kept address value
      · exact kept
  | tick cycles => exact (h.updateClock _).congr fun _ => rfl
  | loadBattery data =>
    unfold BusOperation.onCartridge
    dsimp only
    rw [mapper_loadBattery]
    exact h.congr fun _ => rfl
  | _ => exact h.congr fun _ => rfl

def after (header : Header) (history : History) : Cartridge :=
  history.foldr BusOperation.onCartridge (.powerOn header)

theorem remembers_after (header : Header) (history : History) :
    (after header history).mapper.Remembers header.hardware history := by
  induction history with
  | nil => exact .powerOn header.hardware
  | cons op history ih => exact remembers_onCartridge ih op

theorem Fits.onCartridge (h : c.Fits header) (op : BusOperation) :
    (op.onCartridge c).Fits header := by
  cases op with
  | write address value =>
    unfold BusOperation.onCartridge
    dsimp only
    split
    · exact h.writeRom address value
    · split
      · exact h.writeRam address value
      · exact h
  | tick cycles => exact h.tick cycles
  | loadBattery data =>
    unfold BusOperation.onCartridge
    dsimp only
    cases loaded : c.loadBattery data with
    | error refusal => exact h
    | ok next => exact h.loadBattery loaded
  | _ => exact h

theorem fits_after (header : Header) (history : History) : (after header history).Fits header := by
  induction history with
  | nil => exact fits_powerOn header
  | cons op history ih => exact ih.onCartridge op

end Cartridge

/-- Operations from power-on go through while the counter of cycles has room, and make of the
cartridge what their history says. -/
theorem Console.operations_powerOn {image : Image} {header : Header}
    (accepted : Header.parse image = .ok header) (settings : Settings) (ops : List BusOperation) :
    ∃ c, Console.powerOn image settings = .ok c ∧
      ((ops.map BusOperation.cycles).sum < UInt64.size →
        ∃ live, ops.foldlM LiveBoard.operate c.machine.bus = .ok live) ∧
      ∀ live, ops.foldlM LiveBoard.operate c.machine.bus = .ok live →
        live.image = image ∧ live.board.cartridge = Cartridge.after header ops.reverse := by
  refine ⟨_, powerOn_started accepted settings, fun room => ?_, fun live operates => ?_⟩
  · have start : (started image settings header).machine.bus.board.cycles.toNat = 0 := rfl
    exact LiveBoard.exists_operations ops _ (by omega)
  · obtain ⟨same, cartridge⟩ := LiveBoard.slot_operations operates
    refine ⟨same, ?_⟩
    rw [cartridge, Cartridge.after, List.foldr_reverse]
    rfl

end DotMatrix
