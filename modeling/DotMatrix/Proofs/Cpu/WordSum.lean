import DotMatrix.Proofs.Cpu.Binary

/-! Sums of words. They are the sums of their two bytes, with the flags of the higher byte; where a
signed byte is added, the flags are those of the lower byte. -/
namespace DotMatrix

open Arithmetic Execution

theorem Word.toNat_signed (byte : UInt8) :
    (Word.signed byte).toNat = byte.toNat + if byte.toNat < 128 then 0 else 65280 := by
  revert byte
  apply Word.forall_byte
  decide +kernel

/-- A word is its two bytes, so that a sum of words is the long sum of their bytes. -/
theorem Arithmetic.addWords_eq (left right : UInt16) :
    let low := sum (Word.low left) (Word.low right) false
    let high := sum (Word.high left) (Word.high right) low.2.carry
    addWords left right = (Word.join high.1 low.1, high.2.halfCarry, high.2.carry) := by
  intro low high
  have leftSmall := left.toNat_lt
  have rightSmall := right.toNat_lt
  have lowTotal : low.1.toNat + 256 * bit low.2.carry =
      (Word.low left).toNat + (Word.low right).toNat :=
    sum_total _ _ false
  have highTotal : high.1.toNat + 256 * bit high.2.carry =
      (Word.high left).toNat + (Word.high right).toNat + bit low.2.carry :=
    sum_total _ _ _
  have carryOut := bit_le high.2.carry
  have lowSmall := low.1.toNat_lt
  have highSmall := high.1.toNat_lt
  have carryIn : bit low.2.carry = if 255 < left.toNat % 256 + right.toNat % 256 then 1 else 0 := by
    simp only [low, sum, bit_decide, Word.toNat_low]
    rfl
  rw [Word.toNat_low, Word.toNat_low] at lowTotal
  rw [Word.toNat_high, Word.toNat_high] at highTotal
  refine Prod.ext ?_ (Prod.ext ?_ ?_)
  · apply UInt16.toNat_inj.mp
    rw [Word.toNat_join]
    change (left + right).toNat = _
    rw [UInt16.toNat_add]
    omega
  · simp only [addWords, high, sum, Word.toNat_high]
    rw [decide_eq_decide, carryIn]
    split <;> omega
  · simp only [addWords, high, sum, Word.toNat_high]
    rw [decide_eq_decide, carryIn]
    split <;> omega

theorem Arithmetic.offset_eq (word : UInt16) (byte : UInt8) :
    let low := sum (Word.low word) byte false
    ((offset word byte).1.toNat : ℤ) = (word.toNat + byte.toInt8.toInt) % 65536 ∧
      Word.low (offset word byte).1 = low.1 ∧
      (offset word byte).2 = { low.2 with zero := false } := by
  intro low
  have wordSmall := word.toNat_lt
  have byteSmall := byte.toNat_lt
  have total : (offset word byte).1.toNat =
      (word.toNat + (byte.toNat + if byte.toNat < 128 then 0 else 65280)) % 65536 := by
    rw [← Word.toNat_signed]
    exact UInt16.toNat_add _ _
  refine ⟨?_, ?_, ?_⟩
  · have signed := BitVec.toInt_eq_toNat_cond byte.toBitVec
    change byte.toInt8.toInt = if 2 * byte.toNat < 256 then (byte.toNat : ℤ) else byte.toNat - 256
      at signed
    rw [total, signed]
    push_cast
    split <;> split <;> omega
  · apply UInt8.toNat_inj.mp
    simp only [Word.toNat_low, total, low, sum, UInt8.toNat_ofNat', show bit false = 0 from rfl]
    split <;> omega
  · simp only [offset, low, sum, Word.toNat_low, show bit false = 0 from rfl]
    simp

namespace Registers
variable (r : Registers) (value : UInt16)

theorem hl_addToHL : (r.addToHL value).hl = (addWords r.hl value).1 :=
  hl_setHL _ _

theorem flag_addToHL (flag : Flag) :
    (r.addToHL value).flag flag =
      match flag with
      | .zero => r.flag .zero
      | .subtract => false
      | .halfCarry => (addWords r.hl value).2.1
      | .carry => (addWords r.hl value).2.2 := by
  change (((r.setFlag .subtract false).setFlag .halfCarry _).setFlag .carry _).flag flag = _
  cases flag <;> simp only [flag_setFlag] <;> rfl

end Registers

namespace Execution
variable {β : Type} [Bus β] (w : Wired β)

theorem run_twoBytes (low high : UInt8 × UInt8) :
    let lowSum := sum low.1 low.2 false
    let highSum := sum high.1 high.2 lowSum.2.carry
    let ran := (chain (combine .add) (combine .adc) [low, high]).run w
    ran.1 = [lowSum.1, highSum.1] ∧ ∀ flag, ran.2.cpu.registers.flag flag = highSum.2.get flag := by
  intro lowSum highSum ran
  let first := ((combine .add low).run w).2
  have carry : first.carry = lowSum.2.carry := carry_combine w .add low
  refine ⟨?_, fun flag => ?_⟩
  · change [((combine .add low).run w).1, ((combine .adc high).run first).1] = _
    rw [byte_combine, byte_combine, carry]
    rfl
  · change ((combine .adc high).run first).2.cpu.registers.flag flag = _
    rw [flag_combine, carry]
    rfl

theorem addToHL_bytes (value : UInt16) :
    let r := w.cpu.registers
    let after := r.addToHL value
    let bytes := (chain (combine .add) (combine .adc)
      [(r.l, Word.low value), (r.h, Word.high value)]).run w
    [Word.low after.hl, Word.high after.hl] = bytes.1 ∧
      after.flag .halfCarry = bytes.2.cpu.registers.flag .halfCarry ∧
      after.flag .carry = bytes.2.cpu.registers.flag .carry := by
  intro r after bytes
  obtain ⟨results, flags⟩ := run_twoBytes w (r.l, Word.low value) (r.h, Word.high value)
  have total := addWords_eq r.hl value
  rw [Registers.hl, Word.low_join, Word.high_join] at total
  rw [results, flags, flags, Registers.hl_addToHL, Registers.flag_addToHL,
    Registers.flag_addToHL]
  simp only [Registers.hl, total, Word.low_join, Word.high_join, Flags.get, and_self]

theorem offset_byte (word : UInt16) (byte : UInt8) :
    let low := (combine .add (Word.low word, byte)).run w
    Word.low (offset word byte).1 = low.1 ∧
      (offset word byte).2 =
        { zero := false, subtract := false
          halfCarry := low.2.cpu.registers.flag .halfCarry
          carry := low.2.cpu.registers.flag .carry } := by
  intro low
  obtain ⟨_, result, flags⟩ := offset_eq word byte
  refine ⟨result.trans (byte_combine w .add (Word.low word, byte)).symm, ?_⟩
  rw [flags, flag_combine, flag_combine]
  rfl

end Execution

/-- Adding to HL is adding its bytes; adding a signed byte to SP sets the flags of adding it,
unsigned, to the low byte. -/
theorem word_sums {β : Type} [Bus β] (w : Wired β) (operand : UInt16) :
    let r := w.cpu.registers
    (∀ source : Pair,
      let value := source.get r
      let bytes := (chain (combine .add) (combine .adc)
        [(r.l, Word.low value), (r.h, Word.high value)]).run w
      let after := ((perform operand (.addPair source)).run w).2.cpu.registers
      [Word.low after.hl, Word.high after.hl] = bytes.1 ∧
        after.flag .halfCarry = bytes.2.cpu.registers.flag .halfCarry ∧
        after.flag .carry = bytes.2.cpu.registers.flag .carry ∧
        after.flag .subtract = false ∧ after.flag .zero = r.flag .zero) ∧
    (let byte := Word.low operand
     let total : ℤ := (r.sp.toNat + byte.toInt8.toInt) % 65536
     let low := (combine .add (Word.low r.sp, byte)).run w
     let flags : Flags :=
       { zero := false, subtract := false
         halfCarry := low.2.cpu.registers.flag .halfCarry
         carry := low.2.cpu.registers.flag .carry }
     let moved := ((perform operand .addOffset).run w).2.cpu.registers
     let loaded := ((perform operand .loadOffset).run w).2.cpu.registers
     (moved.sp.toNat = total ∧ Word.low moved.sp = low.1 ∧
         ∀ flag, moved.flag flag = flags.get flag) ∧
       loaded.hl.toNat = total ∧ Word.low loaded.hl = low.1 ∧
         ∀ flag, loaded.flag flag = flags.get flag) := by
  intro r
  constructor
  · intro source value bytes after
    obtain ⟨results, halfCarry, carry⟩ := addToHL_bytes w value
    exact ⟨results, halfCarry, carry, r.flag_addToHL value .subtract, r.flag_addToHL value .zero⟩
  · intro byte total low flags moved loaded
    obtain ⟨result, flagged⟩ := offset_byte w r.sp byte
    have number : ((offset r.sp byte).1.toNat : ℤ) = total := (offset_eq r.sp byte).1
    have address : loaded.hl = (offset r.sp byte).1 := Registers.hl_setHL _ _
    have after (flag : Flag) : (r.setFlags (offset r.sp byte).2).flag flag = flags.get flag := by
      rw [Registers.flag_setFlags, flagged]
    rw [address]
    exact ⟨⟨number, result, after⟩, number, result, after⟩

end DotMatrix
