import DotMatrix.Proofs.Cpu.Binary

/-! Decimal numbers of any length, two digits in a byte. A binary sum or difference of such bytes
is corrected after each byte, digit by digit, and the carry is then the decimal one. -/
namespace DotMatrix

namespace Numeration

def packedDecimal : Numeration where
  base := 100
  IsDigit byte := byte.toNat / 16 ≤ 9 ∧ byte.toNat % 16 ≤ 9
  value byte := 10 * (byte.toNat / 16) + byte.toNat % 16
  one_lt_base := by decide
  value_lt byte digits := by omega

end Numeration

open Numeration

namespace Arithmetic

theorem lowNibble_gt (a : UInt8) : a &&& 0x0F > 0x09 ↔ 9 < a.toNat % 16 := by
  have nibble : (a &&& 0x0F).toNat = a.toNat % 16 := by
    rw [UInt8.toNat_and]
    exact Nat.and_two_pow_sub_one_eq_mod _ 4
  rw [gt_iff_lt, UInt8.lt_iff_toNat_lt, nibble]
  rfl

section
variable (a : UInt8) (halfCarry carry : Bool)

theorem carry_decimalAdjust_sum :
    (decimalAdjust a false halfCarry carry).2 = (carry || decide (153 < a.toNat)) := by
  have high : a > 0x99 ↔ 153 < a.toNat := UInt8.lt_iff_toNat_lt
  simp only [decimalAdjust, Bool.false_eq_true, if_false, high]

/-- A digit above 9, or one that was carried out of, goes up by 6, the high one in step with the
carry that comes of it. -/
theorem toNat_decimalAdjust_sum :
    (decimalAdjust a false halfCarry carry).1.toNat =
      (a.toNat + (if (decimalAdjust a false halfCarry carry).2 then 96 else 0) +
        (if halfCarry ∨ 9 < a.toNat % 16 then 6 else 0)) % 256 := by
  have stays : (a + 0x60).toNat % 16 = a.toNat % 16 := by
    simp only [UInt8.toNat_add, UInt8.reduceToNat]
    omega
  have small := a.toNat_lt
  simp only [decimalAdjust, Bool.false_eq_true, if_false, Bool.or_eq_true, decide_eq_true_eq,
    lowNibble_gt]
  split_ifs <;> simp_all [UInt8.toNat_add]

/-- A digit that borrowed goes down by 6. -/
theorem toNat_decimalAdjust_difference :
    (decimalAdjust a true halfCarry carry).1.toNat =
      (a.toNat + (if carry then 160 else 0) + (if halfCarry then 250 else 0)) % 256 := by
  have small := a.toNat_lt
  cases halfCarry <;> cases carry <;> simp [decimalAdjust, UInt8.toNat_sub] <;> omega

end

def Operation.applyDecimal (operation : Operation) (x y : UInt8) (carry : Bool) : UInt8 × Bool :=
  let (total, flags) := operation.apply x y carry
  decimalAdjust total flags.subtract flags.halfCarry flags.carry

variable {x y : UInt8} (c : Bool)

theorem decimalSum_total (ofX : packedDecimal.IsDigit x) (ofY : packedDecimal.IsDigit y) :
    let adjusted := Operation.adc.applyDecimal x y c
    packedDecimal.IsDigit adjusted.1 ∧
      packedDecimal.value adjusted.1 + 100 * bit adjusted.2 =
        packedDecimal.value x + packedDecimal.value y + bit c := by
  obtain ⟨highX, lowX⟩ := ofX
  obtain ⟨highY, lowY⟩ := ofY
  have incoming := bit_le c
  simp only [Operation.applyDecimal, Operation.apply, sum, packedDecimal, toNat_decimalAdjust_sum,
    carry_decimalAdjust_sum, ← Bool.decide_or, bit_decide, decide_eq_true_eq, UInt8.toNat_ofNat']
  constructor
  · split_ifs <;> omega
  · split_ifs <;> omega

theorem decimalDifference_total (ofX : packedDecimal.IsDigit x) (ofY : packedDecimal.IsDigit y) :
    let adjusted := Operation.sbc.applyDecimal x y c
    packedDecimal.IsDigit adjusted.1 ∧
      packedDecimal.value adjusted.1 + packedDecimal.value y + bit c =
        packedDecimal.value x + 100 * bit adjusted.2 := by
  obtain ⟨highX, lowX⟩ := ofX
  obtain ⟨highY, lowY⟩ := ofY
  have incoming := bit_le c
  have split := difference_total x y c
  have small := (difference x y c).1.toNat_lt
  have out : (Operation.sbc.applyDecimal x y c).2 = (difference x y c).2.carry := rfl
  have result : (Operation.sbc.applyDecimal x y c).1 =
    (decimalAdjust (difference x y c).1 true (difference x y c).2.halfCarry
      (difference x y c).2.carry).1 := rfl
  simp only [packedDecimal, out, result, toNat_decimalAdjust_difference]
  generalize (difference x y c).1.toNat = total at split small ⊢
  simp only [difference, bit_decide, decide_eq_true_eq] at split ⊢
  constructor
  · split_ifs at split ⊢ <;> omega
  · split_ifs at split ⊢ <;> omega

end Arithmetic

open Arithmetic

namespace Registers
variable (r : Registers)

@[simp] theorem a_decimalAdjust :
    r.decimalAdjust.a =
      (Arithmetic.decimalAdjust r.a (r.flag .subtract) (r.flag .halfCarry) (r.flag .carry)).1 :=
  rfl

theorem flags_decimalAdjust :
    (r.decimalAdjust.flag .zero = true ↔ r.decimalAdjust.a = 0) ∧
      r.decimalAdjust.flag .halfCarry = false ∧
      r.decimalAdjust.flag .subtract = r.flag .subtract := by
  refine ⟨?_, ?_, ?_⟩
  · simp only [Registers.decimalAdjust, flag_setFlag]
    exact beq_iff_eq
  · simp only [Registers.decimalAdjust, flag_setFlag]
    rfl
  · simp only [Registers.decimalAdjust, flag_setFlag]
    rfl

theorem carry_decimalAdjust :
    r.decimalAdjust.flag .carry =
      (Arithmetic.decimalAdjust r.a (r.flag .subtract) (r.flag .halfCarry) (r.flag .carry)).2 := by
  simp only [Registers.decimalAdjust, flag_setFlag]
  rfl

end Registers

namespace Execution
variable {β : Type} [Bus β]

def combineDecimal (operation : Arithmetic.Operation) (bytes : UInt8 × UInt8) :
    Execution β UInt8 := do
  let _ ← combine operation bytes
  let _ ← perform 0 .decimalAdjust
  return (← registers).a

theorem run_combineDecimal (operation : Arithmetic.Operation) (bytes : UInt8 × UInt8)
    (w : Wired β) :
    let adjusted := operation.applyDecimal bytes.1 bytes.2 w.carry
    ((combineDecimal operation bytes).run w).1 = adjusted.1 ∧
      ((combineDecimal operation bytes).run w).2.carry = adjusted.2 := by
  let r := { w.cpu.registers with a := bytes.1 }.operate operation bytes.2
  have ran : (combineDecimal operation bytes).run w =
      (r.decimalAdjust.a, { w with cpu.registers := r.decimalAdjust }) := by
    simp only [combineDecimal, run_bind, run_combine_operate]
    rfl
  rw [ran, r.a_decimalAdjust]
  change _ ∧ r.decimalAdjust.flag .carry = _
  rw [r.carry_decimalAdjust]
  simp only [r, Registers.flag_operate, Registers.a_operate]
  exact ⟨rfl, rfl⟩

end Execution

open Execution

namespace Numeration
variable {β : Type} [Bus β]

theorem carries_decimal_adc :
    packedDecimal.Carries 1 Prod.fst Prod.snd
      (combineDecimal .adc : UInt8 × UInt8 → Execution β UInt8) := by
  apply carries_of_sum
  intro bytes ofX ofY w
  obtain ⟨result, out⟩ := run_combineDecimal .adc bytes w
  rw [result, out]
  exact decimalSum_total w.carry ofX ofY

theorem carries_decimal_sbc :
    packedDecimal.Carries (-1) Prod.fst Prod.snd
      (combineDecimal .sbc : UInt8 × UInt8 → Execution β UInt8) := by
  apply carries_of_difference
  intro bytes ofX ofY w
  obtain ⟨result, out⟩ := run_combineDecimal .sbc bytes w
  rw [result, out]
  exact decimalDifference_total w.carry ofX ofY

end Numeration

/-- Decimal arithmetic on numbers of `n` bytes, each byte with two digits. -/
theorem decimal_arithmetic {β : Type} [Bus β] (w : Wired β) (clear : w.carry = false) {n : ℕ}
    {x y : List UInt8} (ofX : x.length = n) (ofY : y.length = n)
    (digitsX : ∀ byte ∈ x, packedDecimal.IsDigit byte)
    (digitsY : ∀ byte ∈ y, packedDecimal.IsDigit byte) :
    (let ran := (chain (combineDecimal .adc) (combineDecimal .adc) (x.zip y)).run w
     let total := packedDecimal.number x + packedDecimal.number y
     ran.1.length = n ∧ (∀ byte ∈ ran.1, packedDecimal.IsDigit byte) ∧
       packedDecimal.number ran.1 = total % 100 ^ n ∧ (ran.2.carry = true ↔ 100 ^ n ≤ total)) ∧
    (let ran := (chain (combineDecimal .sbc) (combineDecimal .sbc) (x.zip y)).run w
     ran.1.length = n ∧ (∀ byte ∈ ran.1, packedDecimal.IsDigit byte) ∧
       (packedDecimal.number ran.1 : ℤ) =
         (packedDecimal.number x - packedDecimal.number y) % 100 ^ n ∧
       (ran.2.carry = true ↔ packedDecimal.number x < packedDecimal.number y)) ∧
    ∀ r : Registers,
      (r.decimalAdjust.flag .zero = true ↔ r.decimalAdjust.a = 0) ∧
        r.decimalAdjust.flag .halfCarry = false ∧
        r.decimalAdjust.flag .subtract = r.flag .subtract := by
  subst ofX
  have zipped : (x.zip y).length = x.length := by simp [ofY]
  have digits : ∀ a ∈ x.zip y, packedDecimal.IsDigit a.1 ∧ packedDecimal.IsDigit a.2 := by
    intro a inside
    obtain ⟨ofX, ofY⟩ := List.of_mem_zip inside
    exact ⟨digitsX _ ofX, digitsY _ ofY⟩
  have sum := carries_decimal_adc.sum digits w
  have difference := carries_decimal_sbc.difference digits w
  have addends := (carries_decimal_adc.number_chain digits w).1
  have operands := (carries_decimal_sbc.number_chain digits w).1
  rw [List.map_fst_zip ofY.ge, List.map_snd_zip ofY.le, clear, zipped] at sum difference
  rw [show bit false = 0 from rfl, Nat.add_zero] at sum
  rw [show bit false = 0 from rfl, Nat.cast_zero, sub_zero] at difference
  refine ⟨⟨(length_chain _ w).trans zipped, addends, sum⟩,
    ⟨(length_chain _ w).trans zipped, operands, difference.1, difference.2.trans ?_⟩,
    Registers.flags_decimalAdjust⟩
  rw [sub_neg, Nat.cast_lt]

/-- 1999 and 8001 add up to 10000, which two bytes cannot hold. -/
theorem decimal_arithmetic_carried :
    let w : Wired FlatMemory := ⟨{ Cpu.postBoot with registers := .zero }, Memory.zeros⟩
    let ran := (chain (combineDecimal .adc) (combineDecimal .adc)
      ([0x99, 0x19].zip [0x01, 0x80])).run w
    w.carry = false ∧ packedDecimal.number [0x99, 0x19] = 1999 ∧
      packedDecimal.number [0x01, 0x80] = 8001 ∧
        packedDecimal.number ran.1 = 0 ∧ ran.2.carry = true := by
  intro w ran
  have clear : w.carry = false := by decide
  have values : packedDecimal.number [0x99, 0x19] = 1999 ∧
      packedDecimal.number [0x01, 0x80] = 8001 := by
    decide
  obtain ⟨⟨_, _, total, out⟩, _⟩ := decimal_arithmetic w clear (n := 2) (x := [0x99, 0x19])
    (y := [0x01, 0x80]) rfl rfl (by simp [packedDecimal]) (by simp [packedDecimal])
  refine ⟨clear, values.1, values.2, total.trans ?_, out.mpr ?_⟩
  · rw [values.1, values.2]
    decide
  · rw [values.1, values.2]
    decide

end DotMatrix
