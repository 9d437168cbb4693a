import DotMatrix.Memory
import DotMatrix.Proofs.Cpu.Accumulator
import Mathlib.Data.List.Basic
import Mathlib.Tactic.Ring
import Mathlib.Tactic.SplitIfs

/-! Binary numbers of any length. Sums, differences, doubles and halves are right, whole or
signed, when the operation on the first byte leaves out the carry and those on the others take it
in. -/
namespace DotMatrix

open Arithmetic Execution

namespace Numeration

def binary : Numeration where
  base := 256
  IsDigit _ := True
  value := UInt8.toNat
  one_lt_base := by decide
  value_lt byte _ := byte.toNat_lt

theorem base_two : binary.base = 256 := rfl

theorem base_pow (n : ℕ) : binary.base ^ n = 2 ^ (8 * n) := by
  rw [pow_mul]
  rfl

variable {β : Type} [Bus β]

theorem binary_lt (bytes : List UInt8) : binary.number bytes < 2 ^ (8 * bytes.length) := by
  rw [← base_pow]
  exact binary.number_lt fun _ _ => trivial

theorem carries_adc :
    binary.Carries 1 Prod.fst Prod.snd (combine .adc : UInt8 × UInt8 → Execution β UInt8) := by
  apply carries_of_sum
  intro bytes _ _ w
  rw [byte_combine, carry_combine]
  exact ⟨trivial, sum_total bytes.1 bytes.2 w.carry⟩

theorem carries_sbc :
    binary.Carries (-1) Prod.fst Prod.snd
      (combine .sbc : UInt8 × UInt8 → Execution β UInt8) := by
  apply carries_of_difference
  intro bytes _ _ w
  rw [byte_combine, carry_combine]
  exact ⟨trivial, difference_total bytes.1 bytes.2 w.carry⟩

theorem carries_rl : binary.Carries 1 id id (shiftByte .rl : UInt8 → Execution β UInt8) := by
  apply carries_of_sum
  intro byte _ _ w
  have total := rl_total byte w.carry
  rw [Nat.two_mul] at total
  rw [byte_shiftByte, carry_shiftByte]
  exact ⟨trivial, total⟩

theorem number_chain_rr (bytes : List UInt8) (w : Wired β) :
    let ran := (chain (shiftByte .rr) (shiftByte .rr) bytes).run w
    2 * binary.number ran.1.reverse + bit ran.2.carry =
      binary.number bytes.reverse + 256 ^ bytes.length * bit w.carry := by
  induction bytes generalizing w with
  | nil =>
    change 0 + bit w.carry = 0 + 1 * bit w.carry
    ring
  | cons byte bytes ih =>
    have low := ih ((shiftByte .rr byte).run w).2
    have high := rr_total byte w.carry
    simp only [run_chain_cons, List.reverse_cons, number_append_singleton, List.length_reverse,
      length_chain, List.length_cons, byte_shiftByte, carry_shiftByte, base_two] at low ⊢
    simp only [binary] at low ⊢
    linear_combination low + 256 ^ bytes.length * high

def signed (bytes : List UInt8) : ℤ := Int.bmod (binary.number bytes) (2 ^ (8 * bytes.length))

section
variable (w : Wired β) {x y : List UInt8}

theorem long_sum (same : x.length = y.length) (positive : 0 < x.length) :
    let ran := (chain (combine .add) (combine .adc) (x.zip y)).run w
    let total := binary.number x + binary.number y
    binary.number ran.1 = total % 2 ^ (8 * x.length) ∧
      (ran.2.carry = true ↔ 2 ^ (8 * x.length) ≤ total) := by
  have length : (x.zip y).length = x.length := by simp [same]
  rw [run_chain_first (List.length_pos_iff.mp (length ▸ positive)) (combine_add w)]
  have law := carries_adc.sum (fun a (_ : a ∈ x.zip y) => ⟨trivial, trivial⟩) (w.withCarry false)
  rw [List.map_fst_zip same.le, List.map_snd_zip same.ge, Wired.carry_withCarry, base_pow, length]
    at law
  exact law

theorem long_difference (same : x.length = y.length) (positive : 0 < x.length) :
    let ran := (chain (combine .sub) (combine .sbc) (x.zip y)).run w
    (binary.number ran.1 : ℤ) = (binary.number x - binary.number y) % 2 ^ (8 * x.length) ∧
      (ran.2.carry = true ↔ binary.number x < binary.number y) := by
  have length : (x.zip y).length = x.length := by simp [same]
  rw [run_chain_first (List.length_pos_iff.mp (length ▸ positive)) (combine_sub w)]
  have law := carries_sbc.difference (fun a (_ : a ∈ x.zip y) => ⟨trivial, trivial⟩)
    (w.withCarry false)
  rw [List.map_fst_zip same.le, List.map_snd_zip same.ge, Wired.carry_withCarry, length] at law
  obtain ⟨result, borrow⟩ := law
  have size : (binary.base : ℤ) ^ x.length = 2 ^ (8 * x.length) := by exact_mod_cast base_pow _
  simp only [bit, Bool.false_eq_true, if_false, Nat.cast_zero, sub_zero, size] at result borrow
  exact ⟨result, borrow.trans (by omega)⟩

theorem testBit_top {number n : ℕ} (small : number < 2 ^ n) (positive : 0 < n) :
    number.testBit (n - 1) = decide (2 ^ n ≤ 2 * number) := by
  obtain ⟨n, rfl⟩ := Nat.exists_eq_add_of_lt positive
  rw [Nat.zero_add, Nat.add_sub_cancel]
  rw [Nat.zero_add, Nat.pow_succ] at *
  by_cases top : 2 ^ n ≤ number
  · rw [Nat.testBit_of_two_pow_le_and_two_pow_add_one_gt top (by rwa [Nat.pow_succ])]
    simp; omega
  · rw [Nat.testBit_lt_two_pow (by omega)]
    simp; omega

theorem long_double (positive : 0 < x.length) :
    let ran := (chain (shiftByte .sla) (shiftByte .rl) x).run w
    binary.number ran.1 = 2 * binary.number x % 2 ^ (8 * x.length) ∧
      ran.2.carry = (binary.number x).testBit (8 * x.length - 1) := by
  rw [run_chain_first (List.length_pos_iff.mp positive) (shiftByte_sla w)]
  have law := carries_rl.sum (fun a (_ : a ∈ x) => ⟨trivial, trivial⟩) (w.withCarry false)
  rw [List.map_id, Wired.carry_withCarry, base_pow] at law
  simp only [bit, Bool.false_eq_true, if_false, Nat.add_zero, ← Nat.two_mul] at law
  rw [testBit_top (binary_lt x) (by omega)]
  exact ⟨law.1, by rw [Bool.eq_iff_iff, decide_eq_true_iff]; exact law.2⟩

theorem half_of_split {half number : ℕ} {out : Bool} (split : 2 * half + bit out = number) :
    half = number / 2 ∧ out = number.testBit 0 := by
  rw [Nat.testBit_zero, ← split]
  cases out with
  | false => simp [bit]
  | true => simp [bit]; omega

theorem long_half (positive : 0 < x.length) :
    let ran := (chain (shiftByte .srl) (shiftByte .rr) x.reverse).run w
    binary.number ran.1.reverse = binary.number x / 2 ∧
      ran.2.carry = (binary.number x).testBit 0 := by
  have some : x.reverse ≠ [] := by simpa using List.length_pos_iff.mp positive
  rw [run_chain_first some (shiftByte_srl w)]
  have law := number_chain_rr x.reverse (w.withCarry false)
  rw [List.reverse_reverse, Wired.carry_withCarry] at law
  exact half_of_split law

theorem bmod_of_lt {number size : ℕ} (small : number < 2 * size) :
    Int.bmod number (2 * size) = number - if size ≤ number then 2 * (size : ℤ) else 0 := by
  rw [Int.bmod_def, Int.emod_eq_of_lt (Int.natCast_nonneg _) (by exact_mod_cast small)]
  push_cast
  split_ifs <;> omega

theorem signedHalf_of_split {half number size : ℕ} {negative out : Bool}
    (smallHalf : half < 2 * size) (small : number < 2 * size)
    (sign : negative = true ↔ size ≤ number)
    (split : 2 * half + bit out = number + 2 * size * bit negative) :
    Int.bmod half (2 * size) = Int.bmod number (2 * size) / 2 ∧ out = number.testBit 0 := by
  have odd := bit_le out
  have parity : out = (2 * half + bit out).testBit 0 := (half_of_split rfl).2
  rw [bmod_of_lt smallHalf, bmod_of_lt small]
  rw [split, Nat.testBit_zero] at parity
  rw [Nat.testBit_zero, parity]
  cases negative with
  | false =>
    have positive : ¬size ≤ number := by simpa using sign
    rw [show bit false = 0 from rfl] at split ⊢
    rw [if_neg positive, if_neg (by omega)]
    refine ⟨by omega, by simp⟩
  | true =>
    have negative : size ≤ number := by simpa using sign
    rw [show bit true = 1 from rfl] at split ⊢
    rw [if_pos negative, if_pos (by omega)]
    refine ⟨by omega, ?_⟩
    simp

theorem top_iff (others : List UInt8) (top : UInt8) :
    128 ≤ top.toNat ↔ 128 * 256 ^ others.length ≤ binary.number (others ++ [top]) := by
  have small : binary.number others < 256 ^ others.length :=
    binary.number_lt fun _ _ => trivial
  rw [number_append_singleton]
  change _ ↔ _ ≤ _ + 256 ^ others.length * top.toNat
  constructor
  · intro high
    have scaled := Nat.mul_le_mul_left (256 ^ others.length) high
    omega
  · intro high
    by_contra low
    have scaled := Nat.mul_le_mul_left (256 ^ others.length) (Nat.le_of_lt_succ (Nat.not_le.mp low))
    omega

theorem long_signedHalf (positive : 0 < x.length) :
    let ran := (chain (shiftByte .sra) (shiftByte .rr) x.reverse).run w
    signed ran.1.reverse = signed x / 2 ∧ ran.2.carry = (binary.number x).testBit 0 := by
  obtain ⟨others, top, rfl⟩ :=
    (List.eq_nil_or_concat' x).resolve_left (List.length_pos_iff.mp positive)
  have first : (chain (shiftByte .sra) (shiftByte .rr) (others ++ [top]).reverse).run w =
      (chain (shiftByte .rr) (shiftByte .rr) (others ++ [top]).reverse).run
        (w.withCarry (decide (128 ≤ top.toNat))) := by
    rw [List.reverse_append, List.reverse_singleton, List.singleton_append, run_chain_cons,
      run_chain_cons, shiftByte_sra]
  have size : 2 ^ (8 * (others ++ [top]).length) = 2 * (128 * 256 ^ others.length) := by
    rw [← base_pow, List.length_append, List.length_singleton, pow_succ]
    change 256 ^ _ * 256 = _
    ring
  rw [first]
  intro ran
  have length : ran.1.reverse.length = (others ++ [top]).length := by
    rw [List.length_reverse, length_chain, List.length_reverse]
  have law := number_chain_rr (others ++ [top]).reverse (w.withCarry (decide (128 ≤ top.toNat)))
  rw [List.reverse_reverse, Wired.carry_withCarry, List.length_reverse, ← base_two, base_pow,
    size] at law
  have small := binary_lt (others ++ [top])
  have smallHalf := binary_lt ran.1.reverse
  rw [size] at small
  rw [length, size] at smallHalf
  rw [signed, signed, length, size]
  exact signedHalf_of_split smallHalf small (by simpa using top_iff others top) law

end
end Numeration

open Numeration

/-- Binary arithmetic on numbers of `n` bytes, whatever the registers held before. What the first
operation leaves out and the others take in leads from byte to byte. -/
theorem binary_arithmetic {β : Type} [Bus β] (w : Wired β) {n : ℕ} (positive : 0 < n)
    {x y : List UInt8} (ofX : x.length = n) (ofY : y.length = n) :
    (let ran := (chain (combine .add) (combine .adc) (x.zip y)).run w
     let total := binary.number x + binary.number y
     ran.1.length = n ∧ binary.number ran.1 = total % 2 ^ (8 * n) ∧
       (ran.2.carry = true ↔ 2 ^ (8 * n) ≤ total)) ∧
    (let ran := (chain (combine .sub) (combine .sbc) (x.zip y)).run w
     ran.1.length = n ∧
       (binary.number ran.1 : ℤ) = (binary.number x - binary.number y) % 2 ^ (8 * n) ∧
       (ran.2.carry = true ↔ binary.number x < binary.number y)) ∧
    (let ran := (chain (shiftByte .sla) (shiftByte .rl) x).run w
     ran.1.length = n ∧ binary.number ran.1 = 2 * binary.number x % 2 ^ (8 * n) ∧
       ran.2.carry = (binary.number x).testBit (8 * n - 1)) ∧
    (let ran := (chain (shiftByte .srl) (shiftByte .rr) x.reverse).run w
     ran.1.length = n ∧ binary.number ran.1.reverse = binary.number x / 2 ∧
       ran.2.carry = (binary.number x).testBit 0) ∧
    (let ran := (chain (shiftByte .sra) (shiftByte .rr) x.reverse).run w
     ran.1.length = n ∧ signed ran.1.reverse = signed x / 2 ∧
       ran.2.carry = (binary.number x).testBit 0) ∧
    (∀ (r : Registers) (value : UInt8),
      r.operate .cp value = { r.operate .sub value with a := r.a }) ∧
    (∀ (r : Registers) (value : UInt8) (operation : Arithmetic.Operation),
      let after := r.operate operation value
      let low := value.toNat % 16 + bit (operation.takesCarry && r.flag .carry)
      (operation = .add ∨ operation = .adc →
        (after.flag .zero = true ↔ after.a = 0) ∧
          (after.flag .halfCarry = true ↔ 16 ≤ r.a.toNat % 16 + low)) ∧
      (operation = .sub ∨ operation = .sbc →
        (after.flag .zero = true ↔ after.a = 0) ∧
          (after.flag .halfCarry = true ↔ r.a.toNat % 16 < low))) ∧
    ∀ (shift : Shift) (byte : UInt8) (w : Wired β),
      let ran := (shiftByte shift byte).run w
      ran.2.cpu.registers.flag .zero = true ↔ ran.1 = 0 := by
  subst ofX
  have zipped : (x.zip y).length = x.length := by simp [ofY]
  refine ⟨⟨(length_chain _ w).trans zipped, long_sum w ofY.symm positive⟩,
    ⟨(length_chain _ w).trans zipped, long_difference w ofY.symm positive⟩,
    ⟨length_chain _ w, long_double w positive⟩,
    ⟨(length_chain _ w).trans List.length_reverse, long_half w positive⟩,
    ⟨(length_chain _ w).trans List.length_reverse, long_signedHalf w positive⟩,
    Registers.operate_cp, ?_, fun shift byte w => zero_shiftByte w shift byte⟩
  intro r value operation after low
  refine ⟨fun adds => ?_, fun subtracts => r.flags_difference value subtracts⟩
  rw [← Nat.add_assoc]
  exact r.flags_sum value adds

/-- FFFF and 0001 give 0000 with a carry. -/
theorem binary_arithmetic_carried :
    let w : Wired FlatMemory := ⟨Cpu.postBoot, Memory.zeros⟩
    let ran := (chain (combine .add) (combine .adc) [(0xFF, 0x01), (0xFF, 0x00)]).run w
    0 < 2 ∧ [(0xFF : UInt8), 0xFF].length = 2 ∧ [(0x01 : UInt8), 0x00].length = 2 ∧
      binary.number ran.1 = 0 ∧ ran.2.carry = true := by
  intro w ran
  obtain ⟨_, total, out⟩ :=
    (binary_arithmetic w (n := 2) (by decide) (x := [0xFF, 0xFF]) (y := [0x01, 0x00]) rfl rfl).1
  exact ⟨by decide, rfl, rfl, total, out.mpr (by decide)⟩

end DotMatrix
