import DotMatrix.Proofs.Cpu.Related
import Mathlib.Data.Nat.Digits.Defs
import Mathlib.Tactic.LinearCombination

/-! Numbers of more than one byte. The processor takes them a byte at a time, and the carry flag
leads from one byte to the next; here is what then becomes of the numbers, in whatever way their
bytes stand for digits. -/
namespace DotMatrix

namespace Arithmetic

@[simp] theorem bit_decide (p : Prop) [Decidable p] : bit (decide p) = if p then 1 else 0 := by
  simp [bit]

end Arithmetic

open Arithmetic

/-- A way to write numbers in bytes: which bytes are digits, and what they stand for. -/
structure Numeration where
  base : ℕ
  IsDigit : UInt8 → Prop
  value : UInt8 → ℕ
  one_lt_base : 1 < base
  value_lt : ∀ byte, IsDigit byte → value byte < base

def Numeration.number (s : Numeration) (bytes : List UInt8) : ℕ :=
  Nat.ofDigits s.base (bytes.map s.value)

def Wired.carry {β : Type} (w : Wired β) : Bool := w.cpu.registers.flag .carry

namespace Execution
variable {α β : Type}

/-- Takes bytes in order, the first of them in a way of its own, and keeps the results. -/
def chain (first rest : α → Execution β UInt8) : List α → Execution β (List UInt8)
  | [] => return []
  | a :: as => do
    let byte ← first a
    let others ← chain rest rest as
    return byte :: others

variable {first rest : α → Execution β UInt8}

theorem run_chain_cons (a : α) (as : List α) (w : Wired β) :
    (chain first rest (a :: as)).run w =
      (((first a).run w).1 :: ((chain rest rest as).run ((first a).run w).2).1,
        ((chain rest rest as).run ((first a).run w).2).2) :=
  rfl

theorem length_chain (as : List α) (w : Wired β) :
    ((chain first rest as).run w).1.length = as.length := by
  induction as generalizing first w with
  | nil => rfl
  | cons a as ih => rw [run_chain_cons, List.length_cons, List.length_cons, ih]

theorem run_chain_first {w w' : Wired β} {as : List α}
    (some : as ≠ []) (same : ∀ a, (first a).run w = (rest a).run w') :
    (chain first rest as).run w = (chain rest rest as).run w' := by
  cases as with
  | nil => exact absurd rfl some
  | cons a as => rw [run_chain_cons, run_chain_cons, same]

end Execution

open Execution

namespace Numeration
variable {α β : Type} (s : Numeration)

theorem number_cons (byte : UInt8) (bytes : List UInt8) :
    s.number (byte :: bytes) = s.value byte + s.base * s.number bytes :=
  Nat.ofDigits_cons

theorem number_append_singleton (bytes : List UInt8) (byte : UInt8) :
    s.number (bytes ++ [byte]) = s.number bytes + s.base ^ bytes.length * s.value byte := by
  rw [number, List.map_append, Nat.ofDigits_append, List.length_map]
  simp [number]

theorem number_lt {bytes : List UInt8} (digits : ∀ byte ∈ bytes, s.IsDigit byte) :
    s.number bytes < s.base ^ bytes.length := by
  rw [← List.length_map s.value]
  apply Nat.ofDigits_lt_base_pow_length s.one_lt_base
  intro value inside
  obtain ⟨byte, member, rfl⟩ := List.mem_map.mp inside
  exact s.value_lt byte (digits byte member)

/-- A step adds two digits and the carry, for the sign 1, or takes the second digit and the carry
from the first one, for the sign -1. What does not fit in a digit leaves by the carry. -/
def Carries (sign : ℤ) (left right : α → UInt8) (step : α → Execution β UInt8) : Prop :=
  ∀ a, s.IsDigit (left a) → s.IsDigit (right a) → ∀ w,
    s.IsDigit ((step a).run w).1 ∧
      (s.value ((step a).run w).1 : ℤ) =
        s.value (left a) +
          sign * (s.value (right a) + bit w.carry - s.base * bit ((step a).run w).2.carry)

variable {s} {sign : ℤ} {left right : α → UInt8} {step : α → Execution β UInt8}

theorem carries_of_sum
    (sums : ∀ a, s.IsDigit (left a) → s.IsDigit (right a) → ∀ w,
      s.IsDigit ((step a).run w).1 ∧
        s.value ((step a).run w).1 + s.base * bit ((step a).run w).2.carry =
          s.value (left a) + s.value (right a) + bit w.carry) :
    s.Carries 1 left right step := by
  intro a ofLeft ofRight w
  obtain ⟨digit, total⟩ := sums a ofLeft ofRight w
  zify at total
  exact ⟨digit, by linear_combination total⟩

theorem carries_of_difference
    (differences : ∀ a, s.IsDigit (left a) → s.IsDigit (right a) → ∀ w,
      s.IsDigit ((step a).run w).1 ∧
        s.value ((step a).run w).1 + s.value (right a) + bit w.carry =
          s.value (left a) + s.base * bit ((step a).run w).2.carry) :
    s.Carries (-1) left right step := by
  intro a ofLeft ofRight w
  obtain ⟨digit, total⟩ := differences a ofLeft ofRight w
  zify at total
  exact ⟨digit, by linear_combination total⟩

/-- What each byte does to its digits, all of them do to the numbers. -/
theorem Carries.number_chain (carries : s.Carries sign left right step) {as : List α}
    (digits : ∀ a ∈ as, s.IsDigit (left a) ∧ s.IsDigit (right a)) (w : Wired β) :
    (∀ byte ∈ ((chain step step as).run w).1, s.IsDigit byte) ∧
      (s.number ((chain step step as).run w).1 : ℤ) =
        s.number (as.map left) +
          sign * (s.number (as.map right) + bit w.carry -
            s.base ^ as.length * bit ((chain step step as).run w).2.carry) := by
  -- What leaves the first byte by the carry is what the others take in, hence any processor `w`.
  induction as generalizing w with
  | nil =>
    refine ⟨List.forall_mem_nil _, ?_⟩
    change (0 : ℤ) = 0 + sign * (0 + bit w.carry - 1 * bit w.carry)
    ring
  | cons a as ih =>
    obtain ⟨digit, low⟩ := carries a (digits a List.mem_cons_self).1
      (digits a List.mem_cons_self).2 w
    obtain ⟨others, high⟩ := ih (fun a inside => digits a (List.mem_cons_of_mem _ inside))
      ((step a).run w).2
    rw [run_chain_cons]
    refine ⟨List.forall_mem_cons.mpr ⟨digit, others⟩, ?_⟩
    simp only [List.map_cons, number_cons, List.length_cons]
    push_cast
    linear_combination low + s.base * high

end Numeration

section
variable {total result size : ℤ} {out : Bool}

theorem emod_of_small (rest : ℤ) (nonneg : 0 ≤ result) (small : result < size)
    (split : result = total + size * rest) : result = total % size := by
  rw [← Int.emod_eq_of_lt nonneg small, split, Int.add_mul_emod_self_left]

theorem carried_iff (nonneg : 0 ≤ result) (small : result < size)
    (split : result = total - size * bit out) : out = true ↔ size ≤ total := by
  cases out with
  | true =>
    rw [show bit true = 1 from rfl] at split
    push_cast at split
    simp only [true_iff]
    omega
  | false =>
    rw [show bit false = 0 from rfl] at split
    simp only [Bool.false_eq_true, false_iff]
    omega

theorem borrowed_iff (nonneg : 0 ≤ result) (small : result < size)
    (split : result = total + size * bit out) : out = true ↔ total < 0 := by
  cases out with
  | true =>
    rw [show bit true = 1 from rfl] at split
    push_cast at split
    simp only [true_iff]
    omega
  | false =>
    rw [show bit false = 0 from rfl] at split
    simp only [Bool.false_eq_true, false_iff]
    omega

end

namespace Numeration
variable {α β : Type} {s : Numeration} {left right : α → UInt8} {step : α → Execution β UInt8}

/-- A long sum: the result is the sum modulo what the bytes can hold, and the carry tells whether
it is more. -/
theorem Carries.sum (carries : s.Carries 1 left right step) {as : List α}
    (digits : ∀ a ∈ as, s.IsDigit (left a) ∧ s.IsDigit (right a)) (w : Wired β) :
    let ran := (chain step step as).run w
    let total := s.number (as.map left) + s.number (as.map right) + bit w.carry
    s.number ran.1 = total % s.base ^ as.length ∧
      (ran.2.carry = true ↔ s.base ^ as.length ≤ total) := by
  intro ran total
  obtain ⟨result, split⟩ := carries.number_chain digits w
  have small := s.number_lt result
  rw [length_chain] at small
  zify [total] at small ⊢
  constructor
  · apply emod_of_small (-bit ran.2.carry) (Int.natCast_nonneg _) small
    linear_combination split
  · apply carried_iff (Int.natCast_nonneg _) small
    linear_combination split

/-- A long difference: the carry is a borrow, and tells whether the first number is the smaller
one. -/
theorem Carries.difference (carries : s.Carries (-1) left right step) {as : List α}
    (digits : ∀ a ∈ as, s.IsDigit (left a) ∧ s.IsDigit (right a)) (w : Wired β) :
    let ran := (chain step step as).run w
    let total : ℤ := s.number (as.map left) - s.number (as.map right) - bit w.carry
    (s.number ran.1 : ℤ) = total % s.base ^ as.length ∧ (ran.2.carry = true ↔ total < 0) := by
  intro ran total
  obtain ⟨result, split⟩ := carries.number_chain digits w
  have small := s.number_lt result
  rw [length_chain] at small
  zify at small
  constructor
  · apply emod_of_small (bit ran.2.carry) (Int.natCast_nonneg _) small
    linear_combination split
  · apply borrowed_iff (Int.natCast_nonneg _) small
    linear_combination split

end Numeration
end DotMatrix
