import DotMatrix.Text.Number
import Mathlib.Logic.Basic

/-! The numerals that a number of 32 bits is read from. -/
namespace DotMatrix.Number

/-- The digits are those of a number of 32 bits in decimal. -/
structure Decimal (digits : List Char) (n : Nat) : Prop where
  some : digits ≠ []
  valid : ∀ c ∈ digits, c.isDigit
  value : Nat.ofDigitChars 10 digits 0 = n
  small : n < UInt32.size

/-- A text is a numeral of a number: its digits, with a plus sign in front or not. -/
def Denotes (text : String) (n : Nat) : Prop :=
  ∃ digits, Decimal digits n ∧ (text.toList = digits ∨ text.toList = '+' :: digits)

theorem not_decimal_nil {n : Nat} : ¬Decimal [] n := fun h => h.some rfl

theorem not_decimal_plus {rest : List Char} {n : Nat} : ¬Decimal ('+' :: rest) n := fun h =>
  absurd (h.valid '+' List.mem_cons_self) (by decide)

section Denotes
variable {text : String} {n : Nat}

theorem denotes_plus {rest : List Char} (plus : text.toList = '+' :: rest) :
    Denotes text n ↔ Decimal rest n := by
  constructor
  · rintro ⟨digits, decimal, same | same⟩
    · rw [← same, plus] at decimal
      exact absurd decimal not_decimal_plus
    · rw [plus] at same
      exact (List.cons.inj same).2 ▸ decimal
  · exact fun decimal => ⟨rest, decimal, .inr plus⟩

theorem denotes_unsigned (unsigned : ∀ rest, text.toList ≠ '+' :: rest) :
    Denotes text n ↔ Decimal text.toList n := by
  constructor
  · rintro ⟨digits, decimal, same | same⟩
    · exact same ▸ decimal
    · exact absurd same (unsigned digits)
  · exact fun decimal => ⟨_, decimal, .inl rfl⟩

end Denotes

theorem le_ofDigitChars (digits : List Char) (value : Nat) :
    value ≤ Nat.ofDigitChars 10 digits value := by
  induction digits generalizing value with
  | nil => exact Nat.le_refl _
  | cons c digits ih =>
    rw [Nat.ofDigitChars_cons]
    exact Nat.le_trans (by omega) (ih _)

/-- No value on the way is above the last one, so the limit is passed at the end or not at all. -/
theorem readDigits_eq_ok {limit value n : Nat} {digits : List Char} (small : value < limit) :
    readDigits limit value digits = .ok n ↔
      (∀ c ∈ digits, c.isDigit) ∧ Nat.ofDigitChars 10 digits value = n ∧ n < limit := by
  induction digits generalizing value with
  | nil =>
    simp only [readDigits, Nat.ofDigitChars_nil, Except.ok.injEq, List.not_mem_nil]
    constructor
    · rintro rfl
      exact ⟨fun _ => False.elim, rfl, small⟩
    · exact fun h => h.2.1
  | cons c rest ih =>
    have above := le_ofDigitChars rest (10 * value + (c.toNat - '0'.toNat))
    rw [readDigits, Nat.ofDigitChars_cons, List.forall_mem_cons]
    by_cases digit : c.isDigit
    · rw [if_pos digit]
      by_cases below : 10 * value + (c.toNat - '0'.toNat) < limit
      · rw [if_pos below, ih below, and_iff_right digit]
      · rw [if_neg below]
        refine iff_of_false nofun ?_
        rintro ⟨_, rfl, small⟩
        exact below (Nat.lt_of_le_of_lt above small)
    · rw [if_neg digit]
      exact iff_of_false nofun fun h => digit h.1.1

theorem readDigits_eq_ok_iff_decimal {digits : List Char} {n : Nat} (some : digits ≠ []) :
    readDigits UInt32.size 0 digits = .ok n ↔ Decimal digits n := by
  rw [readDigits_eq_ok (by decide)]
  constructor
  · rintro ⟨decimal, value, small⟩
    exact ⟨some, decimal, value, small⟩
  · exact fun h => ⟨h.valid, h.value, h.small⟩

theorem read32_eq_ok {text : String} {n : Nat} : read32 text = .ok n ↔ Denotes text n := by
  unfold read32
  split
  · next empty =>
    rw [denotes_unsigned (by simp [empty]), empty]
    exact iff_of_false nofun not_decimal_nil
  · next plus =>
    rw [denotes_plus plus]
    exact iff_of_false nofun not_decimal_nil
  · next rest more plus =>
    rw [denotes_plus plus]
    exact readDigits_eq_ok_iff_decimal fun none => more (by rw [none])
  · next some _ unsigned =>
    rw [denotes_unsigned unsigned]
    exact readDigits_eq_ok_iff_decimal some

theorem denotes_unique {text : String} {n n' : Nat} (h : Denotes text n) (h' : Denotes text n') :
    n = n' :=
  Except.ok.inj ((read32_eq_ok.mpr h).symm.trans (read32_eq_ok.mpr h'))

theorem denotes_repr {n : Nat} (small : n < UInt32.size) : Denotes n.repr n :=
  ⟨Nat.toDigits 10 n,
    { some := Nat.toDigits_ne_nil
      valid := fun _ => Nat.isDigit_of_mem_toDigits (by decide) (by decide)
      value := Nat.ofDigitChars_ten_toDigits
      small },
    .inl String.toList_ofList⟩

end DotMatrix.Number
