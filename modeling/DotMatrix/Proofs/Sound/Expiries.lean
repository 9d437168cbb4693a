import DotMatrix.Proofs.Sound.Period
import Mathlib.Logic.Function.Iterate

/-! How often a period timer runs out. The loop over the cycles of a channel comes to an end because
no period is zero; arithmetic says how often it clocks the channel, and what it leaves on the
timer. -/
namespace DotMatrix

namespace Countdown

/-- How often the timer runs out in `n` cycles: once when it has counted down what is on it, and
then once a period. -/
def expiries (period timer n : Nat) : Nat :=
  if n < loaded period timer then 0 else 1 + (n - loaded period timer) / period

/-- What is on the timer then. It stands at zero until the next cycle begins. -/
def remaining (period timer n : Nat) : Nat :=
  if n = 0 then timer
  else if n < loaded period timer then loaded period timer - n
  else if (n - loaded period timer) % period = 0 then 0
  else period - (n - loaded period timer) % period

section
variable {period : Nat} (positive : 0 < period)
include positive

theorem loaded_positive (timer : Nat) : 0 < loaded period timer := by
  unfold loaded
  split <;> omega

theorem expiries_cycles_zero (timer : Nat) : expiries period timer 0 = 0 :=
  if_pos (loaded_positive positive timer)

theorem expiries_timer_zero (n : Nat) : expiries period 0 n = n / period := by
  change (if n < period then 0 else 1 + (n - period) / period) = n / period
  split
  case isTrue within => exact (Nat.div_eq_of_lt within).symm
  case isFalse reaches =>
    rw [Nat.div_eq_sub_div positive (Nat.le_of_not_lt reaches), Nat.add_comm]

omit positive in
theorem remaining_timer_zero (n : Nat) :
    remaining period 0 n = if n % period = 0 then 0 else period - n % period := by
  change (if n = 0 then 0 else if n < period then period - n
    else if (n - period) % period = 0 then 0 else period - (n - period) % period) = _
  by_cases none : n = 0
  · rw [if_pos none, none, Nat.zero_mod, if_pos rfl]
  by_cases within : n < period
  · rw [if_neg none, if_pos within, Nat.mod_eq_of_lt within, if_neg none]
  · rw [if_neg none, if_neg within, ← Nat.mod_eq_sub_mod (Nat.le_of_not_lt within)]

theorem advance_eq (timer n : Nat) :
    advance period timer n 0 = (remaining period timer n, expiries period timer n) := by
  induction n using Nat.strongRecOn generalizing timer with
  | ind n ih =>
    have start := loaded_positive positive timer
    by_cases none : n = 0
    · rw [none, advance_zero, expiries_cycles_zero positive]
      rfl
    by_cases within : n < loaded period timer
    · rw [advance_within _ _ _ _ none within, remaining, if_neg none, if_pos within, expiries,
        if_pos within]
    -- The rest of the cycles begins with the timer at zero.
    · rw [advance_reload _ _ _ _ (by omega) (by omega), advance_clocks, ih _ (by omega) 0,
        expiries_timer_zero positive, remaining_timer_zero, remaining, if_neg none,
        if_neg within, expiries, if_neg within]

theorem remaining_lt {timer bound : Nat} (n : Nat) (period_lt : period < bound)
    (timer_lt : timer < bound) : remaining period timer n < bound := by
  have left := advance_lt period timer n 0 bound period_lt timer_lt
  rwa [advance_eq positive] at left

end

/-- The loop that lets `n` cycles pass. A timer at zero is loaded. Then it runs until the timer or
the cycles are used up, and clocks `x` if it was the timer. -/
inductive Passes {σ : Type} (period : Nat) (clock : σ → σ) : Nat → Nat → σ → Nat → σ → Prop
  | done (timer : Nat) (x : σ) : Passes period clock timer 0 x timer x
  | pass {timer n timer' : Nat} {x x' : σ} (more : n ≠ 0)
      (rest : let step := min n (loaded period timer)
        Passes period clock (loaded period timer - step) (n - step)
          (if loaded period timer - step = 0 then clock x else x) timer' x') :
      Passes period clock timer n x timer' x'

namespace Passes
variable {σ : Type} {period timer n timer' : Nat} {clock : σ → σ} {x x' : σ}

theorem not_period_zero (more : n ≠ 0) : ¬Passes 0 clock 0 n x timer' x' := by
  have stands {timer : Nat} (passes : Passes 0 clock timer n x timer' x') : timer ≠ 0 := by
    induction passes with
    | done => exact absurd rfl more
    | pass _ _ ih =>
      rintro rfl
      have standing : loaded 0 0 = 0 := rfl
      simp only [standing, Nat.min_zero, Nat.sub_zero] at ih
      exact ih more rfl
  exact fun passes => stands passes rfl

theorem unique {timer'' : Nat} {x'' : σ} (passes : Passes period clock timer n x timer' x')
    (other : Passes period clock timer n x timer'' x'') : timer'' = timer' ∧ x'' = x' := by
  induction passes with
  | done =>
    cases other with
    | done => exact ⟨rfl, rfl⟩
    | pass more => exact absurd rfl more
  | pass more _ ih =>
    cases other with
    | done => exact absurd rfl more
    | pass _ rest => exact ih rest

theorem within (more : n ≠ 0) (within : n < loaded period timer) :
    Passes period clock timer n x (loaded period timer - n) x := by
  refine .pass more ?_
  simp only [Nat.min_eq_left (Nat.le_of_lt within), Nat.sub_self,
    if_neg (Nat.sub_ne_zero_of_lt within)]
  exact .done _ _

theorem reload (more : n ≠ 0) (reaches : loaded period timer ≤ n)
    (rest : Passes period clock 0 (n - loaded period timer) (clock x) timer' x') :
    Passes period clock timer n x timer' x' := by
  refine .pass more ?_
  simp only [Nat.min_eq_right reaches, Nat.sub_self, if_true]
  exact rest

theorem exact (positive : 0 < period) (timer n : Nat) (x : σ) :
    Passes period clock timer n x (remaining period timer n)
      (clock^[expiries period timer n] x) := by
  induction n using Nat.strongRecOn generalizing timer x with
  | ind n ih =>
    have start := loaded_positive positive timer
    by_cases none : n = 0
    · rw [none, expiries_cycles_zero positive]
      exact .done timer x
    by_cases inside : n < loaded period timer
    · rw [remaining, if_neg none, if_pos inside, expiries, if_pos inside]
      exact within none inside
    · have rest := ih (n - loaded period timer) (by omega) 0 (clock x)
      rw [expiries_timer_zero positive, remaining_timer_zero] at rest
      rw [remaining, if_neg none, if_neg inside, expiries, if_neg inside, Nat.add_comm,
        Function.iterate_succ_apply]
      exact reload none (Nat.le_of_not_lt inside) rest

end Passes

theorem passes_iff {σ : Type} {period timer n timer' : Nat} {clock : σ → σ} {x x' : σ}
    (positive : 0 < period) :
    Passes period clock timer n x timer' x' ↔
      timer' = remaining period timer n ∧ x' = clock^[expiries period timer n] x := by
  constructor
  · exact (Passes.exact positive timer n x).unique
  · rintro ⟨rfl, rfl⟩
    exact .exact positive timer n x

/-- One place further around; the number of places is a power of two. -/
def turn (last position : UInt8) : UInt8 := (position + 1) &&& last

theorem iterate_turn {bits : Nat} (small : bits < 8) {position : UInt8}
    (inside : position.toNat < 2 ^ bits) (clocks : Nat) :
    (turn (UInt8.ofNat (2 ^ bits - 1)))^[clocks] position =
      UInt8.ofNat ((position.toNat + clocks) % 2 ^ bits) := by
  have size : 2 ^ bits ≤ 2 ^ 7 := Nat.pow_le_pow_right (by decide) (Nat.le_of_lt_succ small)
  induction clocks with
  | zero =>
    rw [Nat.add_zero, Nat.mod_eq_of_lt inside, UInt8.ofNat_toNat]
    rfl
  | succ clocks ih =>
    have below := Nat.mod_lt (position.toNat + clocks) (Nat.two_pow_pos bits)
    have next := Nat.mod_lt (position.toNat + (clocks + 1)) (Nat.two_pow_pos bits)
    have mask : (UInt8.ofNat (2 ^ bits - 1)).toNat = 2 ^ bits - 1 := by
      rw [UInt8.toNat_ofNat']
      omega
    have place : (UInt8.ofNat ((position.toNat + clocks) % 2 ^ bits) + 1).toNat =
        (position.toNat + clocks) % 2 ^ bits + 1 := by
      rw [UInt8.toNat_add, UInt8.toNat_ofNat', UInt8.toNat_one]
      omega
    have around : (UInt8.ofNat ((position.toNat + (clocks + 1)) % 2 ^ bits)).toNat =
        (position.toNat + (clocks + 1)) % 2 ^ bits := by
      rw [UInt8.toNat_ofNat']
      omega
    rw [Function.iterate_succ_apply', ih, turn, ← UInt8.toNat_inj, UInt8.toNat_and, place, mask,
      Nat.and_two_pow_sub_one_eq_mod, Nat.mod_add_mod, around, Nat.add_assoc]

end Countdown

open Countdown

theorem repeat_eq_iterate {α : Type} (f : α → α) (n : Nat) (x : α) :
    Nat.repeat f n x = f^[n] x := by
  induction n with
  | zero => rfl
  | succ n ih =>
    rw [Function.iterate_succ_apply', ← ih]
    rfl

theorem toNat_remaining {period : Nat} (positive : 0 < period) (period_lt : period < UInt32.size)
    (timer : UInt32) (n : Nat) :
    (UInt32.ofNat (remaining period timer.toNat n)).toNat = remaining period timer.toNat n := by
  rw [UInt32.toNat_ofNat', Nat.mod_eq_of_lt]
  exact remaining_lt positive n period_lt timer.toNat_lt

theorem passes_turn_iff (bits : Nat) {period : Nat} (positive : 0 < period) (small : bits < 8)
    {position : UInt8} (inside : position.toNat < 2 ^ bits) (timer n timer' : Nat)
    (position' : UInt8) :
    Passes period (turn (UInt8.ofNat (2 ^ bits - 1))) timer n position timer' position' ↔
      timer' = remaining period timer n ∧
        position' = UInt8.ofNat ((position.toNat + expiries period timer n) % 2 ^ bits) := by
  rw [passes_iff positive, iterate_turn small inside]

namespace Pulse
variable {p : Pulse}

theorem period_pos (tuned : p.frequency ≤ maxFrequency) : 0 < p.period := by
  have frequency : p.frequency.toNat ≤ 2047 := tuned
  unfold period
  omega

theorem step_tuned (tuned : p.frequency ≤ maxFrequency) (n : Nat) :
    (p.step n).timer.toNat = remaining p.period p.timer.toNat n ∧
      p.step n = { p with
        timer := (p.step n).timer
        position := UInt8.ofNat ((p.position.toNat + expiries p.period p.timer.toNat n) % 8) } := by
  have period_lt : p.period < UInt32.size := Nat.lt_of_le_of_lt p.period_le (by decide)
  rw [step, advance_eq (period_pos tuned)]
  exact ⟨toNat_remaining (period_pos tuned) period_lt p.timer n, rfl⟩

theorem passes_step (tuned : p.frequency ≤ maxFrequency) (inside : p.position ≤ 7)
    (n timer : Nat) (position : UInt8) :
    Passes p.period (turn 7) p.timer.toNat n p.position timer position ↔
      timer = (p.step n).timer.toNat ∧ position = (p.step n).position := by
  obtain ⟨left, same⟩ := step_tuned tuned n
  rw [left, same]
  exact passes_turn_iff 3 (period_pos tuned) (by decide) (Nat.lt_succ_of_le inside) ..

end Pulse

namespace Wave
variable {w : Wave}

theorem period_pos (tuned : w.frequency ≤ maxFrequency) : 0 < w.period := by
  have frequency : w.frequency.toNat ≤ 2047 := tuned
  unfold period
  omega

theorem step_tuned (tuned : w.frequency ≤ maxFrequency) (n : Nat) :
    (w.step n).timer.toNat = remaining w.period w.timer.toNat n ∧
      w.step n = { w with
        timer := (w.step n).timer
        position := UInt8.ofNat
          ((w.position.toNat + expiries w.period w.timer.toNat n) % 32) } := by
  have period_lt : w.period < UInt32.size := Nat.lt_of_le_of_lt w.period_le (by decide)
  rw [step, advance_eq (period_pos tuned)]
  exact ⟨toNat_remaining (period_pos tuned) period_lt w.timer n, rfl⟩

theorem passes_step (tuned : w.frequency ≤ maxFrequency) (inside : w.position ≤ 31)
    (n timer : Nat) (position : UInt8) :
    Passes w.period (turn 31) w.timer.toNat n w.position timer position ↔
      timer = (w.step n).timer.toNat ∧ position = (w.step n).position := by
  obtain ⟨left, same⟩ := step_tuned tuned n
  rw [left, same]
  exact passes_turn_iff 5 (period_pos tuned) (by decide) (Nat.lt_succ_of_le inside) ..

end Wave

namespace Noise
variable {c : Noise}

theorem period_pos (c : Noise) : 0 < c.period := by
  have base : 0 < if c.divisor == 0 then 8 else 16 * c.divisor.toNat := by
    split
    case isTrue => decide
    case isFalse some =>
      have : c.divisor.toNat ≠ 0 := fun zero => some (by simpa using UInt8.toNat_inj.mp zero)
      omega
  unfold period
  rw [Nat.shiftLeft_eq]
  exact Nat.mul_pos base (Nat.two_pow_pos _)

theorem step_shifting (shifts : c.shift < 14) (n : Nat) :
    (c.step n).timer.toNat = remaining c.period c.timer.toNat n ∧
      c.step n = { c with
        timer := (c.step n).timer
        register := (clockRegister c.narrow)^[expiries c.period c.timer.toNat n] c.register } := by
  have clocked : ¬c.shift ≥ 14 := UInt8.not_le.mpr shifts
  rw [step_clocked n c clocked, advance_eq c.period_pos, repeat_eq_iterate]
  exact ⟨toNat_remaining c.period_pos (c.period_lt clocked) c.timer n, rfl⟩

theorem passes_step (shifts : c.shift < 14) (n timer : Nat) (register : UInt16) :
    Passes c.period (clockRegister c.narrow) c.timer.toNat n c.register timer register ↔
      timer = (c.step n).timer.toNat ∧ register = (c.step n).register := by
  obtain ⟨left, same⟩ := step_shifting shifts n
  rw [left, same]
  exact passes_iff c.period_pos

end Noise

/-- The period timers count exactly. In any number of cycles the loop of a channel ends, with what
is left on the timer and with one turn for each time that it ran out; the rest of the channel stays
as it is, and the cycles may be cut anywhere. A noise channel of shift 14 or 15 does not change. The
loops end because no period is zero: without a period a timer that stands at zero keeps its loop
going. -/
theorem periods_counted :
    (∀ p : Pulse, p.frequency ≤ maxFrequency → 0 < p.period ∧ ∀ n,
      (p.step n).timer.toNat = remaining p.period p.timer.toNat n ∧
      p.step n = { p with
        timer := (p.step n).timer
        position := UInt8.ofNat ((p.position.toNat + expiries p.period p.timer.toNat n) % 8) } ∧
      (p.position ≤ 7 → ∀ timer position,
        Passes p.period (turn 7) p.timer.toNat n p.position timer position ↔
          timer = (p.step n).timer.toNat ∧ position = (p.step n).position)) ∧
    (∀ w : Wave, w.frequency ≤ maxFrequency → 0 < w.period ∧ ∀ n,
      (w.step n).timer.toNat = remaining w.period w.timer.toNat n ∧
      w.step n = { w with
        timer := (w.step n).timer
        position := UInt8.ofNat ((w.position.toNat + expiries w.period w.timer.toNat n) % 32) } ∧
      (w.position ≤ 31 → ∀ timer position,
        Passes w.period (turn 31) w.timer.toNat n w.position timer position ↔
          timer = (w.step n).timer.toNat ∧ position = (w.step n).position)) ∧
    (∀ c : Noise, c.divisor ≤ 7 → c.shift < 14 → 0 < c.period ∧ ∀ n,
      (c.step n).timer.toNat = remaining c.period c.timer.toNat n ∧
      c.step n = { c with
        timer := (c.step n).timer
        register := (Noise.clockRegister c.narrow)^[expiries c.period c.timer.toNat n]
          c.register } ∧
      ∀ timer register,
        Passes c.period (Noise.clockRegister c.narrow) c.timer.toNat n c.register timer register ↔
          timer = (c.step n).timer.toNat ∧ register = (c.step n).register) ∧
    (∀ c : Noise, 14 ≤ c.shift → ∀ n, c.step n = c) ∧
    (∀ a b, (∀ p : Pulse, p.step (a + b) = (p.step a).step b) ∧
      (∀ w : Wave, w.step (a + b) = (w.step a).step b) ∧
      ∀ c : Noise, c.step (a + b) = (c.step a).step b) ∧
    ∀ (σ : Type) (clock : σ → σ) (n timer : Nat) (x x' : σ), n ≠ 0 →
      ¬Passes 0 clock 0 n x timer x' := by
  refine ⟨fun p tuned => ⟨Pulse.period_pos tuned, fun n => ?_⟩,
    fun w tuned => ⟨Wave.period_pos tuned, fun n => ?_⟩,
    fun c _ shifts => ⟨c.period_pos, fun n => ?_⟩,
    fun c still n => c.step_still n still,
    fun a b => ⟨Pulse.step_add a b, Wave.step_add a b, Noise.step_add a b⟩,
    fun _ _ _ _ _ _ more => Passes.not_period_zero more⟩
  · obtain ⟨left, same⟩ := Pulse.step_tuned tuned n
    exact ⟨left, same, fun inside => Pulse.passes_step tuned inside n⟩
  · obtain ⟨left, same⟩ := Wave.step_tuned tuned n
    exact ⟨left, same, fun inside => Wave.passes_step tuned inside n⟩
  · obtain ⟨left, same⟩ := Noise.step_shifting shifts n
    exact ⟨left, same, Noise.passes_step shifts n⟩

def Pulse.quick : Pulse := { Pulse.off true with frequency := 2047, timer := 3, position := 6 }

def Wave.slow : Wave :=
  { Wave.off Wave.powerOnRam with frequency := 2000, timer := 5, position := 31 }

def Noise.slow : Noise := { Noise.off with shift := 13, divisor := 7 }

/-- Steps that end where a timer runs out, and one that goes on behind it. The register is shifted
when the longest period is over. -/
theorem periods_counted_expiring :
    (Pulse.quick.frequency ≤ maxFrequency ∧ (Pulse.quick.step 7).timer.toNat = 0 ∧
      (Pulse.quick.step 7).position = 0 ∧ Pulse.quick.step 9 = (Pulse.quick.step 7).step 2 ∧
      (Pulse.quick.step 9).timer.toNat = 2) ∧
    (Wave.slow.frequency ≤ maxFrequency ∧ (Wave.slow.step 102).timer.toNat = 95 ∧
      (Wave.slow.step 102).position = 1) ∧
    (Noise.slow.divisor ≤ 7 ∧ Noise.slow.shift < 14 ∧
      (Noise.slow.step 917503).register = 0x7FFF ∧ (Noise.slow.step 917504).register = 0x3FFF) ∧
    (14 : UInt8) ≤ { Noise.slow with shift := 14 }.shift ∧
      { Noise.slow with shift := 14 }.step 917504 = { Noise.slow with shift := 14 } := by
  obtain ⟨pulse, wave, noise, still, cut, -⟩ := periods_counted
  have tuned : Pulse.quick.frequency ≤ maxFrequency := by decide
  have tunedWave : Wave.slow.frequency ≤ maxFrequency := by decide
  have divides : Noise.slow.divisor ≤ 7 := by decide
  have shifts : Noise.slow.shift < 14 := by decide
  obtain ⟨-, pulse⟩ := pulse _ tuned
  obtain ⟨-, wave⟩ := wave _ tunedWave
  obtain ⟨-, noise⟩ := noise _ divides shifts
  refine ⟨⟨tuned, ?_, ?_, (cut 7 2).1 _, ?_⟩, ⟨tunedWave, ?_, ?_⟩, ⟨divides, shifts, ?_, ?_⟩,
    by decide, still _ (by decide) _⟩
  · rw [(pulse 7).1]
    decide
  · rw [(pulse 7).2.1]
    decide
  · rw [(pulse 9).1]
    decide
  · rw [(wave 102).1]
    decide
  · rw [(wave 102).2.1]
    decide
  · rw [(noise 917503).2.1]
    decide +kernel
  · rw [(noise 917504).2.1]
    decide +kernel

end DotMatrix
