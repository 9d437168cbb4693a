import DotMatrix.Proofs.Time.Parts
import DotMatrix.Proofs.Range.Sound

/-! The period timers of the sound channels may be stopped and started anywhere, also on the
cycle that a timer reaches zero. -/
namespace DotMatrix

namespace Countdown

theorem advance_zero (period timer clocks : Nat) :
    advance period timer 0 clocks = (timer, clocks) := by
  unfold advance
  exact if_pos rfl

theorem advance_within (period timer n clocks : Nat) (some : n ≠ 0)
    (within : n < loaded period timer) :
    advance period timer n clocks = (loaded period timer - n, clocks) := by
  unfold advance
  dsimp only
  rw [if_neg some, if_pos within]

theorem advance_stuck (period timer n clocks : Nat) (stuck : loaded period timer = 0) :
    advance period timer n clocks = (0, clocks) := by
  have timerZero : timer = 0 := by
    unfold loaded at stuck
    split at stuck
    case isTrue zero => exact zero
    case isFalse => exact stuck
  unfold advance
  dsimp only
  split
  case isTrue => rw [timerZero]
  case isFalse =>
    rw [stuck]
    rfl

theorem advance_reload (period timer n clocks : Nat) (running : loaded period timer ≠ 0)
    (reaches : loaded period timer ≤ n) :
    advance period timer n clocks =
      advance period 0 (n - loaded period timer) (clocks + 1) := by
  conv => lhs; unfold advance
  dsimp only
  rw [if_neg (by omega), if_neg (by omega), if_neg running]

theorem loaded_pos (period timer : Nat) (running : timer ≠ 0) : loaded period timer = timer :=
  if_neg running

theorem advance_add (period timer a b clocks : Nat) :
    advance period timer (a + b) clocks =
      advance period (advance period timer a clocks).1 b (advance period timer a clocks).2 := by
  induction a using Nat.strongRecOn generalizing timer clocks with
  | ind a ih =>
    by_cases none : a = 0
    · rw [none, advance_zero, Nat.zero_add]
    by_cases stuck : loaded period timer = 0
    · rw [advance_stuck _ _ a _ stuck, advance_stuck _ _ _ _ stuck]
      have stays : loaded period 0 = 0 := by
        unfold loaded at stuck ⊢
        grind
      rw [advance_stuck _ _ b _ stays]
    by_cases within : a < loaded period timer
    · have left : loaded period (loaded period timer - a) = loaded period timer - a :=
        loaded_pos _ _ (by omega)
      rw [advance_within _ _ a _ none within]
      by_cases last : b = 0
      · rw [last, advance_zero, Nat.add_zero, advance_within _ _ a _ none within]
      by_cases short : a + b < loaded period timer
      · rw [advance_within _ _ _ _ (by omega) short,
          advance_within _ _ b _ last (by rw [left]; omega), left, Nat.sub_sub]
      · rw [advance_reload _ _ _ _ stuck (by omega),
          advance_reload _ _ b _ (by rw [left]; omega) (by rw [left]; omega), left,
          show b - (loaded period timer - a) = a + b - loaded period timer by omega]
    -- The timer runs out in the first stretch.
    · rw [advance_reload _ _ _ _ stuck (by omega), advance_reload _ _ a _ stuck (by omega),
        show a + b - loaded period timer = a - loaded period timer + b by omega]
      exact ih _ (by omega) 0 (clocks + 1)

theorem advance_clocks (period timer n clocks : Nat) :
    advance period timer n clocks =
      ((advance period timer n 0).1, clocks + (advance period timer n 0).2) := by
  induction n using Nat.strongRecOn generalizing timer clocks with
  | ind n ih =>
    by_cases none : n = 0
    · rw [none, advance_zero, advance_zero, Nat.add_zero]
    by_cases stuck : loaded period timer = 0
    · rw [advance_stuck _ _ _ _ stuck, advance_stuck _ _ _ _ stuck, Nat.add_zero]
    by_cases within : n < loaded period timer
    · rw [advance_within _ _ _ _ none within, advance_within _ _ _ _ none within, Nat.add_zero]
    · rw [advance_reload _ _ _ _ stuck (by omega), advance_reload _ _ _ _ stuck (by omega),
        ih _ (by omega) 0 (clocks + 1), ih _ (by omega) 0 (0 + 1), Nat.zero_add,
        Nat.add_assoc]

theorem advance_lt (period timer n clocks bound : Nat) (period_lt : period < bound)
    (timer_lt : timer < bound) : (advance period timer n clocks).1 < bound := by
  have start : loaded period timer < bound := by
    unfold loaded
    split
    · exact period_lt
    · exact timer_lt
  fun_induction advance period timer n clocks with
  | case1 => exact timer_lt
  | case2 => exact Nat.lt_of_le_of_lt (Nat.sub_le _ _) start
  | case3 => exact Nat.zero_lt_of_lt period_lt
  | case4 _ _ _ _ _ _ _ ih => exact ih (Nat.zero_lt_of_lt period_lt) period_lt

theorem advance_cut (period a b : Nat) (timer : UInt32) (period_lt : period < UInt32.size) :
    advance period timer.toNat (a + b) 0 =
      ((advance period (UInt32.ofNat (advance period timer.toNat a 0).1).toNat b 0).1,
        (advance period timer.toNat a 0).2 +
          (advance period (UInt32.ofNat (advance period timer.toNat a 0).1).toNat b 0).2) := by
  have held := advance_lt period timer.toNat a 0 _ period_lt timer.toNat_lt
  rw [UInt32.toNat_ofNat', Nat.mod_eq_of_lt held, advance_add, advance_clocks]

end Countdown

theorem position_add (position x y size : Nat) (pos : 0 < size) (small : size ≤ 256) :
    UInt8.ofNat ((position + (x + y)) % size) =
      UInt8.ofNat (((UInt8.ofNat ((position + x) % size)).toNat + y) % size) := by
  have inside := Nat.mod_lt (position + x) pos
  rw [UInt8.toNat_ofNat', Nat.mod_eq_of_lt (a := (position + x) % size) (by omega),
    Nat.mod_add_mod, Nat.add_assoc]

theorem Pulse.step_add (a b : Nat) (p : Pulse) : p.step (a + b) = (p.step a).step b := by
  have period_lt : p.period < UInt32.size := by
    simp only [period, UInt32.size]
    omega
  have same : (p.step a).period = p.period := rfl
  have cut := Countdown.advance_cut p.period a b p.timer period_lt
  unfold step at same ⊢
  dsimp only at same ⊢
  rw [same, cut, position_add _ _ _ 8 (by decide) (by decide)]

theorem Wave.step_add (a b : Nat) (w : Wave) : w.step (a + b) = (w.step a).step b := by
  have period_lt : w.period < UInt32.size := by
    simp only [period, UInt32.size]
    omega
  have same : (w.step a).period = w.period := rfl
  have cut := Countdown.advance_cut w.period a b w.timer period_lt
  unfold step at same ⊢
  dsimp only at same ⊢
  rw [same, cut, position_add _ _ _ 32 (by decide) (by decide)]

namespace Noise

theorem period_lt (n : Noise) (clocked : ¬n.shift ≥ 14) : n.period < UInt32.size := by
  have shift : n.shift.toNat < 14 := Nat.lt_of_not_le clocked
  have power : 2 ^ n.shift.toNat ≤ 2 ^ 13 :=
    Nat.pow_le_pow_right (by decide) (Nat.le_of_lt_succ shift)
  have base : (if n.divisor == 0 then 8 else 16 * n.divisor.toNat) ≤ 4080 := by
    have := n.divisor.toNat_lt
    split <;> omega
  have product := Nat.mul_le_mul base power
  unfold period
  rw [Nat.shiftLeft_eq]
  exact Nat.lt_of_le_of_lt product (by decide)

theorem step_still (cycles : Nat) (n : Noise) (still : n.shift ≥ 14) : n.step cycles = n := by
  unfold step
  exact if_pos still

theorem step_clocked (cycles : Nat) (n : Noise) (clocked : ¬n.shift ≥ 14) :
    n.step cycles =
      { n with
        timer := UInt32.ofNat (Countdown.advance n.period n.timer.toNat cycles 0).1
        register := Nat.repeat (clockRegister n.narrow)
          (Countdown.advance n.period n.timer.toNat cycles 0).2 n.register } := by
  unfold step
  exact if_neg clocked

theorem step_add (a b : Nat) (n : Noise) : n.step (a + b) = (n.step a).step b := by
  by_cases still : n.shift ≥ 14
  · rw [step_still _ n still, step_still a n still, step_still b n still]
  have cut := Countdown.advance_cut n.period a b n.timer (period_lt n still)
  have first := step_clocked a n still
  have clocked : ¬(n.step a).shift ≥ 14 := by
    rw [first]
    exact still
  rw [step_clocked b _ clocked, step_clocked _ n still, cut, repeat_add, first]
  rfl

end Noise

theorem Sound.stepChannels_add (a b : Nat) (s : Sound) :
    s.stepChannels (a + b) = (s.stepChannels a).stepChannels b := by
  unfold stepChannels
  rw [Pulse.step_add, Pulse.step_add, Wave.step_add, Noise.step_add]

end DotMatrix
