import DotMatrix.Proofs.Range.Clock

/-! Time may be cut anywhere: for the timer, the serial link and the clock, two stretches of
time are the same as their sum. -/
namespace DotMatrix

namespace InterruptSet

theorem union_assoc (r s t : InterruptSet) : r ∪ s ∪ t = r ∪ (s ∪ t) :=
  congrArg mk (UInt8.or_assoc ..)

theorem union_comm (r s : InterruptSet) : r ∪ s = s ∪ r := congrArg mk (UInt8.or_comm ..)

instance : Std.Associative (fun r s : InterruptSet => r ∪ s) := ⟨union_assoc⟩
instance : Std.Commutative (fun r s : InterruptSet => r ∪ s) := ⟨union_comm⟩

theorem union_stretches (r r' s s' t t' : InterruptSet) :
    (r ∪ r') ∪ (s ∪ s') ∪ (t ∪ t') = (r ∪ s ∪ t) ∪ (r' ∪ s' ∪ t') := by
  ac_rfl

theorem union_empty (r : InterruptSet) : r ∪ ∅ = r := congrArg mk UInt8.or_zero

theorem empty_union (r : InterruptSet) : ∅ ∪ r = r := congrArg mk UInt8.zero_or

theorem union_self (r : InterruptSet) : r ∪ r = r := congrArg mk UInt8.or_self

theorem when_or (b c : Bool) (i : Interrupt) : when (b || c) i = when b i ∪ when c i := by
  cases b <;> cases c <;> simp [when, union_self, union_empty, empty_union]

end InterruptSet

namespace Timer

theorem cycles_add (a b : Nat) (t : Timer) (fired : Bool) :
    cycles (a + b) t fired = cycles b (cycles a t fired).1 (cycles a t fired).2 := by
  induction a generalizing t fired with
  | zero => rw [Nat.zero_add, cycles]
  | succ a ih =>
    rw [Nat.add_right_comm, cycles, cycles]
    exact ih _ _

theorem cycles_fired (n : Nat) (t : Timer) (fired : Bool) :
    cycles n t fired = ((cycles n t false).1, fired || (cycles n t false).2) := by
  induction n generalizing t fired with
  | zero => simp [cycles]
  | succ n ih =>
    simp only [cycles, Bool.false_or]
    rw [ih _ (fired || t.cycle.2), ih _ t.cycle.2, Bool.or_assoc]

theorem tick_add (a b : Nat) (t : Timer) :
    t.tick (a + b) =
      (((t.tick a).1.tick b).1, (t.tick a).2 ∪ ((t.tick a).1.tick b).2) := by
  simp only [tick]
  rw [cycles_add, cycles_fired b, InterruptSet.when_or]

theorem tick_zero (t : Timer) : t.tick 0 = (t, ∅) := rfl

end Timer

namespace SerialLink

theorem tick_idle (n : Nat) (s : SerialLink) (idle : s.bitsRemaining = 0) : s.tick n = (s, ∅) := by
  unfold tick
  exact if_pos idle

theorem tick_within (n : Nat) (s : SerialLink) (active : s.bitsRemaining ≠ 0)
    (within : n < s.bitTimer.toNat) :
    s.tick n = ({ s with bitTimer := s.bitTimer - UInt32.ofNat n }, ∅) := by
  unfold tick
  rw [if_neg active, if_pos within]
  split
  case isTrue none =>
    subst none
    simp
  case isFalse => rfl

theorem tick_shift (n : Nat) (s : SerialLink) (active : s.bitsRemaining ≠ 0) (some : n ≠ 0)
    (reaches : s.bitTimer.toNat ≤ n) :
    s.tick n =
      ((s.shift.tick (n - s.bitTimer.toNat)).1,
        .when (s.shift.bitsRemaining == 0) .serial ∪
          (s.shift.tick (n - s.bitTimer.toNat)).2) := by
  conv => lhs; unfold tick
  rw [if_neg active, if_neg some, if_neg (Nat.not_lt.mpr reaches)]
  split
  case isTrue last =>
    rw [tick_idle _ _ last, last, InterruptSet.union_empty]
    rfl
  case isFalse more =>
    rw [show (s.shift.bitsRemaining == 0) = false by simpa using more]
    exact Prod.ext rfl (InterruptSet.empty_union _).symm

theorem tick_zero (s : SerialLink) : s.tick 0 = (s, ∅) := by
  unfold tick
  split
  case isTrue => rfl
  case isFalse => rfl

theorem toNat_bitTimer_sub (n : Nat) (s : SerialLink) (within : n < s.bitTimer.toNat) :
    (s.bitTimer - UInt32.ofNat n).toNat = s.bitTimer.toNat - n := by
  have := s.bitTimer.toNat_lt
  rw [UInt32.toNat_sub, UInt32.toNat_ofNat']
  omega

theorem tick_add_within (a b : Nat) (s : SerialLink) (active : s.bitsRemaining ≠ 0)
    (within : a < s.bitTimer.toNat) :
    s.tick (a + b) = { s with bitTimer := s.bitTimer - UInt32.ofNat a }.tick b := by
  have left := toNat_bitTimer_sub a s within
  have cut : s.bitTimer - UInt32.ofNat (a + b) =
      s.bitTimer - UInt32.ofNat a - UInt32.ofNat b := by
    rw [UInt32.ofNat_add]
    grind
  by_cases short : a + b < s.bitTimer.toNat
  · rw [tick_within _ s active short,
      tick_within b { s with bitTimer := s.bitTimer - UInt32.ofNat a } active, cut]
    rw [left]
    omega
  · rw [tick_shift _ s active (by omega) (by omega),
      tick_shift b { s with bitTimer := s.bitTimer - UInt32.ofNat a } active (by omega)]
    dsimp only
    · rw [left, show b - (s.bitTimer.toNat - a) = a + b - s.bitTimer.toNat by omega]
      rfl
    · rw [left]
      omega

theorem tick_add (a b : Nat) (s : SerialLink) :
    s.tick (a + b) = (((s.tick a).1.tick b).1, (s.tick a).2 ∪ ((s.tick a).1.tick b).2) := by
  induction bits : s.bitsRemaining.toNat using Nat.strongRecOn generalizing a s with
  | ind bits ih =>
    by_cases active : s.bitsRemaining = 0
    · rw [tick_idle _ s active, tick_idle a s active, tick_idle b s active,
        InterruptSet.union_empty]
    by_cases none : a = 0
    · subst none
      rw [tick_zero, Nat.zero_add, InterruptSet.empty_union]
    by_cases within : a < s.bitTimer.toNat
    · rw [tick_add_within a b s active within, tick_within a s active within,
        InterruptSet.empty_union]
    -- The bit shifts in the first stretch.
    rw [tick_shift _ s active (by omega) (by omega), tick_shift a s active none (by omega),
      show a + b - s.bitTimer.toNat = a - s.bitTimer.toNat + b by omega]
    have fewer := shift_bitsRemaining_lt active
    rw [ih _ (bits ▸ fewer) (a - s.bitTimer.toNat) s.shift rfl, InterruptSet.union_assoc]

end SerialLink

theorem repeat_add {α : Type} (f : α → α) (m n : Nat) (x : α) :
    Nat.repeat f (m + n) x = Nat.repeat f n (Nat.repeat f m x) := by
  induction n with
  | zero => rfl
  | succ n ih => exact congrArg f ih

namespace ClockTime

theorem halted_congr {s t : ClockTime} (same : s.control &&& 0x40 = t.control &&& 0x40) :
    s.halted = t.halted := by
  unfold halted
  rw [same]

theorem control_setDay_and (t : ClockTime) (day : Nat) {flag : UInt8} (apart : 0x01 &&& flag = 0) :
    (t.setDay day).control &&& flag = t.control &&& flag := by
  -- The day has one bit of the register, and the flag is another one.
  have outside : ~~~0x01 &&& flag = flag := by
    have whole := or_and 0x01 (~~~0x01) flag
    rw [apart, UInt8.zero_or] at whole
    rw [← whole, show (0x01 ||| ~~~0x01 : UInt8) = -1 by decide, UInt8.neg_one_and]
  unfold setDay
  dsimp only
  rw [or_and, UInt8.and_assoc, UInt8.and_assoc, outside, apart, UInt8.and_zero, UInt8.or_zero]

theorem halted_setDay (t : ClockTime) (day : Nat) : (t.setDay day).halted = t.halted :=
  halted_congr (control_setDay_and t day (by decide))

theorem halted_advanceDay (t : ClockTime) : t.advanceDay.halted = t.halted := by
  unfold advanceDay
  split
  · rw [← halted_setDay t 0]
    apply halted_congr
    dsimp only
    rw [or_and, show (0x80 &&& 0x40 : UInt8) = 0 by decide, UInt8.or_zero]
  · exact halted_setDay t _

theorem halted_advanceHour (t : ClockTime) : t.advanceHour.halted = t.halted := by
  unfold advanceHour
  dsimp only
  split
  · exact halted_advanceDay _
  · rfl

theorem halted_advanceMinute (t : ClockTime) : t.advanceMinute.halted = t.halted := by
  unfold advanceMinute
  dsimp only
  split
  · exact halted_advanceHour _
  · rfl

theorem halted_advanceSecond (t : ClockTime) : t.advanceSecond.halted = t.halted := by
  unfold advanceSecond
  dsimp only
  split
  · exact halted_advanceMinute _
  · rfl

theorem halted_repeat (n : Nat) (t : ClockTime) :
    (Nat.repeat advanceSecond n t).halted = t.halted := by
  induction n with
  | zero => rfl
  | succ n ih => exact (halted_advanceSecond _).trans ih

end ClockTime

namespace Clock

theorem tick_halted (n : Nat) (c : Clock) (halted : c.time.halted = true) : c.tick n = c := by
  unfold tick
  exact if_pos halted

theorem tick_running (n : Nat) (c : Clock) (running : ¬c.time.halted = true) :
    c.tick n =
      { c with
        time := Nat.repeat ClockTime.advanceSecond ((c.subsecond.toNat + n) / cyclesPerSecond)
          c.time
        subsecond := UInt32.ofNat ((c.subsecond.toNat + n) % cyclesPerSecond) } := by
  unfold tick
  exact if_neg running

theorem tick_add (a b : Nat) (c : Clock) : c.tick (a + b) = (c.tick a).tick b := by
  by_cases halted : c.time.halted = true
  · rw [tick_halted _ c halted, tick_halted a c halted, tick_halted b c halted]
  have running : ¬(c.tick a).time.halted = true := by
    rw [tick_running a c halted]
    exact (ClockTime.halted_repeat _ c.time).symm ▸ halted
  have subsecond : (c.tick a).subsecond.toNat = (c.subsecond.toNat + a) % cyclesPerSecond := by
    rw [tick_running a c halted, UInt32.toNat_ofNat', Nat.mod_eq_of_lt]
    exact Nat.lt_trans (Nat.mod_lt _ (by decide)) (by decide)
  rw [tick_running b _ running, subsecond, tick_running _ c halted, tick_running a c halted]
  dsimp only
  rw [← repeat_add]
  simp only [cyclesPerSecond]
  congr 2 <;> omega

theorem tick_zero (c : Clock) (whole : c.subsecond.toNat < cyclesPerSecond) : c.tick 0 = c := by
  by_cases halted : c.time.halted = true
  · exact tick_halted 0 c halted
  rw [tick_running 0 c halted, Nat.add_zero, Nat.div_eq_of_lt whole, Nat.mod_eq_of_lt whole,
    UInt32.ofNat_toNat]
  rfl

end Clock
end DotMatrix
