import DotMatrix.Proofs.Safe.Board
import DotMatrix.Proofs.Time.Parts
import Mathlib.Data.Nat.Bitwise

/-! The clock of a cartridge is a number in mixed radix. Its registers are the digits; a second adds
one to the number, which goes round after 512 days, and the carry bit remembers that it did. -/
namespace DotMatrix
namespace ClockTime

/-- Each register holds a digit of its radix. The nine bits of the day always do. -/
structure Proper (t : ClockTime) : Prop where
  seconds : t.seconds.toNat < 60
  minutes : t.minutes.toNat < 60
  hours : t.hours.toNat < 24

def elapsed (t : ClockTime) : Nat :=
  t.seconds.toNat + 60 * t.minutes.toNat + 3600 * t.hours.toNat + 86400 * t.day

def wrapped (t : ClockTime) : Bool := t.control &&& 0x80 != 0

theorem toNat_next_digit (digit mask : UInt8) (width : Nat) (wires : mask.toNat = 2 ^ width - 1)
    (room : digit.toNat + 1 < 2 ^ width) : ((digit + 1) &&& mask).toNat = digit.toNat + 1 := by
  have byte := mask.toNat_lt
  rw [UInt8.toNat_and, wires, UInt8.toNat_add]
  change (digit.toNat + 1) % 256 &&& 2 ^ width - 1 = _
  rw [Nat.mod_eq_of_lt (by omega), Nat.and_two_pow_sub_one_of_lt_two_pow room]

theorem day_setDay (t : ClockTime) {day : Nat} (nine : day < 512) : (t.setDay day).day = day := by
  have bit : (t.setDay day).control &&& 0x01 = UInt8.ofNat (day / 256) &&& 0x01 := by
    unfold setDay
    dsimp only
    rw [or_and, UInt8.and_assoc, UInt8.and_assoc, show (~~~0x01 &&& 0x01 : UInt8) = 0 by decide,
      UInt8.and_zero, UInt8.zero_or, UInt8.and_self]
  have high : (UInt8.ofNat (day / 256) &&& 0x01).toNat = day / 256 := by
    rw [UInt8.toNat_and]
    change (UInt8.ofNat (day / 256)).toNat &&& 1 = _
    rw [Nat.and_one_is_mod, UInt8.toNat_ofNat']
    omega
  have low : (t.setDay day).dayLow.toNat = day % 256 := UInt8.toNat_ofNat'
  rw [ClockTime.day, bit, high, low]
  omega

theorem day_lt (t : ClockTime) : t.day < 512 := by
  have low := t.dayLow.toNat_lt
  have high : (t.control &&& 0x01).toNat ≤ 1 := and_le_mask _ 0x01
  unfold day
  omega

/-- A number held by registers of the clock, below `count` when each of them holds a digit. -/
structure Numeral where
  value : ClockTime → Nat
  count : Nat
  Fits : ClockTime → Prop
  value_lt : ∀ t, Fits t → value t < count

namespace Numeral

def days : Numeral := ⟨day, 512, fun _ => True, fun t _ => t.day_lt⟩

def digit (register : ClockTime → UInt8) (radix : Nat) (higher : Numeral) : Numeral where
  value t := (register t).toNat + radix * higher.value t
  count := radix * higher.count
  Fits t := (register t).toNat < radix ∧ higher.Fits t
  value_lt t fits :=
    calc (register t).toNat + radix * higher.value t
      _ < radix * (higher.value t + 1) := by
        rw [Nat.mul_add]
        have := fits.1
        omega
      _ ≤ radix * higher.count := Nat.mul_le_mul_left radix (higher.value_lt t fits.2)

def hours : Numeral := digit ClockTime.hours 24 days

def minutes : Numeral := digit ClockTime.minutes 60 hours

def seconds : Numeral := digit ClockTime.seconds 60 minutes

/-- The number goes up by one, modulo its count; going round shows in the carry bit. -/
structure Counts (number : Numeral) (t next : ClockTime) : Prop where
  fits : number.Fits next
  one : number.value next = (number.value t + 1) % number.count
  wrapped : next.wrapped = true ↔ t.wrapped = true ∨ number.count ≤ number.value t + 1

variable {register : ClockTime → UInt8} {radix : Nat} {higher : Numeral}
  {t cleared next : ClockTime}

theorem Counts.carry (h : higher.Counts cleared next) (full : (register t).toNat + 1 = radix)
    (same : higher.value cleared = higher.value t) (flag : cleared.wrapped = t.wrapped)
    (zero : register next = 0) : (digit register radix higher).Counts t next := by
  have sum : (register t).toNat + radix * higher.value t + 1 = radix * (higher.value t + 1) := by
    rw [Nat.mul_add]
    omega
  unfold digit
  refine ⟨⟨?_, h.fits⟩, ?_, ?_⟩
  · rw [zero, UInt8.toNat_zero]
    omega
  · dsimp only
    rw [sum, zero, h.one, same, UInt8.toNat_zero, Nat.zero_add, Nat.mul_mod_mul_left]
  · dsimp only
    rw [sum, h.wrapped, same, flag, Nat.mul_le_mul_left_iff (by omega)]

theorem Counts.within (room : (register t).toNat + 1 < radix)
    (one : (register next).toNat = (register t).toNat + 1) (fits : higher.Fits next)
    (same : higher.value next = higher.value t) (flag : next.wrapped = t.wrapped) :
    (digit register radix higher).Counts t next := by
  have fits : (digit register radix higher).Fits next := ⟨one ▸ room, fits⟩
  have below := (digit register radix higher).value_lt next fits
  have sum : (digit register radix higher).value next =
      (digit register radix higher).value t + 1 := by
    unfold digit
    dsimp only
    rw [one, same]
    omega
  refine ⟨fits, ?_, ?_⟩
  · rw [← sum, Nat.mod_eq_of_lt below]
  · rw [flag]
    exact ⟨.inl, fun set => set.resolve_right (by omega)⟩

end Numeral

/-! A second is counted by one register, or carries into the next. -/

theorem counts_day (t : ClockTime) : Numeral.days.Counts t t.advanceDay := by
  have nine := t.day_lt
  unfold advanceDay
  split
  case isTrue last =>
    have zero := t.day_setDay (show 0 < 512 by decide)
    refine ⟨trivial, ?_, iff_of_true ?_ (.inr last)⟩
    · unfold day at zero
      unfold Numeral.days day
      dsimp only
      rw [or_and, show (0x80 &&& 0x01 : UInt8) = 0 by decide, UInt8.or_zero, zero]
      change 0 = (t.day + 1) % 512
      omega
    · unfold wrapped
      dsimp only
      rw [or_and]
      simp
  case isFalse more =>
    have more : t.day + 1 < 512 := by omega
    refine ⟨trivial, ?_, ?_⟩
    · exact (t.day_setDay more).trans (Nat.mod_eq_of_lt more).symm
    · unfold wrapped
      rw [control_setDay_and t _ (by decide)]
      exact ⟨.inl, fun set => set.resolve_right (Nat.not_le.mpr more)⟩

theorem advanceDay_eq (t : ClockTime) :
    ∃ dayLow control, t.advanceDay = { t with dayLow, control } := by
  unfold advanceDay
  split <;> exact ⟨_, _, rfl⟩

theorem advanceHour_eq (t : ClockTime) :
    ∃ hours dayLow control, t.advanceHour = { t with hours, dayLow, control } := by
  unfold advanceHour
  dsimp only
  split
  · obtain ⟨dayLow, control, same⟩ := advanceDay_eq { t with hours := 0 }
    exact ⟨_, dayLow, control, same⟩
  · exact ⟨_, _, _, rfl⟩

theorem advanceMinute_eq (t : ClockTime) :
    ∃ minutes hours dayLow control,
      t.advanceMinute = { t with minutes, hours, dayLow, control } := by
  unfold advanceMinute
  dsimp only
  split
  · obtain ⟨hours, dayLow, control, same⟩ := advanceHour_eq { t with minutes := 0 }
    exact ⟨_, hours, dayLow, control, same⟩
  · exact ⟨_, _, _, _, rfl⟩

theorem counts_hour {t : ClockTime} (fits : Numeral.hours.Fits t) :
    Numeral.hours.Counts t t.advanceHour := by
  have digit : t.hours.toNat < 24 := fits.1
  have next := toNat_next_digit t.hours masks.hours 5 rfl (by omega)
  have higher := counts_day { t with hours := 0 }
  unfold advanceHour
  simp only [beq_iff_eq, ← UInt8.toNat_inj, next, UInt8.reduceToNat]
  split
  case isTrue full =>
    obtain ⟨_, _, same⟩ := advanceDay_eq { t with hours := 0 }
    refine higher.carry full rfl rfl ?_
    rw [same]
  case isFalse more => exact .within (show _ + 1 < _ by omega) next fits.2 rfl rfl

theorem counts_minute {t : ClockTime} (fits : Numeral.minutes.Fits t) :
    Numeral.minutes.Counts t t.advanceMinute := by
  have digit : t.minutes.toNat < 60 := fits.1
  have next := toNat_next_digit t.minutes masks.minutes 6 rfl (by omega)
  have higher := counts_hour (t := { t with minutes := 0 }) fits.2
  unfold advanceMinute
  simp only [beq_iff_eq, ← UInt8.toNat_inj, next, UInt8.reduceToNat]
  split
  case isTrue full =>
    obtain ⟨_, _, _, same⟩ := advanceHour_eq { t with minutes := 0 }
    refine higher.carry full rfl rfl ?_
    rw [same]
  case isFalse more => exact .within (by omega) next fits.2 rfl rfl

theorem counts_second {t : ClockTime} (fits : Numeral.seconds.Fits t) :
    Numeral.seconds.Counts t t.advanceSecond := by
  have digit : t.seconds.toNat < 60 := fits.1
  have next := toNat_next_digit t.seconds masks.seconds 6 rfl (by omega)
  have higher := counts_minute (t := { t with seconds := 0 }) fits.2
  unfold advanceSecond
  simp only [beq_iff_eq, ← UInt8.toNat_inj, next, UInt8.reduceToNat]
  split
  case isTrue full =>
    obtain ⟨_, _, _, _, same⟩ := advanceMinute_eq { t with seconds := 0 }
    refine higher.carry full rfl rfl ?_
    rw [same]
  case isFalse more => exact .within (by omega) next fits.2 rfl rfl

theorem fits_seconds_iff (t : ClockTime) : Numeral.seconds.Fits t ↔ t.Proper :=
  ⟨fun ⟨seconds, minutes, hours, _⟩ => ⟨seconds, minutes, hours⟩,
    fun h => ⟨h.seconds, h.minutes, h.hours, trivial⟩⟩

theorem elapsed_eq (t : ClockTime) : t.elapsed = Numeral.seconds.value t := by
  change _ = t.seconds.toNat + 60 * (t.minutes.toNat + 60 * (t.hours.toNat + 24 * t.day))
  unfold elapsed
  omega

/-- What `n` seconds make of the time. -/
structure Later (n : Nat) (t later : ClockTime) : Prop where
  proper : later.Proper
  elapsed : later.elapsed = (t.elapsed + n) % (512 * 86400)
  wrapped : later.wrapped = true ↔ t.wrapped = true ∨ 512 * 86400 ≤ t.elapsed + n
  halted : later.halted = t.halted

theorem later_advanceSecond {t : ClockTime} (proper : t.Proper) : t.Later 1 t.advanceSecond := by
  obtain ⟨fits, one, wrapped⟩ := counts_second ((fits_seconds_iff t).mpr proper)
  rw [← elapsed_eq] at one wrapped
  rw [← elapsed_eq] at one
  exact ⟨(fits_seconds_iff _).mp fits, one, wrapped, halted_advanceSecond t⟩

/-- By induction on the seconds: the carry bit stays set, and the number is below 512 days again
after each of them. -/
theorem later_repeat {t : ClockTime} (proper : t.Proper) (n : Nat) :
    t.Later n (Nat.repeat advanceSecond n t) := by
  induction n with
  | zero =>
    have below := Numeral.seconds.value_lt t ((fits_seconds_iff t).mpr proper)
    rw [← elapsed_eq] at below
    change t.elapsed < 512 * 86400 at below
    refine ⟨proper, (Nat.mod_eq_of_lt below).symm, ?_, rfl⟩
    exact ⟨.inl, fun set => set.resolve_right (Nat.not_le.mpr below)⟩
  | succ n ih =>
    have next := later_advanceSecond ih.proper
    refine ⟨next.proper, ?_, ?_, next.halted.trans ih.halted⟩
    · calc _
        _ = ((Nat.repeat advanceSecond n t).elapsed + 1) % (512 * 86400) := next.elapsed
        _ = (t.elapsed + (n + 1)) % (512 * 86400) := by
          rw [ih.elapsed, Nat.mod_add_mod, Nat.add_assoc]
    · refine next.wrapped.trans ?_
      rw [ih.wrapped, ih.elapsed, or_assoc]
      exact or_congr_right (by omega)

end ClockTime

namespace Clock

def ticks (cuts : List Nat) (c : Clock) : Clock := cuts.foldl (fun c n => c.tick n) c

/-- What each of the stretches needs when its turn comes. -/
def TicksSafe : List Nat → Clock → Prop
  | [], _ => True
  | n :: cuts, c => c.TickSafe n ∧ TicksSafe cuts (c.tick n)

/-- What `n` cycles make of a clock: its time is later by the seconds that they complete, and what a
program reads stays as it was latched. -/
structure Later (n : Nat) (c later : Clock) : Prop where
  time : c.time.Later ((c.subsecond.toNat + n) / 2 ^ 22) later.time
  subsecond : later.subsecond.toNat = (c.subsecond.toNat + n) % 2 ^ 22
  latched : later.latched = c.latched
  lastLatch : later.lastLatch = c.lastLatch

/-- A clock that runs, with all its counters in their ranges. -/
structure Running (c : Clock) : Prop where
  running : c.time.halted = false
  proper : c.time.Proper
  subsecond : c.subsecond.toNat < 2 ^ 22

variable {c : Clock}

theorem Running.tick (h : c.Running) (n : Nat) : (c.tick n).Running ∧ c.Later n (c.tick n) := by
  rw [tick_running n c (by simp [h.running])]
  have time := ClockTime.later_repeat h.proper ((c.subsecond.toNat + n) / 2 ^ 22)
  have inside := Nat.mod_lt (c.subsecond.toNat + n) (show 0 < 2 ^ 22 by decide)
  have subsecond : (UInt32.ofNat ((c.subsecond.toNat + n) % 2 ^ 22)).toNat =
      (c.subsecond.toNat + n) % 2 ^ 22 := by
    rw [UInt32.toNat_ofNat', Nat.mod_eq_of_lt (by omega)]
  exact ⟨⟨time.halted.trans h.running, time.proper, subsecond.trans_lt inside⟩,
    time, subsecond, rfl, rfl⟩

theorem Running.ticks_eq (h : c.Running) (cuts : List Nat) : c.ticks cuts = c.tick cuts.sum := by
  induction cuts generalizing c with
  | nil => exact (tick_zero c h.subsecond).symm
  | cons n cuts ih => exact (ih (h.tick n).1).trans (tick_add n cuts.sum c).symm

theorem Running.ticksSafe (h : c.Running) {cuts : List Nat} (small : ∀ n ∈ cuts, n < 2 ^ 31) :
    c.TicksSafe cuts := by
  induction cuts generalizing c with
  | nil => trivial
  | cons n cuts ih =>
    have room := h.subsecond
    have short := small n (.head _)
    refine ⟨⟨by omega, fun i _ => ?_⟩, ih (h.tick n).1 fun n later => small n (.tail _ later)⟩
    obtain ⟨seconds, minutes, hours⟩ := (ClockTime.later_repeat h.proper i).proper
    exact ⟨by omega, by omega, by omega⟩

/-- The clock keeps exact time, however time is cut. No addition on the way leaves its type; the
registers then show the seconds that have passed since day 0, modulo 512 days, and the carry bit has
been set if they went round. What programs read stays as it was latched, and a clock that is halted
does not change at all. -/
theorem ticks_exact (c : Clock) (cuts : List Nat) (small : ∀ n ∈ cuts, n < 2 ^ 31) :
    (c.Running → c.TicksSafe cuts ∧ c.Later cuts.sum (c.ticks cuts)) ∧
      (c.time.halted = true → c.ticks cuts = c) := by
  refine ⟨fun running => ⟨running.ticksSafe small, ?_⟩, fun halted => ?_⟩
  · rw [running.ticks_eq]
    exact (running.tick _).2
  · clear small
    induction cuts with
    | nil => rfl
    | cons n cuts ih => exact (congrArg (ticks cuts) (tick_halted n c halted)).trans ih

def lastMoment : Clock := ⟨⟨59, 59, 23, 0xFF, 0x01⟩, .zero, 0x3FFFFF, none⟩

/-- One cycle and 512 seconds later day 0 has begun again, and 8 minutes and 31 seconds have passed
of it. -/
theorem ticks_exact_last :
    (lastMoment.ticks [1, 2 ^ 31 - 1]).time.elapsed = 8 * 60 + 31 ∧
      (lastMoment.ticks [1, 2 ^ 31 - 1]).time.wrapped = true := by
  have running : lastMoment.Running := ⟨by decide, ⟨by decide, by decide, by decide⟩, by decide⟩
  obtain ⟨-, later⟩ := (ticks_exact lastMoment [1, 2 ^ 31 - 1] (by simp)).1 running
  exact ⟨later.time.elapsed.trans rfl, later.time.wrapped.mpr (.inr (by decide))⟩

end Clock
end DotMatrix
