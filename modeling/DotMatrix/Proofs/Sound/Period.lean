import DotMatrix.Proofs.Sound.PowerCycle
import Mathlib.Algebra.GroupWithZero.Nat

/-! The period timers of the channels. While a unit runs they stay below the longest periods, and
each of the two pulse channels goes on to the next step of its waveform when its timer runs out. -/
namespace DotMatrix

theorem toNat_ofNat_le {value bound : Nat} (h : value ≤ bound) :
    (UInt32.ofNat value).toNat ≤ bound := by
  rw [UInt32.toNat_ofNat']
  exact Nat.le_trans (Nat.mod_le _ _) h

theorem Countdown.toNat_advance_le {period timer bound : Nat} (cycles : Nat)
    (period_le : period ≤ bound) (timer_le : timer ≤ bound) :
    (UInt32.ofNat (advance period timer cycles 0).1).toNat ≤ bound :=
  toNat_ofNat_le (Nat.le_of_lt_succ (advance_lt period timer cycles 0 (bound + 1)
    (Nat.lt_succ_of_le period_le) (Nat.lt_succ_of_le timer_le)))

namespace Pulse
variable {p : Pulse}

/-- The period of the lowest frequency. -/
def longestPeriod : Nat := 8192

def dial (p : Pulse) : UInt32 × UInt8 := (p.timer, p.position)

theorem period_le (p : Pulse) : p.period ≤ longestPeriod := by
  unfold period longestPeriod
  omega

theorem timer_writeControl (value : UInt8) (h : p.timer.toNat ≤ longestPeriod) :
    (p.writeControl value).timer.toNat ≤ longestPeriod := by
  unfold writeControl
  dsimp only
  split
  · exact toNat_ofNat_le (p.tune value).period_le
  · exact h

theorem timer_step (cycles : Nat) (h : p.timer.toNat ≤ longestPeriod) :
    (p.step cycles).timer.toNat ≤ longestPeriod :=
  Countdown.toNat_advance_le cycles p.period_le h

theorem dial_applySweep (s : Sweep) (p : Pulse) : (p.applySweep s).dial = p.dial := by
  unfold applySweep
  dsimp only
  repeat' split
  all_goals rfl

theorem dial_clockSweep (p : Pulse) : p.clockSweep.dial = p.dial := by
  unfold clockSweep
  split
  · rfl
  · rename_i s _
    dsimp only
    generalize (if s.timer > 0 then s.timer - 1 else s.timer) = timer
    split
    · exact dial_applySweep _ p
    · rfl

/-- The cycles until the next step of the waveform. -/
def wait (p : Pulse) : Nat := Countdown.loaded p.period p.timer.toNat

theorem wait_pos (h : p.InRange) : 0 < p.wait := by
  have frequency : p.frequency.toNat ≤ 2047 := h.frequency
  unfold wait Countdown.loaded period
  split <;> omega

/-- Only a timer that is above all periods makes the channel wait longer than one of them. -/
theorem wait_le_iff (p : Pulse) : p.wait ≤ longestPeriod ↔ p.timer.toNat ≤ longestPeriod := by
  unfold wait Countdown.loaded
  split
  case isTrue zero => exact iff_of_true p.period_le (by omega)
  case isFalse => exact Iff.rfl

theorem step_waiting (more : 1 < p.wait) (inside : p.position ≤ 7) :
    (p.step 1).position = p.position ∧ (p.step 1).timer.toNat = p.wait - 1 := by
  have small : p.wait < 2 ^ 32 := by
    have period := p.period_le
    have timer := p.timer.toNat_lt
    simp only [wait, Countdown.loaded, longestPeriod] at *
    split <;> omega
  have counted := Countdown.advance_within p.period p.timer.toNat 1 0 (by decide) more
  unfold step
  rw [counted]
  refine ⟨?_, ?_⟩
  · have bound : p.position.toNat ≤ 7 := inside
    rw [← UInt8.toNat_inj]
    change (UInt8.ofNat (p.position.toNat % 8)).toNat = _
    rw [Nat.mod_eq_of_lt (by omega), UInt8.toNat_ofNat', Nat.mod_eq_of_lt p.position.toNat_lt]
  · change (UInt32.ofNat (p.wait - 1)).toNat = _
    rw [UInt32.toNat_ofNat', Nat.mod_eq_of_lt]
    omega

theorem step_due (due : p.wait = 1) :
    (p.step 1).position.toNat = (p.position.toNat + 1) % 8 := by
  have counted := Countdown.advance_reload p.period p.timer.toNat 1 0 (by
    change p.wait ≠ 0
    omega) (Nat.le_of_eq due)
  have rest : Countdown.loaded p.period p.timer.toNat = 1 := due
  rw [rest, Nat.sub_self, Countdown.advance_zero] at counted
  unfold step
  rw [counted]
  change (UInt8.ofNat _).toNat = _
  rw [UInt8.toNat_ofNat', Nat.mod_eq_of_lt]
  omega

end Pulse

namespace Wave
variable {w : Wave}

def longestPeriod : Nat := 4096

theorem period_le (w : Wave) : w.period ≤ longestPeriod := by
  unfold period longestPeriod
  omega

theorem timer_writeControl (value : UInt8) (h : w.timer.toNat ≤ longestPeriod) :
    (w.writeControl value).timer.toNat ≤ longestPeriod := by
  unfold writeControl
  dsimp only
  split
  · exact toNat_ofNat_le (w.tune value).period_le
  · exact h

theorem timer_step (cycles : Nat) (h : w.timer.toNat ≤ longestPeriod) :
    (w.step cycles).timer.toNat ≤ longestPeriod :=
  Countdown.toNat_advance_le cycles w.period_le h

end Wave

namespace Noise
variable {n : Noise}

/-- The largest divisor, shifted as far as it goes. -/
def longestPeriod : Nat := 112 * 2 ^ 15

theorem period_le (h : n.InRange) : n.period ≤ longestPeriod := by
  have divisor : n.divisor.toNat ≤ 7 := h.divisor
  have shift : n.shift.toNat ≤ 15 := h.shift
  have base : (if n.divisor == 0 then 8 else 16 * n.divisor.toNat) ≤ 112 := by
    split <;> omega
  unfold period
  rw [Nat.shiftLeft_eq]
  exact Nat.mul_le_mul base (Nat.pow_le_pow_right (by decide) shift)

theorem timer_writeControl (value : UInt8) (inRange : n.InRange)
    (h : n.timer.toNat ≤ longestPeriod) : (n.writeControl value).timer.toNat ≤ longestPeriod := by
  unfold writeControl
  dsimp only
  split
  · have fits : n.period ≤ longestPeriod := period_le inRange
    exact toNat_ofNat_le fits
  · exact h

theorem timer_step (cycles : Nat) (inRange : n.InRange) (h : n.timer.toNat ≤ longestPeriod) :
    (n.step cycles).timer.toNat ≤ longestPeriod := by
  by_cases still : n.shift ≥ 14
  · rw [step_still cycles n still]
    exact h
  · rw [step_clocked cycles n still]
    exact Countdown.toNat_advance_le cycles (period_le inRange) h

end Noise

namespace Sound
variable {s : Sound}

/-- No period timer is above the longest period of its channel. -/
structure TimersInRange (s : Sound) : Prop where
  pulse1 : s.pulse1.timer.toNat ≤ Pulse.longestPeriod
  pulse2 : s.pulse2.timer.toNat ≤ Pulse.longestPeriod
  wave : s.wave.timer.toNat ≤ Wave.longestPeriod
  noise : s.noise.timer.toNat ≤ Noise.longestPeriod

def dials (s : Sound) : (UInt32 × UInt8) × (UInt32 × UInt8) × UInt32 × UInt32 :=
  (s.pulse1.dial, s.pulse2.dial, s.wave.timer, s.noise.timer)

theorem dials_lengthsIf (due : Bool) (s : Sound) : (s.lengthsIf due).dials = s.dials := by
  cases due <;> rfl

theorem dials_sweepIf (due : Bool) (s : Sound) : (s.sweepIf due).dials = s.dials := by
  cases due with
  | true => exact congrArg (·, _) s.pulse1.dial_clockSweep
  | false => rfl

theorem dials_envelopesIf (due : Bool) (s : Sound) : (s.envelopesIf due).dials = s.dials := by
  cases due <;> rfl

theorem dials_clockSequencer (s : Sound) : s.clockSequencer.dials = s.dials := by
  rw [clockSequencer_eq]
  change (envelopesIf _ _).dials = _
  rw [dials_envelopesIf, dials_sweepIf, dials_lengthsIf]

theorem dials_runSlice (cycles : Nat) (on : s.powered = true) :
    (s.runSlice cycles).dials = (s.stepChannels cycles).dials := by
  by_cases reaches : s.sequencerTimer.toNat + cycles = sequencerPeriod
  · rw [runSlice_reaches cycles s on reaches, dials_clockSequencer]
    rfl
  · rw [runSlice_between cycles s on reaches]
    rfl

namespace TimersInRange

theorem congr {next : Sound} (h : s.TimersInRange) (same : next.dials = s.dials) :
    next.TimersInRange := by
  obtain ⟨first, rest⟩ := Prod.mk.inj same
  obtain ⟨second, rest⟩ := Prod.mk.inj rest
  obtain ⟨third, fourth⟩ := Prod.mk.inj rest
  refine ⟨?_, ?_, third ▸ h.wave, fourth ▸ h.noise⟩
  · rw [show next.pulse1.timer = s.pulse1.timer from congrArg Prod.fst first]
    exact h.pulse1
  · rw [show next.pulse2.timer = s.pulse2.timer from congrArg Prod.fst second]
    exact h.pulse2

theorem off (s : Sound) : s.switchedOff.TimersInRange :=
  ⟨Nat.zero_le _, Nat.zero_le _, Nat.zero_le _, Nat.zero_le _⟩

theorem applyWrite (h : s.TimersInRange) (inRange : s.InRange) (address : UInt16) (value : UInt8) :
    (s.applyWrite address value).TimersInRange := by
  obtain ⟨pulse1, pulse2, wave, noise⟩ := h
  unfold Sound.applyWrite
  split
  case h_5 => exact ⟨Pulse.timer_writeControl value pulse1, pulse2, wave, noise⟩
  case h_9 => exact ⟨pulse1, Pulse.timer_writeControl value pulse2, wave, noise⟩
  case h_14 => exact ⟨pulse1, pulse2, Wave.timer_writeControl value wave, noise⟩
  case h_18 => exact ⟨pulse1, pulse2, wave, Noise.timer_writeControl value inRange.noise noise⟩
  all_goals exact ⟨pulse1, pulse2, wave, noise⟩

theorem write (h : s.TimersInRange) (inRange : s.InRange) (address : UInt16) (value : UInt8) :
    (s.write address value).TimersInRange := by
  obtain ⟨-, written⟩ | ⟨-, written⟩ | ⟨-, ram, written⟩ := write_cases address value s
  · rw [written]
    split
    · obtain ⟨timer, step, phase, pulse1, pulse2, wave, noise⟩ := inRange
      have stored : { s with registers := s.registers.write (index address) value }.TimersInRange :=
        ⟨h.pulse1, h.pulse2, h.wave, h.noise⟩
      exact stored.applyWrite ⟨timer, step, phase, pulse1, pulse2, wave, noise⟩ address value
    · exact h
  · rw [written]
    obtain ⟨-, -, moved⟩ | ⟨-, -, moved⟩ | ⟨-, same⟩ := writePower_cases value s
    · rw [moved]
      exact off s
    · rw [moved]
      exact ⟨h.pulse1, h.pulse2, h.wave, h.noise⟩
    · rw [same]
      exact h
  · rw [written]
    exact ⟨h.pulse1, h.pulse2, h.wave, h.noise⟩

theorem runSlice (h : s.TimersInRange) (inRange : s.InRange) (cycles : Nat) :
    (s.runSlice cycles).TimersInRange := by
  by_cases power : s.powered = true
  · refine congr ?_ (dials_runSlice cycles power)
    exact ⟨Pulse.timer_step cycles h.pulse1, Pulse.timer_step cycles h.pulse2,
      Wave.timer_step cycles h.wave, Noise.timer_step cycles inRange.noise h.noise⟩
  · rw [runSlice_off cycles s power]
    exact h

end TimersInRange

/-- All ranges, with those of the period timers. -/
def Running (s : Sound) : Prop := s.InRange ∧ s.TimersInRange

theorem Running.write (h : s.Running) (address : UInt16) (value : UInt8) :
    (s.write address value).Running :=
  ⟨h.1.write address value, h.2.write h.1 address value⟩

theorem Running.tick (h : s.Running) (settings : Settings) (cycles : Nat)
    (samples : Array Single) : (s.tick settings cycles samples).1.Running := by
  refine tick_keeps settings (fun n t samples _ quiet running => ?_) cycles s samples h.1.paced h
  refine ⟨inRange_pass settings n t samples running.1 quiet, ?_⟩
  exact (running.2.runSlice running.1 n).congr (congrArg dials (core_pass settings n t samples) :)

theorem Running.powerOn : Sound.powerOn.Running := by
  apply powerOn_keeps
  · exact ⟨.unbooted, ⟨by decide, by decide, by decide, by decide⟩⟩
  · intro s address value h
    exact h.write address value

def pulse (i : Fin 2) (s : Sound) : Pulse :=
  match i with
  | 0 => s.pulse1
  | 1 => s.pulse2

theorem InRange.pulse (h : s.InRange) (i : Fin 2) : (s.pulse i).InRange :=
  match i with
  | 0 => h.pulse1
  | 1 => h.pulse2

theorem dial_cycle (i : Fin 2) (on : s.powered = true) :
    ((s.runSlice 1).pulse i).dial = ((s.pulse i).step 1).dial := by
  obtain ⟨first, rest⟩ := Prod.mk.inj (dials_runSlice 1 on)
  obtain ⟨second, -⟩ := Prod.mk.inj rest
  match i with
  | 0 => exact first
  | 1 => exact second

theorem wait_cycles (i : Fin 2) (on : s.powered = true) (inRange : s.InRange) (n : Nat)
    (before : n < (s.pulse i).wait) :
    (((runSlice 1)^[n] s).pulse i).wait = (s.pulse i).wait - n ∧
      (((runSlice 1)^[n] s).pulse i).position = (s.pulse i).position ∧
        ((runSlice 1)^[n] s).powered = true := by
  induction n with
  | zero => exact ⟨rfl, rfl, on⟩
  | succ n ih =>
    obtain ⟨wait, position, power⟩ := ih (by omega)
    have inside : (((runSlice 1)^[n] s).pulse i).position ≤ 7 :=
      position ▸ (inRange.pulse i).position
    obtain ⟨stays, counts⟩ := Pulse.step_waiting (by omega) inside
    have dial := dial_cycle i power
    rw [Function.iterate_succ_apply']
    obtain ⟨timer, stood⟩ := Prod.mk.inj dial
    refine ⟨?_, stood.trans (stays.trans position), (powered_runSlice 1 _).trans power⟩
    have running : ((runSlice 1 ((runSlice 1)^[n] s)).pulse i).timer.toNat =
        (s.pulse i).wait - (n + 1) := by
      rw [timer, counts, wait]
      omega
    unfold Pulse.wait
    rw [Countdown.loaded_pos _ _ (by omega), running]
    rfl

theorem position_wait (i : Fin 2) (on : s.powered = true) (inRange : s.InRange) :
    (((runSlice 1)^[(s.pulse i).wait] s).pulse i).position.toNat =
      ((s.pulse i).position.toNat + 1) % 8 := by
  have some := Pulse.wait_pos (inRange.pulse i)
  obtain ⟨n, last⟩ : ∃ n, (s.pulse i).wait = n + 1 := ⟨_, (Nat.succ_pred_eq_of_pos some).symm⟩
  obtain ⟨wait, position, power⟩ := wait_cycles i on inRange n (by omega)
  have due : (((runSlice 1)^[n] s).pulse i).wait = 1 := by omega
  have dial := congrArg Prod.snd (dial_cycle i power)
  rw [last, Function.iterate_succ_apply', ← position, ← Pulse.step_due due]
  exact congrArg UInt8.toNat dial

/-- In so many cycles the channel goes on to the next step of its waveform. -/
def AdvancesWithin (cycles : Nat) (i : Fin 2) (settings : Settings) (samples : Array Single)
    (s : Sound) : Prop :=
  ∃ n, n ≤ cycles ∧ ((s.tick settings n samples).1.pulse i).position.toNat =
    ((s.pulse i).position.toNat + 1) % 8

theorem advancesWithin_iff (i : Fin 2) (settings : Settings) (samples : Array Single)
    (on : s.powered = true) (inRange : s.InRange) :
    s.AdvancesWithin Pulse.longestPeriod i settings samples ↔
      (s.pulse i).timer.toNat ≤ Pulse.longestPeriod := by
  have ticked (n : Nat) :
      ((s.tick settings n samples).1.pulse i).position =
        (((runSlice 1)^[n] s.core).pulse i).position := by
    rw [← core_tick settings n s samples inRange.paced]
    match i with
    | 0 | 1 => rfl
  have same : s.core.pulse i = s.pulse i := by
    match i with
    | 0 | 1 => rfl
  have core : s.core.InRange :=
    ⟨inRange.sequencerTimer, inRange.sequencerStep,
      (by decide : (0 : UInt64).toNat < cyclesPerSecond), inRange.pulse1, inRange.pulse2,
      inRange.wave, inRange.noise⟩
  rw [← Pulse.wait_le_iff, ← same]
  constructor
  · rintro ⟨n, within, advanced⟩
    by_contra long
    obtain ⟨-, stays, -⟩ := wait_cycles i (s := s.core) on core n (by omega)
    have inside : (s.core.pulse i).position.toNat ≤ 7 := (core.pulse i).position
    rw [ticked, stays, ← same] at advanced
    omega
  · intro short
    refine ⟨_, short, ?_⟩
    rw [ticked, position_wait i (s := s.core) on core, same]

end Sound
end DotMatrix
