import DotMatrix.Proofs.Range.Channels

/-! The ranges that the sound unit keeps: those of its channels, and the positions within a
sequencer step and within a sample. -/
namespace DotMatrix

theorem Settings.effectiveRate_le (s : Settings) : s.effectiveRate ≤ cyclesPerSecond := by
  unfold Settings.effectiveRate
  split
  · decide
  · exact Nat.min_le_right _ _

theorem Settings.effectiveRate_pos (s : Settings) : 0 < s.effectiveRate := by
  unfold Settings.effectiveRate
  split
  · decide
  · rename_i nonzero
    have positive : s.sampleRate.toNat ≠ 0 := fun zero => nonzero (UInt32.toNat_inj.mp zero)
    simp only [cyclesPerSecond]
    omega

namespace Sound

structure InRange (s : Sound) : Prop where
  sequencerTimer : s.sequencerTimer.toNat < sequencerPeriod
  sequencerStep : s.sequencerStep ≤ 7
  samplePhase : s.samplePhase.toNat < cyclesPerSecond
  pulse1 : s.pulse1.InRange
  pulse2 : s.pulse2.InRange
  wave : s.wave.InRange
  noise : s.noise.InRange

theorem checkLayout_eq_ok (s : Sound) : s.checkLayout = .ok () ↔ s.InRange := by
  simp only [checkLayout, Except.andThen_eq_ok, require_eq_ok, Bool.and_eq_true,
    decide_eq_true_eq, Except.mapError_eq_ok, Pulse.checkLayout_eq_ok, Wave.checkLayout_eq_ok,
    Noise.checkLayout_eq_ok]
  constructor
  · rintro ⟨⟨timer, step⟩, phase, pulse1, pulse2, wave, noise⟩
    exact ⟨timer, step, phase, pulse1, pulse2, wave, noise⟩
  · intro h
    exact ⟨⟨h.sequencerTimer, h.sequencerStep⟩, h.samplePhase, h.pulse1, h.pulse2, h.wave, h.noise⟩

theorem powerOn_keeps {P : Sound → Prop} (start : P unbooted)
    (keeps : ∀ s address value, P s → P (s.write address value)) : P powerOn := by
  unfold powerOn
  apply List.foldlRecOn
  · exact start
  · intro s h entry _
    exact keeps s entry.1 entry.2 h

/-! A write goes to a register, to the switch or to the wave memory. -/

theorem not_inRegisters {address : UInt16} (inside : InWave address) : ¬InRegisters address := by
  have first : 0xFF30 ≤ address.toNat := inside.1
  rintro ⟨-, last⟩
  have last : address.toNat ≤ 0xFF25 := last
  omega

theorem ne_switch {address : UInt16} (inside : InWave address) : address ≠ 0xFF26 := by
  rintro rfl
  exact absurd inside (by decide)

theorem read_wave {address : UInt16} (inside : InWave address) (s : Sound) :
    s.read address = s.wave.ram.read (address.toNat - 0xFF30) := by
  unfold read
  rw [if_neg (not_inRegisters inside), if_neg (ne_switch inside), if_pos inside]

theorem write_wave {address : UInt16} (inside : InWave address) (value : UInt8) (s : Sound) :
    s.write address value =
      { s with wave := { s.wave with ram := s.wave.ram.write (address.toNat - 0xFF30) value } } := by
  unfold write
  rw [if_neg (not_inRegisters inside), if_neg (ne_switch inside), if_pos inside]

namespace InRange
variable {s : Sound}

theorem applyWrite (h : s.InRange) (address : UInt16) (value : UInt8) :
    (s.applyWrite address value).InRange := by
  obtain ⟨timer, step, phase, pulse1, pulse2, wave, noise⟩ := h
  unfold Sound.applyWrite
  split
  · exact ⟨timer, step, phase, pulse1.writeSweep value, pulse2, wave, noise⟩
  · exact ⟨timer, step, phase, pulse1.writeDutyLength value, pulse2, wave, noise⟩
  · exact ⟨timer, step, phase, pulse1.writeEnvelope value, pulse2, wave, noise⟩
  · exact ⟨timer, step, phase, pulse1.writeFrequencyLow value, pulse2, wave, noise⟩
  · exact ⟨timer, step, phase, pulse1.writeControl value, pulse2, wave, noise⟩
  · exact ⟨timer, step, phase, pulse1, pulse2.writeDutyLength value, wave, noise⟩
  · exact ⟨timer, step, phase, pulse1, pulse2.writeEnvelope value, wave, noise⟩
  · exact ⟨timer, step, phase, pulse1, pulse2.writeFrequencyLow value, wave, noise⟩
  · exact ⟨timer, step, phase, pulse1, pulse2.writeControl value, wave, noise⟩
  · exact ⟨timer, step, phase, pulse1, pulse2, wave.writeConverter value, noise⟩
  · exact ⟨timer, step, phase, pulse1, pulse2, wave.writeLength value, noise⟩
  · exact ⟨timer, step, phase, pulse1, pulse2, wave.writeVolume value, noise⟩
  · exact ⟨timer, step, phase, pulse1, pulse2, wave.writeFrequencyLow value, noise⟩
  · exact ⟨timer, step, phase, pulse1, pulse2, wave.writeControl value, noise⟩
  · exact ⟨timer, step, phase, pulse1, pulse2, wave, noise.writeLength value⟩
  · exact ⟨timer, step, phase, pulse1, pulse2, wave, noise.writeEnvelope value⟩
  · exact ⟨timer, step, phase, pulse1, pulse2, wave, noise.writePolynomial value⟩
  · exact ⟨timer, step, phase, pulse1, pulse2, wave, noise.writeControl value⟩
  · exact ⟨timer, step, phase, pulse1, pulse2, wave, noise⟩

theorem writePower (h : s.InRange) (value : UInt8) : (s.writePower value).InRange := by
  unfold Sound.writePower
  dsimp only
  split
  · exact ⟨h.sequencerTimer, h.sequencerStep, h.samplePhase, .off true, .off false, .off _, .off⟩
  · split
    · exact ⟨(by decide : (0 : UInt32).toNat < sequencerPeriod), (by decide : (0 : UInt8) ≤ 7),
        h.samplePhase, h.pulse1, h.pulse2, h.wave, h.noise⟩
    · exact h

theorem write (h : s.InRange) (address : UInt16) (value : UInt8) :
    (s.write address value).InRange := by
  have written : { s with registers := s.registers.write (index address) value }.InRange :=
    ⟨h.sequencerTimer, h.sequencerStep, h.samplePhase, h.pulse1, h.pulse2, h.wave, h.noise⟩
  unfold Sound.write
  split
  · split
    · exact written.applyWrite address value
    · exact h
  · split
    · exact h.writePower value
    · split
      · exact ⟨h.sequencerTimer, h.sequencerStep, h.samplePhase, h.pulse1, h.pulse2,
          h.wave.replaceRam _, h.noise⟩
      · exact h

theorem unbooted : Sound.unbooted.InRange :=
  ⟨by decide, by decide, by decide, .off true, .off false, .off _, .off⟩

theorem powerOn : Sound.powerOn.InRange :=
  powerOn_keeps unbooted fun _ address value h => h.write address value

theorem stepChannels (h : s.InRange) (cycles : Nat) : (s.stepChannels cycles).InRange :=
  ⟨h.sequencerTimer, h.sequencerStep, h.samplePhase, h.pulse1.step cycles, h.pulse2.step cycles,
    h.wave.step cycles, h.noise.step cycles⟩

theorem clockLengths (h : s.InRange) : s.clockLengths.InRange :=
  ⟨h.sequencerTimer, h.sequencerStep, h.samplePhase, h.pulse1.clockLength, h.pulse2.clockLength,
    h.wave.clockLength, h.noise.clockLength⟩

theorem clockSweep (h : s.InRange) : { s with pulse1 := s.pulse1.clockSweep }.InRange :=
  ⟨h.sequencerTimer, h.sequencerStep, h.samplePhase, h.pulse1.clockSweep, h.pulse2, h.wave,
    h.noise⟩

theorem clockEnvelopes (h : s.InRange) : s.clockEnvelopes.InRange :=
  ⟨h.sequencerTimer, h.sequencerStep, h.samplePhase, h.pulse1.clockEnvelope,
    h.pulse2.clockEnvelope, h.wave, h.noise.clockEnvelope⟩

theorem clockSequencer (h : s.InRange) : s.clockSequencer.InRange := by
  have choose : ∀ (c : Bool) (changed same : Sound), changed.InRange → same.InRange →
      (if c then changed else same).InRange := by
    rintro (_ | _) _ _ hc hs
    · exact hs
    · exact hc
  unfold Sound.clockSequencer
  have lengths := choose (s.sequencerStep % 2 == 0) _ _ h.clockLengths h
  have sweep :=
    choose (s.sequencerStep == 2 || s.sequencerStep == 6) _ _ lengths.clockSweep lengths
  have envelopes := choose (s.sequencerStep == 7) _ _ sweep.clockEnvelopes sweep
  exact ⟨envelopes.sequencerTimer, and_le_mask _ 7, envelopes.samplePhase, envelopes.pulse1,
    envelopes.pulse2, envelopes.wave, envelopes.noise⟩

theorem runSlice (h : s.InRange) {cycles : Nat}
    (within : s.powered = true → s.sequencerTimer.toNat + cycles ≤ sequencerPeriod) :
    (s.runSlice cycles).InRange := by
  have ran := h.stepChannels cycles
  unfold Sound.runSlice
  split
  · have within := within (by assumption)
    dsimp only
    split
    · have restarted : { s.stepChannels cycles with sequencerTimer := 0 }.InRange :=
        ⟨(by decide : (0 : UInt32).toNat < sequencerPeriod), ran.sequencerStep, ran.samplePhase,
          ran.pulse1, ran.pulse2, ran.wave, ran.noise⟩
      exact restarted.clockSequencer
    · rename_i between
      refine ⟨?_, ran.sequencerStep, ran.samplePhase, ran.pulse1, ran.pulse2, ran.wave, ran.noise⟩
      have same : (s.stepChannels cycles).sequencerTimer = s.sequencerTimer := rfl
      simp only [same, sequencerPeriod, UInt32.toNat_ofNat'] at *
      omega
  · exact h

end InRange

/-- Neither a step of the sequencer nor a sample is overdue. It takes no more for time to go on. -/
structure Paced (s : Sound) : Prop where
  sequencerTimer : s.sequencerTimer.toNat < sequencerPeriod
  samplePhase : s.samplePhase.toNat < cyclesPerSecond

theorem InRange.paced {s : Sound} (h : s.InRange) : s.Paced := ⟨h.sequencerTimer, h.samplePhase⟩

def toSample (rate : Nat) (s : Sound) : Nat :=
  (cyclesPerSecond - s.samplePhase.toNat + rate - 1) / rate

/-- Time in which no sample falls due and the sequencer does not step, up to its last cycle. -/
structure Quiet (rate cycles : Nat) (s : Sound) : Prop where
  sample : cycles ≤ s.toSample rate
  sequencer : s.powered = true → s.sequencerTimer.toNat + cycles ≤ sequencerPeriod

theorem Paced.quiet_slice {s : Sound} (h : s.Paced) (rate remaining : Nat) :
    s.Quiet rate (s.slice rate remaining) := by
  refine ⟨Nat.le_trans (Nat.min_le_right _ _) (Nat.min_le_right _ _), fun _ => ?_⟩
  have cut : s.slice rate remaining ≤ sequencerPeriod - s.sequencerTimer.toNat :=
    Nat.le_trans (Nat.min_le_right _ _) (Nat.min_le_left _ _)
  have timer := h.sequencerTimer
  omega

theorem le_toSample_iff (rate cycles : Nat) (s : Sound) (positive : 0 < rate)
    (phase : s.samplePhase.toNat < cyclesPerSecond) :
    cycles ≤ s.toSample rate ↔
      s.samplePhase.toNat + cycles * rate < cyclesPerSecond + rate := by
  unfold toSample
  rw [Nat.le_div_iff_mul_le positive]
  omega

theorem slice_ne_zero (settings : Settings) (n : Nat) (s : Sound) (h : s.Paced) (some : n ≠ 0) :
    s.slice settings.effectiveRate n ≠ 0 := by
  have positive := settings.effectiveRate_pos
  have timer := h.sequencerTimer
  have sample : 1 ≤ s.toSample settings.effectiveRate := by
    rw [le_toSample_iff _ _ _ positive h.samplePhase]
    have phase := h.samplePhase
    omega
  unfold toSample at sample
  unfold slice
  dsimp only
  omega

theorem samplePhase_clockSequencer (s : Sound) : s.clockSequencer.samplePhase = s.samplePhase := by
  unfold clockSequencer
  dsimp only
  repeat' split
  all_goals rfl

theorem sequencerTimer_clockSequencer (s : Sound) :
    s.clockSequencer.sequencerTimer = s.sequencerTimer := by
  unfold clockSequencer
  dsimp only
  repeat' split
  all_goals rfl

theorem samplePhase_runSlice (cycles : Nat) (s : Sound) :
    (s.runSlice cycles).samplePhase = s.samplePhase := by
  unfold runSlice
  dsimp only
  split
  · split
    · exact samplePhase_clockSequencer _
    · rfl
  · rfl

/-- Enters the new phase; a sample is due when it has reached a second. -/
def settle (settings : Settings) (phase : Nat) (s : Sound) (samples : Array Single) :
    Sound × Array Single :=
  if phase < cyclesPerSecond then ({ s with samplePhase := UInt64.ofNat phase }, samples)
  else
    let next := { s with samplePhase := UInt64.ofNat (phase - cyclesPerSecond) }.filter settings
    (next, (samples.push next.left.sample).push next.right.sample)

def pass (settings : Settings) (cycles : Nat) (s : Sound) (samples : Array Single) :
    Sound × Array Single :=
  settle settings (s.samplePhase.toNat + cycles * settings.effectiveRate) (s.runSlice cycles)
    samples

theorem tick_idle (settings : Settings) (cycles : Nat) (s : Sound) (samples : Array Single)
    (none : s.slice settings.effectiveRate cycles = 0) :
    s.tick settings cycles samples = (s, samples) := by
  unfold tick
  exact if_pos none

theorem tick_eq_pass (settings : Settings) (cycles cut : Nat) (s : Sound)
    (samples : Array Single) (cut_eq : s.slice settings.effectiveRate cycles = cut)
    (goes : cut ≠ 0) :
    s.tick settings cycles samples =
      (s.pass settings cut samples).1.tick settings (cycles - cut)
        (s.pass settings cut samples).2 := by
  subst cut_eq
  conv => lhs; unfold tick
  unfold pass settle
  dsimp only
  rw [if_neg goes, samplePhase_runSlice]
  split
  · rfl
  · rfl

theorem tick_append (settings : Settings) (cycles : Nat) (s : Sound)
    (pending samples : Array Single) :
    s.tick settings cycles (pending ++ samples) =
      ((s.tick settings cycles samples).1, pending ++ (s.tick settings cycles samples).2) := by
  fun_induction tick settings cycles s samples with
  | case1 cycles s samples rate cut stays =>
    unfold tick
    exact if_pos stays
  | case2 cycles s samples rate cut goes ran phase before ih =>
    rw [← ih]
    conv => lhs; unfold tick
    rw [if_neg goes, if_pos before]
  | case3 cycles s samples rate cut goes ran phase reached next ih =>
    rw [← ih]
    conv => lhs; unfold tick
    rw [if_neg goes, if_neg reached]
    simp only [Array.append_push]
    rfl

theorem inRange_filter (settings : Settings) (s : Sound) (h : s.InRange) :
    (s.filter settings).InRange :=
  ⟨h.sequencerTimer, h.sequencerStep, h.samplePhase, h.pulse1, h.pulse2, h.wave, h.noise⟩

theorem inRange_samplePhase (phase : Nat) (s : Sound) (h : s.InRange)
    (inside : phase < cyclesPerSecond) : { s with samplePhase := UInt64.ofNat phase }.InRange := by
  refine ⟨h.sequencerTimer, h.sequencerStep, ?_, h.pulse1, h.pulse2, h.wave, h.noise⟩
  simp only [cyclesPerSecond, UInt64.toNat_ofNat'] at *
  omega

theorem inRange_pass (settings : Settings) (cycles : Nat) (s : Sound) (samples : Array Single)
    (h : s.InRange) (quiet : s.Quiet settings.effectiveRate cycles) :
    (s.pass settings cycles samples).1.InRange := by
  have ran := h.runSlice quiet.sequencer
  have product :=
    (le_toSample_iff _ cycles s settings.effectiveRate_pos h.samplePhase).mp quiet.sample
  have rate_le := settings.effectiveRate_le
  unfold pass settle
  split
  case isTrue before => exact inRange_samplePhase _ _ ran before
  case isFalse reached =>
    exact inRange_filter settings _ (inRange_samplePhase _ _ ran (by omega))

theorem sequencerTimer_runSlice (cycles : Nat) (s : Sound)
    (timer : s.sequencerTimer.toNat < sequencerPeriod)
    (within : s.powered = true → s.sequencerTimer.toNat + cycles ≤ sequencerPeriod) :
    (s.runSlice cycles).sequencerTimer.toNat < sequencerPeriod := by
  unfold runSlice
  split
  case isTrue on =>
    have within := within on
    dsimp only
    split
    case isTrue =>
      rw [sequencerTimer_clockSequencer]
      exact (by decide : (0 : UInt32).toNat < sequencerPeriod)
    case isFalse between =>
      have same : (s.stepChannels cycles).sequencerTimer = s.sequencerTimer := rfl
      simp only [same, sequencerPeriod, UInt32.toNat_ofNat'] at *
      omega
  case isFalse => exact timer

theorem paced_filter (settings : Settings) (s : Sound) (h : s.Paced) :
    (s.filter settings).Paced :=
  ⟨h.sequencerTimer, h.samplePhase⟩

theorem paced_samplePhase (phase : Nat) (s : Sound)
    (timer : s.sequencerTimer.toNat < sequencerPeriod) (inside : phase < cyclesPerSecond) :
    { s with samplePhase := UInt64.ofNat phase }.Paced := by
  refine ⟨timer, ?_⟩
  simp only [cyclesPerSecond, UInt64.toNat_ofNat'] at *
  omega

theorem paced_pass (settings : Settings) (cycles : Nat) (s : Sound) (samples : Array Single)
    (h : s.Paced) (quiet : s.Quiet settings.effectiveRate cycles) :
    (s.pass settings cycles samples).1.Paced := by
  have timer := sequencerTimer_runSlice cycles s h.sequencerTimer quiet.sequencer
  have product :=
    (le_toSample_iff _ cycles s settings.effectiveRate_pos h.samplePhase).mp quiet.sample
  have rate_le := settings.effectiveRate_le
  unfold pass settle
  split
  case isTrue before => exact paced_samplePhase _ _ timer before
  case isFalse reached =>
    exact paced_filter settings _ (paced_samplePhase _ _ timer (by omega))

/-- What every slice keeps, time keeps. -/
theorem tick_keeps {P : Sound → Prop} (settings : Settings)
    (keeps : ∀ cycles s samples, s.Paced → s.Quiet settings.effectiveRate cycles → P s →
      P (s.pass settings cycles samples).1)
    (cycles : Nat) (s : Sound) (samples : Array Single) (h : s.Paced) (start : P s) :
    P (s.tick settings cycles samples).1 := by
  induction cycles using Nat.strongRecOn generalizing s samples with
  | ind cycles ih =>
    by_cases none : s.slice settings.effectiveRate cycles = 0
    · rw [tick_idle settings cycles s samples none]
      exact start
    have cut_le := slice_le settings.effectiveRate cycles s
    have quiet := h.quiet_slice settings.effectiveRate cycles
    rw [tick_eq_pass settings cycles _ s samples rfl none]
    exact ih _ (by omega) _ _ (paced_pass settings _ s samples h quiet)
      (keeps _ s samples h quiet start)

theorem paced_tick (settings : Settings) (cycles : Nat) (s : Sound) (samples : Array Single)
    (h : s.Paced) : (s.tick settings cycles samples).1.Paced :=
  tick_keeps settings (fun n s samples _ quiet h => paced_pass settings n s samples h quiet)
    cycles s samples h h

theorem inRange_tick (settings : Settings) (cycles : Nat) (s : Sound) (samples : Array Single)
    (h : s.InRange) : (s.tick settings cycles samples).1.InRange :=
  tick_keeps settings (fun n s samples _ quiet h => inRange_pass settings n s samples h quiet)
    cycles s samples h.paced h

end Sound
end DotMatrix
