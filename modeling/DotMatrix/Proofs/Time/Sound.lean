import DotMatrix.Proofs.Time.Channels

/-! The sound unit cuts time at its own steps and at the samples. A cut anywhere between them
changes nothing, so two stretches of time are the same as their sum. -/
namespace DotMatrix.Sound
variable (settings : Settings)

theorem runSlice_off (cycles : Nat) (s : Sound) (off : ¬s.powered = true) :
    s.runSlice cycles = s := by
  unfold runSlice
  exact if_neg off

/-- A slice that ends before the sequencer's step. -/
theorem runSlice_between (cycles : Nat) (s : Sound) (on : s.powered = true)
    (between : s.sequencerTimer.toNat + cycles ≠ sequencerPeriod) :
    s.runSlice cycles =
      { s.stepChannels cycles with
        sequencerTimer := UInt32.ofNat (s.sequencerTimer.toNat + cycles) } := by
  unfold runSlice
  rw [if_pos on]
  exact if_neg between

theorem runSlice_reaches (cycles : Nat) (s : Sound) (on : s.powered = true)
    (reaches : s.sequencerTimer.toNat + cycles = sequencerPeriod) :
    s.runSlice cycles = { s.stepChannels cycles with sequencerTimer := 0 }.clockSequencer := by
  unfold runSlice
  rw [if_pos on]
  exact if_pos reaches

theorem clockSequencer_samplePhase (phase : UInt64) (s : Sound) :
    { s with samplePhase := phase }.clockSequencer =
      { s.clockSequencer with samplePhase := phase } := by
  unfold clockSequencer
  dsimp only
  repeat' split
  all_goals rfl

theorem runSlice_samplePhase (cycles : Nat) (phase : UInt64) (s : Sound) :
    { s with samplePhase := phase }.runSlice cycles =
      { s.runSlice cycles with samplePhase := phase } := by
  by_cases power : s.powered = true
  · by_cases reaches : s.sequencerTimer.toNat + cycles = sequencerPeriod
    · rw [runSlice_reaches cycles s power reaches,
        runSlice_reaches cycles { s with samplePhase := phase } power reaches]
      exact clockSequencer_samplePhase phase { s.stepChannels cycles with sequencerTimer := 0 }
    · rw [runSlice_between cycles s power reaches,
        runSlice_between cycles { s with samplePhase := phase } power reaches]
      rfl
  · rw [runSlice_off cycles s power, runSlice_off cycles { s with samplePhase := phase } power]

theorem runSlice_timer (cycles : Nat) (s : Sound) (on : s.powered = true)
    (before : s.sequencerTimer.toNat + cycles < sequencerPeriod) :
    (s.runSlice cycles).powered = true ∧
      (s.runSlice cycles).sequencerTimer.toNat = s.sequencerTimer.toNat + cycles := by
  rw [runSlice_between cycles s on (Nat.ne_of_lt before)]
  refine ⟨on, ?_⟩
  simp only [sequencerPeriod] at before
  rw [UInt32.toNat_ofNat', Nat.mod_eq_of_lt (by omega)]

theorem runSlice_add (x y : Nat) (s : Sound) (more : y ≠ 0)
    (within : s.powered = true → s.sequencerTimer.toNat + (x + y) ≤ sequencerPeriod) :
    s.runSlice (x + y) = (s.runSlice x).runSlice y := by
  by_cases power : s.powered = true
  · have room := within power
    have first := runSlice_between x s power (by omega)
    obtain ⟨stays, timer⟩ := runSlice_timer x s power (by omega)
    by_cases reaches : s.sequencerTimer.toNat + (x + y) = sequencerPeriod
    · rw [runSlice_reaches _ s power reaches, runSlice_reaches y _ stays (by omega), first,
        stepChannels_add]
      rfl
    · rw [runSlice_between _ s power reaches, runSlice_between y _ stays (by omega), timer, first,
        stepChannels_add, Nat.add_assoc]
      rfl
  · rw [runSlice_off _ s power, runSlice_off x s power, runSlice_off y s power]

theorem settle_samplePhase (phase : Nat) (old : UInt64) (s : Sound) (samples : Array Single) :
    settle settings phase { s with samplePhase := old } samples =
      settle settings phase s samples := by
  unfold settle
  split
  · rfl
  · rfl

theorem Quiet.first {rate x y : Nat} {s : Sound} (quiet : s.Quiet rate (x + y)) :
    s.Quiet rate x := by
  obtain ⟨sample, sequencer⟩ := quiet
  refine ⟨by omega, fun on => ?_⟩
  have room := sequencer on
  omega

section cut
variable (x y : Nat) (s : Sound) (samples : Array Single) (h : s.Paced)
  (quiet : s.Quiet settings.effectiveRate (x + y)) (more : y ≠ 0)
include h quiet more

theorem phase_lt : s.samplePhase.toNat + x * settings.effectiveRate < cyclesPerSecond := by
  have positive := settings.effectiveRate_pos
  have product := (le_toSample_iff _ _ s positive h.samplePhase).mp quiet.sample
  have step := Nat.mul_le_mul_right settings.effectiveRate (show 1 ≤ y by omega)
  rw [Nat.add_mul] at product
  omega

theorem pass_before :
    s.pass settings x samples =
      ({ s.runSlice x with
        samplePhase := UInt64.ofNat (s.samplePhase.toNat + x * settings.effectiveRate) },
        samples) := by
  have inside := phase_lt settings x y s h quiet more
  unfold pass settle
  exact if_pos inside

theorem samplePhase_pass :
    (s.pass settings x samples).1.samplePhase.toNat =
      s.samplePhase.toNat + x * settings.effectiveRate := by
  have inside := phase_lt settings x y s h quiet more
  rw [pass_before settings x y s samples h quiet more]
  simp only [cyclesPerSecond] at inside
  rw [UInt64.toNat_ofNat', Nat.mod_eq_of_lt (by omega)]

theorem quiet_pass : (s.pass settings x samples).1.Quiet settings.effectiveRate y := by
  have positive := settings.effectiveRate_pos
  have first := paced_pass settings x s samples h quiet.first
  constructor
  · rw [le_toSample_iff _ _ _ positive first.samplePhase,
      samplePhase_pass settings x y s samples h quiet more]
    have product := (le_toSample_iff _ _ s positive h.samplePhase).mp quiet.sample
    rw [Nat.add_mul] at product
    omega
  · rw [pass_before settings x y s samples h quiet more]
    intro on
    by_cases power : s.powered = true
    · have room := quiet.sequencer power
      have timer := (runSlice_timer x s power (by omega)).2
      dsimp only
      omega
    · dsimp only at on
      rw [runSlice_off x s power] at on
      contradiction

theorem pass_add :
    s.pass settings (x + y) samples = (s.pass settings x samples).1.pass settings y samples := by
  have phase := samplePhase_pass settings x y s samples h quiet more
  have first := pass_before settings x y s samples h quiet more
  change _ = settle settings ((s.pass settings x samples).1.samplePhase.toNat + _)
    ((s.pass settings x samples).1.runSlice y) samples
  rw [phase, first, runSlice_samplePhase, settle_samplePhase, Nat.add_assoc, ← Nat.add_mul,
    ← runSlice_add x y s more quiet.sequencer]
  rfl

end cut

/-- A quiet stretch may be taken off at the front, whatever slices the unit would have cut. -/
theorem tick_pass (n k : Nat) (s : Sound) (samples : Array Single) (h : s.Paced) (some : k ≠ 0)
    (fits : k ≤ n) (quiet : s.Quiet settings.effectiveRate k) :
    s.tick settings n samples =
      (s.pass settings k samples).1.tick settings (n - k) (s.pass settings k samples).2 := by
  induction n using Nat.strongRecOn generalizing k s with
  | ind n ih =>
    obtain ⟨m, cut_eq⟩ : ∃ m, s.slice settings.effectiveRate n = m := ⟨_, rfl⟩
    have goes := slice_ne_zero settings n s h (by omega)
    have quietSlice := h.quiet_slice settings.effectiveRate n
    have slice_le := slice_le settings.effectiveRate n s
    rw [cut_eq] at goes quietSlice slice_le
    have whole := tick_eq_pass settings n m s samples cut_eq goes
    rcases Nat.lt_trichotomy k m with shorter | rfl | longer
    · -- The slice goes on behind the cut.
      obtain ⟨y, rfl⟩ := Nat.exists_eq_add_of_le (Nat.le_of_lt shorter)
      have more : y ≠ 0 := by omega
      have rest := ih (n - k) (by omega) y _ (paced_pass settings k s samples h quiet) more
        (by omega) (quiet_pass settings k y s samples h quietSlice more)
      rw [whole, pass_add settings k y s samples h quietSlice more, Nat.sub_add_eq, ← rest,
        pass_before settings k y s samples h quietSlice more]
    · exact whole
    · -- The slice is shorter, since the unit without power still cuts at the sequencer's steps.
      obtain ⟨y, rfl⟩ := Nat.exists_eq_add_of_le (Nat.le_of_lt longer)
      have more : y ≠ 0 := by omega
      have rest := ih (n - m) (by omega) y _ (paced_pass settings m s samples h quietSlice) more
        (by omega) (quiet_pass settings m y s samples h quiet more)
      rw [pass_add settings m y s samples h quiet more, Nat.sub_add_eq, ← rest, whole,
        pass_before settings m y s samples h quiet more]

theorem tick_zero (s : Sound) (samples : Array Single) :
    s.tick settings 0 samples = (s, samples) :=
  tick_idle settings 0 s samples (Nat.zero_min _)

theorem tick_one (s : Sound) (samples : Array Single) (h : s.Paced) :
    s.tick settings 1 samples = s.pass settings 1 samples := by
  have some := slice_ne_zero settings 1 s h (by decide)
  have within := slice_le settings.effectiveRate 1 s
  rw [tick_eq_pass settings 1 1 s samples (by omega) (by decide), tick_zero]

theorem tick_add (a b : Nat) (s : Sound) (samples : Array Single) (h : s.Paced) :
    s.tick settings (a + b) samples =
      (s.tick settings a samples).1.tick settings b (s.tick settings a samples).2 := by
  induction a using Nat.strongRecOn generalizing s samples with
  | ind a ih =>
    by_cases none : a = 0
    · rw [none, tick_zero, Nat.zero_add]
    have goes := slice_ne_zero settings a s h none
    have quiet := h.quiet_slice settings.effectiveRate a
    have slice_le := slice_le settings.effectiveRate a s
    rw [tick_pass settings (a + b) _ s samples h goes (by omega) quiet,
      tick_eq_pass settings a _ s samples rfl goes, Nat.sub_add_comm slice_le]
    exact ih _ (by omega) _ _ (paced_pass settings _ s samples h quiet)

end DotMatrix.Sound
