import DotMatrix.Proofs.Range.Sound

/-! While the sound unit is in range, its channels, its sequencer and its samples stay within
their tables and their numbers within their types, whatever is written and however long it
runs. Look-ups are made once more without address lines that wrap, and find what the unit finds. -/
namespace DotMatrix

namespace Sweep

structure NextSafe (s : Sweep) : Prop where
  shift : s.shift.toNat < 16
  sum : s.shadow.toNat + (s.shadow >>> s.shift.toUInt16).toNat < 0x10000

theorem InRange.nextSafe {s : Sweep} (h : s.InRange) : s.NextSafe := by
  have shift : s.shift.toNat ≤ 7 := h.shift
  have shadow : s.shadow.toNat ≤ 2047 := h.shadow
  refine ⟨by omega, ?_⟩
  have delta : (s.shadow >>> s.shift.toUInt16).toNat ≤ s.shadow.toNat := by
    rw [UInt16.toNat_shiftRight]
    exact Nat.shiftRight_le ..
  omega

end Sweep

namespace Pulse

def PeriodSafe (p : Pulse) : Prop := p.frequency.toNat ≤ 2048

structure TriggerSafe (p : Pulse) : Prop where
  period : p.PeriodSafe
  sweep : ∀ s ∈ p.sweep, (Sweep.trigger p.frequency s).NextSafe

structure StepSafe (p : Pulse) : Prop where
  period : p.PeriodSafe
  position : p.position.toNat + 1 < 0x100

structure SweepSafe (p : Pulse) : Prop where
  first : ∀ s ∈ p.sweep, s.NextSafe
  second : ∀ s ∈ p.sweep, s.overflows = false → { s with shadow := s.next }.NextSafe

def waveforms : List (List UInt8) :=
  [[0, 0, 0, 0, 0, 0, 0, 1], [1, 0, 0, 0, 0, 0, 0, 1], [1, 0, 0, 0, 0, 1, 1, 1],
    [0, 1, 1, 1, 1, 1, 1, 0]]

def levelAt? (duty position : UInt8) : Option UInt8 := do
  let levels ← waveforms[duty.toNat]?
  levels[position.toNat]?

def OutputSafe (p : Pulse) : Prop :=
  ∃ level : UInt8, levelAt? p.duty p.position = some level ∧
    level.toNat * p.envelope.volume.toNat < 0x100 ∧
    p.output = if p.enabled then level * p.envelope.volume else 0

theorem levelAt?_eq (duty position : UInt8) (hd : duty.toNat < 4) (hp : position.toNat < 8) :
    levelAt? duty position = some (waveform duty >>> (7 - position) &&& 1) := by
  -- Four waveforms of eight steps: all of them can be looked at.
  have every : ∀ d < 4, ∀ q < 8,
      levelAt? (UInt8.ofNat d) (UInt8.ofNat q) =
        some (waveform (UInt8.ofNat d) >>> (7 - UInt8.ofNat q) &&& 1) := by
    decide
  revert duty
  apply Word.forall_byte_lt
  intro d hd
  revert position
  apply Word.forall_byte_lt
  exact every d hd

namespace InRange
variable {p : Pulse}

theorem periodSafe (h : p.InRange) : p.PeriodSafe := by
  have frequency : p.frequency.toNat ≤ 2047 := h.frequency
  unfold PeriodSafe
  omega

theorem triggerSafe (h : p.InRange) : p.TriggerSafe :=
  ⟨h.periodSafe, fun s there => ((h.sweep s there).trigger h.frequency).nextSafe⟩

theorem stepSafe (h : p.InRange) : p.StepSafe := by
  have position : p.position.toNat ≤ 7 := h.position
  exact ⟨h.periodSafe, by omega⟩

theorem sweepSafe (h : p.InRange) : p.SweepSafe := by
  refine ⟨fun s there => (h.sweep s there).nextSafe, fun s there fits => ?_⟩
  obtain ⟨shift, period, timer, _⟩ := h.sweep s there
  exact Sweep.InRange.nextSafe ⟨shift, period, timer, Sweep.InRange.next_le fits⟩

theorem outputSafe (h : p.InRange) : p.OutputSafe := by
  have duty : p.duty.toNat ≤ 3 := h.duty
  have position : p.position.toNat ≤ 7 := h.position
  have found := levelAt?_eq p.duty p.position (by omega) (by omega)
  have volume := p.envelope.volume.toNat_lt
  have bit := and_one (waveform p.duty >>> (7 - p.position))
  refine ⟨_, found, ?_, ?_⟩
  · rcases bit with low | high
    · rw [low, UInt8.toNat_zero, Nat.zero_mul]
      decide
    · rw [high, UInt8.toNat_one, Nat.one_mul]
      exact volume
  · unfold output
    rcases bit with low | high
    · rw [low, UInt8.zero_mul]
      cases p.enabled <;> rfl
    · rw [high, UInt8.one_mul]
      cases p.enabled <;> rfl

end InRange
end Pulse

namespace Wave

def PeriodSafe (w : Wave) : Prop := w.frequency.toNat ≤ 2048

structure StepSafe (w : Wave) : Prop where
  period : w.PeriodSafe
  position : w.position.toNat + 1 < 0x100

structure OutputSafe (w : Wave) : Prop where
  sample : w.ram[w.position.toNat / 2]?.map w.half = some w.sample
  shift : w.volumeCode ≠ 0 → (w.volumeCode - 1).toNat < 8

namespace InRange
variable {w : Wave}

theorem periodSafe (h : w.InRange) : w.PeriodSafe := by
  have frequency : w.frequency.toNat ≤ 2047 := h.frequency
  unfold PeriodSafe
  omega

theorem stepSafe (h : w.InRange) : w.StepSafe := by
  have position : w.position.toNat ≤ 31 := h.position
  exact ⟨h.periodSafe, by omega⟩

theorem outputSafe (h : w.InRange) : w.OutputSafe := by
  have position : w.position.toNat ≤ 31 := h.position
  have code : w.volumeCode.toNat ≤ 3 := h.volumeCode
  constructor
  · rw [Memory.getElem?_eq_read w.ram (by omega)]
    rfl
  · intro audible
    have positive : w.volumeCode.toNat ≠ 0 := fun none => audible (UInt8.toNat_inj.mp none)
    rw [UInt8.toNat_sub_of_le _ _ (UInt8.le_iff_toNat_le.mpr (by simp only [UInt8.toNat_one]; omega)),
      UInt8.toNat_one]
    omega

end InRange
end Wave

namespace Noise

def divisors : List Nat := [8, 16, 32, 48, 64, 80, 96, 112]

structure PeriodSafe (n : Noise) : Prop where
  period : divisors[n.divisor.toNat]?.map (· <<< n.shift.toNat) = some n.period
  shift : n.shift.toNat < 32

theorem InRange.periodSafe {n : Noise} (h : n.InRange) : n.PeriodSafe := by
  have shift : n.shift.toNat ≤ 15 := h.shift
  refine ⟨?_, by omega⟩
  have entry : ∀ divisor : UInt8, divisor.toNat < 8 →
      divisors[divisor.toNat]? = some (if divisor == 0 then 8 else 16 * divisor.toNat) := by
    apply Word.forall_byte_lt
    decide
  rw [entry n.divisor (Nat.lt_succ_of_le h.divisor)]
  rfl

end Noise

namespace Sound

/-- What a register read gives, if the register is one, and the wave memory has the place. -/
def read? (s : Sound) (address : UInt16) : Option UInt8 :=
  if InRegisters address then do
    let written ← s.registers[index address]?
    let ones ← readMasks[index address]?
    some (written ||| ones)
  else if InWave address then s.wave.ram[address.toNat - 0xFF30]?
  else some (s.read address)

def write? (address : UInt16) (value : UInt8) (s : Sound) : Option Sound :=
  if InRegisters address then
    if s.powered then do
      let registers ← s.registers.write? (index address) value
      some (applyWrite address value { s with registers })
    else some s
  else if InWave address then do
    let ram ← s.wave.ram.write? (address.toNat - 0xFF30) value
    some { s with wave := { s.wave with ram } }
  else some (s.write address value)

def ApplySafe (address : UInt16) (value : UInt8) (s : Sound) : Prop :=
  match address with
  | 0xFF11 | 0xFF16 => (value &&& 0x3F).toUInt16 ≤ Pulse.fullLength
  | 0xFF14 => (s.pulse1.tune value).TriggerSafe
  | 0xFF19 => (s.pulse2.tune value).TriggerSafe
  | 0xFF1B => value.toUInt16 ≤ Wave.fullLength
  | 0xFF1E => (s.wave.tune value).PeriodSafe
  | 0xFF20 => (value &&& 0x3F).toUInt16 ≤ Noise.fullLength
  | 0xFF23 => s.noise.PeriodSafe
  | _ => True

structure WriteSafe (address : UInt16) (value : UInt8) (s : Sound) : Prop where
  place : s.write? address value = some (s.write address value)
  apply : s.ApplySafe address value

structure ClockSafe (s : Sound) : Prop where
  sweep : s.pulse1.SweepSafe
  step : s.sequencerStep.toNat + 1 < 0x100

structure StepSafe (s : Sound) : Prop where
  pulse1 : s.pulse1.StepSafe
  pulse2 : s.pulse2.StepSafe
  wave : s.wave.StepSafe
  noise : ¬s.noise.shift ≥ 14 → s.noise.PeriodSafe

structure OutputSafe (s : Sound) : Prop where
  pulse1 : s.pulse1.OutputSafe
  pulse2 : s.pulse2.OutputSafe
  wave : s.wave.OutputSafe
  left : (s.registers.read 0x14 >>> 4 &&& 0x07).toNat + 1 < 0x100
  right : (s.registers.read 0x14 &&& 0x07).toNat + 1 < 0x100

/-- What one slice of time needs. -/
structure SliceSafe (rate cycles : Nat) (s : Sound) : Prop where
  toSequencer : s.sequencerTimer.toNat ≤ sequencerPeriod
  toSample : s.samplePhase.toNat ≤ cyclesPerSecond
  positive : rate ≠ 0
  step : s.powered = true → s.StepSafe
  timer : s.sequencerTimer.toNat + cycles < 0x100000000
  clock : s.powered = true → (s.stepChannels cycles).ClockSafe
  phase : s.samplePhase.toNat + cycles * rate < 0x10000000000000000
  output : (s.runSlice cycles).OutputSafe

/-- Time passes and leaves `after`, and nothing that is checked fails on the way. -/
inductive TickSafe (settings : Settings) (after : Sound × Array Single) :
    Nat → Sound → Array Single → Prop where
  | done : TickSafe settings after 0 after.1 after.2
  | slice {n : Nat} {s : Sound} {samples : Array Single} (some : n ≠ 0)
    (safe : s.SliceSafe settings.effectiveRate (s.slice settings.effectiveRate n))
    (rest : TickSafe settings after (n - s.slice settings.effectiveRate n)
      (s.pass settings (s.slice settings.effectiveRate n) samples).1
      (s.pass settings (s.slice settings.effectiveRate n) samples).2) :
    TickSafe settings after n s samples

namespace InRange
variable {s : Sound}

theorem applySafe (h : s.InRange) (address : UInt16) (value : UInt8) :
    s.ApplySafe address value := by
  unfold ApplySafe
  split
  · exact shortLength_le value
  · exact shortLength_le value
  · exact (h.pulse1.tune value).triggerSafe
  · exact (h.pulse2.tune value).triggerSafe
  · exact byteLength_le value
  · exact (h.wave.tune value).periodSafe
  · exact shortLength_le value
  · exact h.noise.periodSafe
  · trivial

theorem outputSafe (h : s.InRange) : s.OutputSafe := by
  have volume_lt (value : UInt8) : (value &&& 0x07).toNat + 1 < 0x100 := by
    have masked : (value &&& 0x07).toNat ≤ 7 := and_le_mask value 0x07
    omega
  exact ⟨h.pulse1.outputSafe, h.pulse2.outputSafe, h.wave.outputSafe, volume_lt _, volume_lt _⟩

theorem sliceSafe (h : s.InRange) (settings : Settings) (n : Nat) :
    s.SliceSafe settings.effectiveRate (s.slice settings.effectiveRate n) := by
  have quiet := h.paced.quiet_slice settings.effectiveRate n
  have rate_pos := settings.effectiveRate_pos
  have rate_le := settings.effectiveRate_le
  have phase := (le_toSample_iff _ _ s rate_pos h.samplePhase).mp quiet.sample
  have timer := h.sequencerTimer
  have stepped := h.stepChannels (s.slice settings.effectiveRate n)
  have sequencerStep : s.sequencerStep.toNat ≤ 7 := h.sequencerStep
  -- No slice goes beyond the step of the sequencer, and so it is short.
  have cut_le : s.slice settings.effectiveRate n ≤ sequencerPeriod :=
    Nat.le_trans (Nat.min_le_right _ _) (Nat.le_trans (Nat.min_le_left _ _) (Nat.sub_le _ _))
  constructor
  case toSequencer => exact Nat.le_of_lt timer
  case toSample => exact Nat.le_of_lt h.samplePhase
  case positive => omega
  case step =>
    exact fun _ => ⟨h.pulse1.stepSafe, h.pulse2.stepSafe, h.wave.stepSafe,
      fun _ => h.noise.periodSafe⟩
  case timer =>
    simp only [sequencerPeriod] at *
    omega
  case clock =>
    exact fun _ => ⟨stepped.pulse1.sweepSafe, by
      change s.sequencerStep.toNat + 1 < 0x100
      omega⟩
  case phase =>
    simp only [cyclesPerSecond] at *
    omega
  case output => exact (h.runSlice quiet.sequencer).outputSafe

end InRange

theorem index_lt {address : UInt16} (inside : InRegisters address) : index address < 23 := by
  have last : address.toNat ≤ 0xFF25 := inside.2
  unfold index
  omega

theorem waveIndex_lt {address : UInt16} (inside : InWave address) :
    address.toNat - 0xFF30 < 16 := by
  have last : address.toNat ≤ 0xFF3F := inside.2
  omega

theorem read?_eq (s : Sound) (address : UInt16) : s.read? address = some (s.read address) := by
  unfold read?
  split
  case isTrue inside =>
    rw [Memory.getElem?_eq_read s.registers (index_lt inside),
      Memory.getElem?_eq_read readMasks (index_lt inside)]
    unfold read
    rw [if_pos inside]
    rfl
  case isFalse =>
    split
    case isTrue inside =>
      rw [Memory.getElem?_eq_read s.wave.ram (waveIndex_lt inside), read_wave inside]
    case isFalse => rfl

theorem write?_eq (address : UInt16) (value : UInt8) (s : Sound) :
    s.write? address value = some (s.write address value) := by
  unfold write?
  split
  case isTrue inside =>
    unfold write
    rw [if_pos inside, Memory.write?_eq s.registers value (index_lt inside)]
    split <;> rfl
  case isFalse =>
    split
    case isTrue inside =>
      rw [Memory.write?_eq s.wave.ram value (waveIndex_lt inside), write_wave inside]
      rfl
    case isFalse => rfl

theorem InRange.writeSafe {s : Sound} (h : s.InRange) (address : UInt16) (value : UInt8) :
    s.WriteSafe address value :=
  ⟨write?_eq address value s, h.applySafe address value⟩

/-- Register writes, each with what it needs, lead from one unit to another. -/
inductive WritesSafe : List (UInt16 × UInt8) → Sound → Sound → Prop where
  | done {s : Sound} : WritesSafe [] s s
  | write {address : UInt16} {value : UInt8} {writes : List (UInt16 × UInt8)} {s t : Sound}
    (safe : s.WriteSafe address value) (rest : WritesSafe writes (s.write address value) t) :
    WritesSafe ((address, value) :: writes) s t

/-- What the boot program needs, at power-on and at every reset. -/
def BootSafe : Prop := WritesSafe bootWrites unbooted powerOn

theorem InRange.writesSafe {s : Sound} (h : s.InRange) (writes : List (UInt16 × UInt8)) :
    WritesSafe writes s (writes.foldl (fun s (address, value) => s.write address value) s) := by
  induction writes generalizing s with
  | nil => exact .done
  | cons entry writes ih => exact .write (h.writeSafe ..) (ih (h.write ..))

theorem bootSafe : BootSafe := InRange.unbooted.writesSafe bootWrites

theorem tickSafe (settings : Settings) (n : Nat) (s : Sound) (samples : Array Single)
    (h : s.InRange) : TickSafe settings (s.tick settings n samples) n s samples := by
  induction n using Nat.strongRecOn generalizing s samples with
  | ind n ih =>
    by_cases none : n = 0
    · subst none
      rw [tick_idle settings 0 s samples (Nat.zero_min _)]
      exact .done
    have goes := slice_ne_zero settings n s h.paced none
    rw [tick_eq_pass settings n _ s samples rfl goes]
    exact .slice none (h.sliceSafe settings n)
      (ih _ (by omega) _ _ (inRange_pass settings _ s samples h (h.paced.quiet_slice _ _)))

end Sound
end DotMatrix
