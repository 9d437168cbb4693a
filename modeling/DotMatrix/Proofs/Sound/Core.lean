import DotMatrix.Proofs.Time.Sound
import Mathlib.Logic.Function.Iterate

/-! What programs can see of the sound unit: its registers, its channels and the sequencer. The way
to the samples takes from these and gives nothing back; it cuts time in other places for another
rate, and the core goes on as it would cycle by cycle. -/
namespace DotMatrix.Sound

def core (s : Sound) : Sound :=
  { s with samplePhase := 0, left := ⟨.zero, .zero⟩, right := ⟨.zero, .zero⟩ }

theorem read_core (address : UInt16) (s : Sound) : s.core.read address = s.read address := rfl

theorem core_samplePhase (phase : UInt64) (s : Sound) :
    { s with samplePhase := phase }.core = s.core :=
  rfl

theorem core_filter (settings : Settings) (s : Sound) : (s.filter settings).core = s.core := by
  unfold filter
  rfl

theorem core_settle (settings : Settings) (phase : Nat) (s : Sound) (samples : Array Single) :
    (settle settings phase s samples).1.core = s.core := by
  unfold settle
  split
  · rfl
  · refine (core_filter settings _).trans ?_
    exact core_samplePhase _ s

/-- Of a slice the core sees nothing but its cycles. -/
theorem core_pass (settings : Settings) (cycles : Nat) (s : Sound) (samples : Array Single) :
    (s.pass settings cycles samples).1.core = (s.runSlice cycles).core :=
  core_settle settings _ _ _

def lengthsIf (due : Bool) (s : Sound) : Sound := if due then s.clockLengths else s

def sweepIf (due : Bool) (s : Sound) : Sound :=
  if due then { s with pulse1 := s.pulse1.clockSweep } else s

def envelopesIf (due : Bool) (s : Sound) : Sound := if due then s.clockEnvelopes else s

theorem clockSequencer_eq (s : Sound) :
    s.clockSequencer =
      { ((s.lengthsIf (s.sequencerStep % 2 == 0)).sweepIf
          (s.sequencerStep == 2 || s.sequencerStep == 6)).envelopesIf (s.sequencerStep == 7) with
        sequencerStep := (s.sequencerStep + 1) &&& 0x07 } :=
  rfl

theorem core_clockSequencer (s : Sound) : s.clockSequencer.core = s.core.clockSequencer := by
  unfold core clockSequencer
  dsimp only
  repeat' split
  all_goals rfl

theorem core_runSlice (cycles : Nat) (s : Sound) :
    (s.runSlice cycles).core = s.core.runSlice cycles := by
  by_cases power : s.powered = true
  · by_cases reaches : s.sequencerTimer.toNat + cycles = sequencerPeriod
    · rw [runSlice_reaches cycles s power reaches, runSlice_reaches cycles s.core power reaches]
      exact core_clockSequencer _
    · rw [runSlice_between cycles s power reaches, runSlice_between cycles s.core power reaches]
      rfl
  · rw [runSlice_off cycles s power, runSlice_off cycles s.core power]

/-- The core runs cycle by cycle, whatever the settings. -/
theorem core_tick (settings : Settings) (n : Nat) (s : Sound) (samples : Array Single)
    (h : s.Paced) :
    (s.tick settings n samples).1.core = (runSlice 1)^[n] s.core := by
  induction n with
  | zero =>
    rw [tick_zero]
    rfl
  | succ n ih =>
    rw [tick_add settings n 1 s samples h, tick_one settings _ _ (paced_tick settings n s samples h),
      Function.iterate_succ_apply', ← ih, ← core_runSlice]
    exact core_pass settings 1 _ _

theorem core_applyWrite (address : UInt16) (value : UInt8) (s : Sound) :
    (s.applyWrite address value).core = s.core.applyWrite address value := by
  unfold applyWrite
  split <;> rfl

theorem core_writePower (value : UInt8) (s : Sound) :
    (s.writePower value).core = s.core.writePower value := by
  unfold core writePower
  dsimp only
  repeat' split
  all_goals rfl

theorem core_write (address : UInt16) (value : UInt8) (s : Sound) :
    (s.write address value).core = s.core.write address value := by
  have power : s.core.powered = s.powered := rfl
  unfold write
  rw [power]
  split
  · split
    · exact core_applyWrite address value _
    · rfl
  · split
    · exact core_writePower value s
    · split <;> rfl

end DotMatrix.Sound
