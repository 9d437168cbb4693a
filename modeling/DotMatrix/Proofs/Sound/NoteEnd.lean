import DotMatrix.Proofs.Sound.Note
import DotMatrix.Proofs.Time.Phase

/-! No note gets stuck. One that is heard has some of its length left, and the length clocks, if
they are enabled, bring it to its end; nothing but its own registers brings it back. -/
namespace DotMatrix

namespace SoundOperation

def WritesTo (channel : Channel) : SoundOperation → Prop
  | .write address _ => channel.Owns address
  | _ => False

end SoundOperation

namespace Sound
variable {channel : Channel} {c : Nat} {s : Sound}

/-- The sequencer clocks the lengths with every other step. This counts how often it does in so
many cycles from place `c` of its way. -/
def clocksWithin (c cycles : Nat) : Nat :=
  (c + cycles + sequencerPeriod) / (2 * sequencerPeriod) -
    (c + sequencerPeriod) / (2 * sequencerPeriod)

def place (s : Sound) : Nat := sequencerPeriod * s.sequencerStep.toNat + s.sequencerTimer.toNat

def lengthClocks (cycles : Nat) (s : Sound) : Nat := clocksWithin s.place cycles

theorem clocksWithin_zero (c : Nat) : clocksWithin c 0 = 0 := Nat.sub_self _

theorem clocksWithin_add (c a b : Nat) :
    clocksWithin c (a + b) = clocksWithin c a + clocksWithin (c + a) b := by
  simp only [clocksWithin, sequencerPeriod]
  omega

theorem le_lengthClocks {count cycles : Nat} (long : count * (2 * sequencerPeriod) ≤ cycles)
    (s : Sound) : count ≤ s.lengthClocks cycles := by
  -- Of two steps of the sequencer that follow each other one is even.
  simp only [lengthClocks, clocksWithin, sequencerPeriod] at long ⊢
  omega

theorem InRange.inPhase (h : s.InRange) (power : s.powered = true) : s.InPhase s.place := by
  have timer := h.sequencerTimer
  have step : s.sequencerStep.toNat ≤ 7 := h.sequencerStep
  unfold place
  simp only [sequencerPeriod] at timer ⊢
  exact ⟨power, by omega, by omega⟩

theorem note_lengthsIf (channel : Channel) (due : Bool) (s : Sound) :
    (s.lengthsIf due).note channel = if due then (s.note channel).clock else s.note channel := by
  cases due <;> cases channel <;> rfl

theorem elapses_lengthsIf (channel : Channel) (due : Bool) (s : Sound) :
    (s.note channel).Elapses (if due then 1 else 0) ((s.lengthsIf due).note channel) := by
  rw [note_lengthsIf]
  cases due with
  | true => exact .clock 0 _ .start
  | false => exact .start

theorem elapses_sweepIf (channel : Channel) (due : Bool) (s : Sound) :
    (s.note channel).Elapses 0 ((s.sweepIf due).note channel) := by
  cases due with
  | true =>
    cases channel with
    | pulse1 =>
      obtain ⟨on, swept⟩ := s.pulse1.note_clockSweep
      change s.pulse1.note.Elapses 0 s.pulse1.clockSweep.note
      rw [swept]
      exact .silence 0 _ on .start
    | _ => exact .start
  | false => exact .start

theorem note_envelopesIf (channel : Channel) (due : Bool) (s : Sound) :
    (s.envelopesIf due).note channel = s.note channel := by
  cases due <;> cases channel <;> rfl

theorem note_sequencerStep (channel : Channel) (step : UInt8) (s : Sound) :
    { s with sequencerStep := step }.note channel = s.note channel := by
  cases channel <;> rfl

theorem elapses_clockSequencer (channel : Channel) (s : Sound) :
    (s.note channel).Elapses (if s.sequencerStep % 2 == 0 then 1 else 0)
      (s.clockSequencer.note channel) := by
  rw [clockSequencer_eq, note_sequencerStep channel (_ &&& _), note_envelopesIf]
  exact (elapses_lengthsIf channel _ s).trans (elapses_sweepIf channel _ _)

theorem note_stepChannels (channel : Channel) (cycles : Nat) (s : Sound) :
    (s.stepChannels cycles).note channel = s.note channel := by
  cases channel with
  | noise =>
    change (s.noise.step cycles).note = s.noise.note
    unfold Noise.step
    split <;> rfl
  | _ => rfl

theorem note_sequencerTimer (channel : Channel) (timer : UInt32) (s : Sound) :
    { s with sequencerTimer := timer }.note channel = s.note channel := by
  cases channel <;> rfl

theorem even_step (step : UInt8) : (step % 2 == 0) = decide (step.toNat % 2 = 0) := by
  rw [Bool.eq_iff_iff, beq_iff_eq, decide_eq_true_iff, ← UInt8.toNat_inj, UInt8.toNat_mod]
  rfl

theorem elapses_cycle (h : s.InPhase c) :
    (s.note channel).Elapses (clocksWithin c 1) ((s.runSlice 1).note channel) := by
  have timer := h.timer
  have step := h.step
  by_cases reaches : s.sequencerTimer.toNat + 1 = sequencerPeriod
  · have clocks : clocksWithin c 1 = if s.sequencerStep % 2 == 0 then 1 else 0 := by
      rw [even_step]
      simp only [clocksWithin, sequencerPeriod] at reaches ⊢
      by_cases parity : s.sequencerStep.toNat % 2 = 0
      · rw [decide_eq_true parity]
        change _ = 1
        omega
      · rw [decide_eq_false parity]
        change _ = 0
        omega
    rw [runSlice_reaches 1 s h.powered reaches, clocks]
    have elapses := elapses_clockSequencer channel { s.stepChannels 1 with sequencerTimer := 0 }
    rw [note_sequencerTimer channel 0 (s.stepChannels 1), note_stepChannels] at elapses
    exact elapses
  · have none : clocksWithin c 1 = 0 := by
      simp only [clocksWithin, sequencerPeriod] at reaches ⊢
      omega
    rw [runSlice_between 1 s h.powered reaches, none,
      note_sequencerTimer channel _ (s.stepChannels 1), note_stepChannels]
    exact .start

theorem inPhase_cycles (h : s.InPhase c) (n : Nat) : ((runSlice 1)^[n] s).InPhase (c + n) := by
  induction n with
  | zero => exact h
  | succ n ih =>
    have timer := ih.timer
    rw [Function.iterate_succ_apply', ← Nat.add_assoc]
    refine ih.runSlice ?_
    simp only [sequencerPeriod]
    omega

theorem elapses_cycles (h : s.InPhase c) (n : Nat) :
    (s.note channel).Elapses (clocksWithin c n) (((runSlice 1)^[n] s).note channel) := by
  induction n with
  | zero =>
    rw [clocksWithin_zero]
    exact .start
  | succ n ih =>
    rw [Function.iterate_succ_apply', clocksWithin_add]
    exact ih.trans (elapses_cycle (inPhase_cycles h n))

theorem elapses_tick (h : s.InPhase c) (paced : s.Paced) (settings : Settings) (n : Nat)
    (samples : Array Single) :
    (s.note channel).Elapses (clocksWithin c n) ((s.tick settings n samples).1.note channel) := by
  have core : s.core.InPhase c := ⟨h.powered, h.timer, h.step⟩
  rw [← note_core channel s, ← note_core channel (s.tick settings n samples).1,
    core_tick settings n s samples paced]
  exact elapses_cycles core n

theorem InRange.elapses_tick (h : s.InRange) (settings : Settings) (n : Nat)
    (samples : Array Single) :
    ∃ clocks, (s.note channel).Elapses clocks ((s.tick settings n samples).1.note channel) := by
  by_cases power : s.powered = true
  · exact ⟨_, Sound.elapses_tick (h.inPhase power) h.paced settings n samples⟩
  · have off := Bool.eq_false_iff.mpr power
    refine ⟨0, ?_⟩
    rw [← note_core channel s, ← note_core channel (s.tick settings n samples).1,
      core_tick_off settings n s samples h.paced off]
    exact .start

end Sound

namespace LiveSound
open SoundOperation
variable {channel : Channel} {c : Nat} {live : LiveSound} {ops : List SoundOperation}

theorem alive_operate (op : SoundOperation) (inRange : live.sound.InRange)
    (h : (live.sound.note channel).Alive) : ((live.operate op).sound.note channel).Alive := by
  cases op with
  | tick cycles =>
    obtain ⟨_, elapses⟩ := inRange.elapses_tick live.settings cycles live.samples
    exact elapses.alive h
  | write address value => exact Sound.alive_write value h
  | takeSamples => exact h

/-- Whatever has happened since power-on, a note that is heard is alive. -/
theorem alive_powerOn (settings : Settings) (past : List SoundOperation) (channel : Channel) :
    (((powerOn settings).operations past).sound.note channel).Alive := by
  have start : (powerOn settings).sound.InRange ∧ ((powerOn settings).sound.note channel).Alive :=
    ⟨.powerOn, Sound.alive_powerOn channel⟩
  have both := operations_keeps
    (P := fun live => live.sound.InRange ∧ (live.sound.note channel).Alive)
    (fun op (_ : op ∈ past) live h => ⟨inRange_operate op h.1, alive_operate op h.1 h.2⟩) start
  exact both.2

theorem on_operate {op : SoundOperation} (inRange : live.sound.InRange)
    (other : ¬op.WritesTo channel) (heard : ((live.operate op).sound.note channel).on = true) :
    (live.sound.note channel).on = true := by
  cases op with
  | tick cycles =>
    obtain ⟨_, elapses⟩ := inRange.elapses_tick live.settings cycles live.samples
    exact elapses.on heard
  | write address value =>
    have same := Sound.note_write_of_on value other heard
    exact same ▸ heard
  | takeSamples => exact heard

theorem on_operations (inRange : live.sound.InRange) (others : ∀ op ∈ ops, ¬op.WritesTo channel)
    (heard : ((live.operations ops).sound.note channel).on = true) :
    (live.sound.note channel).on = true := by
  induction ops generalizing live with
  | nil => exact heard
  | cons op ops ih =>
    have before := ih (inRange_operate op inRange)
      (fun op listed => others op (List.mem_cons_of_mem _ listed)) heard
    exact on_operate inRange (others op List.mem_cons_self) before

/-- A note that is still heard has met all length clocks of the time that has passed. -/
theorem elapses_operations (inRange : live.sound.InRange) (h : live.sound.InPhase c)
    (others : ∀ op ∈ ops, ¬op.WritesTo channel)
    (heard : ((live.operations ops).sound.note channel).on = true) :
    (live.sound.note channel).Elapses (Sound.clocksWithin c (ops.map cycles).sum)
      ((live.operations ops).sound.note channel) := by
  induction ops generalizing c live with
  | nil =>
    change Note.Elapses _ (Sound.clocksWithin c 0) _
    rw [Sound.clocksWithin_zero]
    exact .start
  | cons op ops ih =>
    have later := fun op listed => others op (List.mem_cons_of_mem _ listed)
    have other := others op List.mem_cons_self
    have next := inRange_operate op inRange
    rw [List.map_cons, List.sum_cons, Sound.clocksWithin_add]
    cases op with
    | tick n =>
      have first : (live.sound.note channel).Elapses _ _ :=
        Sound.elapses_tick h inRange.paced live.settings n live.samples
      exact first.trans (ih next (h.tick inRange live.settings n live.samples) later heard)
    | write address value =>
      -- The power stays on, since the note would not survive without.
      have before := on_operations next later heard
      change ((live.sound.write address value).note channel).on = true at before
      have kept : ¬(address = 0xFF26 ∧ value &&& 0x80 = 0) := by
        rintro ⟨rfl, off⟩
        rw [Sound.note_switchedOff value h.powered off] at before
        cases before
      have same := Sound.note_write_of_on value other before
      have rest := ih next (h.write kept) later heard
      change ((live.sound.write address value).note channel).Elapses _ _ at rest
      rw [same] at rest
      change Note.Elapses _ (Sound.clocksWithin c 0 + Sound.clocksWithin c _) _
      rw [Sound.clocksWithin_zero, Nat.zero_add]
      exact rest
    | takeSamples =>
      change Note.Elapses _ (Sound.clocksWithin c 0 + Sound.clocksWithin c _) _
      rw [Sound.clocksWithin_zero, Nat.zero_add]
      exact ih next h later heard

theorem powered_of_on (settings : Settings) (past : List SoundOperation)
    (heard : (((powerOn settings).operations past).sound.note channel).on = true) :
    ((powerOn settings).operations past).sound.powered = true := by
  by_contra off
  have erased := powerOffErased_powerOn settings past (Bool.eq_false_iff.mpr off)
  rw [erased.note channel] at heard
  cases heard

theorem counter_operations (settings : Settings) (past : List SoundOperation)
    (others : ∀ op ∈ ops, ¬op.WritesTo channel)
    (counts : (((powerOn settings).operations past).sound.note channel).length.enabled = true)
    (heard : ((((powerOn settings).operations past).operations ops).sound.note channel).on = true) :
    let live := (powerOn settings).operations past
    let left := ((live.operations ops).sound.note channel).length.counter.toNat
    1 ≤ left ∧ left + live.sound.lengthClocks (ops.map cycles).sum =
      (live.sound.note channel).length.counter.toNat := by
  intro live left
  have inRange := inRange_powerOn settings past
  have power := powered_of_on settings past (on_operations inRange others heard)
  have elapses := elapses_operations inRange (inRange.inPhase power) others heard
  have some : ((live.operations ops).sound.note channel).length.counter ≠ 0 :=
    (elapses.alive (alive_powerOn settings past channel) heard).2
  have positive : 1 ≤ left := Nat.pos_of_ne_zero fun none => some (UInt16.toNat_inj.mp none)
  have counted : left = (live.sound.note channel).length.counter.toNat -
      live.sound.lengthClocks (ops.map cycles).sum := elapses.counter counts
  exact ⟨positive, by omega⟩

/-- No note gets stuck: a channel that is reported has a converter that is on and some of its
length left. As long as nobody writes to its registers it does not come on by itself, and if its
length is enabled every length clock takes one off, until it goes off with the last of them at the
latest. -/
theorem notes_end (settings : Settings) (past : List SoundOperation) (channel : Channel) :
    let live := (powerOn settings).operations past
    let note := live.sound.note channel
    (live.sound.Reports channel → note.converter = true ∧ 1 ≤ note.length.counter ∧
      note.length.counter ≤ channel.fullLength) ∧
    ∀ later : List SoundOperation, (∀ op ∈ later, ¬op.WritesTo channel) →
      let after := live.operations later
      let time := (later.map cycles).sum
      let clocks := live.sound.lengthClocks time
      (after.sound.Reports channel → live.sound.Reports channel) ∧
      (note.length.enabled = true →
        (after.sound.Reports channel →
          (after.sound.note channel).length.counter.toNat + clocks = note.length.counter.toNat) ∧
        (note.length.counter.toNat ≤ clocks → ¬after.sound.Reports channel) ∧
        (note.length.counter.toNat * (2 * Sound.sequencerPeriod) ≤ time →
          ¬after.sound.Reports channel)) := by
  intro live note
  have inRange := inRange_powerOn settings past
  refine ⟨fun reported => ?_, fun later others => ?_⟩
  · obtain ⟨converter, some⟩ :=
      alive_powerOn settings past channel ((live.sound.reports_iff channel).mp reported)
    change note.length.counter ≠ 0 at some
    exact ⟨converter, by grind, inRange.length_note channel⟩
  intro after time clocks
  simp only [Sound.reports_iff]
  refine ⟨on_operations inRange others, fun counts => ?_⟩
  have counted : (after.sound.note channel).on = true →
      1 ≤ (after.sound.note channel).length.counter.toNat ∧
        (after.sound.note channel).length.counter.toNat + clocks = note.length.counter.toNat :=
    counter_operations settings past others counts
  have ends : note.length.counter.toNat ≤ clocks → ¬(after.sound.note channel).on = true := by
    intro last heard
    obtain ⟨positive, left⟩ := counted heard
    omega
  exact ⟨fun heard => (counted heard).2, ends,
    fun long => ends (live.sound.le_lengthClocks long)⟩

def shortNote : List SoundOperation :=
  [.write 0xFF17 0xF0, .write 0xFF16 0x3E, .write 0xFF19 0xC0]

/-- Four steps of the sequencer end it, and a write to another channel does not bring it back. -/
theorem notes_end_shortNote :
    let live := (powerOn .standard).operations shortNote
    live.sound.Reports .pulse2 ∧ (live.sound.note .pulse2).length = ⟨2, true⟩ ∧
      ¬(live.operations [.tick 32768, .write 0xFF14 0x80]).sound.Reports .pulse2 := by
  intro live
  have length : (live.sound.note .pulse2).length = ⟨2, true⟩ := rfl
  have clocks : live.sound.lengthClocks 32768 = 2 := by
    have start : live.sound.place = 0 := rfl
    rw [Sound.lengthClocks, start]
    decide
  obtain ⟨-, later⟩ := notes_end .standard shortNote .pulse2
  have others : ∀ op ∈ [SoundOperation.tick 32768, .write 0xFF14 0x80], ¬op.WritesTo .pulse2 := by
    intro op listed
    obtain rfl | rfl : op = .tick 32768 ∨ op = .write 0xFF14 0x80 := by simpa using listed
    · exact id
    · change ¬Channel.pulse2.Owns 0xFF14
      decide
  obtain ⟨-, ends⟩ := later _ others
  obtain ⟨-, last, -⟩ := ends rfl
  refine ⟨(live.sound.reports_iff .pulse2).mpr rfl, length, last ?_⟩
  exact Nat.le_of_eq clocks.symm

end LiveSound
end DotMatrix
