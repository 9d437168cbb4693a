import DotMatrix.Proofs.Sound.Sequencer

/-! The shape of a note. From its trigger on, the steps of the sequencer alone say whether it is
still heard and how loud it is. -/
namespace DotMatrix

namespace Note
variable {n : Note}

theorem elapses_clocks (n : Note) (clocks : Nat) : n.Elapses clocks (clock^[clocks] n) := by
  induction clocks with
  | zero => exact .start
  | succ clocks ih =>
    rw [Function.iterate_succ_apply']
    exact .clock _ _ ih

theorem on_clocks (some : n.length.counter ≠ 0) (clocks : Nat) :
    (clock^[clocks] n).on = true ↔
      n.on = true ∧ (n.length.enabled = false ∨ clocks < n.length.counter.toNat) := by
  have positive : 0 < n.length.counter.toNat :=
    Nat.pos_of_ne_zero fun zero => some (UInt16.toNat_inj.mp zero)
  induction clocks with
  | zero => exact ⟨fun on => ⟨on, .inr positive⟩, And.left⟩
  | succ clocks ih =>
    have elapses := n.elapses_clocks clocks
    have enabled := elapses.enabled
    rw [Function.iterate_succ_apply']
    change ((clock^[clocks] n).on && !(clock^[clocks] n).length.expires) = true ↔ _
    refine (Bool.and_eq_true_iff.trans (and_congr_left' ih)).trans ?_
    rw [LengthCounter.expires, enabled]
    cases counts : n.length.enabled with
    | false => simp
    | true =>
      have left := elapses.counter counts
      have last : (clock^[clocks] n).length.counter = 1 ↔ n.length.counter.toNat - clocks = 1 := by
        rw [← left]
        exact UInt16.toNat_inj.symm
      simp only [Bool.true_and, Bool.not_eq_true', beq_eq_false_iff_ne, ne_eq, last,
        Bool.true_eq_false, false_or, and_assoc]
      exact and_congr_right fun _ => by omega

end Note

namespace Envelope
variable {e later : Envelope} {clocks : Nat}

def shaped (clocks : Nat) (e : Envelope) : Nat :=
  if e.period = 0 then e.initial.toNat
  else if e.increasing then min 15 (e.initial.toNat + clocks / e.period.toNat)
  else e.initial.toNat - clocks / e.period.toNat

/-- Where so many clocks take an envelope. -/
structure Reached (e : Envelope) (clocks : Nat) (later : Envelope) : Prop where
  increasing : later.increasing = e.increasing
  period : later.period = e.period
  volume : later.volume.toNat = e.shaped clocks
  timer : e.period ≠ 0 → Divides e.period clocks later.timer

theorem shaped_le (small : e.initial ≤ 15) : e.shaped clocks ≤ 15 := by
  have small : e.initial.toNat ≤ 15 := small
  unfold shaped
  split
  · exact small
  · split
    · exact Nat.min_le_left _ _
    · exact Nat.le_trans (Nat.sub_le _ _) small

theorem toNat_stepVolume (small : e.volume.toNat ≤ 15) :
    e.stepVolume.toNat = if e.increasing then min 15 (e.volume.toNat + 1) else e.volume.toNat - 1 :=
  by
  unfold stepVolume
  cases e.increasing with
  | true =>
    by_cases room : e.volume < 15
    · have below : e.volume.toNat < 15 := room
      rw [if_pos rfl, if_pos rfl, if_pos room, UInt8.toNat_add]
      change (_ + 1) % 256 = _
      omega
    · have full : 15 ≤ e.volume.toNat := UInt8.not_lt.mp room
      rw [if_pos rfl, if_pos rfl, if_neg room]
      omega
  | false =>
    by_cases some : e.volume > 0
    · have above : 0 < e.volume.toNat := some
      rw [if_neg Bool.false_ne_true, if_neg Bool.false_ne_true, if_pos some]
      exact UInt8.toNat_sub_of_le _ _ above
    · have zero : e.volume.toNat ≤ 0 := UInt8.not_lt.mp some
      rw [if_neg Bool.false_ne_true, if_neg Bool.false_ne_true, if_neg some]
      omega

namespace Reached

theorem start (small : e.initial ≤ 15) : e.Reached 0 e.trigger := by
  have small : e.initial.toNat ≤ 15 := small
  refine ⟨rfl, rfl, ?_, fun _ => .start e.period⟩
  change e.initial.toNat = _
  rw [shaped, Nat.zero_div, Nat.add_zero, Nat.sub_zero, Nat.min_eq_right small, ite_self, ite_self]

theorem clock (h : e.Reached clocks later) (small : e.initial ≤ 15) :
    e.Reached (clocks + 1) later.clock := by
  obtain ⟨increasing, period, volume, timer⟩ := h
  unfold Envelope.clock
  by_cases frozen : e.period = 0
  · rw [if_pos (beq_iff_eq.mpr (period.trans frozen))]
    refine ⟨increasing, period, volume.trans ?_, fun some => absurd frozen some⟩
    rw [shaped, shaped, if_pos frozen, if_pos frozen]
  rw [if_neg (by simpa [period] using frozen)]
  dsimp only
  obtain ⟨due, between⟩ := (timer frozen).clock frozen
  generalize (if later.timer > 0 then later.timer - 1 else later.timer) = next at due between ⊢
  have room : later.volume.toNat ≤ 15 := volume ▸ shaped_le small
  by_cases zero : next = 0
  · obtain ⟨further, loaded⟩ := due zero
    rw [if_pos (beq_iff_eq.mpr zero)]
    refine ⟨increasing, period, ?_, fun _ => period ▸ loaded⟩
    change later.stepVolume.toNat = _
    rw [toNat_stepVolume room, increasing, volume, shaped, shaped, if_neg frozen, if_neg frozen,
      further]
    split <;> omega
  · obtain ⟨same, counted⟩ := between zero
    rw [if_neg (by simpa using zero)]
    refine ⟨increasing, period, volume.trans ?_, fun _ => counted⟩
    rw [shaped, shaped, same]

end Reached

/-- From its trigger on, the clocks alone shape an envelope. -/
theorem volume_clocks (small : e.initial ≤ 15) (clocks : Nat) :
    (clock^[clocks] e.trigger).volume.toNat = e.shaped clocks := by
  have reached : e.Reached clocks (clock^[clocks] e.trigger) := by
    induction clocks with
    | zero => exact .start small
    | succ clocks ih =>
      rw [Function.iterate_succ_apply']
      exact ih.clock small
  exact reached.volume

end Envelope

namespace Pulse

def triggerOverflows (p : Pulse) : Bool :=
  (p.sweep.map (Sweep.trigger p.frequency)).any fun s => s.shift != 0 && s.overflows

theorem writeControl_trigger {value : UInt8} (triggers : value &&& 0x80 ≠ 0) (p : Pulse) :
    p.writeControl value = (p.tune value).trigger :=
  if_pos (bne_iff_ne.mpr triggers)

theorem envelope_clockSweep (p : Pulse) : p.clockSweep.envelope = p.envelope := by
  unfold clockSweep applySweep
  dsimp only
  repeat' split
  all_goals rfl

end Pulse

namespace Channel

def control : Channel → UInt16
  | pulse1 => 0xFF14
  | pulse2 => 0xFF19
  | wave => 0xFF1E
  | noise => 0xFF23

end Channel

namespace Sound
variable {channel : Channel} {value : UInt8} {s : Sound}

def envelope? (channel : Channel) (s : Sound) : Option Envelope :=
  match channel with
  | .pulse1 => some s.pulse1.envelope
  | .pulse2 => some s.pulse2.envelope
  | .wave => none
  | .noise => some s.noise.envelope

def overflowsAt (channel : Channel) (value : UInt8) (s : Sound) : Bool :=
  match channel with
  | .pulse1 => (s.pulse1.tune value).triggerOverflows
  | .pulse2 => (s.pulse2.tune value).triggerOverflows
  | _ => false

def triggered (channel : Channel) (value : UInt8) (s : Sound) : Sound :=
  match channel with
  | .pulse1 => { s with pulse1 := (s.pulse1.tune value).trigger }
  | .pulse2 => { s with pulse2 := (s.pulse2.tune value).trigger }
  | .wave => { s with wave := (s.wave.tune value).trigger }
  | .noise =>
    let length := { s.noise.length with enabled := value &&& 0x40 != 0 }
    { s with noise := { s.noise with length }.trigger }

theorem write_control (power : s.powered = true) (triggers : value &&& 0x80 ≠ 0) :
    s.write channel.control value = triggered channel value
      { s with registers := s.registers.write (index channel.control) value } := by
  have inside : InRegisters channel.control := by cases channel <;> decide
  have bit : (value &&& 0x80 != 0) = true := bne_iff_ne.mpr triggers
  rw [write, if_pos inside, if_pos power]
  generalize { s with registers := s.registers.write (index channel.control) value } = stored
  cases channel with
  | pulse1 =>
    exact congrArg (fun pulse1 => { stored with pulse1 }) (Pulse.writeControl_trigger triggers _)
  | pulse2 =>
    exact congrArg (fun pulse2 => { stored with pulse2 }) (Pulse.writeControl_trigger triggers _)
  | wave => exact congrArg (fun wave => { stored with wave }) (if_pos bit)
  | noise => exact congrArg (fun noise => { stored with noise }) (if_pos bit)

theorem note_control (power : s.powered = true) (triggers : value &&& 0x80 ≠ 0) :
    (s.write channel.control value).note channel =
      { on := (s.note channel).converter && !s.overflowsAt channel value
        converter := (s.note channel).converter
        length := LengthCounter.trigger channel.fullLength
          { (s.note channel).length with enabled := value &&& 0x40 != 0 } } := by
  rw [write_control power triggers]
  cases channel with
  | pulse1 | pulse2 => rfl
  | wave | noise => exact congrArg (Note.mk · _ _) (Bool.and_true _).symm

theorem envelope?_control (power : s.powered = true) (triggers : value &&& 0x80 ≠ 0) :
    (s.write channel.control value).envelope? channel =
      (s.envelope? channel).map Envelope.trigger := by
  rw [write_control power triggers]
  cases channel <;> rfl

theorem InRange.initial_le (h : s.InRange) {envelope : Envelope}
    (there : envelope ∈ s.envelope? channel) : envelope.initial ≤ 15 := by
  cases channel with
  | pulse1 => exact Option.some.inj there ▸ h.pulse1.envelope.initial
  | pulse2 => exact Option.some.inj there ▸ h.pulse2.envelope.initial
  | wave => cases there
  | noise => exact Option.some.inj there ▸ h.noise.envelope.initial

theorem note_sweepIf (other : channel ≠ .pulse1) (due : Bool) (s : Sound) :
    (s.sweepIf due).note channel = s.note channel := by
  cases due with
  | true =>
    cases channel with
    | pulse1 => exact absurd rfl other
    | _ => rfl
  | false => rfl

theorem envelope?_lengthsIf (due : Bool) (s : Sound) :
    (s.lengthsIf due).envelope? channel = s.envelope? channel := by
  cases due <;> cases channel <;> rfl

theorem envelope?_sweepIf (due : Bool) (s : Sound) :
    (s.sweepIf due).envelope? channel = s.envelope? channel := by
  cases due with
  | true =>
    cases channel with
    | pulse1 => exact congrArg some s.pulse1.envelope_clockSweep
    | _ => rfl
  | false => rfl

theorem envelope?_envelopesIf (due : Bool) (s : Sound) :
    (s.envelopesIf due).envelope? channel =
      if due then (s.envelope? channel).map Envelope.clock else s.envelope? channel := by
  cases due <;> cases channel <;> rfl

/-- Only the first channel's sweep is ever clocked. The notes of the others depend on their lengths
alone. -/
theorem sequenced_note (other : channel ≠ .pulse1) :
    Sequenced (note channel) (· % 2 = 0) Note.clock := by
  refine ⟨note_core channel, fun s cycles timer => ?_, fun s => ?_⟩
  · rw [note_sequencerTimer, note_stepChannels]
  · rw [clockSequencer_eq, note_sequencerStep, note_envelopesIf, note_sweepIf other,
      note_lengthsIf, even_step]
    simp only [decide_eq_true_eq]

theorem sequenced_envelope? (channel : Channel) :
    Sequenced (envelope? channel) (· = 7) (Option.map Envelope.clock) := by
  refine ⟨fun s => ?_, fun s cycles timer => ?_, fun s => ?_⟩
  · cases channel <;> rfl
  · cases channel with
    | noise =>
      change some (s.noise.step cycles).envelope = some s.noise.envelope
      unfold Noise.step
      split <;> rfl
    | _ => rfl
  · have step (next : UInt8) (s : Sound) :
        { s with sequencerStep := next }.envelope? channel = s.envelope? channel := by
      cases channel <;> rfl
    rw [clockSequencer_eq, step, envelope?_envelopesIf, envelope?_sweepIf, envelope?_lengthsIf]
    simp only [beq_iff_eq, ← UInt8.toNat_inj, UInt8.reduceToNat]

/-! The second channel has no sweep. -/

theorem sweepless_write (address : UInt16) (value : UInt8) (h : s.pulse2.sweep = none) :
    (s.write address value).pulse2.sweep = none := by
  have controlled (p : Pulse) (h : p.sweep = none) : (p.writeControl value).sweep = none := by
    unfold Pulse.writeControl
    split
    · exact Option.map_eq_none_iff.mpr h
    · exact h
  obtain ⟨-, written⟩ | ⟨-, written⟩ | ⟨-, ram, written⟩ := write_cases address value s
  · rw [written]
    split
    · unfold applyWrite
      split
      case h_9 => exact controlled _ h
      all_goals exact h
    · exact h
  · rw [written]
    obtain ⟨-, -, moved⟩ | ⟨-, -, moved⟩ | ⟨-, same⟩ := writePower_cases value s
    · rw [moved]
      rfl
    · rw [moved]
      exact h
    · rw [same]
      exact h
  · rw [written]
    exact h

theorem sweep_runSlice (cycles : Nat) (s : Sound) :
    (s.runSlice cycles).pulse2.sweep = s.pulse2.sweep := by
  have clocked (s : Sound) : s.clockSequencer.pulse2.sweep = s.pulse2.sweep := by
    unfold clockSequencer
    dsimp only
    repeat' split
    all_goals rfl
  unfold runSlice
  dsimp only
  repeat' split
  · exact clocked _
  · rfl
  · rfl

theorem sweepless_tick (settings : Settings) (cycles : Nat) (samples : Array Single)
    (paced : s.Paced) (h : s.pulse2.sweep = none) :
    (s.tick settings cycles samples).1.pulse2.sweep = none := by
  refine tick_keeps (P := (·.pulse2.sweep = none)) settings (fun n t samples _ _ h => ?_) cycles s
    samples paced h
  have same : (t.pass settings n samples).1.pulse2.sweep = (t.runSlice n).pulse2.sweep :=
    congrArg (·.pulse2.sweep) (core_pass settings n t samples)
  exact same.trans ((sweep_runSlice n t).trans h)

theorem sweepless_powerOn : powerOn.pulse2.sweep = none :=
  powerOn_keeps (P := (·.pulse2.sweep = none)) rfl fun _ address value =>
    sweepless_write address value

end Sound

namespace LiveSound
open SoundOperation
variable {channel : Channel}

theorem sweepless_operations (settings : Settings) (past : List SoundOperation) :
    ((powerOn settings).operations past).sound.pulse2.sweep = none := by
  have both := operations_keeps
    (P := fun live => live.sound.InRange ∧ live.sound.pulse2.sweep = none)
    (fun op (_ : op ∈ past) live h => ?_)
    (show (powerOn settings).sound.InRange ∧ _ from ⟨.powerOn, Sound.sweepless_powerOn⟩)
  · exact both.2
  · refine ⟨inRange_operate op h.1, ?_⟩
    cases op with
    | tick cycles => exact Sound.sweepless_tick live.settings cycles live.samples h.1.paced h.2
    | write address value => exact Sound.sweepless_write address value h.2
    | takeSamples => exact h.2

theorem not_overflowsAt (settings : Settings) (past : List SoundOperation)
    (other : channel ≠ .pulse1) (value : UInt8) :
    ((powerOn settings).operations past).sound.overflowsAt channel value = false := by
  cases channel with
  | pulse1 => exact absurd rfl other
  | pulse2 =>
    have none := sweepless_operations settings past
    change (Option.any _ (Option.map _ ((powerOn settings).operations past).sound.pulse2.sweep)) = _
    rw [none]
    rfl
  | wave | noise => rfl

/-- From its trigger on, the steps of the sequencer say when a note ends and how loud it is. Only a
sweep that overflows keeps it from starting, and since power-on no other channel than the first has
one. -/
theorem notes_exact (live : LiveSound) (channel : Channel) (value : UInt8)
    (ops : List SoundOperation) (power : live.sound.powered = true)
    (layout : live.sound.checkLayout = .ok ()) (other : channel ≠ .pulse1)
    (triggers : value &&& 0x80 ≠ 0) (converter : (live.sound.note channel).converter = true)
    (passive : ∀ op ∈ ops, op.Passive) :
    let begun := live.operate (.write channel.control value)
    let after := begun.operations ops
    let time := (ops.map cycles).sum
    let length := (begun.sound.note channel).length
    (1 ≤ length.counter ∧ length.counter ≤ channel.fullLength) ∧
    (after.sound.Reports channel ↔ live.sound.overflowsAt channel value = false ∧
      (length.enabled = false ∨
        begun.sound.stepsDue (· % 2 = 0) time < length.counter.toNat)) ∧
    ((after.sound.envelope? channel).map fun envelope => envelope.volume.toNat) =
      (live.sound.envelope? channel).map (Envelope.shaped (begun.sound.stepsDue (· = 7) time)) ∧
    ∀ settings past, live = (powerOn settings).operations past →
      live.sound.overflowsAt channel value = false := by
  intro begun after time length
  have inRange := (Sound.checkLayout_eq_ok _).mp layout
  have next : begun.sound.InRange := inRange_operate (.write channel.control value) inRange
  have apart : channel.control ≠ 0xFF26 := by cases channel <;> decide
  have on : begun.sound.powered = true := (Sound.powered_write value live.sound apart).trans power
  have note : begun.sound.note channel = _ := Sound.note_control power triggers
  have triggered : length = _ := congrArg Note.length note
  have some : length.counter ≠ 0 := by
    rw [triggered]
    exact LengthCounter.trigger_ne_zero channel.fullLength_pos _
  refine ⟨⟨by grind, next.length_note channel⟩, ?_, ?_, ?_⟩
  · have clocked : after.sound.note channel = _ :=
      (Sound.sequenced_note other).operations next on passive
    have starts : (begun.sound.note channel).on = true ↔
        live.sound.overflowsAt channel value = false := by
      rw [note, converter, Bool.true_and, Bool.not_eq_true']
    rw [Sound.reports_iff, clocked, Note.on_clocks some, starts]
  · have clocked : after.sound.envelope? channel = _ :=
      (Sound.sequenced_envelope? channel).operations next on passive
    have restarted : begun.sound.envelope? channel = _ := Sound.envelope?_control power triggers
    rw [clocked, restarted, iterate_map, Option.map_map, Option.map_map]
    exact Option.map_congr fun envelope there =>
      Envelope.volume_clocks (inRange.initial_le there) _
  · rintro settings past rfl
    exact not_overflowsAt settings past other value

/-- A note on the second channel, for two length clocks. It gets louder with every third clock of its
envelope. -/
def swell : List SoundOperation := [.write 0xFF17 0x8B, .write 0xFF16 0x3E]

/-- After eighty steps of the sequencer it is long over, and its envelope has gone on. -/
theorem notes_exact_swell :
    let begun := ((powerOn .standard).operations swell).operate (.write Channel.pulse2.control 0xC0)
    begun.sound.Reports .pulse2 ∧ ¬(begun.operations [.tick 655360]).sound.Reports .pulse2 ∧
      ((begun.operations [.tick 655360]).sound.envelope? .pulse2).map
        (fun envelope => envelope.volume.toNat) = some 11 := by
  intro begun
  have layout : ((powerOn .standard).operations swell).sound.checkLayout = .ok () :=
    (Sound.checkLayout_eq_ok _).mpr (inRange_powerOn .standard swell)
  have passive : ∀ op ∈ [SoundOperation.tick 655360], op.Passive := by
    simp [SoundOperation.Passive]
  obtain ⟨-, reported, volume, -⟩ :=
    notes_exact _ .pulse2 0xC0 _ rfl layout nofun (by decide) rfl passive
  have timer : begun.sound.sequencerTimer = 0 := rfl
  have step : begun.sound.sequencerStep = 0 := rfl
  have lengths : begun.sound.stepsDue (· % 2 = 0) 655360 = 40 := by
    rw [Sound.stepsDue, Sound.completed, timer, step]
    decide
  have envelopes : begun.sound.stepsDue (· = 7) 655360 = 10 := by
    rw [Sound.stepsDue, Sound.completed, timer, step]
    decide
  have shape : ((powerOn .standard).operations swell).sound.envelope? .pulse2 =
      some ⟨8, true, 3, 0, 0⟩ := rfl
  have length : (begun.sound.note .pulse2).length = ⟨2, true⟩ := rfl
  have time : ([SoundOperation.tick 655360].map cycles).sum = 655360 := rfl
  rw [time, lengths, length] at reported
  rw [time, envelopes, shape] at volume
  refine ⟨(begun.sound.reports_iff .pulse2).mpr rfl, fun heard => ?_, volume⟩
  exact absurd (reported.mp heard).2 (by decide)

/-- A unit whose second channel has a sweep. It keeps all its ranges. -/
def forged : LiveSound :=
  let swept : Sound :=
    { Sound.powerOn with
      pulse2 := { Sound.powerOn.pulse2 with sweep := some ⟨0, false, 1, 0, 0, false⟩ } }
  LiveSound.operations [.write 0xFF17 0xF0, .write 0xFF18 0xFF] ⟨.standard, swept, #[]⟩

/-- Its highest note does not play, although the converter is on and the length disabled. -/
theorem forged_silent :
    let begun := forged.operate (.write Channel.pulse2.control 0x87)
    forged.sound.powered = true ∧ forged.sound.checkLayout = .ok () ∧
      (forged.sound.note .pulse2).converter = true ∧
      (begun.sound.note .pulse2).length.enabled = false ∧ ¬begun.sound.Reports .pulse2 := by
  intro begun
  refine ⟨rfl, rfl, rfl, rfl, ?_⟩
  rw [Sound.reports_iff]
  exact Bool.eq_false_iff.mp rfl

end LiveSound
end DotMatrix
