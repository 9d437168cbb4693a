import DotMatrix.Proofs.Sound.NoteShape
import Mathlib.Order.Bounds.Basic

/-! The frequencies that a sweep goes through. They follow a recurrence up to the first of its terms
that has no room in eleven bits. There the note ends, and the frequency stays. -/
namespace DotMatrix

namespace Sweep
variable {s : Sweep} {f0 : Nat}

def further (s : Sweep) (x : Nat) : Nat :=
  if s.negate then x - x >>> s.shift.toNat else x + x >>> s.shift.toNat

/-- The recurrence that a sweep follows. -/
def term (s : Sweep) (f0 : Nat) : Nat → Nat
  | 0 => f0
  | i + 1 => s.further (s.term f0 i)

/-- The same, but the last term with room stays. -/
def stopped (s : Sweep) (f0 : Nat) : Nat → Nat
  | 0 => f0
  | i + 1 =>
    if s.further (s.stopped f0 i) ≤ 2047 then s.further (s.stopped f0 i) else s.stopped f0 i

theorem stopped_le (fits : f0 ≤ 2047) (i : Nat) : s.stopped f0 i ≤ 2047 := by
  induction i with
  | zero => exact fits
  | succ i ih =>
    rw [stopped]
    split
    · assumption
    · exact ih

theorem stopped_of_room {i : Nat} (room : ∀ j < i, s.term f0 (j + 1) ≤ 2047) :
    s.stopped f0 i = s.term f0 i := by
  induction i with
  | zero => rfl
  | succ i ih =>
    have same := ih fun j before => room j (Nat.lt_succ_of_lt before)
    rw [stopped, same]
    exact if_pos (room i (Nat.lt_succ_self i))

theorem stopped_add {i : Nat} (full : 2047 < s.further (s.stopped f0 i)) (more : Nat) :
    s.stopped f0 (i + more) = s.stopped f0 i := by
  induction more with
  | zero => rfl
  | succ more ih =>
    rw [← Nat.add_assoc, stopped, ih]
    exact if_neg (Nat.not_le.mpr full)

theorem stopped_of_isLeast {last : Nat} (first : IsLeast {i | 2047 < s.term f0 (i + 1)} last)
    (i : Nat) : s.stopped f0 i = s.term f0 (min i last) ∧
      (s.further (s.stopped f0 i) ≤ 2047 ↔ i < last) := by
  have room {j : Nat} (before : j < last) : s.term f0 (j + 1) ≤ 2047 :=
    Nat.not_lt.mp fun beyond => Nat.not_le.mpr before (first.2 beyond)
  have reached : s.stopped f0 last = s.term f0 last := stopped_of_room fun _ before => room before
  by_cases before : i < last
  · have same : s.stopped f0 i = s.term f0 i :=
      stopped_of_room fun j earlier => room (Nat.lt_trans earlier before)
    rw [Nat.min_eq_left (Nat.le_of_lt before), same]
    exact ⟨rfl, iff_of_true (room before) before⟩
  · have full : 2047 < s.further (s.stopped f0 last) := reached ▸ first.1
    obtain ⟨more, rfl⟩ := Nat.exists_eq_add_of_le (Nat.not_lt.mp before)
    rw [Nat.min_eq_right (Nat.le_add_right _ _), stopped_add full, reached]
    exact ⟨rfl, iff_of_false (Nat.not_le.mpr first.1) before⟩

theorem term_le (fits : f0 ≤ 2047) (down : s.negate = true) (i : Nat) : s.term f0 i ≤ 2047 := by
  induction i with
  | zero => exact fits
  | succ i ih =>
    rw [term, further, if_pos down]
    exact Nat.le_trans (Nat.sub_le _ _) ih

structure Exact (s : Sweep) : Prop where
  difference : s.shadow >>> s.shift.toUInt16 ≤ s.shadow
  sum : s.shadow.toNat + (s.shadow >>> s.shift.toUInt16).toNat < 0x10000
  next : s.next.toNat = s.further s.shadow.toNat

theorem exact_of_le (small : s.shift ≤ 7) (fits : s.shadow ≤ maxFrequency) : s.Exact := by
  have shift : s.shift.toNat ≤ 7 := small
  have shadow : s.shadow.toNat ≤ 2047 := fits
  have delta : (s.shadow >>> s.shift.toUInt16).toNat = s.shadow.toNat >>> s.shift.toNat := by
    rw [UInt16.toNat_shiftRight, UInt8.toNat_toUInt16, Nat.mod_eq_of_lt (by omega)]
  have less : s.shadow.toNat >>> s.shift.toNat ≤ s.shadow.toNat := Nat.shiftRight_le ..
  have difference : s.shadow >>> s.shift.toUInt16 ≤ s.shadow :=
    UInt16.le_iff_toNat_le.mpr (delta ▸ less)
  refine ⟨difference, by omega, ?_⟩
  unfold next further
  dsimp only
  cases s.negate with
  | true =>
    rw [if_pos rfl, if_pos rfl, UInt16.toNat_sub_of_le _ _ difference, delta]
  | false =>
    rw [if_neg Bool.false_ne_true, if_neg Bool.false_ne_true, UInt16.toNat_add, delta]
    exact Nat.mod_eq_of_lt (by omega)

theorem Exact.overflows_iff (h : s.Exact) :
    s.overflows = true ↔ ¬s.further s.shadow.toNat ≤ 2047 := by
  rw [← h.next, Nat.not_le]
  exact decide_eq_true_iff

def running (timer : UInt8) (frequency : UInt16) (s : Sweep) : Sweep :=
  { s with timer, shadow := frequency, enabled := true }

theorem trigger_eq_running (period : s.period ≠ 0) (frequency : UInt16) :
    trigger frequency s = s.running s.period frequency := by
  simp [trigger, reload, running, period]

theorem reload_running (period : s.period ≠ 0) (timer : UInt8) (frequency : UInt16) :
    (s.running timer frequency).reload = s.running s.period frequency := by
  simp [reload, running, period]

theorem overflows_running (small : s.shift ≤ 7) {frequency : UInt16}
    (fits : frequency ≤ maxFrequency) (timer : UInt8) :
    (s.running timer frequency).overflows = true ↔ ¬s.further frequency.toNat ≤ 2047 :=
  (exact_of_le (s := s.running timer frequency) small fits).overflows_iff

theorem room_running (small : s.shift ≤ 7) {frequency : UInt16} (fits : frequency ≤ maxFrequency)
    (timer : UInt8) :
    (!(s.running timer frequency).overflows) = true ↔ s.further frequency.toNat ≤ 2047 := by
  rw [Bool.not_eq_true', ← Bool.not_eq_true, overflows_running small fits, Classical.not_not]

end Sweep

namespace Pulse
variable {p : Pulse} {s : Sweep} {f0 k : Nat}

/-- Where so many sweep clocks take a channel that was triggered with a sweep. -/
structure Glides (s : Sweep) (f0 k : Nat) (p : Pulse) : Prop where
  sweep : ∃ timer, Divides s.period k timer ∧ p.sweep = some (s.running timer p.frequency)
  frequency : p.frequency.toNat = s.stopped f0 (k / s.period.toNat)
  on : p.enabled = true ↔ s.further (s.stopped f0 (k / s.period.toNat)) ≤ 2047

def Tuned (frequency : Nat) (p : Pulse) : Prop :=
  p.frequency.toNat = frequency ∧ ∃ sweep ∈ p.sweep, sweep.shadow.toNat = frequency

/-- A running sweep whose time has come takes the next frequency, or ends the note. -/
theorem applySweep_running (period : s.period ≠ 0) (shift : s.shift ≠ 0) (timer : UInt8)
    (frequency : UInt16) :
    let swept := s.running timer frequency
    let next := s.running timer swept.next
    p.applySweep swept =
      if swept.overflows then { p with sweep := some swept, enabled := false }
      else { p with
        frequency := swept.next
        sweep := some next
        enabled := p.enabled && !next.overflows } := by
  intro swept next
  have active : (!swept.enabled || swept.period == 0) = false := by
    simpa [swept, Sweep.running] using period
  have shifts : (swept.shift == 0) = false := by
    simpa [swept, Sweep.running] using shift
  unfold applySweep
  rw [active, shifts]
  rfl

namespace Glides

theorem tuned (h : p.Glides s f0 k) : p.Tuned (s.stopped f0 (k / s.period.toNat)) := by
  obtain ⟨timer, -, there⟩ := h.sweep
  exact ⟨h.frequency, _, there, h.frequency⟩

theorem trigger (h : p.InRange) (there : p.sweep = some s) (converter : p.converter = true)
    (period : s.period ≠ 0) (shift : s.shift ≠ 0) :
    p.trigger.Glides s p.frequency.toNat 0 := by
  have small : s.shift ≤ 7 := (h.sweep s there).shift
  have started : p.trigger.sweep = some (s.running s.period p.frequency) := by
    change p.sweep.map (Sweep.trigger p.frequency) = _
    rw [there, Option.map_some, Sweep.trigger_eq_running period]
  have on : p.trigger.enabled = !(s.running s.period p.frequency).overflows := by
    change (p.converter && !p.trigger.sweep.any fun s => s.shift != 0 && s.overflows) = _
    rw [converter, started, Option.any_some, Bool.true_and]
    have shifts : ((s.running s.period p.frequency).shift != 0) = true := bne_iff_ne.mpr shift
    rw [shifts, Bool.true_and]
  refine ⟨⟨s.period, .start s.period, started⟩, ?_, ?_⟩
  · rw [Nat.zero_div]
    rfl
  · rw [Nat.zero_div, on, Sweep.room_running small h.frequency]
    rfl

variable (small : s.shift ≤ 7) (fits : f0 ≤ 2047) (period : s.period ≠ 0) (shift : s.shift ≠ 0)
include small fits period shift

theorem applySweep (h : p.Glides s f0 k)
    (completes : (k + 1) / s.period.toNat = k / s.period.toNat + 1)
    (loaded : Divides s.period (k + 1) s.period) :
    (p.applySweep (s.running s.period p.frequency)).Glides s f0 (k + 1) := by
  obtain ⟨-, frequency, on⟩ := h
  have inside : p.frequency ≤ maxFrequency := by
    rw [UInt16.le_iff_toNat_le, frequency]
    exact Sweep.stopped_le fits _
  have overflows := Sweep.overflows_running small inside s.period
  rw [applySweep_running period shift]
  by_cases room : s.further p.frequency.toNat ≤ 2047
  · have next : (s.running s.period p.frequency).next.toNat = s.further p.frequency.toNat :=
      (Sweep.exact_of_le (s := s.running s.period p.frequency) small inside).next
    have next_le : (s.running s.period p.frequency).next ≤ maxFrequency := by
      rw [UInt16.le_iff_toNat_le, next]
      exact room
    have moved : s.stopped f0 (k / s.period.toNat + 1) = s.further p.frequency.toNat := by
      rw [Sweep.stopped, ← frequency, if_pos room]
    have heard : p.enabled = true := on.mpr (frequency ▸ room)
    rw [if_neg fun beyond => overflows.mp beyond room]
    refine ⟨⟨s.period, loaded, rfl⟩, ?_, ?_⟩
    · rw [completes, moved]
      exact next
    · rw [completes, moved, ← next]
      change (p.enabled && !Sweep.overflows _) = true ↔ _
      rw [heard, Bool.true_and, Sweep.room_running small next_le]
  · have stays : s.stopped f0 (k / s.period.toNat + 1) = s.stopped f0 (k / s.period.toNat) := by
      rw [Sweep.stopped, ← frequency, if_neg room]
    rw [if_pos (overflows.mpr room)]
    refine ⟨⟨s.period, loaded, rfl⟩, ?_, ?_⟩
    · rw [completes, stays]
      exact frequency
    · rw [completes, stays, ← frequency]
      exact iff_of_false Bool.false_ne_true room

theorem clockSweep (h : p.Glides s f0 k) : p.clockSweep.Glides s f0 (k + 1) := by
  obtain ⟨timer, divides, there⟩ := h.sweep
  obtain ⟨due, between⟩ := divides.clock period
  unfold Pulse.clockSweep
  rw [there]
  change Glides s f0 (k + 1) (if (if timer > 0 then timer - 1 else timer) == 0 then
    p.applySweep (s.running timer p.frequency).reload else
      { p with sweep := some (s.running (if timer > 0 then timer - 1 else timer) p.frequency) })
  generalize (if timer > 0 then timer - 1 else timer) = next at due between ⊢
  by_cases zero : next = 0
  · obtain ⟨completes, loaded⟩ := due zero
    rw [if_pos (beq_iff_eq.mpr zero), Sweep.reload_running period]
    exact h.applySweep small fits period shift completes loaded
  · obtain ⟨same, counted⟩ := between zero
    rw [if_neg (by simpa using zero)]
    refine ⟨⟨next, counted, rfl⟩, ?_, ?_⟩
    · rw [same]
      exact h.frequency
    · rw [same]
      exact h.on

theorem clocks (h : p.Glides s f0 0) (k : Nat) : (Pulse.clockSweep^[k] p).Glides s f0 k := by
  induction k with
  | zero => exact h
  | succ k ih =>
    rw [Function.iterate_succ_apply']
    exact ih.clockSweep small fits period shift

end Glides

/-- A channel without what the sweep does not look at. -/
def bare (p : Pulse) : Pulse := { p with timer := 0, position := 0, length := .off, envelope := .off }

theorem glides_bare : p.bare.Glides s f0 k ↔ p.Glides s f0 k :=
  ⟨fun h => ⟨h.sweep, h.frequency, h.on⟩, fun h => ⟨h.sweep, h.frequency, h.on⟩⟩

theorem bare_applySweep (s : Sweep) (p : Pulse) : (p.applySweep s).bare = p.bare.applySweep s := by
  unfold applySweep
  repeat' split
  all_goals rfl

theorem bare_clockSweep (p : Pulse) : p.clockSweep.bare = p.bare.clockSweep := by
  have same : p.bare.sweep = p.sweep := rfl
  unfold clockSweep
  rw [same]
  cases p.sweep with
  | none => rfl
  | some s =>
    dsimp only
    generalize (if s.timer > 0 then s.timer - 1 else s.timer) = timer
    split
    · exact bare_applySweep s.reload p
    · rfl

/-- All numbers of a sweep stay within their types, wherever the next frequency is computed: when the
sweep is applied, when its result is looked at once more, and when a note is started. -/
structure SweepExact (p : Pulse) : Prop where
  frequency : p.frequency ≤ maxFrequency
  shadow : ∀ s ∈ p.sweep, s.shadow ≤ maxFrequency
  first : ∀ s ∈ p.sweep, s.Exact
  second : ∀ s ∈ p.sweep, s.overflows = false → { s with shadow := s.next }.Exact
  trigger : ∀ value, ∀ s ∈ p.sweep, (Sweep.trigger (p.tune value).frequency s).Exact

theorem InRange.sweepExact (h : p.InRange) : p.SweepExact where
  frequency := h.frequency
  shadow s there := (h.sweep s there).shadow
  first s there := Sweep.exact_of_le (h.sweep s there).shift (h.sweep s there).shadow
  second s there fits := Sweep.exact_of_le (h.sweep s there).shift (Sweep.InRange.next_le fits)
  trigger value s there :=
    have triggered := (h.sweep s there).trigger (h.tune value).frequency
    Sweep.exact_of_le triggered.shift triggered.shadow

end Pulse

namespace Sound
variable {s : Sound}

def endless? (s : Sound) : Option Pulse :=
  if s.pulse1.length.enabled then none else some s.pulse1.bare

theorem endless?_lengthsIf (due : Bool) (s : Sound) : (s.lengthsIf due).endless? = s.endless? := by
  cases due with
  | true =>
    have same : s.pulse1.clockLength.length.enabled = s.pulse1.length.enabled :=
      s.pulse1.length.enabled_clock
    change (if s.pulse1.clockLength.length.enabled then none else some s.pulse1.clockLength.bare) = _
    rw [same]
    unfold endless?
    split
    · rfl
    · rename_i off
      have lasts : (s.pulse1.enabled && !s.pulse1.length.expires) = s.pulse1.enabled := by
        simp [LengthCounter.expires, off]
      exact congrArg (fun enabled => some { s.pulse1.bare with enabled }) lasts
  | false => rfl

theorem endless?_sweepIf (due : Bool) (s : Sound) :
    (s.sweepIf due).endless? = if due then s.endless?.map Pulse.clockSweep else s.endless? := by
  cases due with
  | true =>
    obtain ⟨_, swept⟩ := s.pulse1.note_clockSweep
    have same : s.pulse1.clockSweep.length = s.pulse1.length := congrArg Note.length swept
    change (if s.pulse1.clockSweep.length.enabled then none else some s.pulse1.clockSweep.bare) = _
    rw [same, if_pos rfl, Pulse.bare_clockSweep]
    unfold endless?
    split <;> rfl
  | false => rfl

theorem sequenced_endless? :
    Sequenced endless? (fun step => step = 2 ∨ step = 6) (Option.map Pulse.clockSweep) := by
  refine ⟨fun s => rfl, fun s cycles timer => rfl, fun s => ?_⟩
  have rest (due : Bool) (s : Sound) (next : UInt8) :
      { s.envelopesIf due with sequencerStep := next }.endless? = s.endless? := by
    cases due <;> rfl
  rw [clockSequencer_eq, rest, endless?_sweepIf, endless?_lengthsIf]
  simp only [Bool.or_eq_true, beq_iff_eq, ← UInt8.toNat_inj, UInt8.reduceToNat]

theorem bare_of_endless? {p : Pulse} (there : s.endless? = some p) : s.pulse1.bare = p := by
  unfold endless? at there
  split at there
  · cases there
  · exact Option.some.inj there

/-- A write of this value starts a note that no length ends and that this sweep moves. -/
structure StartsGlide (value : UInt8) (sweep : Sweep) (s : Sound) : Prop where
  powered : s.powered = true
  converter : s.pulse1.converter = true
  there : s.pulse1.sweep = some sweep
  period : sweep.period ≠ 0
  shift : sweep.shift ≠ 0
  triggers : value &&& 0x80 ≠ 0
  endless : value &&& 0x40 = 0

namespace StartsGlide
variable {value : UInt8} {sweep : Sweep}

theorem pulse1 (h : s.StartsGlide value sweep) :
    (s.write Channel.pulse1.control value).pulse1 = (s.pulse1.tune value).trigger := by
  rw [write_control h.powered h.triggers]
  rfl

theorem endless? (h : s.StartsGlide value sweep) :
    (s.write Channel.pulse1.control value).endless? =
      some (s.write Channel.pulse1.control value).pulse1.bare := by
  have uncounted : (s.write Channel.pulse1.control value).pulse1.length.enabled = false := by
    rw [h.pulse1]
    change (LengthCounter.trigger _ _).enabled = _
    unfold LengthCounter.trigger
    split <;> exact bne_eq_false_iff_eq.mpr h.endless
  unfold Sound.endless?
  rw [uncounted]
  rfl

theorem glides (h : s.StartsGlide value sweep) (inRange : s.InRange) :
    (s.write Channel.pulse1.control value).pulse1.Glides sweep
      (s.write Channel.pulse1.control value).pulse1.frequency.toNat 0 := by
  rw [h.pulse1]
  exact .trigger (inRange.pulse1.tune value) h.there h.converter h.period h.shift

end StartsGlide
end Sound

namespace LiveSound
open SoundOperation
variable {live : LiveSound} {value : UInt8} {sweep : Sweep} {ops : List SoundOperation}

theorem glides_operations (inRange : live.sound.InRange)
    (starts : live.sound.StartsGlide value sweep) (passive : ∀ op ∈ ops, op.Passive) :
    let begun := live.operate (.write Channel.pulse1.control value)
    (begun.operations ops).sound.pulse1.Glides sweep begun.sound.pulse1.frequency.toNat
      (begun.sound.stepsDue (fun step => step = 2 ∨ step = 6) (ops.map cycles).sum) := by
  intro begun
  have next : begun.sound.InRange := inRange_operate (.write Channel.pulse1.control value) inRange
  have on : begun.sound.powered = true :=
    (Sound.powered_write value live.sound (by decide)).trans starts.powered
  have small : sweep.shift ≤ 7 := (inRange.pulse1.sweep sweep starts.there).shift
  have start : begun.sound.pulse1.bare.Glides sweep begun.sound.pulse1.frequency.toNat 0 :=
    Pulse.glides_bare.mpr (starts.glides inRange)
  have clocked := Sound.sequenced_endless?.operations next on passive
  have uncounted : begun.sound.endless? = some begun.sound.pulse1.bare := starts.endless?
  rw [iterate_map, uncounted, Option.map_some] at clocked
  rw [← Pulse.glides_bare, Sound.bare_of_endless? clocked]
  exact start.clocks small next.pulse1.frequency starts.period starts.shift _

/-- After a trigger the frequency follows the recurrence of its sweep, one term for each period of
the sweep clock, up to the first term that does not fit. There it stays, and the channel goes off.
Nothing that programs write makes a number of the sweep leave its range. -/
theorem sweep_recurrence (live : LiveSound) (layout : live.sound.checkLayout = .ok ()) :
    (∀ (value : UInt8) (sweep : Sweep) (ops : List SoundOperation),
      live.sound.StartsGlide value sweep → (∀ op ∈ ops, op.Passive) →
      let begun := live.operate (.write Channel.pulse1.control value)
      let after := (begun.operations ops).sound
      let f := sweep.term begun.sound.pulse1.frequency.toNat
      let clocks := begun.sound.stepsDue (fun step => step = 2 ∨ step = 6) (ops.map cycles).sum
      let rounds := clocks / sweep.period.toNat
      (∀ last, IsLeast {i | 2047 < f (i + 1)} last →
        after.pulse1.Tuned (f (min rounds last)) ∧ (after.Reports .pulse1 ↔ rounds < last)) ∧
      ((∀ i, f (i + 1) ≤ 2047) → after.pulse1.Tuned (f rounds) ∧ after.Reports .pulse1) ∧
      (sweep.negate = true → ∀ i, f (i + 1) ≤ 2047)) ∧
    ∀ ops : List SoundOperation, (live.operations ops).sound.pulse1.SweepExact := by
  have inRange := (Sound.checkLayout_eq_ok _).mp layout
  refine ⟨fun value sweep ops starts passive => ?_,
    fun ops => (inRange_operations ops inRange).pulse1.sweepExact⟩
  intro begun after f clocks rounds
  have glides : after.pulse1.Glides sweep _ clocks := glides_operations inRange starts passive
  have next : begun.sound.InRange := inRange_operate (.write Channel.pulse1.control value) inRange
  simp only [Sound.reports_iff]
  refine ⟨fun last first => ?_, fun room => ?_, fun down i => ?_⟩
  · obtain ⟨same, on⟩ : sweep.stopped _ rounds = f (min rounds last) ∧ _ :=
      Sweep.stopped_of_isLeast first rounds
    exact ⟨same ▸ glides.tuned, glides.on.trans on⟩
  · have same : sweep.stopped _ rounds = f rounds := Sweep.stopped_of_room fun j _ => room j
    exact ⟨same ▸ glides.tuned, glides.on.mpr (same ▸ room rounds)⟩
  · exact Sweep.term_le next.pulse1.frequency down (i + 1)

def halves : Sweep := ⟨1, false, 1, 0, 0, false⟩

def glide : List SoundOperation :=
  [.write 0xFF10 0x11, .write 0xFF12 0xF0, .write 0xFF13 0x00]

/-- From 512 it goes to 768, 1152 and 1728. What comes next does not fit, and the note is over. -/
theorem sweep_recurrence_glide :
    let begun := ((powerOn .standard).operations glide).operate (.write Channel.pulse1.control 0x82)
    ((begun.operations [.tick 65536]).sound.pulse1.Tuned 1152 ∧
      (begun.operations [.tick 65536]).sound.Reports .pulse1) ∧
    (begun.operations [.tick 131072]).sound.pulse1.Tuned 1728 ∧
      ¬(begun.operations [.tick 131072]).sound.Reports .pulse1 := by
  intro begun
  have layout : ((powerOn .standard).operations glide).sound.checkLayout = .ok () :=
    (Sound.checkLayout_eq_ok _).mpr (inRange_powerOn .standard glide)
  have starts : ((powerOn .standard).operations glide).sound.StartsGlide 0x82 halves :=
    ⟨rfl, rfl, rfl, by decide, by decide, by decide, by decide⟩
  have passive (n : Nat) : ∀ op ∈ [SoundOperation.tick n], op.Passive := by
    simp [SoundOperation.Passive]
  have frequency : begun.sound.pulse1.frequency.toNat = 512 := rfl
  have first : IsLeast {i | 2047 < halves.term 512 (i + 1)} 3 := by
    refine ⟨by decide, fun i beyond => ?_⟩
    by_contra before
    have room : ∀ j < 3, halves.term 512 (j + 1) ≤ 2047 := by decide
    exact absurd (room i (Nat.not_le.mp before)) (Nat.not_le.mpr beyond)
  have timer : begun.sound.sequencerTimer = 0 := rfl
  have step : begun.sound.sequencerStep = 0 := rfl
  have clocks : begun.sound.stepsDue (fun step => step = 2 ∨ step = 6) 65536 = 2 ∧
      begun.sound.stepsDue (fun step => step = 2 ∨ step = 6) 131072 = 4 := by
    rw [Sound.stepsDue, Sound.stepsDue, Sound.completed, Sound.completed, timer, step]
    decide
  have sum (n : Nat) : ([SoundOperation.tick n].map cycles).sum = n := Nat.add_zero n
  have period : halves.period.toNat = 1 := rfl
  have law (n : Nat) := (sweep_recurrence _ layout).1 0x82 halves _ starts (passive n)
  obtain ⟨tuned, on⟩ := (law 65536).1 3 first
  obtain ⟨stays, off⟩ := (law 131072).1 3 first
  rw [sum, clocks.1, period] at tuned on
  rw [sum, clocks.2, period] at stays off
  exact ⟨⟨tuned, on.mpr (by decide)⟩, stays, fun heard => absurd (off.mp heard) (by decide)⟩

end LiveSound
end DotMatrix
