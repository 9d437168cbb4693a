import DotMatrix.Proofs.Sound.PowerCycle

/-! The notes of the four channels. A note is heard until something ends it: its length runs out,
its sweep overflows, its converter or the power goes off. Nothing but a trigger starts one. -/
namespace DotMatrix

theorem shortLength_lt (value : UInt8) : (value &&& 0x3F).toUInt16 < 64 := by
  have small : (value &&& 0x3F).toNat ≤ 63 := and_le_mask value 0x3F
  rw [UInt16.lt_iff_toNat_lt, UInt8.toNat_toUInt16]
  exact Nat.lt_succ_of_le small

theorem byteLength_lt (value : UInt8) : value.toUInt16 < 256 := by
  rw [UInt16.lt_iff_toNat_lt, UInt8.toNat_toUInt16]
  exact value.toNat_lt

theorem LengthCounter.counter_clock {l : LengthCounter} (enabled : l.enabled = true) :
    l.clock.counter.toNat = l.counter.toNat - 1 := by
  unfold clock
  rw [enabled, Bool.true_and]
  by_cases some : l.counter > 0
  · rw [if_pos (decide_eq_true some)]
    exact UInt16.toNat_sub_of_le _ _ (by grind)
  · have zero : l.counter = 0 := by grind
    rw [if_neg (by simpa using some), zero]
    rfl

@[simp] theorem LengthCounter.enabled_clock (l : LengthCounter) : l.clock.enabled = l.enabled := by
  unfold clock
  split <;> rfl

theorem LengthCounter.trigger_ne_zero {full : UInt16} (some : 0 < full) (l : LengthCounter) :
    (l.trigger full).counter ≠ 0 := by
  unfold trigger
  split <;> grind

structure Note where
  on : Bool
  converter : Bool
  length : LengthCounter

namespace Note

def off : Note := ⟨false, false, .off⟩

/-- A length clock; the last one ends the note. -/
def clock (n : Note) : Note :=
  { n with on := n.on && !n.length.expires, length := n.length.clock }

/-- A note that is heard has a converter to be heard through and some of its length left. -/
def Alive (n : Note) : Prop := n.on = true → n.converter = true ∧ n.length.counter ≠ 0

/-- What a register write can do to a note. -/
inductive Change (full : UInt16) : Note → Note → Prop
  | keep (n : Note) : Change full n n
  | load (n : Note) (value : UInt16) (fits : value < full) :
      Change full n { n with length := n.length.load full value }
  | switchConverter (n : Note) (converter : Bool) :
      Change full n { n with converter, on := n.on && converter }
  | enableLength (n : Note) (enabled : Bool) :
      Change full n { n with length := { n.length with enabled } }
  | trigger (n : Note) (enabled overflow : Bool) :
      Change full n
        { n with
          on := n.converter && !overflow
          length := LengthCounter.trigger full { n.length with enabled } }

/-- What time can do to a note that meets so many length clocks. -/
inductive Elapses (n : Note) : Nat → Note → Prop
  | start : Elapses n 0 n
  | clock (clocks : Nat) (m : Note) (before : Elapses n clocks m) : Elapses n (clocks + 1) m.clock
  | silence (clocks : Nat) (m : Note) (on : Bool) (before : Elapses n clocks m) :
      Elapses n clocks { m with on := m.on && on }

variable {full : UInt16} {n m k : Note} {clocks more : Nat}

theorem Change.triggerPlain (n : Note) (enabled : Bool) :
    n.Change full
      { n with
        on := n.converter
        length := LengthCounter.trigger full { n.length with enabled } } := by
  have triggered : n.Change full _ := .trigger n enabled false
  rwa [Bool.not_false, Bool.and_true] at triggered

theorem Alive.change (h : n.Alive) (some : 0 < full) (changes : n.Change full m) : m.Alive := by
  cases changes with
  | keep => exact h
  | load value fits =>
    intro on
    refine ⟨(h on).1, ?_⟩
    change full - value ≠ 0
    grind
  | switchConverter converter =>
    intro on
    obtain ⟨on, power⟩ := Bool.and_eq_true_iff.mp on
    exact ⟨power, (h on).2⟩
  | enableLength enabled => exact h
  | trigger enabled overflow =>
    intro on
    exact ⟨(Bool.and_eq_true_iff.mp on).1, LengthCounter.trigger_ne_zero some _⟩

theorem Alive.clock (h : n.Alive) : n.clock.Alive := by
  intro on
  obtain ⟨on, lasts⟩ := Bool.and_eq_true_iff.mp on
  obtain ⟨power, some⟩ := h on
  refine ⟨power, ?_⟩
  change n.length.clock.counter ≠ 0
  unfold LengthCounter.expires at lasts
  unfold LengthCounter.clock
  split <;> grind

namespace Elapses

theorem trans (first : n.Elapses clocks m) (second : m.Elapses more k) :
    n.Elapses (clocks + more) k := by
  induction second with
  | start => exact first
  | clock more m before ih => exact .clock _ _ ih
  | silence more m on before ih => exact .silence _ _ on ih

theorem alive (elapses : n.Elapses clocks m) (h : n.Alive) : m.Alive := by
  induction elapses with
  | start => exact h
  | clock clocks m before ih => exact ih.clock
  | silence clocks m on before ih => exact fun heard => ih (Bool.and_eq_true_iff.mp heard).1

theorem on (elapses : n.Elapses clocks m) (heard : m.on = true) : n.on = true := by
  induction elapses with
  | start => exact heard
  | clock clocks m before ih => exact ih (Bool.and_eq_true_iff.mp heard).1
  | silence clocks m on before ih => exact ih (Bool.and_eq_true_iff.mp heard).1

theorem enabled (elapses : n.Elapses clocks m) : m.length.enabled = n.length.enabled := by
  induction elapses with
  | start => rfl
  | clock clocks m before ih =>
    exact m.length.enabled_clock.trans ih
  | silence clocks m on before ih => exact ih

theorem counter (elapses : n.Elapses clocks m) (counts : n.length.enabled = true) :
    m.length.counter.toNat = n.length.counter.toNat - clocks := by
  induction elapses with
  | start => rfl
  | clock clocks m before ih =>
    have enabled : m.length.enabled = true := before.enabled.trans counts
    change m.length.clock.counter.toNat = _
    rw [LengthCounter.counter_clock enabled, ih, Nat.sub_add_eq]
  | silence clocks m on before ih => exact ih

end Elapses
end Note

namespace Pulse
variable (value : UInt8) (p : Pulse)

def note : Note := ⟨p.enabled, p.converter, p.length⟩

theorem change_writeDutyLength :
    p.note.Change fullLength (p.writeDutyLength value).note :=
  .load p.note _ (shortLength_lt value)

theorem change_writeEnvelope : p.note.Change fullLength (p.writeEnvelope value).note :=
  .switchConverter p.note _

theorem change_writeControl : p.note.Change fullLength (p.writeControl value).note := by
  unfold writeControl
  dsimp only
  split
  · exact .trigger p.note _ _
  · exact .enableLength p.note _

theorem note_clockSweep : ∃ on, p.clockSweep.note = { p.note with on := p.note.on && on } := by
  have goesOn : p.note = { p.note with on := p.note.on && true } := by
    rw [Bool.and_true]
  have ends : { p.note with on := false } = { p.note with on := p.note.on && false } := by
    rw [Bool.and_false]
  have applied (s : Sweep) : ∃ on, (p.applySweep s).note = { p.note with on := p.note.on && on } := by
    unfold applySweep
    dsimp only
    repeat' split
    · exact ⟨true, goesOn⟩
    · exact ⟨false, ends⟩
    · exact ⟨true, goesOn⟩
    · exact ⟨_, rfl⟩
  unfold clockSweep
  split
  · exact ⟨true, goesOn⟩
  · rename_i s _
    dsimp only
    generalize (if s.timer > 0 then s.timer - 1 else s.timer) = timer
    split
    · exact applied _
    · exact ⟨true, goesOn⟩

end Pulse

namespace Wave
variable (value : UInt8) (w : Wave)

def note : Note := ⟨w.enabled, w.converter, w.length⟩

theorem change_writeConverter : w.note.Change fullLength (w.writeConverter value).note :=
  .switchConverter w.note _

theorem change_writeLength : w.note.Change fullLength (w.writeLength value).note :=
  .load w.note _ (byteLength_lt value)

theorem change_writeControl : w.note.Change fullLength (w.writeControl value).note := by
  unfold writeControl
  dsimp only
  split
  · exact .triggerPlain w.note _
  · exact .enableLength w.note _

end Wave

namespace Noise
variable (value : UInt8) (n : Noise)

def note : Note := ⟨n.enabled, n.converter, n.length⟩

theorem change_writeLength : n.note.Change fullLength (n.writeLength value).note :=
  .load n.note _ (shortLength_lt value)

theorem change_writeEnvelope : n.note.Change fullLength (n.writeEnvelope value).note :=
  .switchConverter n.note _

theorem change_writeControl : n.note.Change fullLength (n.writeControl value).note := by
  unfold writeControl
  dsimp only
  split
  · exact .triggerPlain n.note _
  · exact .enableLength n.note _

end Noise

inductive Channel where
  | pulse1
  | pulse2
  | wave
  | noise

namespace Channel

def index : Channel → Nat
  | pulse1 => 0
  | pulse2 => 1
  | wave => 2
  | noise => 3

def fullLength : Channel → UInt16
  | pulse1 | pulse2 => Pulse.fullLength
  | wave => Wave.fullLength
  | noise => Noise.fullLength

def Owns (channel : Channel) (address : UInt16) : Prop :=
  0xFF10 + 5 * channel.index ≤ address.toNat ∧ address.toNat < 0xFF15 + 5 * channel.index

instance (channel : Channel) (address : UInt16) : Decidable (channel.Owns address) :=
  inferInstanceAs (Decidable (_ ∧ _))

theorem fullLength_pos (channel : Channel) : 0 < channel.fullLength := by
  cases channel <;> decide

end Channel

namespace Sound
variable (channel : Channel) (address : UInt16) (value : UInt8) (s : Sound)

def note : Note :=
  match channel with
  | .pulse1 => s.pulse1.note
  | .pulse2 => s.pulse2.note
  | .wave => s.wave.note
  | .noise => s.noise.note

def Reports : Prop := (s.read 0xFF26).toNat.testBit channel.index = true

theorem reports_iff : s.Reports channel ↔ (s.note channel).on = true := by
  have bits : ∀ power a b c d : Bool,
      let control : UInt8 := 0x70 ||| (if power then 0x80 else 0) |||
        ((if a then 0x01 else 0) ||| (if b then 0x02 else 0) ||| (if c then 0x04 else 0) |||
          (if d then 0x08 else 0))
      control.toNat.testBit 0 = a ∧ control.toNat.testBit 1 = b ∧
        control.toNat.testBit 2 = c ∧ control.toNat.testBit 3 = d := by decide
  obtain ⟨first, second, third, fourth⟩ :=
    bits s.powered s.pulse1.enabled s.pulse2.enabled s.wave.enabled s.noise.enabled
  cases channel with
  | pulse1 => exact iff_of_eq (congrArg (· = true) first)
  | pulse2 => exact iff_of_eq (congrArg (· = true) second)
  | wave => exact iff_of_eq (congrArg (· = true) third)
  | noise => exact iff_of_eq (congrArg (· = true) fourth)

theorem note_core : s.core.note channel = s.note channel := by
  cases channel <;> rfl

theorem note_registers (registers : Memory 23) :
    { s with registers }.note channel = s.note channel := by
  cases channel <;> rfl

theorem note_ram (ram : Memory 16) :
    { s with wave := { s.wave with ram } }.note channel = s.note channel := by
  cases channel <;> rfl

theorem Erased.note {s : Sound} (h : s.Erased) : s.note channel = .off := by
  cases channel with
  | pulse1 => exact congrArg Pulse.note h.pulse1
  | pulse2 => exact congrArg Pulse.note h.pulse2
  | wave => exact congrArg Wave.note h.wave
  | noise => exact congrArg Noise.note h.noise

theorem InRange.length_note {s : Sound} (h : s.InRange) :
    (s.note channel).length.counter ≤ channel.fullLength := by
  cases channel with
  | pulse1 => exact h.pulse1.length
  | pulse2 => exact h.pulse2.length
  | wave => exact h.wave.length
  | noise => exact h.noise.length

theorem change_applyWrite :
    (s.note channel).Change channel.fullLength ((s.applyWrite address value).note channel) := by
  have onPulse1 {p : Pulse} (change : s.pulse1.note.Change Pulse.fullLength p.note) :
      (s.note channel).Change channel.fullLength ({ s with pulse1 := p }.note channel) := by
    cases channel with
    | pulse1 => exact change
    | _ => exact .keep _
  have onPulse2 {p : Pulse} (change : s.pulse2.note.Change Pulse.fullLength p.note) :
      (s.note channel).Change channel.fullLength ({ s with pulse2 := p }.note channel) := by
    cases channel with
    | pulse2 => exact change
    | _ => exact .keep _
  have onWave {w : Wave} (change : s.wave.note.Change Wave.fullLength w.note) :
      (s.note channel).Change channel.fullLength ({ s with wave := w }.note channel) := by
    cases channel with
    | wave => exact change
    | _ => exact .keep _
  have onNoise {n : Noise} (change : s.noise.note.Change Noise.fullLength n.note) :
      (s.note channel).Change channel.fullLength ({ s with noise := n }.note channel) := by
    cases channel with
    | noise => exact change
    | _ => exact .keep _
  unfold applyWrite
  split
  · exact onPulse1 (.keep _)
  · exact onPulse1 (s.pulse1.change_writeDutyLength value)
  · exact onPulse1 (s.pulse1.change_writeEnvelope value)
  · exact onPulse1 (.keep _)
  · exact onPulse1 (s.pulse1.change_writeControl value)
  · exact onPulse2 (s.pulse2.change_writeDutyLength value)
  · exact onPulse2 (s.pulse2.change_writeEnvelope value)
  · exact onPulse2 (.keep _)
  · exact onPulse2 (s.pulse2.change_writeControl value)
  · exact onWave (s.wave.change_writeConverter value)
  · exact onWave (s.wave.change_writeLength value)
  · exact onWave (.keep _)
  · exact onWave (.keep _)
  · exact onWave (s.wave.change_writeControl value)
  · exact onNoise (s.noise.change_writeLength value)
  · exact onNoise (s.noise.change_writeEnvelope value)
  · exact onNoise (.keep _)
  · exact onNoise (s.noise.change_writeControl value)
  · exact .keep _

variable {channel address s}

theorem note_applyWrite (other : ¬channel.Owns address) :
    (s.applyWrite address value).note channel = s.note channel := by
  unfold applyWrite
  split <;> cases channel
  all_goals first | exact absurd (by decide) other | rfl

theorem note_writePower :
    (s.writePower value).note channel = .off ∨
      (s.writePower value).note channel = s.note channel := by
  obtain ⟨-, -, moved⟩ | ⟨-, -, moved⟩ | ⟨-, same⟩ := writePower_cases value s
  · rw [moved]
    cases channel <;> exact .inl rfl
  · rw [moved]
    cases channel <;> exact .inr rfl
  · rw [same]
    exact .inr rfl

theorem note_switchedOff (power : s.powered = true) (off : value &&& 0x80 = 0) :
    (s.write 0xFF26 value).note channel = .off := by
  change (s.writePower value).note channel = .off
  obtain ⟨-, -, moved⟩ | ⟨dark, -, -⟩ | ⟨same, -⟩ := writePower_cases value s
  · rw [moved]
    cases channel <;> rfl
  · rw [power] at dark
    cases dark
  · rw [power, bne_eq_false_iff_eq.mpr off] at same
    cases same

/-- A write to anything but the channel's registers leaves the note as it is, or takes the power
from it. -/
theorem note_write (other : ¬channel.Owns address) :
    (s.write address value).note channel = .off ∨
      (s.write address value).note channel = s.note channel := by
  obtain ⟨-, written⟩ | ⟨-, written⟩ | ⟨-, ram, written⟩ := write_cases address value s
  · rw [written]
    split
    · rw [note_applyWrite value other]
      exact .inr (note_registers channel s _)
    · exact .inr rfl
  · rw [written]
    exact note_writePower value
  · rw [written]
    exact .inr (note_ram channel s ram)

theorem note_write_of_on (other : ¬channel.Owns address)
    (heard : ((s.write address value).note channel).on = true) :
    (s.write address value).note channel = s.note channel := by
  refine (note_write value other).resolve_left fun off => ?_
  rw [off] at heard
  cases heard

theorem alive_write (h : (s.note channel).Alive) : ((s.write address value).note channel).Alive := by
  obtain ⟨-, written⟩ | ⟨-, written⟩ | ⟨-, ram, written⟩ := write_cases address value s
  · rw [written]
    split
    · refine Note.Alive.change ?_ channel.fullLength_pos (change_applyWrite channel address value _)
      rw [note_registers]
      exact h
    · exact h
  · rw [written]
    obtain off | same : (s.writePower value).note channel = .off ∨ _ := note_writePower value
    · rw [off]
      exact fun heard => Bool.noConfusion heard
    · rw [same]
      exact h
  · rw [written, note_ram]
    exact h

theorem alive_powerOn (channel : Channel) : (powerOn.note channel).Alive := by
  apply powerOn_keeps (P := fun s => (s.note channel).Alive)
  · cases channel <;> exact fun heard => Bool.noConfusion heard
  · intro s address value h
    exact alive_write value h

end Sound
end DotMatrix
