import DotMatrix.Proofs.Range.Clock

/-! The ranges that the sound channels keep: every field fits the bits that the unit has for
it, and no length counter is above its full length. -/
namespace DotMatrix

theorem shiftRight_le (value : UInt8) : value >>> 4 ≤ 15 ∧ value >>> 5 ≤ 7 ∧ value >>> 6 ≤ 3 := by
  have := value.toNat_lt
  simp only [UInt8.le_iff_toNat_le, UInt8.toNat_shiftRight, Nat.shiftRight_eq_div_pow,
    UInt8.reduceToNat, Nat.reduceMod, Nat.reducePow]
  omega

theorem shortLength_le (value : UInt8) : (value &&& 0x3F).toUInt16 ≤ 64 := by
  have small : (value &&& 0x3F).toNat ≤ 63 := and_le_mask value 0x3F
  rw [UInt16.le_iff_toNat_le, UInt8.toNat_toUInt16]
  exact Nat.le_trans small (by decide)

theorem byteLength_le (value : UInt8) : value.toUInt16 ≤ 256 := by
  have small := value.toNat_lt
  rw [UInt16.le_iff_toNat_le, UInt8.toNat_toUInt16]
  exact Nat.le_of_lt small

namespace LengthCounter

def InRange (full : UInt16) (l : LengthCounter) : Prop := l.counter ≤ full

theorem checkLayout_eq_ok (full : UInt16) (l : LengthCounter) :
    l.checkLayout full = .ok () ↔ l.InRange full := by
  simp [checkLayout, InRange]

theorem InRange.load {full value : UInt16} (l : LengthCounter) (fits : value ≤ full) :
    (l.load full value).InRange full := by
  unfold InRange LengthCounter.load
  grind

theorem InRange.trigger {full : UInt16} {l : LengthCounter} (h : l.InRange full) :
    (l.trigger full).InRange full := by
  unfold LengthCounter.trigger
  split
  · exact UInt16.le_refl full
  · exact h

theorem InRange.clock {full : UInt16} {l : LengthCounter} (h : l.InRange full) :
    l.clock.InRange full := by
  unfold InRange at h
  unfold LengthCounter.clock
  split
  · unfold InRange
    grind
  · exact h

end LengthCounter

namespace Envelope

structure InRange (e : Envelope) : Prop where
  initial : e.initial ≤ 15
  volume : e.volume ≤ 15
  period : e.period ≤ 7
  timer : e.timer ≤ 7

theorem checkLayout_eq_ok (e : Envelope) : e.checkLayout = .ok () ↔ e.InRange := by
  simp only [checkLayout, require_eq_ok, Bool.and_eq_true, decide_eq_true_eq]
  constructor
  · rintro ⟨⟨⟨initial, volume⟩, period⟩, timer⟩
    exact ⟨initial, volume, period, timer⟩
  · intro h
    exact ⟨⟨⟨h.initial, h.volume⟩, h.period⟩, h.timer⟩

namespace InRange
variable {e : Envelope}

theorem write (h : e.InRange) (value : UInt8) : (e.write value).InRange :=
  ⟨(shiftRight_le value).1, h.volume, and_le_mask value 7, h.timer⟩

theorem trigger (h : e.InRange) : e.trigger.InRange := ⟨h.initial, h.initial, h.period, h.period⟩

theorem stepVolume (h : e.InRange) : e.stepVolume ≤ 15 := by
  have volume := h.volume
  unfold Envelope.stepVolume
  grind

theorem clock (h : e.InRange) : e.clock.InRange := by
  have timer := h.timer
  unfold Envelope.clock
  by_cases frozen : (e.period == 0) = true
  · rw [if_pos frozen]
    exact h
  · rw [if_neg frozen]
    generalize counted : (if e.timer > 0 then e.timer - 1 else e.timer) = next
    have small : next ≤ 7 := by grind
    dsimp only
    split
    · exact ⟨h.initial, h.stepVolume, h.period, h.period⟩
    · exact ⟨h.initial, h.volume, h.period, small⟩

end InRange
end Envelope

namespace Sweep

structure InRange (s : Sweep) : Prop where
  shift : s.shift ≤ 7
  period : s.period ≤ 7
  timer : s.timer ≤ 8
  shadow : s.shadow ≤ maxFrequency

theorem checkLayout_eq_ok (s : Sweep) : s.checkLayout = .ok () ↔ s.InRange := by
  simp only [checkLayout, require_eq_ok, Bool.and_eq_true, decide_eq_true_eq]
  constructor
  · rintro ⟨⟨⟨shift, period⟩, timer⟩, shadow⟩
    exact ⟨shift, period, timer, shadow⟩
  · intro h
    exact ⟨⟨⟨h.shift, h.period⟩, h.timer⟩, h.shadow⟩

namespace InRange
variable {s : Sweep}

theorem write (h : s.InRange) (value : UInt8) : (Sweep.write value s).InRange :=
  ⟨and_le_mask value 7, and_le_mask _ 7, h.timer, h.shadow⟩

theorem reload (h : s.InRange) : s.reload.InRange := by
  have period := h.period
  refine ⟨h.shift, h.period, ?_, h.shadow⟩
  unfold Sweep.reload
  dsimp only
  grind

theorem trigger (h : s.InRange) {frequency : UInt16} (fits : frequency ≤ maxFrequency) :
    (Sweep.trigger frequency s).InRange :=
  reload ⟨h.shift, h.period, h.timer, fits⟩

theorem next_le (fits : s.overflows = false) : s.next ≤ maxFrequency := by
  unfold Sweep.overflows at fits
  grind

end InRange
end Sweep

theorem or_le_maxFrequency {x y : UInt16} (hx : x ≤ maxFrequency) (hy : y ≤ maxFrequency) :
    x ||| y ≤ maxFrequency := by
  rw [UInt16.le_iff_toNat_le] at *
  rw [UInt16.toNat_or]
  have small : x.toNat ||| y.toNat < 2 ^ 11 :=
    Nat.or_lt_two_pow (Nat.lt_succ_of_le hx) (Nat.lt_succ_of_le hy)
  exact Nat.le_of_lt_succ small

theorem lowByte_le_maxFrequency (frequency : UInt16) (value : UInt8) :
    frequency &&& 0x0700 ||| value.toUInt16 ≤ maxFrequency := by
  have small := value.toNat_lt
  apply or_le_maxFrequency
  · rw [UInt16.le_iff_toNat_le, UInt16.toNat_and]
    exact Nat.le_trans Nat.and_le_right (by decide)
  · rw [UInt16.le_iff_toNat_le, UInt8.toNat_toUInt16]
    exact Nat.le_of_lt (Nat.lt_of_lt_of_le small (by decide))

theorem highBits_le_maxFrequency (frequency : UInt16) (value : UInt8) :
    frequency &&& 0x00FF ||| (value &&& 0x07).toUInt16 * 256 ≤ maxFrequency := by
  have small : (value &&& 0x07).toNat ≤ 7 := and_le_mask value 0x07
  apply or_le_maxFrequency
  · rw [UInt16.le_iff_toNat_le, UInt16.toNat_and]
    exact Nat.le_trans Nat.and_le_right (by decide)
  · rw [UInt16.le_iff_toNat_le, UInt16.toNat_mul, UInt8.toNat_toUInt16]
    simp only [maxFrequency, UInt16.reduceToNat]
    omega

namespace Pulse

def tune (value : UInt8) (p : Pulse) : Pulse :=
  { p with
    frequency := (p.frequency &&& 0x00FF) ||| ((value &&& 0x07).toUInt16 * 256)
    length := { p.length with enabled := value &&& 0x40 != 0 } }

structure InRange (p : Pulse) : Prop where
  frequency : p.frequency ≤ maxFrequency
  duty : p.duty ≤ 3
  position : p.position ≤ 7
  sweep : ∀ s ∈ p.sweep, s.InRange
  length : p.length.InRange fullLength
  envelope : p.envelope.InRange

theorem checkLayout_eq_ok (p : Pulse) : p.checkLayout = .ok () ↔ p.InRange := by
  have sweeps : (∀ s ∈ p.sweep, s.InRange) ↔ ∀ s ∈ p.sweep, s.checkLayout = .ok () := by
    simp only [Sweep.checkLayout_eq_ok]
  have fields : p.InRange ↔ (p.frequency ≤ maxFrequency ∧ p.duty ≤ 3 ∧ p.position ≤ 7) ∧
      (∀ s ∈ p.sweep, s.InRange) ∧ p.length.InRange fullLength ∧ p.envelope.InRange := by
    constructor
    · intro h
      exact ⟨⟨h.frequency, h.duty, h.position⟩, h.sweep, h.length, h.envelope⟩
    · rintro ⟨⟨frequency, duty, position⟩, sweep, length, envelope⟩
      exact ⟨frequency, duty, position, sweep, length, envelope⟩
  rw [fields, sweeps]
  unfold checkLayout
  cases p.sweep <;>
    simp [LengthCounter.checkLayout_eq_ok, Envelope.checkLayout_eq_ok, and_assoc]

namespace InRange
variable {p : Pulse}

theorem off (sweeps : Bool) : (Pulse.off sweeps).InRange := by
  cases sweeps with
  | false => exact (checkLayout_eq_ok _).mp rfl
  | true => exact (checkLayout_eq_ok _).mp rfl

theorem mapSweep (h : p.InRange) {change : Sweep → Sweep}
    (keeps : ∀ s : Sweep, s.InRange → (change s).InRange) :
    ∀ s ∈ p.sweep.map change, s.InRange := by
  intro s there
  obtain ⟨before, present, rfl⟩ := Option.map_eq_some_iff.mp there
  exact keeps before (h.sweep before present)

theorem writeSweep (h : p.InRange) (value : UInt8) : (p.writeSweep value).InRange :=
  ⟨h.frequency, h.duty, h.position, h.mapSweep fun _ inRange => inRange.write value, h.length,
    h.envelope⟩

theorem writeDutyLength (h : p.InRange) (value : UInt8) : (p.writeDutyLength value).InRange := by
  refine ⟨h.frequency, (shiftRight_le value).2.2, h.position, h.sweep, .load _ ?_, h.envelope⟩
  exact shortLength_le value

theorem writeEnvelope (h : p.InRange) (value : UInt8) : (p.writeEnvelope value).InRange :=
  ⟨h.frequency, h.duty, h.position, h.sweep, h.length, h.envelope.write value⟩

theorem writeFrequencyLow (h : p.InRange) (value : UInt8) :
    (p.writeFrequencyLow value).InRange :=
  ⟨lowByte_le_maxFrequency _ _, h.duty, h.position, h.sweep, h.length, h.envelope⟩

theorem trigger (h : p.InRange) : p.trigger.InRange :=
  ⟨h.frequency, h.duty, h.position, h.mapSweep fun _ inRange => inRange.trigger h.frequency,
    h.length.trigger, h.envelope.trigger⟩

theorem tune (h : p.InRange) (value : UInt8) : (p.tune value).InRange :=
  ⟨highBits_le_maxFrequency _ _, h.duty, h.position, h.sweep, h.length, h.envelope⟩

theorem writeControl (h : p.InRange) (value : UInt8) : (p.writeControl value).InRange := by
  unfold Pulse.writeControl
  dsimp only
  split
  · exact (h.tune value).trigger
  · exact h.tune value

theorem step (h : p.InRange) (cycles : Nat) : (p.step cycles).InRange := by
  refine ⟨h.frequency, h.duty, ?_, h.sweep, h.length, h.envelope⟩
  rw [UInt8.le_iff_toNat_le]
  simp only [Pulse.step, UInt8.toNat_ofNat', UInt8.reduceToNat]
  omega

theorem clockLength (h : p.InRange) : p.clockLength.InRange :=
  ⟨h.frequency, h.duty, h.position, h.sweep, h.length.clock, h.envelope⟩

theorem clockEnvelope (h : p.InRange) : p.clockEnvelope.InRange :=
  ⟨h.frequency, h.duty, h.position, h.sweep, h.length, h.envelope.clock⟩

theorem setSweep (h : p.InRange) {s : Sweep} (inRange : s.InRange) (enabled : Bool) :
    { p with sweep := some s, enabled }.InRange :=
  ⟨h.frequency, h.duty, h.position, fun _ there => Option.mem_some_iff.mp there ▸ inRange,
    h.length, h.envelope⟩

theorem applySweep (h : p.InRange) {s : Sweep} (inRange : s.InRange) :
    (p.applySweep s).InRange := by
  unfold Pulse.applySweep
  split
  · exact h.setSweep inRange _
  · split
    · exact h.setSweep inRange _
    · rename_i fits
      have next := Sweep.InRange.next_le (Bool.not_eq_true _ ▸ fits)
      split
      · exact h.setSweep inRange _
      · have swept : { s with shadow := s.next }.InRange :=
          ⟨inRange.shift, inRange.period, inRange.timer, next⟩
        obtain ⟨_, duty, position, sweep, length, envelope⟩ :=
          h.setSweep swept (p.enabled && !{ s with shadow := s.next }.overflows)
        exact ⟨next, duty, position, sweep, length, envelope⟩

theorem clockSweep (h : p.InRange) : p.clockSweep.InRange := by
  unfold Pulse.clockSweep
  split
  · exact h
  · rename_i s there
    have inRange := h.sweep s there
    have timer := inRange.timer
    dsimp only
    generalize counted : (if s.timer > 0 then s.timer - 1 else s.timer) = next
    have small : next ≤ 8 := by grind
    split
    · exact h.applySweep inRange.reload
    · have waiting : { s with timer := next }.InRange :=
        ⟨inRange.shift, inRange.period, small, inRange.shadow⟩
      exact h.setSweep waiting _

end InRange
end Pulse

namespace Wave

def tune (value : UInt8) (w : Wave) : Wave :=
  { w with
    frequency := (w.frequency &&& 0x00FF) ||| ((value &&& 0x07).toUInt16 * 256)
    length := { w.length with enabled := value &&& 0x40 != 0 } }

structure InRange (w : Wave) : Prop where
  frequency : w.frequency ≤ maxFrequency
  position : w.position ≤ 31
  volumeCode : w.volumeCode ≤ 3
  length : w.length.InRange fullLength

theorem checkLayout_eq_ok (w : Wave) : w.checkLayout = .ok () ↔ w.InRange := by
  simp only [checkLayout, Except.andThen_eq_ok, require_eq_ok, Bool.and_eq_true,
    decide_eq_true_eq, LengthCounter.checkLayout_eq_ok]
  constructor
  · rintro ⟨⟨⟨frequency, position⟩, volumeCode⟩, length⟩
    exact ⟨frequency, position, volumeCode, length⟩
  · intro h
    exact ⟨⟨⟨h.frequency, h.position⟩, h.volumeCode⟩, h.length⟩

namespace InRange
variable {w : Wave}

theorem off (ram : Memory 16) : (Wave.off ram).InRange :=
  ⟨(by decide : (0 : UInt16) ≤ maxFrequency), (by decide : (0 : UInt8) ≤ 31),
    (by decide : (0 : UInt8) ≤ 3), (by decide : (0 : UInt16) ≤ fullLength)⟩

theorem writeConverter (h : w.InRange) (value : UInt8) : (w.writeConverter value).InRange :=
  ⟨h.frequency, h.position, h.volumeCode, h.length⟩

theorem writeLength (h : w.InRange) (value : UInt8) : (w.writeLength value).InRange :=
  ⟨h.frequency, h.position, h.volumeCode, .load _ (byteLength_le value)⟩

theorem writeVolume (h : w.InRange) (value : UInt8) : (w.writeVolume value).InRange :=
  ⟨h.frequency, h.position, and_le_mask _ 3, h.length⟩

theorem writeFrequencyLow (h : w.InRange) (value : UInt8) : (w.writeFrequencyLow value).InRange :=
  ⟨lowByte_le_maxFrequency _ _, h.position, h.volumeCode, h.length⟩

theorem trigger (h : w.InRange) : w.trigger.InRange :=
  ⟨h.frequency, (by decide : (0 : UInt8) ≤ 31), h.volumeCode, h.length.trigger⟩

theorem tune (h : w.InRange) (value : UInt8) : (w.tune value).InRange :=
  ⟨highBits_le_maxFrequency _ _, h.position, h.volumeCode, h.length⟩

theorem writeControl (h : w.InRange) (value : UInt8) : (w.writeControl value).InRange := by
  unfold Wave.writeControl
  dsimp only
  split
  · exact (h.tune value).trigger
  · exact h.tune value

theorem step (h : w.InRange) (cycles : Nat) : (w.step cycles).InRange := by
  refine ⟨h.frequency, ?_, h.volumeCode, h.length⟩
  rw [UInt8.le_iff_toNat_le]
  simp only [Wave.step, UInt8.toNat_ofNat', UInt8.reduceToNat]
  omega

theorem clockLength (h : w.InRange) : w.clockLength.InRange :=
  ⟨h.frequency, h.position, h.volumeCode, h.length.clock⟩

theorem replaceRam (h : w.InRange) (ram : Memory 16) : { w with ram }.InRange :=
  ⟨h.frequency, h.position, h.volumeCode, h.length⟩

end InRange
end Wave

namespace Noise

structure InRange (n : Noise) : Prop where
  divisor : n.divisor ≤ 7
  shift : n.shift ≤ 15
  register : n.register ≤ 0x7FFF
  length : n.length.InRange fullLength
  envelope : n.envelope.InRange

theorem checkLayout_eq_ok (n : Noise) : n.checkLayout = .ok () ↔ n.InRange := by
  simp only [checkLayout, Except.andThen_eq_ok, require_eq_ok, Bool.and_eq_true,
    decide_eq_true_eq, LengthCounter.checkLayout_eq_ok, Envelope.checkLayout_eq_ok]
  constructor
  · rintro ⟨⟨⟨divisor, shift⟩, register⟩, length, envelope⟩
    exact ⟨divisor, shift, register, length, envelope⟩
  · intro h
    exact ⟨⟨⟨h.divisor, h.shift⟩, h.register⟩, h.length, h.envelope⟩

theorem clockRegister_le (narrow : Bool) (register : UInt16) :
    clockRegister narrow register ≤ 0x7FFF := by
  have bit : ((register ^^^ (register >>> 1)) &&& 1).toNat ≤ 1 := by
    rw [UInt16.toNat_and]
    exact Nat.and_le_right
  have half : (register >>> 1).toNat < 2 ^ 15 := by
    have := register.toNat_lt
    simp only [UInt16.toNat_shiftRight, Nat.shiftRight_eq_div_pow, UInt16.reduceToNat,
      Nat.reduceMod]
    omega
  unfold clockRegister
  dsimp only
  generalize ((register ^^^ (register >>> 1)) &&& 1) = feedback at bit
  have entered : ∀ k : UInt16, k.toNat ≤ 14 → (feedback <<< k).toNat < 2 ^ 15 := by
    intro k small
    rw [UInt16.toNat_shiftLeft, Nat.shiftLeft_eq, Nat.mod_eq_of_lt (a := k.toNat) (by omega)]
    have power : 2 ^ k.toNat ≤ 2 ^ 14 := Nat.pow_le_pow_right (by decide) small
    have moved : feedback.toNat * 2 ^ k.toNat ≤ 1 * 2 ^ 14 := Nat.mul_le_mul bit power
    exact Nat.lt_of_le_of_lt (Nat.mod_le _ _) (by omega)
  have shifted : (register >>> 1 ||| feedback <<< 14).toNat < 2 ^ 15 := by
    rw [UInt16.toNat_or]
    exact Nat.or_lt_two_pow half (entered 14 (by decide))
  rw [UInt16.le_iff_toNat_le]
  apply Nat.le_of_lt_succ
  split
  · rw [UInt16.toNat_or]
    refine Nat.or_lt_two_pow ?_ (entered 6 (by decide))
    rw [UInt16.toNat_and]
    exact Nat.lt_of_le_of_lt Nat.and_le_left shifted
  · exact shifted

namespace InRange
variable {n : Noise}

theorem off : Noise.off.InRange := (checkLayout_eq_ok _).mp rfl

theorem writeLength (h : n.InRange) (value : UInt8) : (n.writeLength value).InRange :=
  ⟨h.divisor, h.shift, h.register, .load _ (shortLength_le value), h.envelope⟩

theorem writeEnvelope (h : n.InRange) (value : UInt8) : (n.writeEnvelope value).InRange :=
  ⟨h.divisor, h.shift, h.register, h.length, h.envelope.write value⟩

theorem writePolynomial (h : n.InRange) (value : UInt8) : (n.writePolynomial value).InRange :=
  ⟨and_le_mask value 7, (shiftRight_le value).1, h.register, h.length, h.envelope⟩

theorem trigger (h : n.InRange) : n.trigger.InRange :=
  ⟨h.divisor, h.shift, (by decide : startRegister ≤ 0x7FFF), h.length.trigger, h.envelope.trigger⟩

theorem writeControl (h : n.InRange) (value : UInt8) : (n.writeControl value).InRange := by
  have armed : InRange { n with length := { n.length with enabled := value &&& 0x40 != 0 } } :=
    ⟨h.divisor, h.shift, h.register, h.length, h.envelope⟩
  unfold Noise.writeControl
  dsimp only
  split
  · exact armed.trigger
  · exact armed

theorem step (h : n.InRange) (cycles : Nat) : (n.step cycles).InRange := by
  unfold Noise.step
  split
  · exact h
  · refine ⟨h.divisor, h.shift, ?_, h.length, h.envelope⟩
    dsimp only
    cases (Countdown.advance n.period n.timer.toNat cycles 0).2 with
    | zero => exact h.register
    | succ clocks => exact clockRegister_le _ _

theorem clockLength (h : n.InRange) : n.clockLength.InRange :=
  ⟨h.divisor, h.shift, h.register, h.length.clock, h.envelope⟩

theorem clockEnvelope (h : n.InRange) : n.clockEnvelope.InRange :=
  ⟨h.divisor, h.shift, h.register, h.length, h.envelope.clock⟩

end InRange
end Noise
end DotMatrix
