import DotMatrix.Proofs.Checks

/-! The ranges that a running clock keeps: no bit that is not wired, less than a second of
cycles. -/
namespace DotMatrix

theorem and_le_mask (value mask : UInt8) : value &&& mask ≤ mask := by
  rw [UInt8.le_iff_toNat_le, UInt8.toNat_and]
  exact Nat.and_le_right

theorem and_one (b : UInt8) : b &&& 1 = 0 ∨ b &&& 1 = 1 := by
  rw [← UInt8.toNat_inj, ← UInt8.toNat_inj, UInt8.toNat_and]
  simp only [UInt8.reduceToNat, Nat.and_one_is_mod]
  omega

namespace ClockTime

theorem or_and (value other mask : UInt8) :
    (value ||| other) &&& mask = value &&& mask ||| other &&& mask := by
  simp only [← UInt8.toBitVec_inj, UInt8.toBitVec_and, UInt8.toBitVec_or,
    BitVec.and_or_distrib_right]

/-- No bit outside the mask is set. -/
abbrev Wired (mask value : UInt8) : Prop := value &&& mask = value

theorem Wired.zero (mask : UInt8) : Wired mask 0 := UInt8.zero_and

theorem Wired.masked (mask value : UInt8) : Wired mask (value &&& mask) := by
  rw [Wired, UInt8.and_assoc, UInt8.and_self]

theorem Wired.and {mask value : UInt8} (h : Wired mask value) (other : UInt8) :
    Wired mask (value &&& other) := by
  rw [Wired, UInt8.and_assoc, UInt8.and_comm other, ← UInt8.and_assoc, h]

theorem Wired.or {mask value other : UInt8} (h : Wired mask value) (h' : Wired mask other) :
    Wired mask (value ||| other) := by
  rw [Wired, or_and, h, h']

theorem wired_all (value : UInt8) : Wired 0xFF value := UInt8.and_neg_one

theorem masked_eq_iff (t : ClockTime) :
    t.masked = t ↔ Wired 0x3F t.seconds ∧ Wired 0x3F t.minutes ∧ Wired 0x1F t.hours ∧
      Wired 0xC1 t.control := by
  have day := wired_all t.dayLow
  obtain ⟨seconds, minutes, hours, dayLow, control⟩ := t
  simp only [masked, masks, mk.injEq] at day ⊢
  constructor
  · rintro ⟨hs, hm, hh, _, hc⟩
    exact ⟨hs, hm, hh, hc⟩
  · rintro ⟨hs, hm, hh, hc⟩
    exact ⟨hs, hm, hh, day, hc⟩

theorem masked_setDay (t : ClockTime) (h : t.masked = t) (day : Nat) :
    (t.setDay day).masked = t.setDay day := by
  obtain ⟨seconds, minutes, hours, control⟩ := (masked_eq_iff t).mp h
  have dayBit : Wired 0xC1 (UInt8.ofNat (day / 256) &&& 0x01) := by
    rw [UInt8.and_comm]
    exact Wired.and rfl _
  exact (masked_eq_iff _).mpr ⟨seconds, minutes, hours, (control.and _).or dayBit⟩

theorem masked_advanceDay (t : ClockTime) (h : t.masked = t) :
    t.advanceDay.masked = t.advanceDay := by
  unfold advanceDay
  split
  · obtain ⟨seconds, minutes, hours, control⟩ := (masked_eq_iff _).mp (masked_setDay t h 0)
    exact (masked_eq_iff _).mpr ⟨seconds, minutes, hours, control.or rfl⟩
  · exact masked_setDay t h _

theorem masked_advanceHour (t : ClockTime) (h : t.masked = t) :
    t.advanceHour.masked = t.advanceHour := by
  obtain ⟨seconds, minutes, _, control⟩ := (masked_eq_iff t).mp h
  unfold advanceHour
  dsimp only
  split
  · exact masked_advanceDay _ ((masked_eq_iff _).mpr ⟨seconds, minutes, .zero _, control⟩)
  · exact (masked_eq_iff _).mpr ⟨seconds, minutes, Wired.masked _ _, control⟩

theorem masked_advanceMinute (t : ClockTime) (h : t.masked = t) :
    t.advanceMinute.masked = t.advanceMinute := by
  obtain ⟨seconds, _, hours, control⟩ := (masked_eq_iff t).mp h
  unfold advanceMinute
  dsimp only
  split
  · exact masked_advanceHour _ ((masked_eq_iff _).mpr ⟨seconds, .zero _, hours, control⟩)
  · exact (masked_eq_iff _).mpr ⟨seconds, Wired.masked _ _, hours, control⟩

theorem masked_advanceSecond (t : ClockTime) (h : t.masked = t) :
    t.advanceSecond.masked = t.advanceSecond := by
  obtain ⟨_, minutes, hours, control⟩ := (masked_eq_iff t).mp h
  unfold advanceSecond
  dsimp only
  split
  · exact masked_advanceMinute _ ((masked_eq_iff _).mpr ⟨.zero _, minutes, hours, control⟩)
  · exact (masked_eq_iff _).mpr ⟨Wired.masked _ _, minutes, hours, control⟩

theorem masked_repeat (n : Nat) (t : ClockTime) (h : t.masked = t) :
    (Nat.repeat advanceSecond n t).masked = Nat.repeat advanceSecond n t := by
  induction n with
  | zero => exact h
  | succ n ih => exact masked_advanceSecond _ ih

theorem masked_set (t : ClockTime) (h : t.masked = t) (select value : UInt8) :
    (t.set select (value &&& masks.get select)).masked =
      t.set select (value &&& masks.get select) := by
  obtain ⟨seconds, minutes, hours, control⟩ := (masked_eq_iff t).mp h
  rw [masked_eq_iff]
  unfold set get
  split
  · exact ⟨Wired.masked _ _, minutes, hours, control⟩
  · exact ⟨seconds, Wired.masked _ _, hours, control⟩
  · exact ⟨seconds, minutes, Wired.masked _ _, control⟩
  · exact ⟨seconds, minutes, hours, control⟩
  · refine ⟨seconds, minutes, hours, ?_⟩
    dsimp only
    split
    all_goals first | contradiction | exact Wired.masked _ _

end ClockTime

namespace Clock

structure InRange (c : Clock) : Prop where
  time : c.time.masked = c.time
  latched : c.latched.masked = c.latched
  subsecond : c.subsecond.toNat < cyclesPerSecond

theorem checkLayout_eq_ok (c : Clock) : c.checkLayout = .ok () ↔ c.InRange := by
  simp only [checkLayout, Except.andThen_eq_ok, require_eq_ok, ClockTime.withinMasks,
    Bool.and_eq_true, beq_iff_eq, decide_eq_true_eq]
  exact ⟨fun h => ⟨h.1.1, h.1.2, h.2⟩, fun h => ⟨⟨h.time, h.latched⟩, h.subsecond⟩⟩

namespace InRange
variable {c : Clock}

theorem start : Clock.start.InRange := ⟨rfl, rfl, by decide⟩

theorem tick (h : c.InRange) (n : Nat) : (c.tick n).InRange := by
  unfold Clock.tick
  split
  · exact h
  · refine ⟨ClockTime.masked_repeat _ _ h.time, h.latched, ?_⟩
    have inside := Nat.mod_lt (c.subsecond.toNat + n) (show 0 < cyclesPerSecond by decide)
    simp only [cyclesPerSecond] at inside ⊢
    simp only [UInt32.toNat_ofNat']
    omega

theorem writeLatch (h : c.InRange) (value : UInt8) : (c.writeLatch value).InRange := by
  refine ⟨h.time, ?_, h.subsecond⟩
  unfold Clock.writeLatch
  dsimp only
  split
  · exact h.time
  · exact h.latched

theorem write (h : c.InRange) (select value : UInt8) : (Clock.write select value c).InRange := by
  refine ⟨ClockTime.masked_set _ h.time select value, h.latched, ?_⟩
  unfold Clock.write
  dsimp only
  split
  · decide
  · exact h.subsecond

end InRange
end Clock
end DotMatrix
