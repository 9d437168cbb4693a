import DotMatrix.Proofs.Sound.Operation

/-! The power switch of the sound unit. Without power nothing is left of what was played, and when
the power comes back only the wave memory tells one past from another. -/
namespace DotMatrix

namespace SoundOperation

def SwitchesOff : SoundOperation → Prop
  | .write address value => address = 0xFF26 ∧ value &&& 0x80 = 0
  | _ => False

def SwitchesOn : SoundOperation → Prop
  | .write address value => address = 0xFF26 ∧ value &&& 0x80 ≠ 0
  | _ => False

/-- If it is a write, it is one to the registers below the power switch. -/
def BelowSwitch : SoundOperation → Prop
  | .write address _ => 0xFF10 ≤ address ∧ address ≤ 0xFF25
  | _ => True

/-- The power goes off at some point, and only the last operation brings it back. -/
def EndsInPowerCycle (ops : List SoundOperation) : Prop :=
  ∃ past off between on, ops = past ++ off :: (between ++ [on]) ∧ off.SwitchesOff ∧
    (∀ op ∈ between, ¬op.SwitchesOn) ∧ on.SwitchesOn

end SoundOperation

namespace Sound
variable {s : Sound}

/-- Registers and channels are in their first state, apart from the wave memory. -/
structure Erased (s : Sound) : Prop where
  registers : s.registers = Memory.zeros
  pulse1 : s.pulse1 = .off true
  pulse2 : s.pulse2 = .off false
  wave : s.wave = .off s.wave.ram
  noise : s.noise = .off

/-- The unit is erased, unless it has power. -/
def PowerOffErased (s : Sound) : Prop := s.powered = false → s.Erased

def fresh (ram : Memory 16) : Sound := { unbooted with wave := .off ram }

def switchedOff (s : Sound) : Sound :=
  { s with
    powered := false
    registers := Memory.zeros
    pulse1 := .off true
    pulse2 := .off false
    wave := .off s.wave.ram
    noise := .off }

def switchedOn (s : Sound) : Sound :=
  { s with powered := true, sequencerStep := 0, sequencerTimer := 0 }

theorem writePower_cases (value : UInt8) (s : Sound) :
    (s.powered = true ∧ value &&& 0x80 = 0 ∧ s.writePower value = s.switchedOff) ∨
      (s.powered = false ∧ value &&& 0x80 ≠ 0 ∧ s.writePower value = s.switchedOn) ∨
        (s.powered = (value &&& 0x80 != 0) ∧ s.writePower value = s) := by
  unfold writePower
  dsimp only
  by_cases on : value &&& 0x80 = 0
  · rw [bne_eq_false_iff_eq.mpr on]
    by_cases power : s.powered = true
    · refine .inl ⟨power, on, ?_⟩
      rw [power]
      rfl
    · rw [Bool.not_eq_true] at power
      refine .inr (.inr ⟨power, ?_⟩)
      rw [power]
      rfl
  · rw [bne_iff_ne.mpr on]
    by_cases power : s.powered = true
    · refine .inr (.inr ⟨power, ?_⟩)
      rw [power]
      rfl
    · rw [Bool.not_eq_true] at power
      refine .inr (.inl ⟨power, on, ?_⟩)
      rw [power]
      rfl

theorem powered_applyWrite (address : UInt16) (value : UInt8) (s : Sound) :
    (s.applyWrite address value).powered = s.powered := by
  unfold applyWrite
  split <;> rfl

theorem write_cases (address : UInt16) (value : UInt8) (s : Sound) :
    (InRegisters address ∧ s.write address value =
        if s.powered then
          applyWrite address value { s with registers := s.registers.write (index address) value }
        else s) ∨
      (address = 0xFF26 ∧ s.write address value = s.writePower value) ∨
        (¬InRegisters address ∧
          ∃ ram, s.write address value = { s with wave := { s.wave with ram } }) := by
  unfold write
  by_cases inside : InRegisters address
  · exact .inl ⟨inside, if_pos inside⟩
  rw [if_neg inside]
  by_cases control : address = 0xFF26
  · exact .inr (.inl ⟨control, if_pos control⟩)
  rw [if_neg control]
  refine .inr (.inr ⟨inside, ?_⟩)
  split
  · exact ⟨_, rfl⟩
  · exact ⟨s.wave.ram, rfl⟩

theorem powered_writePower (value : UInt8) (s : Sound) :
    (s.writePower value).powered = (value &&& 0x80 != 0) := by
  obtain ⟨-, off, moved⟩ | ⟨-, on, moved⟩ | ⟨power, same⟩ := writePower_cases value s
  · rw [moved, off]
    rfl
  · rw [moved, bne_iff_ne.mpr on]
    rfl
  · rw [same, power]

theorem powered_write {address : UInt16} (value : UInt8) (s : Sound) (other : address ≠ 0xFF26) :
    (s.write address value).powered = s.powered := by
  obtain ⟨-, written⟩ | ⟨control, -⟩ | ⟨-, ram, written⟩ := write_cases address value s
  · rw [written]
    split
    · exact powered_applyWrite address value _
    · rfl
  · exact absurd control other
  · rw [written]

theorem powered_clockSequencer (s : Sound) : s.clockSequencer.powered = s.powered := by
  unfold clockSequencer
  dsimp only
  repeat' split
  all_goals rfl

theorem powered_runSlice (cycles : Nat) (s : Sound) : (s.runSlice cycles).powered = s.powered := by
  unfold runSlice
  dsimp only
  split
  · split
    · exact powered_clockSequencer _
    · rfl
  · rfl

theorem powered_tick (settings : Settings) (cycles : Nat) (s : Sound) (samples : Array Single)
    (h : s.Paced) : (s.tick settings cycles samples).1.powered = s.powered := by
  refine tick_keeps (P := fun t => t.powered = s.powered) settings (fun n t samples _ _ same => ?_)
    cycles s samples h rfl
  have kept := core_pass settings n t samples
  exact (congrArg Sound.powered kept :).trans ((powered_runSlice n t).trans same)

theorem core_tick_off (settings : Settings) (cycles : Nat) (s : Sound) (samples : Array Single)
    (h : s.Paced) (off : s.powered = false) :
    (s.tick settings cycles samples).1.core = s.core := by
  rw [core_tick settings cycles s samples h]
  exact Function.iterate_fixed (runSlice_off 1 s.core (Bool.eq_false_iff.mp off)) cycles

namespace Erased

theorem congr {next : Sound} (h : s.Erased) (same : next.core = s.core) : next.Erased := by
  obtain ⟨registers, pulse1, pulse2, wave, noise⟩ := h
  have ram : next.wave.ram = s.wave.ram := congrArg (·.wave.ram) same
  refine ⟨(congrArg Sound.registers same).trans registers,
    (congrArg Sound.pulse1 same).trans pulse1, (congrArg Sound.pulse2 same).trans pulse2, ?_,
    (congrArg Sound.noise same).trans noise⟩
  rw [ram]
  exact (congrArg Sound.wave same).trans wave

theorem switchedOff (s : Sound) : s.switchedOff.Erased := ⟨rfl, rfl, rfl, rfl, rfl⟩

theorem replaceRam (h : s.Erased) (ram : Memory 16) :
    Erased { s with wave := { s.wave with ram } } := by
  refine ⟨h.registers, h.pulse1, h.pulse2, ?_, h.noise⟩
  dsimp only
  rw [h.wave]
  rfl

end Erased

namespace PowerOffErased

theorem write (h : s.PowerOffErased) (address : UInt16) (value : UInt8) :
    (s.write address value).PowerOffErased := by
  obtain ⟨-, written⟩ | ⟨-, written⟩ | ⟨-, ram, written⟩ := write_cases address value s
  · rw [written]
    split
    case isTrue power =>
      intro off
      rw [powered_applyWrite] at off
      exact absurd power (Bool.eq_false_iff.mp off)
    case isFalse => exact h
  · rw [written]
    obtain ⟨-, -, moved⟩ | ⟨-, -, moved⟩ | ⟨-, same⟩ := writePower_cases value s
    · rw [moved]
      exact fun _ => .switchedOff s
    · rw [moved]
      intro off
      cases off
    · rw [same]
      exact h
  · rw [written]
    exact fun off => (h off).replaceRam ram

theorem powerOn : Sound.powerOn.PowerOffErased := by
  apply powerOn_keeps
  · intro off
    cases off
  · intro s address value h
    exact h.write address value

theorem tick (h : s.PowerOffErased) (paced : s.Paced) (settings : Settings) (cycles : Nat)
    (samples : Array Single) : (s.tick settings cycles samples).1.PowerOffErased := by
  intro off
  rw [powered_tick settings cycles s samples paced] at off
  exact (h off).congr (core_tick_off settings cycles s samples paced off)

end PowerOffErased

theorem Erased.read_registers (h : s.Erased) {address : UInt16} (inside : InRegisters address) :
    s.read address = readMasks.read (index address) := by
  have zero : (Memory.zeros : Memory 23).read (index address) = 0 := by
    unfold Memory.read Memory.zeros
    rw [Vector.getElem?_replicate]
    split <;> rfl
  unfold read
  rw [if_pos inside, h.registers, zero, UInt8.zero_or]

theorem Erased.read_switch (h : s.Erased) (off : s.powered = false) : s.read 0xFF26 = 0x70 := by
  have silent : s.status = 0 := by
    unfold status
    rw [h.pulse1, h.pulse2, h.wave, h.noise]
    simp [Pulse.off, Wave.off, Noise.off]
  change 0x70 ||| (if s.powered then 0x80 else 0) ||| s.status = 0x70
  rw [off, silent]
  rfl

theorem read_write_wave {a b : UInt16} (inA : InWave a) (inB : InWave b) (value : UInt8)
    (s : Sound) : (s.write a value).read b = if b = a then value else s.read b := by
  have places : (b.toNat - 0xFF30) % 16 = (a.toNat - 0xFF30) % 16 ↔ b = a := by
    obtain ⟨firstA, lastA⟩ := inA
    obtain ⟨firstB, lastB⟩ := inB
    rw [UInt16.le_iff_toNat_le] at firstA lastA firstB lastB
    rw [← UInt16.toNat_inj]
    simp only [UInt16.reduceToNat] at firstA lastA firstB lastB
    omega
  rw [read_wave inB, read_wave inB, write_wave inA]
  dsimp only
  rw [Memory.read_write _ _ _ _ (by decide)]
  exact if_congr places rfl rfl

theorem Erased.core_switchedOn (h : s.Erased) : s.switchedOn.core = fresh s.wave.ram := by
  obtain ⟨registers, pulse1, pulse2, wave, noise⟩ := h
  unfold switchedOn core fresh unbooted
  dsimp only
  rw [registers, pulse1, pulse2, noise, ← wave]

theorem Erased.core_switch (h : s.Erased) (off : s.powered = false) {value : UInt8}
    (on : value &&& 0x80 ≠ 0) : (s.write 0xFF26 value).core = fresh s.wave.ram := by
  change (s.writePower value).core = _
  obtain ⟨power, -, -⟩ | ⟨-, -, moved⟩ | ⟨same, -⟩ := writePower_cases value s
  · rw [off] at power
    cases power
  · rw [moved]
    exact h.core_switchedOn
  · rw [off, bne_iff_ne.mpr on] at same
    cases same

end Sound

namespace LiveSound
open SoundOperation
variable {live live' : LiveSound}

theorem core_operate (h : live.sound.Paced) (h' : live'.sound.Paced)
    (same : live.sound.core = live'.sound.core) (op : SoundOperation) :
    (live.operate op).sound.core = (live'.operate op).sound.core := by
  cases op with
  | tick cycles =>
    have first := Sound.core_tick live.settings cycles live.sound live.samples h
    have second := Sound.core_tick live'.settings cycles live'.sound live'.samples h'
    exact first.trans ((congrArg _ same).trans second.symm)
  | write address value =>
    have first := Sound.core_write address value live.sound
    have second := Sound.core_write address value live'.sound
    exact first.trans ((congrArg _ same).trans second.symm)
  | takeSamples => exact same

theorem core_operations (h : live.sound.Paced) (h' : live'.sound.Paced)
    (same : live.sound.core = live'.sound.core) (ops : List SoundOperation) :
    (live.operations ops).sound.core = (live'.operations ops).sound.core := by
  induction ops generalizing live live' with
  | nil => exact same
  | cons op ops ih =>
    exact ih (paced_operate op h) (paced_operate op h') (core_operate h h' same op)

theorem core_operate_off (h : live.sound.Paced) (off : live.sound.powered = false)
    {op : SoundOperation} (below : op.BelowSwitch) :
    (live.operate op).sound.core = live.sound.core := by
  cases op with
  | tick cycles => exact Sound.core_tick_off live.settings cycles live.sound live.samples h off
  | write address value =>
    obtain ⟨-, written⟩ | ⟨control, -⟩ | ⟨above, -⟩ := live.sound.write_cases address value
    · change (live.sound.write address value).core = _
      rw [written, off]
      rfl
    · subst control
      exact absurd below.2 (by decide)
    · exact absurd below above
  | takeSamples => rfl

theorem core_operations_off {ops : List SoundOperation} (below : ∀ op ∈ ops, op.BelowSwitch)
    (h : live.sound.Paced) (off : live.sound.powered = false) :
    (live.operations ops).sound.core = live.sound.core := by
  have both := operations_keeps
    (P := fun next => next.sound.Paced ∧ next.sound.core = live.sound.core)
    (fun op listed next kept =>
      have still : next.sound.powered = false := (congrArg Sound.powered kept.2 :).trans off
      ⟨paced_operate op kept.1, (core_operate_off kept.1 still (below op listed)).trans kept.2⟩)
    ⟨h, rfl⟩
  exact both.2

theorem powerOffErased_operate (h : live.sound.PowerOffErased) (paced : live.sound.Paced)
    (op : SoundOperation) : (live.operate op).sound.PowerOffErased := by
  cases op with
  | tick cycles => exact h.tick paced live.settings cycles live.samples
  | write address value => exact h.write address value
  | takeSamples => exact h

/-- Whatever has happened since power-on, a unit without power is erased. -/
theorem powerOffErased_powerOn (settings : Settings) (ops : List SoundOperation) :
    ((powerOn settings).operations ops).sound.PowerOffErased := by
  have start : (powerOn settings).sound.PowerOffErased ∧ (powerOn settings).sound.Paced :=
    ⟨.powerOn, Sound.InRange.powerOn.paced⟩
  have both := operations_keeps
    (P := fun live => live.sound.PowerOffErased ∧ live.sound.Paced)
    (fun op (_ : op ∈ ops) live h => ⟨powerOffErased_operate h.1 h.2 op, paced_operate op h.2⟩) start
  exact both.1

theorem powered_switchedOff {op : SoundOperation} (off : op.SwitchesOff) (live : LiveSound) :
    (live.operate op).sound.powered = false := by
  cases op with
  | write address value =>
    obtain ⟨rfl, clear⟩ := off
    exact (Sound.powered_writePower value live.sound).trans (bne_eq_false_iff_eq.mpr clear)
  | tick | takeSamples => exact off.elim

theorem powered_operate_off {op : SoundOperation} (stays : ¬op.SwitchesOn)
    (h : live.sound.Paced) (off : live.sound.powered = false) :
    (live.operate op).sound.powered = false := by
  cases op with
  | tick cycles =>
    exact (Sound.powered_tick live.settings cycles live.sound live.samples h).trans off
  | write address value =>
    by_cases control : address = 0xFF26
    · subst control
      have clear : value &&& 0x80 = 0 := Decidable.not_not.mp fun on => stays ⟨rfl, on⟩
      exact powered_switchedOff (show SwitchesOff (.write 0xFF26 value) from ⟨rfl, clear⟩) live
    · exact (Sound.powered_write value live.sound control).trans off
  | takeSamples => exact off

/-- After the power was off, the unit is as good as new, apart from the wave memory. -/
theorem core_powerCycle (settings : Settings) {ops : List SoundOperation}
    (cycle : EndsInPowerCycle ops) :
    ((powerOn settings).operations ops).sound.core =
      Sound.fresh ((powerOn settings).operations ops).sound.wave.ram := by
  obtain ⟨past, off, between, on, rfl, goesOff, stays, comesOn⟩ := cycle
  rw [operations_append, operations_cons, operations_append]
  -- The unit before the power comes back.
  let dark := ((((powerOn settings).operations past).operate off).operations between)
  have erased : dark.sound.PowerOffErased := by
    have history := powerOffErased_powerOn settings (past ++ off :: between)
    rwa [operations_append, operations_cons] at history
  have silent : dark.sound.Paced ∧ dark.sound.powered = false :=
    operations_keeps (P := fun live => live.sound.Paced ∧ live.sound.powered = false)
      (fun op listed live h =>
        ⟨paced_operate op h.1, powered_operate_off (stays op listed) h.1 h.2⟩)
      ⟨paced_operate off (inRange_powerOn settings past).paced, powered_switchedOff goesOff _⟩
  cases on with
  | write address value =>
    obtain ⟨rfl, bit⟩ := comesOn
    have core := (erased silent.2).core_switch silent.2 bit
    have ram : (dark.sound.write 0xFF26 value).wave.ram = dark.sound.wave.ram :=
      congrArg (·.wave.ram) core
    change (dark.sound.write 0xFF26 value).core =
      Sound.fresh (dark.sound.write 0xFF26 value).wave.ram
    rw [core, ram]
  | tick | takeSamples => exact comesOn.elim

/-- Switching off erases the unit, and nothing but the switch changes that; the wave memory stays
memory. Two pasts that end with the power off and on again cannot be told apart by anything but the
wave memory, whatever happens later. -/
theorem power_off_erases (settings settings' : Settings) :
    (∀ past, ((powerOn settings).operations past).sound.powered = false →
      ((powerOn settings).operations past).sound.Erased ∧
      (∀ address, 0xFF10 ≤ address → address ≤ 0xFF25 →
        ((powerOn settings).operations past).sound.read address =
          Sound.readMasks.read (Sound.index address)) ∧
      ((powerOn settings).operations past).sound.read 0xFF26 = 0x70 ∧
      (∀ later, (∀ op ∈ later, op.BelowSwitch) →
        ((powerOn settings).operations (past ++ later)).sound.core =
          ((powerOn settings).operations past).sound.core) ∧
      ∀ a b value, Sound.InWave a → Sound.InWave b →
        (((powerOn settings).operations (past ++ [.write a value])).sound.read b =
          if b = a then value else ((powerOn settings).operations past).sound.read b)) ∧
    ∀ past past', EndsInPowerCycle past → EndsInPowerCycle past' →
      ((powerOn settings).operations past).sound.wave.ram =
        ((powerOn settings').operations past').sound.wave.ram →
      ∀ later, ((powerOn settings).operations (past ++ later)).sound.core =
        ((powerOn settings').operations (past' ++ later)).sound.core := by
  constructor
  · intro past off
    have erased := powerOffErased_powerOn settings past off
    have paced := (inRange_powerOn settings past).paced
    refine ⟨erased, fun address first last => erased.read_registers ⟨first, last⟩, erased.read_switch off,
      fun later below => ?_, fun a b value inA inB => ?_⟩
    · rw [operations_append]
      exact core_operations_off below paced off
    · rw [operations_append]
      exact Sound.read_write_wave inA inB value _
  · intro past past' cycle cycle' same later
    rw [operations_append, operations_append]
    refine core_operations (inRange_powerOn settings past).paced
      (inRange_powerOn settings' past').paced ?_ later
    rw [core_powerCycle settings cycle, core_powerCycle settings' cycle', same]

def noisyPast : List SoundOperation :=
  [.write 0xFF12 0xF0, .write 0xFF14 0x87, .write 0xFF26 0x00, .write 0xFF12 0x80,
    .write 0xFF26 0x80]

def quietPast : List SoundOperation := [.write 0xFF26 0x0F, .write 0xFF26 0x8F]

/-- The note of the one past does not matter for the notes of both futures. -/
theorem power_off_erases_note :
    ((powerOn .standard).operations quietPast).sound.wave.ram =
        ((powerOn .standard).operations noisyPast).sound.wave.ram ∧
      ((powerOn .standard).operations
          (noisyPast ++ [.write 0xFF17 0xF0, .write 0xFF19 0x87, .tick 5000])).sound.core =
        ((powerOn .standard).operations
          (quietPast ++ [.write 0xFF17 0xF0, .write 0xFF19 0x87, .tick 5000])).sound.core ∧
      ((powerOn .standard).operations (noisyPast.take 3)).sound.read 0xFF26 = 0x70 := by
  have noisy : EndsInPowerCycle noisyPast :=
    ⟨[.write 0xFF12 0xF0, .write 0xFF14 0x87], .write 0xFF26 0x00, [.write 0xFF12 0x80],
      .write 0xFF26 0x80, rfl, ⟨rfl, rfl⟩, by simp [SwitchesOn], ⟨rfl, by decide⟩⟩
  have quiet : EndsInPowerCycle quietPast :=
    ⟨[], .write 0xFF26 0x0F, [], .write 0xFF26 0x8F, rfl, ⟨rfl, rfl⟩, by simp, ⟨rfl, by decide⟩⟩
  have noisyWave : ((powerOn .standard).operations noisyPast).sound.wave.ram = Wave.powerOnRam :=
    rfl
  have quietWave : ((powerOn .standard).operations quietPast).sound.wave.ram = Wave.powerOnRam :=
    rfl
  have same := quietWave.trans noisyWave.symm
  obtain ⟨dark, pasts⟩ := power_off_erases .standard .standard
  exact ⟨same, pasts _ _ noisy quiet same.symm _, (dark _ rfl).2.2.1⟩

end LiveSound
end DotMatrix
