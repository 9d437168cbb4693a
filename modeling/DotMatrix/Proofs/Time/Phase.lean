import DotMatrix.Proofs.Board.Operation
import DotMatrix.Proofs.Cpu.Writes
import DotMatrix.Proofs.Video.ExactTime

/-! The clocks of a board. Each part counts time in units of its own, but all of them count the
same cycles: as long as no program sets one of them back or stops it, the time since power-on says
where each of them is. -/
namespace DotMatrix

variable {c : Nat}

namespace Timer

def InPhase (c : Nat) (t : Timer) : Prop := t.counter.toNat = (0xABCC + c) % 65536

theorem counter_countEdge (before : Bool) (t : Timer) :
    (countEdge before t).counter = t.counter := by
  unfold countEdge increment
  repeat' split
  all_goals rfl

theorem counter_countReload (t : Timer) : t.countReload.1.counter = t.counter := by
  unfold countReload
  repeat' split
  all_goals rfl

theorem counter_cycle (t : Timer) : t.cycle.1.counter = t.counter + 1 := by
  unfold cycle
  dsimp only
  rw [counter_countEdge]
  exact congrArg (· + 1) (counter_countReload t)

namespace InPhase
variable {t : Timer}

theorem cycles (h : t.InPhase c) (n : Nat) (fired : Bool) :
    (Timer.cycles n t fired).1.InPhase (c + n) := by
  induction n generalizing c t fired with
  | zero => exact h
  | succ n ih =>
    have next : t.cycle.1.InPhase (c + 1) := by
      unfold InPhase at h ⊢
      rw [counter_cycle, UInt16.toNat_add, h]
      exact Nat.mod_add_mod _ _ _
    rw [show c + (n + 1) = c + 1 + n by omega]
    exact ih next _

theorem tick (h : t.InPhase c) (n : Nat) : (t.tick n).1.InPhase (c + n) := h.cycles n false

theorem write (h : t.InPhase c) {address : UInt16} (value : UInt8) (kept : address ≠ 0xFF04) :
    (t.write address value).InPhase c := by
  unfold Timer.write
  split
  · exact absurd rfl kept
  · exact h
  · exact h
  · exact (congrArg UInt16.toNat (counter_countEdge _ _)).trans h

end InPhase
end Timer

namespace Video

structure InPhase (c : Nat) (v : Video) : Prop where
  on : v.raster.registers.lcdOn = true
  beam : v.raster.position = c % Raster.dotsPerFrame

namespace InPhase
variable {v : Video}

theorem tick (h : v.InPhase c) (inRange : v.raster.InRange) (palette : Palette) (n : Nat) :
    (v.tick palette n ∅).1.InPhase (c + n) := by
  have passed := passed_tick palette n inRange h.on
  refine ⟨passed.on.trans h.on, ?_⟩
  rw [passed.position, h.beam, Nat.mod_add_mod]

theorem write (h : v.InPhase c) (palette : Palette) {address : UInt16} {value : UInt8}
    (shown : ¬(address = 0xFF40 ∧ value &&& 0x80 = 0)) :
    (v.write palette address value).1.InPhase c := by
  have shown : (VideoOperation.write palette address value).switchesOff = false := by
    simpa [VideoOperation.switchesOff] using shown
  obtain ⟨on, beam⟩ := beam_write palette address value h.on shown
  exact ⟨on, beam.trans h.beam⟩

end InPhase
end Video

namespace Sound

structure InPhase (c : Nat) (s : Sound) : Prop where
  powered : s.powered = true
  timer : s.sequencerTimer.toNat = c % 8192
  step : s.sequencerStep.toNat = c / 8192 % 8

def sequencer (s : Sound) : Bool × UInt32 × UInt8 :=
  (s.powered, s.sequencerTimer, s.sequencerStep)

theorem sequencer_clockSequencer (s : Sound) :
    s.clockSequencer.sequencer =
      (s.powered, s.sequencerTimer, (s.sequencerStep + 1) &&& 0x07) := by
  unfold clockSequencer
  dsimp only
  repeat' split
  all_goals rfl

theorem sequencer_applyWrite (address : UInt16) (value : UInt8) (s : Sound) :
    (s.applyWrite address value).sequencer = s.sequencer := by
  unfold applyWrite
  split <;> rfl

theorem sequencer_samplePhase (phase : UInt64) (s : Sound) :
    { s with samplePhase := phase }.sequencer = s.sequencer :=
  rfl

theorem sequencer_filter (settings : Settings) (s : Sound) :
    (s.filter settings).sequencer = s.sequencer := by
  unfold filter sequencer
  rfl

theorem sequencer_settle (settings : Settings) (phase : Nat) (s : Sound)
    (samples : Array Single) : (s.settle settings phase samples).1.sequencer = s.sequencer := by
  unfold settle
  split
  · exact sequencer_samplePhase _ s
  · exact (sequencer_filter settings _).trans (sequencer_samplePhase _ s)

theorem toNat_next_step (step : UInt8) : ((step + 1) &&& 0x07).toNat = (step.toNat + 1) % 8 := by
  rw [UInt8.toNat_and, UInt8.toNat_add]
  change (step.toNat + 1) % 256 &&& 2 ^ 3 - 1 = _
  rw [Nat.and_two_pow_sub_one_eq_mod]
  omega

namespace InPhase
variable {s : Sound}

theorem congr {next : Sound} (h : s.InPhase c) (same : next.sequencer = s.sequencer) :
    next.InPhase c := by
  obtain ⟨powered, parts⟩ := Prod.mk.inj same
  obtain ⟨timer, step⟩ := Prod.mk.inj parts
  exact ⟨powered.trans h.powered, (congrArg UInt32.toNat timer).trans h.timer,
    (congrArg UInt8.toNat step).trans h.step⟩

theorem clockSequencer (h : s.InPhase c) (next : Sound) (zero : next.sequencerTimer = 0)
    (powered : next.powered = true) (step : next.sequencerStep = s.sequencerStep) {n : Nat}
    (reaches : s.sequencerTimer.toNat + n = sequencerPeriod) :
    next.clockSequencer.InPhase (c + n) := by
  obtain ⟨power, parts⟩ := Prod.mk.inj next.sequencer_clockSequencer
  obtain ⟨timer, further⟩ := Prod.mk.inj parts
  have before := h.timer
  have position := h.step
  simp only [sequencerPeriod] at reaches
  refine ⟨power.trans powered, ?_, ?_⟩
  · rw [timer, zero, UInt32.toNat_zero]
    omega
  · rw [further, toNat_next_step, step]
    omega

theorem runSlice (h : s.InPhase c) {n : Nat}
    (quiet : s.sequencerTimer.toNat + n ≤ sequencerPeriod) : (s.runSlice n).InPhase (c + n) := by
  by_cases reaches : s.sequencerTimer.toNat + n = sequencerPeriod
  · rw [runSlice_reaches n s h.powered reaches]
    exact h.clockSequencer { s.stepChannels n with sequencerTimer := 0 } rfl h.powered rfl reaches
  · rw [runSlice_between n s h.powered reaches]
    obtain ⟨powered, timer, step⟩ := h
    simp only [sequencerPeriod] at quiet reaches
    refine ⟨powered, ?_, ?_⟩
    · change (UInt32.ofNat (s.sequencerTimer.toNat + n)).toNat = _
      rw [UInt32.toNat_ofNat']
      omega
    · change s.sequencerStep.toNat = _
      omega

theorem pass (h : s.InPhase c) (settings : Settings) {n : Nat} (samples : Array Single)
    (quiet : s.sequencerTimer.toNat + n ≤ sequencerPeriod) :
    (s.pass settings n samples).1.InPhase (c + n) :=
  (h.runSlice quiet).congr (sequencer_settle _ _ _ _)

theorem tick (h : s.InPhase c) (inRange : s.InRange) (settings : Settings) (n : Nat)
    (samples : Array Single) : (s.tick settings n samples).1.InPhase (c + n) := by
  -- Slice by slice: none of them goes beyond the step of the sequencer.
  induction n using Nat.strongRecOn generalizing c s samples with
  | ind n ih =>
    by_cases none : n = 0
    · rw [none, tick_zero]
      exact h
    have goes := slice_ne_zero settings n s inRange.paced none
    have some := slice_le settings.effectiveRate n s
    have quiet := inRange.paced.quiet_slice settings.effectiveRate n
    have rest := ih (n - s.slice settings.effectiveRate n) (by omega)
      (h.pass settings samples (quiet.sequencer h.powered))
      (inRange_pass settings _ s samples inRange quiet)
      (s.pass settings (s.slice settings.effectiveRate n) samples).2
    rw [Nat.add_assoc, Nat.add_sub_of_le some] at rest
    rw [tick_eq_pass settings n _ s samples rfl goes]
    exact rest

theorem write (h : s.InPhase c) {address : UInt16} {value : UInt8}
    (kept : ¬(address = 0xFF26 ∧ value &&& 0x80 = 0)) : (s.write address value).InPhase c := by
  have stored : { s with registers := s.registers.write (index address) value }.InPhase c :=
    ⟨h.powered, h.timer, h.step⟩
  unfold Sound.write
  split
  · split
    · exact stored.congr (sequencer_applyWrite _ _ _)
    · exact h
  · split
    case isTrue control =>
      have on : (value &&& 0x80 != 0) = true := by
        simpa using fun off => kept ⟨control, off⟩
      unfold writePower
      dsimp only
      rw [h.powered, on, if_neg (by decide), if_neg (by decide)]
      exact h
    case isFalse =>
      split
      · exact ⟨h.powered, h.timer, h.step⟩
      · exact h

end InPhase
end Sound

namespace Clock

structure InPhase (c : Nat) (k : Clock) : Prop where
  running : k.time.halted = false
  subsecond : k.subsecond.toNat = c % cyclesPerSecond

theorem InPhase.tick {k : Clock} (h : k.InPhase c) (n : Nat) : (k.tick n).InPhase (c + n) := by
  rw [tick_running n k (by simp [h.running])]
  refine ⟨(ClockTime.halted_repeat _ _).trans h.running, ?_⟩
  rw [h.subsecond, Nat.mod_add_mod, UInt32.toNat_ofNat', Nat.mod_eq_of_lt]
  exact Nat.lt_trans (Nat.mod_lt _ (by decide)) (by decide)

theorem InPhase.writeLatch {k : Clock} (h : k.InPhase c) (value : UInt8) :
    (k.writeLatch value).InPhase c :=
  ⟨h.running, h.subsecond⟩

end Clock

namespace Cartridge

def InPhase (c : Nat) (slot : Cartridge) : Prop := ∀ clock ∈ slot.mapper.clock?, clock.InPhase c

namespace InPhase
variable {slot : Cartridge}

theorem tick (h : slot.InPhase c) (n : Nat) : (slot.tick n).InPhase (c + n) := by
  intro clock plugged
  change clock ∈ (slot.mapper.updateClock (Clock.tick n)).clock? at plugged
  rw [Mapper.clock?_updateClock] at plugged
  obtain ⟨before, inside, rfl⟩ := Option.map_eq_some_iff.mp plugged
  exact (h before inside).tick n

theorem writeRom (h : slot.InPhase c) (address : UInt16) (value : UInt8) :
    (slot.writeRom address value).InPhase c := by
  intro clock plugged
  change clock ∈ (slot.mapper.write address value).clock? at plugged
  obtain same | latched := slot.mapper.clock?_write address value
  · rw [same] at plugged
    exact h clock plugged
  · rw [latched] at plugged
    obtain ⟨before, inside, rfl⟩ := Option.map_eq_some_iff.mp plugged
    exact (h before inside).writeLatch value

theorem writeRam (h : slot.InPhase c) {address : UInt16} (value : UInt8)
    (kept : ∀ select, slot.mapper.ramCell address slot.ram.size ≠ .clock select) :
    (slot.writeRam address value).InPhase c := by
  unfold Cartridge.writeRam
  split
  case h_4 select cell => exact absurd cell (kept select)
  all_goals exact h

end InPhase
end Cartridge

/-- A write that sets a clock back or may stop it: to the divider, one that switches the LCD or the
sound off, and one that reaches a register of the clock in the cartridge. -/
def Access.Disturbs (live : LiveBoard) : Access → Prop
  | .read _ => False
  | .write address value =>
    address = 0xFF04 ∨ address = 0xFF40 ∧ value &&& 0x80 = 0 ∨
      address = 0xFF26 ∧ value &&& 0x80 = 0 ∨
      (0xA000 ≤ address ∧ address < 0xC000) ∧ ∃ select,
        live.board.cartridge.mapper.ramCell address live.board.cartridge.ram.size = .clock select

namespace LiveBoard
variable {live : LiveBoard}

/-- None of the accesses disturbs a clock when its turn comes. -/
def Undisturbed : List Access → LiveBoard → Prop
  | [], _ => True
  | access :: rest, live => ¬access.Disturbs live ∧ Undisturbed rest (access.on live)

structure InPhase (c : Nat) (live : LiveBoard) : Prop where
  timer : live.board.timer.InPhase c
  video : live.board.video.InPhase c
  sound : live.board.sound.InPhase c
  cartridge : live.board.cartridge.InPhase c

namespace InPhase

theorem elapse (h : live.InPhase c) (raster : live.board.video.raster.InRange)
    (sound : live.board.sound.InRange) (n : Nat) (cycles : UInt64) :
    (live.elapse n cycles).InPhase (c + n) :=
  ⟨h.timer.tick n, h.video.tick raster _ n, h.sound.tick sound _ n _, h.cartridge.tick n⟩

theorem write (h : live.InPhase c) {address : UInt16} {value : UInt8}
    (kept : ¬(Access.write address value).Disturbs live) : (live.write address value).InPhase c := by
  obtain ⟨timer, ⟨on, beam⟩, sound, cartridge⟩ := h
  simp only [Access.Disturbs, not_or] at kept
  obtain ⟨divider, lcd, power, clock⟩ := kept
  unfold LiveBoard.write
  cases region : Region.ofAddress address with
  | rom => exact ⟨timer, ⟨on, beam⟩, sound, cartridge.writeRom address value⟩
  | cartridgeRam =>
    have inside := (Region.ofAddress_eq_cartridgeRam address).mp region
    exact ⟨timer, ⟨on, beam⟩, sound,
      cartridge.writeRam value fun select cell => clock ⟨inside, select, cell⟩⟩
  | vram | oam =>
    dsimp only
    split <;> exact ⟨timer, ⟨on, beam⟩, sound, cartridge⟩
  | timer => exact ⟨timer.write value divider, ⟨on, beam⟩, sound, cartridge⟩
  | sound => exact ⟨timer, ⟨on, beam⟩, sound.write power, cartridge⟩
  | video => exact ⟨timer, Video.InPhase.write ⟨on, beam⟩ _ lcd, sound, cartridge⟩
  | oamTransfer =>
    unfold transfer
    exact ⟨timer, ⟨on, beam⟩, sound, cartridge⟩
  | _ => exact ⟨timer, ⟨on, beam⟩, sound, cartridge⟩

theorem accesses {accesses : List Access} (h : live.InPhase c)
    (kept : Undisturbed accesses live) : (accesses.foldl Access.on live).InPhase c := by
  induction accesses generalizing live with
  | nil => exact h
  | cons access rest ih =>
    obtain ⟨first, rest⟩ := kept
    cases access with
    | read => exact ih h rest
    | write address value => exact ih (h.write first) rest

end InPhase

theorem transferStall_write (address : UInt16) (value : UInt8) (live : LiveBoard) :
    (live.write address value).board.transferStall =
      if address = 0xFF46 then Board.transferCycles else live.board.transferStall := by
  simp only [← Region.ofAddress_eq_oamTransfer]
  unfold write
  cases Region.ofAddress address with
  | vram | oam =>
    dsimp only
    split <;> rfl
  | _ => rfl

theorem transferStall_accesses (accesses : List Access) (live : LiveBoard) :
    (accesses.foldl Access.on live).board.transferStall =
      if writesTo 0xFF46 accesses = 0 then live.board.transferStall
      else Board.transferCycles := by
  induction accesses generalizing live with
  | nil => rfl
  | cons access rest ih =>
    rw [List.foldl_cons, ih]
    cases access with
    | read => rfl
    | write address value =>
      rw [writesTo_write]
      change (if _ then (live.write address value).board.transferStall else _) = _
      rw [transferStall_write]
      by_cases here : address = 0xFF46 <;> simp [here]

end LiveBoard
end DotMatrix
