import DotMatrix.Proofs.Sound.Operation
import Mathlib.Algebra.GroupWithZero.Nat

/-! The number of samples does not drift. Of the time that has passed, the samples and what is left
of the last one account for every cycle, whatever the rate, however time is cut, and whatever
programs write in between. -/
namespace DotMatrix

namespace Sound
variable (settings : Settings)

/-- A full second of phase is a pair of samples; the rest is kept. -/
theorem count_settle (phase : Nat) (s : Sound) (samples : Array Single)
    (small : phase < 2 * cyclesPerSecond) :
    (s.settle settings phase samples).2.size = samples.size + 2 * (phase / cyclesPerSecond) ∧
      (s.settle settings phase samples).1.samplePhase.toNat = phase % cyclesPerSecond := by
  unfold settle
  by_cases before : phase < cyclesPerSecond
  · rw [if_pos before, Nat.div_eq_of_lt before, Nat.mod_eq_of_lt before]
    simp only [cyclesPerSecond] at before
    exact ⟨rfl, by rw [UInt64.toNat_ofNat', Nat.mod_eq_of_lt (by omega)]⟩
  · have whole : phase / cyclesPerSecond = 1 := Nat.div_eq_of_lt_le (by omega) (by omega)
    have rest : phase % cyclesPerSecond = phase - cyclesPerSecond := by
      rw [Nat.mod_eq_sub, whole, Nat.mul_one]
    rw [if_neg before, whole, rest]
    simp only [cyclesPerSecond] at small
    refine ⟨by rw [Array.size_push, Array.size_push], ?_⟩
    change (UInt64.ofNat (phase - cyclesPerSecond)).toNat = _
    rw [UInt64.toNat_ofNat', Nat.mod_eq_of_lt (by omega)]

theorem count_tick (n : Nat) (s : Sound) (samples : Array Single) (h : s.Paced) :
    (s.tick settings n samples).2.size =
        samples.size +
          2 * ((s.samplePhase.toNat + n * settings.effectiveRate) / cyclesPerSecond) ∧
      (s.tick settings n samples).1.samplePhase.toNat =
        (s.samplePhase.toNat + n * settings.effectiveRate) % cyclesPerSecond := by
  induction n with
  | zero =>
    have phase := h.samplePhase
    rw [tick_zero, Nat.zero_mul, Nat.add_zero, Nat.div_eq_of_lt phase, Nat.mod_eq_of_lt phase]
    exact ⟨rfl, rfl⟩
  | succ n ih =>
    have paced := paced_tick settings n s samples h
    have before := paced.samplePhase
    have rate_le := settings.effectiveRate_le
    obtain ⟨size, phase⟩ := count_settle settings
      ((s.tick settings n samples).1.samplePhase.toNat + 1 * settings.effectiveRate)
      ((s.tick settings n samples).1.runSlice 1) (s.tick settings n samples).2 (by omega)
    rw [tick_add settings n 1 s samples h, tick_one settings _ _ paced, pass, size, phase, ih.1,
      ih.2, Nat.add_mul]
    simp only [cyclesPerSecond]
    exact ⟨by omega, by omega⟩

end Sound

/-- The time up to the first write, and every write with the time behind it. It does not say how
this time was cut, nor when samples were taken. -/
def SoundOperation.stretches : List SoundOperation → Nat × List ((UInt16 × UInt8) × Nat)
  | [] => (0, [])
  | .tick cycles :: ops =>
    let (first, rest) := stretches ops
    (cycles + first, rest)
  | .write address value :: ops =>
    let (first, rest) := stretches ops
    (0, ((address, value), first) :: rest)
  | .takeSamples :: ops => stretches ops

namespace LiveSound
open SoundOperation
variable {live : LiveSound}

/-- A unit that nobody takes samples from, with a single tick between two writes. -/
def uncut (stretches : Nat × List ((UInt16 × UInt8) × Nat)) (live : LiveSound) : LiveSound :=
  stretches.2.foldl (fun live (entry, cycles) =>
    (live.operate (.write entry.1 entry.2)).operate (.tick cycles)) (live.operate (.tick stretches.1))

/-- What was not taken in time stands in front. -/
def behind (pending : Array Single) (live : LiveSound) : LiveSound :=
  { live with samples := pending ++ live.samples }

theorem operate_tick_behind (pending : Array Single) (cycles : Nat) (live : LiveSound) :
    (live.behind pending).operate (.tick cycles) = (live.operate (.tick cycles)).behind pending := by
  have appended := Sound.tick_append live.settings cycles live.sound pending live.samples
  unfold behind operate
  dsimp only
  rw [appended]

theorem uncut_behind (pending : Array Single) (cut : Nat × List ((UInt16 × UInt8) × Nat))
    (live : LiveSound) : (live.behind pending).uncut cut = (live.uncut cut).behind pending := by
  obtain ⟨first, rest⟩ := cut
  unfold uncut
  dsimp only
  rw [operate_tick_behind]
  generalize live.operate (.tick first) = live
  induction rest generalizing live with
  | nil => rfl
  | cons entry rest ih =>
    rw [List.foldl_cons, List.foldl_cons, ← ih, ← operate_tick_behind]
    rfl

theorem operate_tick_add (a b : Nat) (h : live.sound.Paced) :
    live.operate (.tick (a + b)) = (live.operate (.tick a)).operate (.tick b) := by
  unfold operate
  dsimp only
  rw [Sound.tick_add live.settings a b live.sound live.samples h]

theorem operate_tick_zero (live : LiveSound) : live.operate (.tick 0) = live := by
  unfold operate
  dsimp only
  rw [Sound.tick_zero]

/-- With all that was taken in front of what is left, a run is the run of its stretches. -/
theorem operations_eq_uncut (ops : List SoundOperation) (h : live.sound.Paced) :
    (live.operations ops).behind (live.taken ops) = live.uncut (stretches ops) := by
  induction ops generalizing live with
  | nil =>
    change _ = live.operate (.tick 0)
    rw [operate_tick_zero]
    exact congrArg (LiveSound.mk live.settings live.sound) (Array.empty_append ..)
  | cons op ops ih =>
    have rest := ih (paced_operate op h)
    cases op with
    | tick cycles =>
      refine rest.trans ?_
      unfold uncut
      rw [← operate_tick_add _ _ h]
      rfl
    | write address value =>
      refine rest.trans ?_
      unfold uncut
      dsimp only [stretches]
      rw [List.foldl_cons, operate_tick_zero]
    | takeSamples =>
      have whole : (live.operate .takeSamples).behind live.samples = live :=
        congrArg (LiveSound.mk live.settings live.sound) (Array.append_empty ..)
      calc
        _ = (((live.operate .takeSamples).operations ops).behind
              ((live.operate .takeSamples).taken ops)).behind live.samples :=
            congrArg (LiveSound.mk _ _) (Array.append_assoc ..)
        _ = ((live.operate .takeSamples).uncut (stretches ops)).behind live.samples := by rw [rest]
        _ = live.uncut (stretches ops) := by rw [← uncut_behind, whole]

theorem operations_eq_of_stretches (ops cut : List SoundOperation) (h : live.sound.Paced)
    (same : stretches cut = stretches ops) :
    (live.operations cut).behind (live.taken cut) =
      (live.operations ops).behind (live.taken ops) := by
  rw [operations_eq_uncut cut h, operations_eq_uncut ops h, same]

theorem taken_append (first rest : List SoundOperation) (live : LiveSound) :
    live.taken (first ++ rest) = live.taken first ++ (live.operations first).taken rest := by
  induction first generalizing live with
  | nil => exact (Array.empty_append ..).symm
  | cons op first ih =>
    cases op with
    | tick | write => exact ih _
    | takeSamples => exact (congrArg (live.samples ++ ·) (ih _)).trans (Array.append_assoc ..).symm

theorem taken_last (ops : List SoundOperation) (live : LiveSound) :
    live.taken (ops ++ [.takeSamples]) = ((live.operations ops).behind (live.taken ops)).samples := by
  rw [taken_append]
  exact congrArg (live.taken ops ++ ·) (Array.append_empty ..)

theorem count_operate (op : SoundOperation) (h : live.sound.Paced) :
    (live.taken [op]).size + (live.operate op).samples.size =
        live.samples.size +
          2 * ((live.sound.samplePhase.toNat + op.cycles * live.settings.effectiveRate) /
            cyclesPerSecond) ∧
      (live.operate op).sound.samplePhase.toNat =
        (live.sound.samplePhase.toNat + op.cycles * live.settings.effectiveRate) %
          cyclesPerSecond := by
  have none : (live.sound.samplePhase.toNat + 0 * live.settings.effectiveRate) / cyclesPerSecond = 0
      ∧ (live.sound.samplePhase.toNat + 0 * live.settings.effectiveRate) % cyclesPerSecond =
        live.sound.samplePhase.toNat := by
    rw [Nat.zero_mul, Nat.add_zero]
    exact ⟨Nat.div_eq_of_lt h.samplePhase, Nat.mod_eq_of_lt h.samplePhase⟩
  cases op with
  | tick n =>
    obtain ⟨gathered, rest⟩ := Sound.count_tick live.settings n live.sound live.samples h
    exact ⟨(Nat.zero_add _).trans gathered, rest⟩
  | write address value =>
    rw [show (SoundOperation.write address value).cycles = 0 from rfl, none.1, none.2]
    exact ⟨Nat.zero_add _, congrArg UInt64.toNat (Sound.samplePhase_write address value live.sound)⟩
  | takeSamples =>
    rw [show SoundOperation.takeSamples.cycles = 0 from rfl, none.1, none.2]
    have whole : live.samples ++ #[] = live.samples := Array.append_empty ..
    exact ⟨congrArg Array.size whole, rfl⟩

/-- Whatever happens in between, the time alone says how many samples there are. -/
theorem count_operations (ops : List SoundOperation) (h : live.sound.Paced) :
    (live.taken ops).size + (live.operations ops).samples.size =
        live.samples.size +
          2 * ((live.sound.samplePhase.toNat +
            (ops.map cycles).sum * live.settings.effectiveRate) / cyclesPerSecond) ∧
      (live.operations ops).sound.samplePhase.toNat =
        (live.sound.samplePhase.toNat +
          (ops.map cycles).sum * live.settings.effectiveRate) % cyclesPerSecond := by
  induction ops generalizing live with
  | nil =>
    rw [List.map_nil, List.sum_nil, Nat.zero_mul, Nat.add_zero, Nat.div_eq_of_lt h.samplePhase,
      Nat.mod_eq_of_lt h.samplePhase]
    exact ⟨Nat.zero_add _, rfl⟩
  | cons op ops ih =>
    obtain ⟨one, phase⟩ := count_operate op h
    obtain ⟨more, last⟩ := ih (paced_operate op h)
    have parts : (live.taken (op :: ops)).size =
        (live.taken [op]).size + ((live.operate op).taken ops).size := by
      rw [← Array.size_append]
      exact congrArg Array.size (taken_append [op] ops live)
    rw [settings_operate, phase] at more last
    rw [operations_cons, last, parts, List.map_cons, List.sum_cons, Nat.add_mul]
    simp only [cyclesPerSecond] at one more ⊢
    exact ⟨by omega, by omega⟩

/-- Every unit is paced: at power-on, after every operation, and in every accepted snapshot. -/
theorem paced_always :
    (∀ settings, (powerOn settings).sound.Paced) ∧
      (∀ (op : SoundOperation) (live : LiveSound), live.sound.Paced →
        (live.operate op).sound.Paced) ∧
      ∀ s : Sound, s.checkLayout = .ok () → s.Paced :=
  ⟨fun _ => Sound.InRange.powerOn.paced, fun op _ h => paced_operate op h,
    fun s accepted => ((Sound.checkLayout_eq_ok s).mp accepted).paced⟩

/-- There are exactly as many samples as time and rate make, and what is left over is kept. How time
is cut, and when samples are taken, does not change one of them. -/
theorem sample_count (live : LiveSound) (h : live.sound.Paced) (ops : List SoundOperation) :
    (1 ≤ live.settings.effectiveRate ∧ live.settings.effectiveRate ≤ 2 ^ 22) ∧
      (live.taken ops).size + (live.operations ops).samples.size =
        live.samples.size +
          2 * ((live.sound.samplePhase.toNat +
            (ops.map cycles).sum * live.settings.effectiveRate) / 2 ^ 22) ∧
      (live.operations ops).sound.samplePhase.toNat =
        (live.sound.samplePhase.toNat +
          (ops.map cycles).sum * live.settings.effectiveRate) % 2 ^ 22 ∧
      ∀ cut, stretches cut = stretches ops →
        live.taken (cut ++ [.takeSamples]) = live.taken (ops ++ [.takeSamples]) ∧
          (live.operations cut).sound = (live.operations ops).sound := by
  obtain ⟨size, rest⟩ := count_operations ops h
  refine ⟨⟨live.settings.effectiveRate_pos, live.settings.effectiveRate_le⟩, size, rest,
    fun cut same => ?_⟩
  have whole := operations_eq_of_stretches ops cut h same
  rw [taken_last, taken_last]
  exact ⟨congrArg LiveSound.samples whole, (congrArg LiveSound.sound whole :)⟩

def pausedSecond : List SoundOperation :=
  [.tick 2097150, .write 0xFF26 0x00, .tick 1048575, .takeSamples, .write 0xFF26 0x80,
    .tick 1048575]

def choppedSecond : List SoundOperation :=
  List.replicate 30 (.tick 69905) ++ .takeSamples :: .write 0xFF26 0x00 ::
    List.replicate 15 (.tick 69905) ++ .write 0xFF26 0x80 :: List.replicate 15 (.tick 69905)

/-- At a rate of 48000 the last sample is not due before the second is over, both ways. -/
theorem sample_count_paused :
    ∃ live : LiveSound, live.settings.effectiveRate = 48000 ∧
      (live.taken pausedSecond).size + (live.operations pausedSecond).samples.size = 2 * 47999 ∧
      live.taken (choppedSecond ++ [.takeSamples]) =
        live.taken (pausedSecond ++ [.takeSamples]) := by
  let settings : Settings := { Settings.standard with sampleRate := 48000 }
  obtain ⟨-, size, -, cut⟩ :=
    sample_count (powerOn settings) Sound.InRange.powerOn.paced pausedSecond
  have start : (powerOn settings).sound.samplePhase.toNat = 0 := rfl
  have none : (powerOn settings).samples.size = 0 := rfl
  have rate : (powerOn settings).settings.effectiveRate = 48000 := rfl
  have time : (pausedSecond.map cycles).sum = 4194300 := rfl
  rw [start, none, rate, time] at size
  exact ⟨powerOn settings, rate, size, (cut choppedSecond rfl).1⟩

end LiveSound
end DotMatrix
