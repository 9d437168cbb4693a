import DotMatrix.Proofs.Sound.NoteEnd
import DotMatrix.Proofs.Sound.SampleCount
import Mathlib.Data.Nat.Count

/-! What the sequencer alone moves. It goes through its eight steps whatever the channels do, so a
part of the unit that nothing else moves is where the number of its steps takes it. Envelopes and the
sweep divide that number once more. -/
namespace DotMatrix

theorem iterate_map {α : Type} (f : α → α) (n : Nat) (x : Option α) :
    (Option.map f)^[n] x = x.map f^[n] := by
  cases x with
  | none => exact Function.iterate_fixed rfl n
  | some x => exact ((Function.Semiconj.iterate_right (f := some) (fun _ => rfl) n).eq x).symm

def Divides (period : UInt8) (clocks : Nat) (timer : UInt8) : Prop :=
  timer.toNat + clocks % period.toNat = period.toNat

namespace Divides
variable {period timer : UInt8} {clocks : Nat}

theorem start (period : UInt8) : Divides period 0 period := by
  unfold Divides
  rw [Nat.zero_mod, Nat.add_zero]

theorem clock (h : Divides period clocks timer) (some : period ≠ 0) :
    let next := if timer > 0 then timer - 1 else timer
    (next = 0 → (clocks + 1) / period.toNat = clocks / period.toNat + 1 ∧
      Divides period (clocks + 1) period) ∧
    (next ≠ 0 → (clocks + 1) / period.toNat = clocks / period.toNat ∧
      Divides period (clocks + 1) next) := by
  unfold Divides at h ⊢
  have positive : 0 < period.toNat := Nat.pos_of_ne_zero fun zero => some (UInt8.toNat_inj.mp zero)
  have within := Nat.mod_lt clocks positive
  have counts : timer > 0 := UInt8.lt_iff_toNat_lt.mpr (show 0 < timer.toNat by omega)
  have less : (timer - 1).toNat = timer.toNat - 1 :=
    UInt8.toNat_sub_of_le _ _ (UInt8.le_iff_toNat_le.mpr (show 1 ≤ timer.toNat by omega))
  rw [if_pos counts]
  have parts := Nat.div_add_mod clocks period.toNat
  constructor
  · intro zero
    rw [zero, UInt8.toNat_zero] at less
    have whole : clocks + 1 = period.toNat * (clocks / period.toNat + 1) := by
      rw [Nat.mul_succ]
      omega
    rw [whole, Nat.mul_div_cancel_left _ positive, Nat.mul_mod_right]
    exact ⟨rfl, rfl⟩
  · intro more
    have left : (timer - 1).toNat ≠ 0 := fun zero => more (UInt8.toNat_inj.mp zero)
    have room : clocks % period.toNat + 1 < period.toNat := by omega
    have rest : clocks + 1 = period.toNat * (clocks / period.toNat) + (clocks % period.toNat + 1) :=
      by omega
    have same : (clocks + 1) / period.toNat = clocks / period.toNat := by
      rw [rest, Nat.mul_add_div positive, Nat.div_eq_of_lt room, Nat.add_zero]
    have further : (clocks + 1) % period.toNat = clocks % period.toNat + 1 := by
      rw [rest, Nat.mul_add_mod, Nat.mod_eq_of_lt room]
    exact ⟨same, by omega⟩

end Divides

namespace SoundOperation

/-- Time passes or samples are taken, and nobody writes. -/
def Passive : SoundOperation → Prop
  | .write _ _ => False
  | _ => True

theorem stretches_of_passive {ops : List SoundOperation} (passive : ∀ op ∈ ops, op.Passive) :
    stretches ops = ((ops.map cycles).sum, []) := by
  induction ops with
  | nil => rfl
  | cons op ops ih =>
    have rest := ih fun op listed => passive op (List.mem_cons_of_mem _ listed)
    rw [List.map_cons, List.sum_cons]
    cases op with
    | tick cycles => simp only [stretches, rest, SoundOperation.cycles]
    | write address value => exact (passive _ List.mem_cons_self).elim
    | takeSamples => simp only [stretches, rest, SoundOperation.cycles, Nat.zero_add]

end SoundOperation

namespace Sound
variable {s : Sound} {c : Nat}

def completed (cycles : Nat) (s : Sound) : Nat :=
  (s.sequencerTimer.toNat + cycles) / sequencerPeriod

/-- How many of these steps are due for something. They are numbered from 0 to 7. -/
def stepsDue (due : Nat → Prop) [DecidablePred due] (cycles : Nat) (s : Sound) : Nat :=
  Nat.count (fun k => due ((s.sequencerStep.toNat + k) % 8)) (s.completed cycles)

theorem toNat_step_cycles (h : s.InRange) (power : s.powered = true) (n : Nat) :
    ((runSlice 1)^[n] s).sequencerStep.toNat =
      (s.sequencerStep.toNat + s.completed n) % 8 := by
  rw [(inPhase_cycles (h.inPhase power) n).step]
  simp only [place, completed, sequencerPeriod]
  omega

theorem toNat_timer_cycles (h : s.InRange) (power : s.powered = true) (n : Nat) :
    ((runSlice 1)^[n] s).sequencerTimer.toNat =
      (s.sequencerTimer.toNat + n) % sequencerPeriod := by
  rw [(inPhase_cycles (h.inPhase power) n).timer]
  simp only [place, sequencerPeriod]
  omega

structure Sequenced {α : Type} (view : Sound → α) (due : Nat → Prop) [DecidablePred due]
    (act : α → α) : Prop where
  core (s : Sound) : view s.core = view s
  between (s : Sound) (cycles : Nat) (timer : UInt32) :
    view { s.stepChannels cycles with sequencerTimer := timer } = view s
  clock (s : Sound) :
    view s.clockSequencer = if due s.sequencerStep.toNat then act (view s) else view s

namespace Sequenced
variable {α : Type} {view : Sound → α} {due : Nat → Prop} [DecidablePred due] {act : α → α}

theorem cycles (part : Sequenced view due act) (h : s.InRange) (power : s.powered = true)
    (n : Nat) : view ((runSlice 1)^[n] s) = act^[s.stepsDue due n] (view s) := by
  have below : s.sequencerTimer.toNat < sequencerPeriod := h.sequencerTimer
  induction n with
  | zero =>
    have none : s.completed 0 = 0 := Nat.div_eq_of_lt below
    rw [stepsDue, none, Nat.count_zero]
    rfl
  | succ n ih =>
    have on := (inPhase_cycles (h.inPhase power) n).powered
    have timer := toNat_timer_cycles h power n
    have step := toNat_step_cycles h power n
    rw [Function.iterate_succ_apply']
    by_cases reaches : ((runSlice 1)^[n] s).sequencerTimer.toNat + 1 = sequencerPeriod
    · have one : s.completed (n + 1) = s.completed n + 1 := by
        simp only [completed, sequencerPeriod] at reaches timer ⊢
        omega
      have steps : s.stepsDue due (n + 1) =
          s.stepsDue due n + if due ((runSlice 1)^[n] s).sequencerStep.toNat then 1 else 0 := by
        rw [stepsDue, one, Nat.count_succ, step]
        rfl
      rw [runSlice_reaches 1 _ on reaches, part.clock, part.between, ih, steps]
      change (if due ((runSlice 1)^[n] s).sequencerStep.toNat then _ else _) = _
      split
      · exact (Function.iterate_succ_apply' ..).symm
      · rfl
    · have none : s.completed (n + 1) = s.completed n := by
        simp only [completed, sequencerPeriod] at reaches timer ⊢
        omega
      rw [runSlice_between 1 _ on reaches, part.between, ih, stepsDue, stepsDue, none]

theorem tick (part : Sequenced view due act) (h : s.InRange) (power : s.powered = true)
    (settings : Settings) (n : Nat) (samples : Array Single) :
    view (s.tick settings n samples).1 = act^[s.stepsDue due n] (view s) := by
  have core : s.core.InRange :=
    ⟨h.sequencerTimer, h.sequencerStep, (by decide : (0 : UInt64).toNat < cyclesPerSecond),
      h.pulse1, h.pulse2, h.wave, h.noise⟩
  rw [← part.core, core_tick settings n s samples h.paced, part.cycles core power, part.core]
  rfl

theorem operations (part : Sequenced view due act) {live : LiveSound}
    (h : live.sound.InRange) (power : live.sound.powered = true) {ops : List SoundOperation}
    (passive : ∀ op ∈ ops, op.Passive) :
    view (live.operations ops).sound =
      act^[live.sound.stepsDue due (ops.map SoundOperation.cycles).sum] (view live.sound) := by
  have whole := LiveSound.operations_eq_uncut ops h.paced
  rw [SoundOperation.stretches_of_passive passive] at whole
  have same : (live.operations ops).sound =
      (live.sound.tick live.settings (ops.map SoundOperation.cycles).sum live.samples).1 :=
    congrArg LiveSound.sound whole
  rw [same, part.tick h power]

end Sequenced
end Sound
end DotMatrix
