import DotMatrix.Proofs.Time.Phase
import Mathlib.Data.Nat.Bitwise
import Mathlib.Order.Nat
import Mathlib.Data.Nat.Count

/-! What a timer counts while nobody writes to it. The falling edges of the selected bit are the
multiples of its period that the counter passes; from their number follow the count, every overflow
and every request. -/
namespace DotMatrix
namespace Timer

def selection (t : Timer) : Nat :=
  match t.control &&& 0x03 with
  | 0 => 9
  | 1 => 3
  | 2 => 5
  | _ => 7

def period (t : Timer) : Nat := 2 ^ (t.selection + 1)

def edges (t : Timer) (n : Nat) : Nat :=
  (t.counter.toNat + n) / t.period - t.counter.toNat / t.period

def after (t : Timer) (n : Nat) : Timer := (t.tick n).1

/-- The input falls in the next cycle. -/
abbrev Falls (t : Timer) : Prop := t.input = true ∧ t.cycle.1.input = false

/-- The count goes round in the next cycle. -/
abbrev Overflows (t : Timer) : Prop := t.count = 0xFF ∧ t.cycle.1.count = 0

/-! Arithmetic of the count. -/

def OverflowsAt (t : Timer) (edge : Nat) : Prop :=
  ∃ j, edge = 256 - t.count.toNat + j * (256 - t.reload.toNat)

/-- The count behind so many edges. -/
def expected (t : Timer) (edges : Nat) : Nat :=
  if edges < 256 - t.count.toNat then t.count.toNat + edges
  else t.reload.toNat + (edges - (256 - t.count.toNat)) % (256 - t.reload.toNat)

def rounds (t : Timer) (edges : Nat) : Nat :=
  if edges < 256 - t.count.toNat then 0
  else (edges - (256 - t.count.toNat)) / (256 - t.reload.toNat) + 1

theorem succ_mod_of_lt {x q : Nat} (room : x % q + 1 < q) : (x + 1) % q = x % q + 1 :=
  (Nat.mod_add_mod x q 1).symm.trans (Nat.mod_eq_of_lt room)

theorem dvd_succ_iff {x q : Nat} (positive : 0 < q) : q ∣ x + 1 ↔ x % q + 1 = q := by
  have below := Nat.mod_lt x positive
  by_cases full : x % q + 1 = q
  · refine iff_of_true (Nat.dvd_of_mod_eq_zero ?_) full
    rw [← Nat.mod_add_mod, full, Nat.mod_self]
  · refine iff_of_false (fun dvd => ?_) full
    have zero := Nat.mod_eq_zero_of_dvd dvd
    rw [succ_mod_of_lt (by omega)] at zero
    cases zero

theorem overflowsAt_iff (t : Timer) (edge : Nat) :
    t.OverflowsAt edge ↔ 256 - t.count.toNat ≤ edge ∧
      (256 - t.reload.toNat) ∣ edge - (256 - t.count.toNat) := by
  constructor
  · rintro ⟨j, rfl⟩
    exact ⟨Nat.le_add_right _ _, by rw [Nat.add_sub_cancel_left]; exact Nat.dvd_mul_left _ _⟩
  · rintro ⟨late, j, rounds⟩
    refine ⟨j, ?_⟩
    rw [Nat.mul_comm, ← rounds]
    omega

theorem expected_of_overflowsAt {t : Timer} {edge : Nat} (h : t.OverflowsAt edge) :
    t.expected edge = t.reload.toNat := by
  obtain ⟨late, rounds⟩ := (overflowsAt_iff t edge).mp h
  unfold expected
  rw [if_neg (Nat.not_lt.mpr late), Nat.mod_eq_zero_of_dvd rounds, Nat.add_zero]

theorem expected_succ (t : Timer) (edges : Nat) :
    (t.OverflowsAt (edges + 1) ↔ t.expected edges = 255) ∧
      (t.expected edges ≠ 255 → t.expected (edges + 1) = t.expected edges + 1) := by
  have count := t.count.toNat_lt
  have reload := t.reload.toNat_lt
  rw [overflowsAt_iff]
  unfold expected
  by_cases first : edges + 1 < 256 - t.count.toNat
  · rw [if_pos (by omega), if_pos first]
    exact ⟨⟨fun late => by omega, fun full => by omega⟩, fun _ => by omega⟩
  · by_cases last : edges + 1 = 256 - t.count.toNat
    · rw [last, Nat.sub_self, if_pos (by omega)]
      exact ⟨⟨fun _ => by omega, fun _ => ⟨Nat.le_refl _, Nat.dvd_zero _⟩⟩,
        fun more => absurd (by omega) more⟩
    · have round := Nat.mod_lt (edges - (256 - t.count.toNat))
        (show 0 < 256 - t.reload.toNat by omega)
      have next : edges + 1 - (256 - t.count.toNat) = edges - (256 - t.count.toNat) + 1 := by omega
      rw [if_neg (by omega), if_neg first, next, dvd_succ_iff (by omega)]
      refine ⟨⟨fun full => by omega, fun full => ⟨by omega, by omega⟩⟩, fun more => ?_⟩
      rw [succ_mod_of_lt (by omega), Nat.add_assoc]

theorem rounds_of_overflowsAt {t : Timer} {j edges : Nat}
    (edge : edges + 1 = 256 - t.count.toNat + j * (256 - t.reload.toNat)) : t.rounds edges = j := by
  have reload := t.reload.toNat_lt
  unfold rounds
  cases j with
  | zero =>
    rw [Nat.zero_mul] at edge
    exact if_pos (by omega)
  | succ j =>
    rw [Nat.add_mul, Nat.one_mul] at edge
    have place : edges - (256 - t.count.toNat) =
        (256 - t.reload.toNat) * j + (256 - t.reload.toNat - 1) := by
      rw [Nat.mul_comm]
      omega
    rw [if_neg (by omega), place, Nat.mul_add_div (by omega), Nat.div_eq_of_lt (by omega)]

theorem rounds_succ (t : Timer) (edges : Nat) :
    (t.OverflowsAt (edges + 1) → t.rounds (edges + 1) = t.rounds edges + 1) ∧
      (¬t.OverflowsAt (edges + 1) → t.rounds (edges + 1) = t.rounds edges) := by
  rw [overflowsAt_iff]
  unfold rounds
  by_cases first : edges + 1 < 256 - t.count.toNat
  · rw [if_pos first, if_pos (by omega)]
    exact ⟨fun late => by omega, fun _ => rfl⟩
  · by_cases last : edges + 1 = 256 - t.count.toNat
    · rw [last, Nat.sub_self, Nat.zero_div, if_neg (Nat.lt_irrefl _), if_pos (by omega)]
      exact ⟨fun _ => rfl, fun more => absurd ⟨Nat.le_refl _, Nat.dvd_zero _⟩ more⟩
    · have next : edges + 1 - (256 - t.count.toNat) = edges - (256 - t.count.toNat) + 1 := by omega
      rw [if_neg first, if_neg (by omega), next, Nat.succ_div]
      refine ⟨fun late => by rw [if_pos late.2], fun more => ?_⟩
      rw [if_neg fun round => more ⟨by omega, round⟩]

/-! The falling edges of the input. -/

theorem selection_cases (t : Timer) :
    t.selection = 9 ∨ t.selection = 3 ∨ t.selection = 5 ∨ t.selection = 7 := by
  unfold selection
  split <;> simp

theorem toNat_selectedBit (t : Timer) : t.selectedBit.toNat = 2 ^ t.selection := by
  unfold selectedBit selection
  split <;> simp_all

theorem input_iff (t : Timer) :
    t.input = true ↔ t.control &&& 0x04 ≠ 0 ∧ t.counter.toNat / 2 ^ t.selection % 2 = 1 := by
  have masked : (t.counter &&& t.selectedBit).toNat =
      (t.counter.toNat.testBit t.selection).toNat * 2 ^ t.selection := by
    rw [UInt16.toNat_and, toNat_selectedBit]
    exact Nat.and_two_pow _ _
  have bit : t.counter &&& t.selectedBit ≠ 0 ↔ t.counter.toNat / 2 ^ t.selection % 2 = 1 := by
    rw [Ne, ← UInt16.toNat_inj, masked, Nat.testBit_eq_decide_div_mod_eq]
    by_cases set : t.counter.toNat / 2 ^ t.selection % 2 = 1 <;> simp [set]
  unfold input
  rw [Bool.and_eq_true, bne_iff_ne, bne_iff_ne, bit]

theorem control_countEdge (before : Bool) (t : Timer) :
    (countEdge before t).control = t.control := by
  unfold countEdge increment
  repeat' split
  all_goals rfl

theorem control_countReload (t : Timer) : t.countReload.1.control = t.control := by
  unfold countReload
  repeat' split
  all_goals rfl

theorem reload_countReload (t : Timer) : t.countReload.1.reload = t.reload := by
  unfold countReload
  repeat' split
  all_goals rfl

theorem control_cycle (t : Timer) : t.cycle.1.control = t.control := by
  unfold cycle
  dsimp only
  rw [control_countEdge]
  exact control_countReload t

theorem falls_iff {t : Timer} (enabled : t.control &&& 0x04 ≠ 0) :
    t.Falls ↔ t.period ∣ t.counter.toNat + 1 := by
  have counter := t.counter.toNat_lt
  have next : t.cycle.1.counter.toNat = (t.counter.toNat + 1) % 65536 := by
    rw [counter_cycle, UInt16.toNat_add]
    rfl
  have same : t.cycle.1.selection = t.selection := by
    unfold selection
    rw [control_cycle]
  rw [Falls, ← Bool.not_eq_true, input_iff, input_iff, control_cycle, next, same, period]
  simp only [enabled, ne_eq, not_false_eq_true, true_and]
  obtain bit | bit | bit | bit := t.selection_cases <;> rw [bit] <;> omega

theorem period_ge (t : Timer) : 16 ≤ t.period := by
  unfold period
  obtain bit | bit | bit | bit := t.selection_cases <;> rw [bit] <;> decide

theorem period_dvd (t : Timer) : t.period ∣ 65536 := by
  unfold period
  obtain bit | bit | bit | bit := t.selection_cases <;> rw [bit] <;> decide

theorem edges_succ (t : Timer) (n : Nat) :
    t.edges (n + 1) = t.edges n + if t.period ∣ t.counter.toNat + n + 1 then 1 else 0 := by
  have passed : t.counter.toNat / t.period ≤ (t.counter.toNat + n) / t.period :=
    Nat.div_le_div_right (Nat.le_add_right _ _)
  unfold edges
  rw [← Nat.add_assoc, Nat.succ_div, Nat.sub_add_comm passed]

theorem edges_succ_of_dvd {t : Timer} {n : Nat} (edge : t.period ∣ t.counter.toNat + n + 1) :
    t.edges (n + 1) = t.edges n + 1 ∧ (t.counter.toNat + (n + 1)) % t.period = 0 ∧
      (t.counter.toNat + n) % t.period + 1 = t.period := by
  have period := t.period_ge
  refine ⟨?_, Nat.mod_eq_zero_of_dvd edge, (dvd_succ_iff (by omega)).mp edge⟩
  rw [edges_succ, if_pos edge]

theorem edges_succ_of_not_dvd {t : Timer} {n : Nat}
    (between : ¬t.period ∣ t.counter.toNat + n + 1) :
    t.edges (n + 1) = t.edges n ∧
      (t.counter.toNat + (n + 1)) % t.period = (t.counter.toNat + n) % t.period + 1 := by
  have period := t.period_ge
  have within : (t.counter.toNat + n) % t.period < t.period := Nat.mod_lt _ (by omega)
  have room := mt (dvd_succ_iff (show 0 < t.period by omega)).mpr between
  refine ⟨?_, succ_mod_of_lt (show (t.counter.toNat + n) % t.period + 1 < t.period by omega)⟩
  rw [edges_succ, if_neg between, Nat.add_zero]

theorem edges_between {t : Timer} {k d : Nat} (edge : t.period ∣ t.counter.toNat + k + 1)
    (recent : d < t.period) :
    t.edges (k + 1 + d) = t.edges k + 1 ∧ (t.counter.toNat + (k + 1 + d)) % t.period = d := by
  obtain ⟨passed, -, -⟩ := edges_succ_of_dvd edge
  obtain ⟨x, multiple⟩ := edge
  have place : t.counter.toNat + (k + 1 + d) = t.period * x + d := by omega
  have first : t.counter.toNat + (k + 1) = t.period * x := by omega
  have positive : 0 < t.period := by omega
  constructor
  · rw [← passed, edges, edges, place, first, Nat.mul_add_div positive, Nat.div_eq_of_lt recent,
      Nat.mul_div_cancel_left x positive]
    rfl
  · rw [place, Nat.mul_add_mod, Nat.mod_eq_of_lt recent]

theorem exists_edge {t : Timer} {n : Nat} (some : 0 < t.edges n) :
    ∃ k, n = k + 1 + (t.counter.toNat + n) % t.period ∧ t.period ∣ t.counter.toNat + k + 1 := by
  have positive : 0 < t.period := Nat.two_pow_pos _
  have parts := Nat.div_add_mod (t.counter.toNat + n) t.period
  have within : t.counter.toNat < t.period * ((t.counter.toNat + n) / t.period) :=
    calc t.counter.toNat
      _ < t.period * (t.counter.toNat / t.period + 1) := Nat.lt_mul_div_succ _ positive
      _ ≤ t.period * ((t.counter.toNat + n) / t.period) := by
        refine Nat.mul_le_mul_left _ ?_
        unfold edges at some
        omega
  refine ⟨n - (t.counter.toNat + n) % t.period - 1, by omega, (t.counter.toNat + n) / t.period, ?_⟩
  omega

/-! One cycle, by what it does to the count. -/

theorem input_congr {s t : Timer} (counter : s.counter = t.counter)
    (control : s.control = t.control) : s.input = t.input := by
  unfold input selectedBit
  rw [counter, control]

theorem cycle_eq (t : Timer) :
    t.cycle.1 =
      if t.Falls then { t.countReload.1 with counter := t.counter + 1 }.increment
      else { t.countReload.1 with counter := t.counter + 1 } := by
  -- The reload comes first in the cycle, and the line that is watched does not see it.
  have before : t.countReload.1.input = t.input :=
    input_congr (counter_countReload t) (control_countReload t)
  have next : t.cycle.1.input = { t.countReload.1 with counter := t.counter + 1 }.input :=
    input_congr (counter_cycle t) ((control_cycle t).trans (control_countReload t).symm)
  unfold Falls
  rw [next]
  unfold cycle countEdge
  dsimp only
  rw [before, counter_countReload]
  simp only [Bool.and_eq_true, Bool.not_eq_true']

theorem countReload_idle {t : Timer} (idle : t.reloadDelay = 0) : t.countReload = (t, false) := by
  unfold countReload
  rw [idle]
  rfl

theorem countReload_due {t : Timer} (due : t.reloadDelay = 1) :
    t.countReload = ({ t with count := t.reload, reloadDelay := 0 }, true) := by
  unfold countReload
  rw [due]
  rfl

theorem countReload_waiting {t : Timer} (waits : 2 ≤ t.reloadDelay.toNat) :
    t.countReload = ({ t with reloadDelay := t.reloadDelay - 1 }, false) := by
  have idle : t.reloadDelay ≠ 0 := fun zero => by simp [zero] at waits
  have due : t.reloadDelay ≠ 1 := fun one => by simp [one] at waits
  unfold countReload
  rw [if_neg (by simpa using idle), if_neg (by simpa using due)]

/-- A reload is pending after `n` cycles. The last edge has made the count overflow, and is less
than four cycles ago. -/
def Pending (t : Timer) (n : Nat) : Prop :=
  t.OverflowsAt (t.edges n) ∧ (t.counter.toNat + n) % t.period < 4

/-- Where `n` cycles take a timer. -/
structure Reached (t : Timer) (n : Nat) (s : Timer) : Prop where
  counter : s.counter.toNat = (t.counter.toNat + n) % 65536
  control : s.control = t.control
  reload : s.reload = t.reload
  pending : t.Pending n →
    s.count = 0 ∧ s.reloadDelay.toNat + (t.counter.toNat + n) % t.period = 4
  settled : ¬t.Pending n → s.count.toNat = t.expected (t.edges n) ∧ s.reloadDelay = 0

namespace Reached
variable {t s : Timer} {n : Nat}

theorem start (idle : t.reloadDelay = 0) : t.Reached 0 t := by
  have none : t.edges 0 = 0 := by
    unfold edges
    rw [Nat.add_zero, Nat.sub_self]
  have count := t.count.toNat_lt
  have before : ¬t.Pending 0 := by
    rintro ⟨overflows, -⟩
    have late := ((overflowsAt_iff t _).mp overflows).1
    omega
  refine ⟨(Nat.mod_eq_of_lt t.counter.toNat_lt).symm, rfl, rfl, fun pending => absurd pending before,
    fun _ => ⟨?_, idle⟩⟩
  unfold expected
  rw [none, if_pos (by omega), Nat.add_zero]

theorem falls_iff (h : t.Reached n s) (enabled : t.control &&& 0x04 ≠ 0) :
    s.Falls ↔ t.period ∣ t.counter.toNat + n + 1 := by
  have same : s.period = t.period := by
    unfold period selection
    rw [h.control]
  rw [Timer.falls_iff (h.control ▸ enabled), same, h.counter]
  have whole := (t.period_dvd).mul_right ((t.counter.toNat + n) / 65536)
  have parts := Nat.mod_add_div (t.counter.toNat + n) 65536
  rw [← Nat.dvd_add_left whole, Nat.add_right_comm, parts]

theorem fires_iff (h : t.Reached n s) :
    s.cycle.2 = true ↔ t.Pending n ∧ (t.counter.toNat + n) % t.period = 3 := by
  change s.countReload.2 = true ↔ _
  by_cases pending : t.Pending n
  · obtain ⟨-, delay⟩ := h.pending pending
    by_cases due : (t.counter.toNat + n) % t.period = 3
    · rw [countReload_due (UInt8.toNat_inj.mp (show s.reloadDelay.toNat = 1 by omega))]
      exact iff_of_true rfl ⟨pending, due⟩
    · have recent := pending.2
      rw [countReload_waiting (by omega)]
      exact iff_of_false Bool.false_ne_true fun both => due both.2
  · rw [countReload_idle (h.settled pending).2]
    exact iff_of_false Bool.false_ne_true fun both => pending both.1

theorem countReload (h : t.Reached n s) :
    (t.OverflowsAt (t.edges n) ∧ (t.counter.toNat + n) % t.period + 1 < 4 →
        s.countReload.1.count = 0 ∧
          s.countReload.1.reloadDelay.toNat + ((t.counter.toNat + n) % t.period + 1) = 4) ∧
      (¬(t.OverflowsAt (t.edges n) ∧ (t.counter.toNat + n) % t.period + 1 < 4) →
        s.countReload.1.count.toNat = t.expected (t.edges n) ∧
          s.countReload.1.reloadDelay = 0) := by
  by_cases pending : t.Pending n
  · obtain ⟨overflows, recent⟩ := pending
    obtain ⟨zero, delay⟩ := h.pending ⟨overflows, recent⟩
    by_cases due : (t.counter.toNat + n) % t.period = 3
    · rw [countReload_due (UInt8.toNat_inj.mp (show s.reloadDelay.toNat = 1 by omega))]
      refine ⟨fun waits => by omega, fun _ => ⟨?_, rfl⟩⟩
      rw [expected_of_overflowsAt overflows]
      exact congrArg UInt8.toNat h.reload
    · rw [countReload_waiting (by omega)]
      refine ⟨fun _ => ⟨zero, ?_⟩, fun past => absurd ⟨overflows, by omega⟩ past⟩
      change (s.reloadDelay - 1).toNat + _ = 4
      rw [UInt8.toNat_sub_of_le _ _ (show 1 ≤ s.reloadDelay.toNat by omega)]
      change s.reloadDelay.toNat - 1 + _ = 4
      omega
  · obtain ⟨count, idle⟩ := h.settled pending
    rw [countReload_idle idle]
    exact ⟨fun waits => absurd ⟨waits.1, by omega⟩ pending, fun _ => ⟨count, idle⟩⟩

theorem cycle (h : t.Reached n s) (enabled : t.control &&& 0x04 ≠ 0) :
    t.Reached (n + 1) s.cycle.1 := by
  have falls := h.falls_iff enabled
  have counter : s.cycle.1.counter.toNat = (t.counter.toNat + (n + 1)) % 65536 := by
    rw [counter_cycle, UInt16.toNat_add, h.counter]
    exact Nat.mod_add_mod _ _ _
  have control := (control_cycle s).trans h.control
  have reload := (reload_countReload s).trans h.reload
  obtain ⟨waiting, settled⟩ := h.countReload
  by_cases falling : s.Falls
  · obtain ⟨edges, phase, late⟩ := edges_succ_of_dvd (falls.mp falling)
    have period := t.period_ge
    obtain ⟨count, idle⟩ := settled fun waits => by omega
    obtain ⟨overflows, more⟩ := expected_succ t (t.edges n)
    have pending : t.Pending (n + 1) ↔ s.countReload.1.count = 0xFF := by
      rw [Pending, edges, phase, overflows, ← count, ← UInt8.toNat_inj]
      exact and_iff_left (by decide)
    rw [cycle_eq, if_pos falling] at counter control ⊢
    unfold increment at counter control ⊢
    by_cases full : s.countReload.1.count = 0xFF
    · rw [if_pos (by simpa using full)] at counter control ⊢
      exact ⟨counter, control, reload, fun _ => ⟨rfl, by rw [phase]; rfl⟩,
        fun past => absurd (pending.mpr full) past⟩
    · rw [if_neg (by simpa using full)] at counter control ⊢
      refine ⟨counter, control, reload, fun waits => absurd (pending.mp waits) full,
        fun _ => ⟨?_, idle⟩⟩
      have room : s.countReload.1.count.toNat ≠ 255 :=
        fun byte => full (UInt8.toNat_inj.mp byte)
      rw [edges, more (count ▸ room), ← count]
      change (s.countReload.1.count + 1).toNat = _
      rw [UInt8.toNat_add]
      have byte := s.countReload.1.count.toNat_lt
      exact Nat.mod_eq_of_lt (show _ + 1 < 256 by omega)
  · obtain ⟨edges, phase⟩ := edges_succ_of_not_dvd (mt falls.mpr falling)
    rw [cycle_eq, if_neg falling] at counter control ⊢
    refine ⟨counter, control, reload, ?_, ?_⟩
    all_goals
      unfold Pending
      rw [edges, phase]
    · exact waiting
    · exact settled

theorem overflows_iff (h : t.Reached n s) (enabled : t.control &&& 0x04 ≠ 0) :
    s.Overflows ↔ s.Falls ∧ t.OverflowsAt (t.edges n + 1) := by
  have falls := h.falls_iff enabled
  rw [(expected_succ t (t.edges n)).1]
  constructor
  · rintro ⟨full, zero⟩
    have settled : ¬t.Pending n := fun pending => by
      have empty := (h.pending pending).1
      rw [full] at empty
      cases empty
    obtain ⟨count, idle⟩ := h.settled settled
    refine ⟨?_, by rw [← count, full]; rfl⟩
    by_contra falling
    rw [cycle_eq, if_neg falling, countReload_idle idle] at zero
    cases full.symm.trans zero
  · rintro ⟨falling, last⟩
    have late := (edges_succ_of_dvd (falls.mp falling)).2.2
    have period := t.period_ge
    obtain ⟨count, idle⟩ := h.settled fun pending => by have recent := pending.2; omega
    have full : s.count = 0xFF := UInt8.toNat_inj.mp (count.trans last)
    refine ⟨full, ?_⟩
    rw [cycle_eq, if_pos falling, countReload_idle idle, increment, if_pos (by simpa using full)]

end Reached

section Course
variable {t : Timer} (enabled : t.control &&& 0x04 ≠ 0) (idle : t.reloadDelay = 0)

theorem after_succ (t : Timer) (n : Nat) : t.after (n + 1) = (t.after n).cycle.1 := by
  unfold after
  rw [tick_add]
  rfl

theorem requests_one (t : Timer) : (t.tick 1).2 = .when t.cycle.2 .timer := rfl

include enabled idle

theorem reached_after (n : Nat) : t.Reached n (t.after n) := by
  induction n with
  | zero => exact .start idle
  | succ n ih =>
    rw [after_succ]
    exact ih.cycle enabled

theorem falls_after (n : Nat) : (t.after n).Falls ↔ t.period ∣ t.counter.toNat + n + 1 :=
  (reached_after enabled idle n).falls_iff enabled

theorem overflows_after (n : Nat) :
    (t.after n).Overflows ↔ (t.after n).Falls ∧ t.OverflowsAt (t.edges n + 1) :=
  (reached_after enabled idle n).overflows_iff enabled

theorem count_falls (n : Nat) : Nat.count (fun k => (t.after k).Falls) n = t.edges n := by
  induction n with
  | zero => exact (Nat.sub_self _).symm
  | succ n ih =>
    rw [Nat.count_succ, ih, edges_succ]
    simp only [falls_after enabled idle]

/-- A pending reload goes back to an overflow. -/
theorem exists_overflow {n : Nat} (pending : t.Pending n) :
    ∃ k, n = k + 1 + (t.counter.toNat + n) % t.period ∧ (t.after k).Overflows := by
  obtain ⟨overflows, recent⟩ := pending
  have period := t.period_ge
  have late := ((overflowsAt_iff t _).mp overflows).1
  have count := t.count.toNat_lt
  obtain ⟨k, place, edge⟩ := exists_edge (show 0 < t.edges n by omega)
  obtain ⟨edges, -⟩ :=
    edges_between edge (show (t.counter.toNat + n) % t.period < t.period by omega)
  rw [← place] at edges
  exact ⟨k, place, (overflows_after enabled idle k).mpr
    ⟨(falls_after enabled idle k).mpr edge, edges ▸ overflows⟩⟩

theorem pending_of_overflows {k d : Nat} (overflows : (t.after k).Overflows) (recent : d < 4) :
    t.Pending (k + 1 + d) ∧ (t.counter.toNat + (k + 1 + d)) % t.period = d := by
  obtain ⟨falls, last⟩ := (overflows_after enabled idle k).mp overflows
  have period := t.period_ge
  obtain ⟨edges, phase⟩ := edges_between ((falls_after enabled idle k).mp falls)
    (show d < t.period by omega)
  exact ⟨⟨edges ▸ last, by omega⟩, phase⟩

theorem count_overflows (n : Nat) :
    Nat.count (fun k => (t.after k).Overflows) n = t.rounds (t.edges n) := by
  induction n with
  | zero =>
    have count := t.count.toNat_lt
    have none : t.edges 0 = 0 := Nat.sub_self _
    unfold rounds
    rw [none, if_pos (by omega)]
    rfl
  | succ n ih =>
    have falls := falls_after enabled idle n
    have overflows := overflows_after enabled idle n
    obtain ⟨round, same⟩ := rounds_succ t (t.edges n)
    rw [Nat.count_succ, ih]
    by_cases falling : (t.after n).Falls
    · rw [(edges_succ_of_dvd (falls.mp falling)).1]
      by_cases last : t.OverflowsAt (t.edges n + 1)
      · rw [if_pos (overflows.mpr ⟨falling, last⟩), round last]
      · rw [if_neg fun full => last (overflows.mp full).2, same last]
        rfl
    · rw [(edges_succ_of_not_dvd (mt falls.mpr falling)).1,
        if_neg fun full => falling (overflows.mp full).1]
      rfl

end Course

/-- How a timer counts while nobody writes to it: `b` is the selected bit. -/
structure Counts (t : Timer) (b : Nat) : Prop where
  /-- The falling edges in `n` cycles. -/
  edges : ∀ n, Nat.count (fun k => (t.after k).Falls) n =
    (t.counter.toNat + n) / 2 ^ (b + 1) - t.counter.toNat / 2 ^ (b + 1)
  /-- With `j` overflows behind it, the count overflows next at the edge whose number, from 1 on,
  is the rest of the first round and `j` rounds more. -/
  overflow : ∀ n j,
    (t.after n).Overflows ∧ Nat.count (fun k => (t.after k).Overflows) n = j ↔
      (t.after n).Falls ∧ Nat.count (fun k => (t.after k).Falls) n + 1 =
        256 - t.count.toNat + j * (256 - t.reload.toNat)
  /-- The interrupt is requested in the fourth cycle behind an overflow. -/
  requested : ∀ n, (t.after n).Overflows → ((t.after (n + 4)).tick 1).2 = {.timer}
  quiet : ∀ n, (∀ k, n = k + 4 → ¬(t.after k).Overflows) → ((t.after n).tick 1).2 = ∅
  /-- Until then the count is zero. -/
  empty : ∀ n k, k < n → n ≤ k + 4 → (t.after k).Overflows → (t.after n).count = 0
  count : ∀ n E, E = Nat.count (fun k => (t.after k).Falls) n →
    (∀ k, k < n → n ≤ k + 4 → ¬(t.after k).Overflows) →
      (t.after n).count.toNat =
        if E < 256 - t.count.toNat then t.count.toNat + E
        else t.reload.toNat + (E - (256 - t.count.toNat)) % (256 - t.reload.toNat)
  counter : ∀ n, (t.after n).counter.toNat = (t.counter.toNat + n) % 65536

/-- Arithmetic on the counter says where the timer is. -/
theorem counts_edges (t : Timer) {b : Nat} (selected : t.selectedBit.toNat = 2 ^ b)
    (enabled : t.control &&& 0x04 ≠ 0) (idle : t.reloadDelay = 0) : t.Counts b := by
  have bit : t.selection = b :=
    Nat.pow_right_injective (Nat.le_refl 2) ((toNat_selectedBit t).symm.trans selected)
  subst bit
  have reached := reached_after enabled idle
  have falls := count_falls enabled idle
  constructor
  case edges => exact falls
  case overflow =>
    intro n j
    rw [overflows_after enabled idle, count_overflows enabled idle, falls, and_assoc]
    refine and_congr_right fun _ => ⟨?_, fun edge => ⟨⟨j, edge⟩, rounds_of_overflowsAt edge⟩⟩
    rintro ⟨⟨j', edge⟩, rfl⟩
    rw [rounds_of_overflowsAt edge, edge]
  case requested =>
    intro n overflows
    have due := pending_of_overflows enabled idle overflows (show 3 < 4 by decide)
    rw [requests_one, (reached (n + 4)).fires_iff.mpr due]
    rfl
  case quiet =>
    intro n quiet
    have waits : (t.after n).cycle.2 = false := by
      rw [← Bool.not_eq_true, (reached n).fires_iff]
      rintro ⟨pending, phase⟩
      obtain ⟨k, place, overflows⟩ := exists_overflow enabled idle pending
      exact quiet k (by omega) overflows
    rw [requests_one, waits]
    rfl
  case empty =>
    intro n k after within overflows
    obtain ⟨pending, -⟩ :=
      pending_of_overflows enabled idle overflows (show n - (k + 1) < 4 by omega)
    rw [Nat.add_sub_of_le after] at pending
    exact ((reached n).pending pending).1
  case count =>
    rintro n _ rfl quiet
    rw [falls]
    refine ((reached n).settled fun pending => ?_).1
    obtain ⟨k, place, overflows⟩ := exists_overflow enabled idle pending
    have recent := pending.2
    exact quiet k (by omega) (by omega) overflows
  case counter => exact fun n => (reached n).counter

/-- Bit 3 is selected and falls in eight cycles; the count is full, and counts again from FE. -/
def brink : Timer := ⟨0xFFF8, 0xFF, 0xFE, 0x05, 0⟩

/-- It overflows at the first edge and, two further on, at the third. -/
theorem counts_edges_brink :
    (brink.after 39).Overflows ∧ (brink.after 43).count = 0 ∧
      ((brink.after 43).tick 1).2 = {.timer} := by
  have counts := counts_edges brink (b := 3) rfl (by decide) rfl
  have falls : (brink.after 39).Falls := by decide
  have third : Nat.count (fun k => (brink.after k).Falls) 39 + 1 = 256 - 0xFF + 1 * (256 - 0xFE) :=
    congrArg (· + 1) (counts.edges 39)
  have again := ((counts.overflow 39 1).mpr ⟨falls, third⟩).1
  exact ⟨again, counts.empty 43 39 (by decide) (by decide) again, counts.requested 39 again⟩

end Timer
end DotMatrix
