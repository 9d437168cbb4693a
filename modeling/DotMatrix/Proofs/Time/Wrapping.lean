import DotMatrix.Proofs.Time.Board
import DotMatrix.Proofs.Time.Cost

/-! A machine whose counter of cycles starts over where the real one runs over. The counter
decides nothing else, so that the two go the same way for as long as the counter has room. -/
namespace DotMatrix
namespace LiveBoard

def pass (n : Nat) (live : LiveBoard) : LiveBoard :=
  live.elapse n (live.board.cycles + UInt64.ofNat n)

theorem tick_eq_if (n : Nat) (live : LiveBoard) :
    live.tick n =
      if live.board.cycles.toNat + n < UInt64.size then .ok (live.pass n)
      else .error .cycleCounter := by
  rw [tick_eq_elapse]
  unfold countUp pass
  split <;> rfl

theorem cycles_pass (n : Nat) (live : LiveBoard) :
    (live.pass n).board.cycles = live.board.cycles + UInt64.ofNat n :=
  rfl

theorem cycles_takeStall (live : LiveBoard) :
    live.takeStall.2.board.cycles = live.board.cycles :=
  rfl

end LiveBoard

namespace Wired

def pass (machine : Wired LiveBoard) : Nat × Wired LiveBoard :=
  let (cycles, { cpu, bus }) := machine.step
  let (stall, bus) := (bus.pass cycles).takeStall
  (cycles + stall, { cpu, bus := bus.pass stall })

def passSteps : (steps elapsed : Nat) → Wired LiveBoard → Nat × Wired LiveBoard
  | 0, elapsed, machine => (elapsed, machine)
  | steps + 1, elapsed, machine =>
    let (cycles, machine) := machine.pass
    if machine.frameEnds (elapsed + cycles) then (elapsed + cycles, machine)
    else passSteps steps (elapsed + cycles) machine

def afterStep (machine : Wired LiveBoard) : LiveBoard := machine.step.2.bus.pass machine.step.1

theorem pass_eq (machine : Wired LiveBoard) :
    machine.pass = (machine.step.1 + machine.afterStep.takeStall.1,
      ⟨machine.step.2.cpu, machine.afterStep.takeStall.2.pass machine.afterStep.takeStall.1⟩) :=
  rfl

theorem cycles_afterStep (machine : Wired LiveBoard) :
    machine.afterStep.board.cycles = machine.bus.board.cycles + UInt64.ofNat machine.step.1 := by
  rw [afterStep, LiveBoard.cycles_pass, cycles_step]

theorem cycles_pass (machine : Wired LiveBoard) :
    machine.pass.2.bus.board.cycles = machine.bus.board.cycles + UInt64.ofNat machine.pass.1 := by
  simp only [pass_eq]
  rw [LiveBoard.cycles_pass, LiveBoard.cycles_takeStall, cycles_afterStep, UInt64.ofNat_add,
    UInt64.add_assoc]

theorem advance_eq_if (machine : Wired LiveBoard) :
    machine.advance =
      if machine.bus.board.cycles.toNat + machine.pass.1 < UInt64.size then .ok machine.pass
      else .error .cycleCounter := by
  have passed := machine.pass_eq
  unfold advance
  dsimp only
  rw [LiveBoard.tick_eq_if, cycles_step]
  by_cases first : machine.bus.board.cycles.toNat + machine.step.1 < UInt64.size
  · rw [if_pos first]
    dsimp only
    rw [← afterStep, LiveBoard.tick_eq_if, LiveBoard.cycles_takeStall, cycles_afterStep,
      toNat_add_ofNat first, Nat.add_assoc, passed]
    dsimp only
    by_cases second : machine.bus.board.cycles.toNat +
        (machine.step.1 + machine.afterStep.takeStall.1) < UInt64.size
    · rw [if_pos second, if_pos second]
    · rw [if_neg second, if_neg second]
  · have full : ¬machine.bus.board.cycles.toNat + machine.pass.1 < UInt64.size := by
      rw [passed]
      dsimp only
      omega
    rw [if_neg first, if_neg full]

theorem le_passSteps (steps elapsed : Nat) (machine : Wired LiveBoard) :
    elapsed ≤ (machine.passSteps steps elapsed).1 := by
  induction steps generalizing elapsed machine with
  | zero => exact Nat.le_refl elapsed
  | succ steps ih =>
    unfold passSteps
    dsimp only
    split
    · exact Nat.le_add_right _ _
    · exact Nat.le_trans (Nat.le_add_right _ _) (ih _ _)

theorem lt_passSteps (steps elapsed : Nat) (machine : Wired LiveBoard) :
    elapsed < (machine.passSteps (steps + 1) elapsed).1 := by
  have cost := machine.cost_step.1
  have time : machine.step.1 ≤ machine.pass.1 := Nat.le_add_right _ _
  unfold passSteps
  dsimp only
  split
  · dsimp only
    omega
  · have rest := le_passSteps steps (elapsed + machine.pass.1) machine.pass.2
    omega

theorem cycles_passSteps_le (steps elapsed : Nat) (machine : Wired LiveBoard) :
    (machine.passSteps steps elapsed).2.bus.board.cycles.toNat + elapsed ≤
      machine.bus.board.cycles.toNat + (machine.passSteps steps elapsed).1 := by
  induction steps generalizing elapsed machine with
  | zero => exact Nat.le_refl _
  | succ steps ih =>
    have passed := toNat_add_ofNat_le machine.bus.board.cycles machine.pass.1
    rw [← cycles_pass] at passed
    unfold passSteps
    dsimp only
    split
    · dsimp only
      omega
    · have rest := ih (elapsed + machine.pass.1) machine.pass.2
      omega

/-- The steps up to the end of a frame go through exactly if the counter has room for all of
their time. -/
theorem runSteps_eq_if (steps elapsed : Nat) (machine : Wired LiveBoard) :
    machine.runSteps steps elapsed =
      if machine.bus.board.cycles.toNat + (machine.passSteps steps elapsed).1 <
          UInt64.size + elapsed then
        .ok (machine.passSteps steps elapsed).2
      else .error .cycleCounter := by
  induction steps generalizing elapsed machine with
  | zero =>
    have small : machine.bus.board.cycles.toNat < UInt64.size := UInt64.toNat_lt _
    unfold runSteps passSteps
    exact (if_pos (by omega)).symm
  | succ steps ih =>
    unfold runSteps passSteps
    rw [advance_eq_if]
    dsimp only
    by_cases room : machine.bus.board.cycles.toNat + machine.pass.1 < UInt64.size
    · rw [if_pos room]
      dsimp only
      split
      · rw [if_pos (by omega)]
      · rw [ih, cycles_pass, toNat_add_ofNat room]
        congr 1
        rw [eq_iff_iff]
        omega
    · rw [if_neg room]
      dsimp only
      split
      · rw [if_neg (by omega)]
      · have further := le_passSteps steps (elapsed + machine.pass.1) machine.pass.2
        rw [if_neg (by omega)]

end Wired
end DotMatrix
