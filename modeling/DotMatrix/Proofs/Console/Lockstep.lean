import DotMatrix.Proofs.Console.Reachable

/-! Two machines in lockstep. If programs cannot tell two boards apart, and time leaves them so,
then the machines go the same way to the end of a frame, whatever else their boards differ in. -/
namespace DotMatrix

/-- Both give related values, or both fail alike. -/
inductive SameOutcome {ε α β : Type} (rel : α → β → Prop) : Except ε α → Except ε β → Prop
  | ok (a : α) (b : β) (related : rel a b) : SameOutcome rel (.ok a) (.ok b)
  | error (e : ε) : SameOutcome rel (.error e) (.error e)

namespace SameOutcome
variable {ε α α' β β' : Type} {rel : α → β → Prop} {rel' : α' → β' → Prop} {x : Except ε α}
  {y : Except ε β}

theorem bind {f : α → Except ε α'} {g : β → Except ε β'} (first : SameOutcome rel x y)
    (rest : ∀ a b, rel a b → SameOutcome rel' (f a) (g b)) :
    SameOutcome rel' (x >>= f) (y >>= g) := by
  cases first with
  | ok a b related => exact rest a b related
  | error e => exact .error e

theorem map {f : α → α'} {g : β → β'} (same : SameOutcome rel x y)
    (maps : ∀ a b, rel a b → rel' (f a) (g b)) : SameOutcome rel' (x.map f) (y.map g) := by
  cases same with
  | ok a b related => exact .ok _ _ (maps a b related)
  | error e => exact .error e

theorem mono {weaker : α → β → Prop} (same : SameOutcome rel x y)
    (weakens : ∀ a b, rel a b → weaker a b) : SameOutcome weaker x y := by
  cases same with
  | ok a b related => exact .ok a b (weakens a b related)
  | error e => exact .error e

end SameOutcome

/-- A relation between boards that neither a program nor time nor the end of a frame breaks. -/
structure LiveBoard.Lockstep (rel : LiveBoard → LiveBoard → Prop) : Prop where
  simulation : Bus.Simulation rel
  tick : ∀ n live live', rel live live' → SameOutcome rel (live.tick n) (live'.tick n)
  takeStall : ∀ live live', rel live live' →
    live.takeStall.1 = live'.takeStall.1 ∧ rel live.takeStall.2 live'.takeStall.2
  frameReady : ∀ live live', rel live live' →
    live.board.video.frameReady = live'.board.video.frameReady
  registers : ∀ live live', rel live live' →
    live.board.video.raster.registers = live'.board.video.raster.registers

namespace Wired
open Execution (Wiring)
variable {rel : LiveBoard → LiveBoard → Prop} {m m' : Wired LiveBoard}

theorem frameEnds_lockstep (lockstep : LiveBoard.Lockstep rel) (h : Wiring rel m m')
    (elapsed : Nat) : m.frameEnds elapsed = m'.frameEnds elapsed := by
  unfold frameEnds
  dsimp only
  rw [lockstep.frameReady _ _ h.2, lockstep.registers _ _ h.2]

theorem advance_lockstep (lockstep : LiveBoard.Lockstep rel) (h : Wiring rel m m') :
    SameOutcome (fun a b => a.1 = b.1 ∧ Wiring rel a.2 b.2) m.advance m'.advance := by
  obtain ⟨cycles, cpu, bus⟩ := step_simulation lockstep.simulation h.1 h.2
  unfold advance
  dsimp only
  rw [cycles]
  have ticked := lockstep.tick m'.step.1 _ _ bus
  revert ticked
  generalize m.step.2.bus.tick m'.step.1 = first
  generalize m'.step.2.bus.tick m'.step.1 = second
  rintro (⟨a, b, passed⟩ | fault)
  · obtain ⟨stall, taken⟩ := lockstep.takeStall _ _ passed
    dsimp only
    rw [stall]
    have waited := lockstep.tick b.takeStall.1 _ _ taken
    revert waited
    generalize a.takeStall.2.tick b.takeStall.1 = first
    generalize b.takeStall.2.tick b.takeStall.1 = second
    rintro (⟨a, b, passed⟩ | fault)
    · exact .ok _ _ ⟨rfl, cpu, passed⟩
    · exact .error fault
  · exact .error fault

theorem runSteps_lockstep (lockstep : LiveBoard.Lockstep rel) (steps elapsed : Nat)
    (h : Wiring rel m m') :
    SameOutcome (Wiring rel) (m.runSteps steps elapsed) (m'.runSteps steps elapsed) := by
  induction steps generalizing elapsed m m' with
  | zero => exact .ok _ _ h
  | succ steps ih =>
    unfold runSteps
    have advanced := advance_lockstep lockstep h
    revert advanced
    generalize m.advance = first
    generalize m'.advance = second
    rintro (⟨⟨cycles, a⟩, ⟨_, b⟩, rfl, passed⟩ | fault)
    · dsimp only
      rw [frameEnds_lockstep lockstep passed]
      split
      · exact .ok _ _ passed
      · exact ih _ passed
    · exact .error fault

end Wired
end DotMatrix
