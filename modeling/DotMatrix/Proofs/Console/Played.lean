import DotMatrix.Proofs.Board.Sources
import DotMatrix.Proofs.Console.History
import DotMatrix.Proofs.Console.SaveLoad
import DotMatrix.Proofs.Cpu.Control

/-! What a machine can come to in a session that takes up no snapshots but its own. The control
state of its processor is in order then, and of the requests it keeps only those that name a
source. -/
namespace DotMatrix

namespace Wired

/-- The machines of a session: they are switched on, run and are used by a host, take another
cartridge state, and go back to what a machine of the session was. -/
inductive Played : Wired LiveBoard → Prop
  | powerOn (cartridge : Cartridge) (bus : LiveBoard)
      (fresh : bus.board = .powerOn cartridge bus.settings) : Played ⟨.postBoot, bus⟩
  | turn (m next : Wired LiveBoard) (turn : Turn) (before : Played m)
      (goes : m.turn turn = .ok next) : Played next
  | event (m : Wired LiveBoard) (bus : LiveBoard) (event : Event) (before : Played m)
      (happens : m.bus.undergo event = .ok bus) : Played (m.withBus bus)
  | insert (m : Wired LiveBoard) (cartridge : Cartridge) (before : Played m) :
      Played (m.withBus (m.bus.update ({ · with cartridge })))
  | resume (m saved : Wired LiveBoard) (before : Played m) (kept : Played saved) :
      Played { cpu := saved.cpu, bus := { m.bus with board := saved.bus.board, samples := #[] } }

namespace Played
variable {m next : Wired LiveBoard}

theorem turns (h : m.Played) {turns : List Turn} (runs : turns.foldlM Wired.turn m = .ok next) :
    next.Played :=
  Except.foldlM_keeps (fun turn _ _ _ before goes => before.turn _ _ turn goes) h runs

theorem orderly (h : m.Played) : m.cpu.Orderly := by
  induction h with
  | powerOn => exact .postBoot
  | turn m next turn before goes ih =>
    cases turn with
    | step =>
      cases goes
      exact m.orderly_step ih
    | tick | stall =>
      obtain ⟨bus, -, rfl⟩ := Except.map_eq_ok.mp goes
      exact ih
  | event m bus event before happens ih => exact ih
  | insert m cartridge before ih => exact ih
  | resume m saved before kept ih ih' => exact ih'

theorem named (h : m.Played) : m.bus.board.requested.Named := by
  induction h with
  | powerOn cartridge bus fresh =>
    change bus.board.requested.Named
    rw [fresh]
    exact .singleton .verticalBlank
  | turn m next turn before goes ih => exact LiveBoard.named_replay ih (replay_turnEvents goes)
  | event m bus event before happens ih => exact LiveBoard.named_undergo ih happens
  | insert m cartridge before ih => exact ih
  | resume m saved before kept ih ih' => exact ih'

end Played
end Wired

namespace Console
variable {c next saved : Console}

/-- What a host does with a console, short of a snapshot, stays within the session. -/
theorem played_step (h : c.machine.Played) (goes : c.Step next) :
    next.machine.Played ∨ ∃ bytes, c.load bytes = .ok next := by
  cases goes with
  | frame held output next runs =>
    obtain ⟨machine, ran, -, ended⟩ := runFrame_turns runs
    have held := h.event _ _ (.hold held) rfl
    have begun := (held.event _ _ .takeFrame rfl).turns ran
    have taken := begun.event _ _ .takeSamples rfl
    have returned := taken.event _ _ .takeRaised rfl
    rw [ended]
    exact .inl returned
  | press button held => exact .inl (h.event _ _ (.hold (c.held.set button held)) rfl)
  | takeSamples => exact .inl (h.event _ _ .takeSamples rfl)
  | write address value => exact .inl (h.event _ _ (.access (.write address value)) rfl)
  | tick cycles bus passes => exact .inl (h.event _ _ (.tick cycles) passes)
  | loadBattery data next accepted =>
    unfold Console.loadBattery at accepted
    split at accepted
    · cases accepted
    · cases accepted
      exact .inl (h.insert _ _)
  | reset => exact .inl (.powerOn _ _ rfl)
  | load bytes next accepted => exact .inr ⟨bytes, accepted⟩

/-- Its own snapshots do not leave it either. -/
theorem played_load {image : Image} {settings : Settings} (h : c.machine.Played)
    (h' : saved.machine.Played) (inRange : c.InRange image settings)
    (inRange' : saved.InRange image settings) (loads : c.load saved.save = .ok next) :
    next.machine.Played := by
  rw [load_save inRange' inRange] at loads
  cases loads
  exact h.resume _ _ h'

end Console
end DotMatrix
