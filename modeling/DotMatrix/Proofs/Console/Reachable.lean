import DotMatrix.Proofs.Range.Board
import DotMatrix.Snapshot.Basic

/-! What a host can bring a console to. Every state that it can reach from power-on, by frames
and buttons, by accesses and time of its own, by resets and snapshots, is in range. -/
namespace DotMatrix
namespace Console

/-- One call of the host that changes the console. -/
inductive Step (c : Console) : Console → Prop
  | frame (held : ButtonSet) (output : FrameOutput) (next : Console)
      (runs : c.runFrame held = .ok (output, next)) : Step c next
  | press (button : Button) (held : Bool) : Step c (c.press button held)
  | takeSamples : Step c c.takeSamples.2
  | write (address : UInt16) (value : UInt8) :
      Step c { c with machine := { c.machine with bus := c.machine.bus.write address value } }
  | tick (cycles : Nat) (bus : LiveBoard) (passes : c.machine.bus.tick cycles = .ok bus) :
      Step c { c with machine := { c.machine with bus } }
  | loadBattery (data : Array UInt8) (next : Console) (accepted : c.loadBattery data = .ok next) :
      Step c next
  | reset : Step c c.reset
  | load (bytes : List UInt8) (next : Console) (accepted : c.load bytes = .ok next) : Step c next

/-- The consoles that a host can bring about with an image and settings. -/
inductive Reachable (image : Image) (settings : Settings) : Console → Prop
  | powerOn (c : Console) (on : Console.powerOn image settings = .ok c) :
      Reachable image settings c
  | step (c next : Console) (before : Reachable image settings c) (goes : Step c next) :
      Reachable image settings next

/-- The image is one with this header, and the board is in range. -/
structure InRange (image : Image) (settings : Settings) (c : Console) : Prop where
  header : Header.parse image = .ok c.header
  bus : c.machine.bus.InRange image settings c.header

def beginFrame (held : ButtonSet) (c : Console) : Console :=
  c.updateBoard fun b => updateVideo ({ · with frameReady := false }) (b.hold held)

def endFrame (machine : Wired LiveBoard) : Wired LiveBoard :=
  { machine with
    bus := { machine.bus with
      board := { machine.bus.board with raised := ∅ }
      samples := #[] } }

theorem runFrame_eq (held : ButtonSet) (c : Console) :
    c.runFrame held =
      match (c.beginFrame held).machine.runSteps c.machine.bus.settings.maxSteps 0 with
      | .error fault => .error fault
      | .ok machine =>
        match countUp .frameCounter c.frames 1 with
        | .error fault => .error fault
        | .ok frames =>
          .ok (⟨machine.bus.samples, machine.bus.board.raised⟩,
            ⟨c.header, endFrame machine, frames⟩) := by
  unfold runFrame
  change (_ : Except Fault _) >>= _ = _
  change Except.bind ((c.beginFrame held).machine.runSteps c.machine.bus.settings.maxSteps 0) _ = _
  cases (c.beginFrame held).machine.runSteps c.machine.bus.settings.maxSteps 0 with
  | error fault => rfl
  | ok machine =>
    change Except.bind (countUp .frameCounter c.frames 1) _ = _
    cases countUp .frameCounter c.frames 1 with
    | error fault => rfl
    | ok frames => rfl

theorem load_eq_ok {bytes : List UInt8} {c next : Console} :
    c.load bytes = .ok next ↔ ∃ body snapshot board,
      Snapshot.body c.header c.machine.bus.image bytes = .ok body ∧
        Snapshot.decode bytes.length body = .ok snapshot ∧
        snapshot.board.toBoard c.machine.bus.board = .ok board ∧
        next = ⟨c.header, ⟨snapshot.cpu, { c.machine.bus with board, samples := #[] }⟩,
          snapshot.frames⟩ := by
  unfold Console.load
  simp only [Except.bind_eq_ok, Except.mapError_eq_ok]
  constructor
  · rintro ⟨body, accepted, snapshot, decoded, board, taken, result⟩
    cases result
    exact ⟨body, snapshot, board, accepted, decoded, taken, rfl⟩
  · rintro ⟨body, snapshot, board, accepted, decoded, taken, rfl⟩
    exact ⟨body, accepted, snapshot, decoded, board, taken, rfl⟩

def started (image : Image) (settings : Settings) (header : Header) : Console :=
  { header
    machine :=
      { cpu := .postBoot
        bus :=
          { image, settings, board := .powerOn (.powerOn header) settings, samples := #[],
            sent := #[] } }
    frames := 0 }

theorem powerOn_eq_ok {image : Image} {settings : Settings} {c : Console} :
    Console.powerOn image settings = .ok c ↔
      ∃ header, Header.parse image = .ok header ∧ started image settings header = c := by
  unfold Console.powerOn
  rw [Except.bind_eq_ok]
  apply exists_congr
  intro header
  apply and_congr_right
  intro _
  exact ⟨Except.ok.inj, congrArg Except.ok⟩

theorem powerOn_started {image : Image} {header : Header}
    (accepted : Header.parse image = .ok header) (settings : Settings) :
    Console.powerOn image settings = .ok (started image settings header) :=
  powerOn_eq_ok.mpr ⟨header, accepted, rfl⟩

namespace InRange
variable {image : Image} {settings : Settings} {c next : Console}

theorem powerOn (on : Console.powerOn image settings = .ok c) : c.InRange image settings := by
  obtain ⟨header, parsed, rfl⟩ := powerOn_eq_ok.mp on
  exact ⟨parsed, rfl, rfl, .powerOn (Cartridge.fits_powerOn header) settings⟩

theorem updateBoard (h : c.InRange image settings) {change : Board → Board}
    (keeps : (change c.machine.bus.board).InRange c.header) :
    (c.updateBoard change).InRange image settings :=
  ⟨h.header, h.bus.update keeps⟩

theorem beginFrame (h : c.InRange image settings) (held : ButtonSet) :
    (c.beginFrame held).InRange image settings := by
  obtain ⟨stall, cartridge, raster, sound⟩ := h.bus.board.hold held
  exact h.updateBoard ⟨stall, cartridge, raster, sound⟩

theorem endFrame (h : c.InRange image settings) (frames : UInt64) {machine : Wired LiveBoard}
    (ran : machine.bus.InRange image settings c.header) :
    InRange image settings ⟨c.header, Console.endFrame machine, frames⟩ :=
  ⟨h.header, ran.image, ran.settings, ran.board.stall, ran.board.cartridge, ran.board.raster,
    ran.board.sound⟩

theorem runFrame (h : c.InRange image settings) {held : ButtonSet} {output : FrameOutput}
    (runs : c.runFrame held = .ok (output, next)) : next.InRange image settings := by
  rw [runFrame_eq] at runs
  split at runs
  · cases runs
  · rename_i machine ran
    split at runs
    · cases runs
    · cases runs
      exact h.endFrame _ (Wired.inRange_runSteps _ _ _ _ (h.beginFrame held).bus ran)

theorem reset (h : c.InRange image settings) : c.reset.InRange image settings := by
  refine ⟨h.header, h.bus.image, h.bus.settings, ?_⟩
  exact .powerOn (.reset c.header c.machine.bus.board.cartridge) c.machine.bus.settings

theorem loadBattery (h : c.InRange image settings) {data : Array UInt8}
    (accepted : c.loadBattery data = .ok next) : next.InRange image settings := by
  unfold Console.loadBattery at accepted
  split at accepted
  · cases accepted
  · rename_i cartridge loaded
    cases accepted
    obtain ⟨stall, fits, raster, sound⟩ := h.bus.board
    exact h.updateBoard ⟨stall, fits.loadBattery loaded, raster, sound⟩

theorem load (h : c.InRange image settings) {bytes : List UInt8}
    (accepted : c.load bytes = .ok next) : next.InRange image settings := by
  obtain ⟨body, snapshot, board, _, _, taken, rfl⟩ := load_eq_ok.mp accepted
  exact ⟨h.header, h.bus.image, h.bus.settings, Board.inRange_of_toBoard h.bus.board taken⟩

theorem step (h : c.InRange image settings) (goes : c.Step next) : next.InRange image settings := by
  cases goes with
  | frame held output next runs => exact h.runFrame runs
  | press button held => exact h.updateBoard (h.bus.board.press button held)
  | takeSamples => exact ⟨h.header, h.bus.image, h.bus.settings, h.bus.board⟩
  | write address value => exact ⟨h.header, h.bus.write address value⟩
  | tick cycles bus passes => exact ⟨h.header, h.bus.tick passes⟩
  | loadBattery data next accepted => exact h.loadBattery accepted
  | reset => exact h.reset
  | load bytes next accepted => exact h.load accepted

end InRange

theorem Reachable.inRange {image : Image} {settings : Settings} {c : Console}
    (reached : c.Reachable image settings) : c.InRange image settings := by
  induction reached with
  | powerOn c on => exact .powerOn on
  | step c next before goes ih => exact ih.step goes

end Console
end DotMatrix
