import DotMatrix.Proofs.Console.Lockstep
import DotMatrix.Proofs.Console.SaveLoad

/-! What a snapshot leaves out cannot be noticed. Two machines that differ in the sound nobody
has taken yet and in what the serial link has sent do the same from then on, whatever the host
asks of them. -/
namespace DotMatrix

namespace LiveBoard

/-- The same board; `ahead` has the samples of `live` behind `pending`. -/
structure Ahead (pending : Array Single) (ahead live : LiveBoard) : Prop where
  image : ahead.image = live.image
  settings : ahead.settings = live.settings
  board : ahead.board = live.board
  samples : ahead.samples = pending ++ live.samples

variable {pending : Array Single} {ahead live : LiveBoard}

theorem Ahead.read (h : Ahead pending ahead live) (address : UInt16) :
    ahead.read address = live.read address := by
  obtain ⟨image, settings, board, samples, sent⟩ := ahead
  obtain ⟨image', settings', board', samples', sent'⟩ := live
  obtain ⟨rfl, rfl, rfl, _⟩ := h
  rfl

theorem Ahead.update (h : Ahead pending ahead live) (change : Board → Board) :
    Ahead pending (ahead.update change) (live.update change) :=
  ⟨h.image, h.settings, congrArg change h.board, h.samples⟩

theorem Ahead.transfer (h : Ahead pending ahead live) (page : UInt8) :
    Ahead pending (ahead.transfer page) (live.transfer page) := by
  obtain ⟨image, settings, board, samples, sent⟩ := ahead
  obtain ⟨image', settings', board', samples', sent'⟩ := live
  obtain ⟨rfl, rfl, rfl, samples⟩ := h
  exact ⟨rfl, rfl, rfl, samples⟩

theorem Ahead.write (h : Ahead pending ahead live) (address : UInt16) (value : UInt8) :
    Ahead pending (ahead.write address value) (live.write address value) := by
  have vram : ahead.vramOpen = live.vramOpen := by
    rw [vramOpen, vramOpen, h.settings, h.board]
  have oam : ahead.oamOpen = live.oamOpen := by
    rw [oamOpen, oamOpen, h.settings, h.board]
  unfold LiveBoard.write
  cases Region.ofAddress address with
  | vram offset =>
    dsimp only
    rw [vram]
    split
    · exact h.update _
    · exact h
  | oam offset =>
    dsimp only
    rw [oam]
    split
    · exact h.update _
    · exact h
  | oamTransfer => exact h.transfer value
  | serialControl =>
    have board := congrArg (fun b => { b with serial := b.serial.writeControl value }) h.board
    exact ⟨h.image, h.settings, board, h.samples⟩
  | video =>
    dsimp only [writeVideo]
    rw [h.settings]
    exact h.update _
  | unmapped => exact h
  | rom | cartridgeRam | wram | joypad | serialData | timer | interruptRequest | sound | hram
  | interruptEnable => exact h.update _

theorem Ahead.tick (h : Ahead pending ahead live) (n : Nat) :
    SameOutcome (Ahead pending) (ahead.tick n) (live.tick n) := by
  obtain ⟨image, settings, board, samples, sent⟩ := ahead
  obtain ⟨image', settings', board', samples', sent'⟩ := live
  obtain ⟨rfl, rfl, rfl, behind⟩ := h
  dsimp only at behind
  subst behind
  unfold LiveBoard.tick
  dsimp only
  cases countUp .cycleCounter board.cycles n with
  | error fault => exact .error fault
  | ok cycles =>
    rw [Sound.tick_append]
    exact .ok _ _ ⟨rfl, rfl, rfl, rfl⟩

theorem Ahead.takeStall (h : Ahead pending ahead live) :
    ahead.takeStall.1 = live.takeStall.1 ∧ Ahead pending ahead.takeStall.2 live.takeStall.2 :=
  ⟨congrArg (fun b => b.takeStall.1) h.board, h.image, h.settings,
    congrArg (fun b => b.takeStall.2) h.board, h.samples⟩

theorem ahead_lockstep (pending : Array Single) : Lockstep (Ahead pending) where
  simulation :=
    { read := fun address _ _ h => ⟨h.read address, h⟩
      write := fun address value _ _ h => h.write address value }
  tick n _ _ h := h.tick n
  takeStall _ _ h := h.takeStall
  frameReady _ _ h := congrArg (·.video.frameReady) h.board
  registers _ _ h := congrArg (·.video.raster.registers) h.board

end LiveBoard

namespace Wired

/-- The same processor, on boards one of which is ahead. -/
structure Ahead (pending : Array Single) (ahead machine : Wired LiveBoard) : Prop where
  cpu : ahead.cpu = machine.cpu
  bus : LiveBoard.Ahead pending ahead.bus machine.bus

variable {pending : Array Single} {ahead machine : Wired LiveBoard}

theorem Ahead.runSteps (steps elapsed : Nat) (h : Ahead pending ahead machine) :
    SameOutcome (Ahead pending) (ahead.runSteps steps elapsed) (machine.runSteps steps elapsed) :=
  (runSteps_lockstep (LiveBoard.ahead_lockstep pending) steps elapsed ⟨h.cpu, h.bus⟩).mono
    fun _ _ ⟨cpu, bus⟩ => ⟨cpu, bus⟩

end Wired
namespace Console

/-- What a host asks of a console. -/
inductive Call where
  | runFrame (held : ButtonSet)
  | press (button : Button) (held : Bool)
  | read (address : UInt16)
  | processor
  | battery
  | save

inductive Answer where
  | frame (pixels : Frame) (samples : Array Single) (interrupts : InterruptSet)
  | done
  | byte (value : UInt8)
  | processor (cpu : Cpu)
  | battery (ram : Option (Array UInt8))
  | snapshot (bytes : List UInt8)
  | fault (fault : Fault)

def answer (c : Console) : Call → Except Fault (Answer × Console)
  | .runFrame held =>
    match c.runFrame held with
    | .error fault => .error fault
    | .ok (output, next) => .ok (.frame next.pixels output.samples output.interrupts, next)
  | .press button held => .ok (.done, c.press button held)
  | .read address => .ok (.byte (c.read address), c)
  | .processor => .ok (.processor c.machine.cpu, c)
  | .battery => .ok (.battery c.batteryRam?, c)
  | .save => .ok (.snapshot c.save, c)

/-- The answers to a series of calls. A fault is the last one. -/
def answers (c : Console) : List Call → List Answer
  | [] => []
  | call :: calls =>
    match c.answer call with
    | .error fault => [.fault fault]
    | .ok (answer, next) => answer :: next.answers calls

/-- Puts samples in front of those of the first frame. -/
def Answer.behind (pending : Array Single) : List Answer → List Answer
  | [] => []
  | .frame pixels samples interrupts :: rest =>
    .frame pixels (pending ++ samples) interrupts :: rest
  | answer :: rest => answer :: behind pending rest

theorem Answer.behind_empty (answers : List Answer) : behind #[] answers = answers := by
  induction answers with
  | nil => rfl
  | cons answer rest ih =>
    cases answer with
    | frame pixels samples interrupts => simp only [behind, Array.empty_append]
    | _ => simp only [behind, ih]

structure Ahead (pending : Array Single) (ahead c : Console) : Prop where
  header : ahead.header = c.header
  machine : Wired.Ahead pending ahead.machine c.machine
  frames : ahead.frames = c.frames

variable {pending : Array Single} {ahead c : Console}

theorem Ahead.updateBoard (h : Ahead pending ahead c) (change : Board → Board) :
    Ahead pending (ahead.updateBoard change) (c.updateBoard change) :=
  ⟨h.header, ⟨h.machine.cpu, h.machine.bus.update change⟩, h.frames⟩

theorem Ahead.endFrame {ahead machine : Wired LiveBoard} (h : Wired.Ahead pending ahead machine) :
    Wired.Ahead #[] (endFrame ahead) (endFrame machine) :=
  ⟨h.cpu, h.bus.image, h.bus.settings, congrArg (fun b => { b with raised := ∅ }) h.bus.board, rfl⟩

theorem Ahead.runFrame (h : Ahead pending ahead c) (held : ButtonSet) :
    SameOutcome
      (fun a b => a.1.samples = pending ++ b.1.samples ∧ a.1.interrupts = b.1.interrupts ∧
        Ahead #[] a.2 b.2)
      (ahead.runFrame held) (c.runFrame held) := by
  rw [runFrame_eq, runFrame_eq, h.machine.bus.settings, h.frames]
  have ran := (h.updateBoard fun b =>
    updateVideo ({ · with frameReady := false }) (b.hold held)).machine.runSteps
      c.machine.bus.settings.maxSteps 0
  unfold beginFrame
  revert ran
  generalize Wired.runSteps _ _ (ahead.updateBoard _).machine = first
  generalize Wired.runSteps _ _ (c.updateBoard _).machine = second
  rintro (⟨a, b, ran⟩ | fault)
  · dsimp only
    cases countUp .frameCounter c.frames 1 with
    | error fault => exact .error fault
    | ok frames =>
      have raised := congrArg Board.raised ran.bus.board
      exact .ok _ _ ⟨ran.bus.samples, raised, h.header, endFrame ran, rfl⟩
  · exact .error fault

theorem Ahead.save (h : Ahead pending ahead c) : ahead.save = c.save := by
  have snapshot : ahead.snapshot = c.snapshot := by
    rw [Console.snapshot, Console.snapshot, h.machine.cpu, h.machine.bus.board, h.frames]
  rw [Console.save, Console.save, h.header, h.machine.bus.image, snapshot]

/-- The answers differ in the samples of the first frame, and in nothing else. -/
theorem answers_ahead (calls : List Call) (h : Ahead pending ahead c) :
    ahead.answers calls = Answer.behind pending (c.answers calls) := by
  induction calls generalizing pending ahead c with
  | nil => rfl
  | cons call calls ih =>
    cases call with
    | runFrame held =>
      simp only [answers, answer]
      have ran := h.runFrame held
      revert ran
      generalize ahead.runFrame held = first
      generalize c.runFrame held = second
      rintro (⟨⟨output, a⟩, ⟨output', b⟩, samples, interrupts, next⟩ | fault)
      · have pixels : a.pixels = b.pixels := congrArg (·.video.frame) next.machine.bus.board
        simp only at samples interrupts next
        simp only [Answer.behind, pixels, samples, interrupts, ih next, Answer.behind_empty]
      · rfl
    | press button held =>
      simp only [answers, answer, Answer.behind]
      rw [press, press, ih (h.updateBoard (Board.press button held))]
    | read address =>
      simp only [answers, answer, Answer.behind]
      rw [ih h, Console.read, h.machine.bus.read]
      rfl
    | processor =>
      simp only [answers, answer, Answer.behind]
      rw [ih h, h.machine.cpu]
    | battery =>
      simp only [answers, answer, Answer.behind]
      rw [ih h, batteryRam?, h.machine.bus.board]
      rfl
    | save =>
      simp only [answers, answer, Answer.behind]
      rw [ih h, h.save]

/-- Saving and loading. A snapshot of any state that can be reached is accepted by every console
with the same image and settings, and from then on that console answers as the first one: only
the samples that waited when the snapshot was taken are not there. -/
theorem load_save_answers {image : Image} {settings : Settings} (c other : Console)
    (reached : c.Reachable image settings) (reached' : other.Reachable image settings) :
    ∃ restored, other.load c.save = .ok restored ∧
      ∀ calls, c.answers calls =
        Answer.behind c.machine.bus.samples (restored.answers calls) := by
  have h := reached.inRange
  have h' := reached'.inRange
  refine ⟨_, load_save h h', fun calls => answers_ahead calls ?_⟩
  have header : c.header = other.header := Except.ok.inj (h.header.symm.trans h'.header)
  exact ⟨header, ⟨rfl, h.bus.image.trans h'.bus.image.symm,
    h.bus.settings.trans h'.bus.settings.symm, rfl, Array.append_empty.symm⟩, rfl⟩

/-- A console with a blank cartridge is one of those. -/
theorem load_save_answers_blank :
    ∃ c, Reachable Image.blank .standard c ∧ ∃ restored, c.load c.save = .ok restored ∧
      ∀ calls, c.answers calls =
        Answer.behind c.machine.bus.samples (restored.answers calls) := by
  obtain ⟨header, accepted⟩ := Header.parse_blank
  have reached := Reachable.powerOn _ (powerOn_started accepted .standard)
  exact ⟨_, reached, load_save_answers _ _ reached reached⟩

end Console
end DotMatrix
