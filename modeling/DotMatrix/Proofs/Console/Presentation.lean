import DotMatrix.Proofs.Console.Lockstep
import DotMatrix.Proofs.Safe.PowerOn
import DotMatrix.Proofs.Sound.Core
import DotMatrix.Proofs.Video.Shades

/-! What the host chooses for its screen and its speakers stays with the host. Two consoles with
palettes, rates and volumes of their own go the same way, whatever programs read back and whatever
the host asks for: only colours and samples differ. -/
namespace DotMatrix

namespace Board
variable {p q : Palette} {b c : Board}

/-- The other board is this one with its picture in other colours and on another way to its
samples. -/
inductive Alike (p q : Palette) (b : Board) : Board → Prop
  | recast (video : Video) (sound : Sound) (seen : b.video.Alike p q video)
      (heard : b.sound.core = sound.core) : Alike p q b { b with video, sound }

namespace Alike

theorem update (h : b.Alike p q c) (change : Board → Board)
    (blind : ∀ b video sound, change { b with video, sound } = { change b with video, sound }) :
    (change b).Alike p q (change c) := by
  obtain ⟨video, sound, seen, heard⟩ := h
  have untouched : change b = { change b with video := b.video, sound := b.sound } := blind b _ _
  rw [blind b video sound]
  refine .recast video sound ?_ ?_
  · rw [untouched]
    exact seen
  · rw [untouched]
    exact heard

theorem video (h : b.Alike p q c) {v w : Video} (seen : v.Alike p q w) :
    { b with video := v }.Alike p q { c with video := w } := by
  obtain ⟨_, sound, _, heard⟩ := h
  exact .recast w sound seen heard

theorem sound (h : b.Alike p q c) {s t : Sound} (heard : s.core = t.core) :
    { b with sound := s }.Alike p q { c with sound := t } := by
  obtain ⟨video, _, seen, _⟩ := h
  exact .recast video t seen heard

theorem seen (h : b.Alike p q c) : b.video.Alike p q c.video := by
  obtain ⟨video, sound, seen, heard⟩ := h
  exact seen

theorem heard (h : b.Alike p q c) : b.sound.core = c.sound.core := by
  obtain ⟨video, sound, seen, heard⟩ := h
  exact heard

theorem cycles (h : b.Alike p q c) : b.cycles = c.cycles := by
  obtain ⟨video, sound, seen, heard⟩ := h
  rfl

theorem cartridge (h : b.Alike p q c) : b.cartridge = c.cartridge := by
  obtain ⟨video, sound, seen, heard⟩ := h
  rfl

theorem raised (h : b.Alike p q c) : b.raised = c.raised := by
  obtain ⟨video, sound, seen, heard⟩ := h
  rfl

theorem of_parts {cartridge wram hram v w s t timer serial joypad requested enabled source stall
    raised cycles} (seen : Video.Alike p q v w) (heard : s.core = t.core) :
    Alike p q
      ⟨cartridge, wram, hram, v, s, timer, serial, joypad, requested, enabled, source, stall,
        raised, cycles⟩
      ⟨cartridge, wram, hram, w, t, timer, serial, joypad, requested, enabled, source, stall,
        raised, cycles⟩ :=
  .recast w t seen heard

-- The parts are matched as they stand: one look into the noise in the memories generates it all.
theorem powerOn (cartridge : Cartridge) (s t : Settings) :
    (Board.powerOn cartridge s).Alike s.colors t.colors (.powerOn cartridge t) :=
  .of_parts (.powerOn _ _) rfl

end Alike
end Board

namespace LiveBoard
variable {p q : Palette} {live other : LiveBoard}

/-- The other board has its own settings and samples, and everything else is alike. -/
inductive Alike (p q : Palette) (live : LiveBoard) : LiveBoard → Prop
  | recast (settings : Settings) (board : Board) (samples : Array Single)
      (same : live.board.Alike p q board) : Alike p q live { live with settings, board, samples }

namespace Alike

theorem board (h : live.Alike p q other) : live.board.Alike p q other.board := by
  obtain ⟨settings, board, samples, same⟩ := h
  exact same

theorem withBoard (h : live.Alike p q other) {b c : Board} (same : b.Alike p q c) :
    { live with board := b }.Alike p q { other with board := c } := by
  obtain ⟨settings, board, samples, _⟩ := h
  exact .recast settings c samples same

theorem update (h : live.Alike p q other) {change : Board → Board}
    (blind : ∀ b video sound, change { b with video, sound } = { change b with video, sound }) :
    (live.update change).Alike p q (other.update change) :=
  h.withBoard (h.board.update change blind)

theorem takeSamples (h : live.Alike p q other) :
    live.takeSamples.2.Alike p q other.takeSamples.2 := by
  obtain ⟨settings, board, samples, same⟩ := h
  exact .recast settings board #[] same

theorem transferRead (h : live.Alike p q other) (address : UInt16) :
    live.transferRead address = other.transferRead address := by
  obtain ⟨settings, board, samples, video, sound, ⟨frame, _⟩, _⟩ := h
  rfl

theorem transfer (h : live.Alike p q other) (page : UInt8) :
    (live.transfer page).Alike p q (other.transfer page) := by
  unfold LiveBoard.transfer
  simp only [h.transferRead]
  generalize (Vector.ofFn fun i : Fin 0xA0 =>
    other.transferRead (Word.join page (UInt8.ofNat i))) = oam
  obtain ⟨settings, board, samples, video, sound, ⟨frame, same⟩, heard⟩ := h
  exact .recast settings _ samples (.recast _ sound (.recolored frame same) heard)

theorem writeSerialControl (h : live.Alike p q other) (value : UInt8) :
    (live.writeSerialControl value).Alike p q (other.writeSerialControl value) := by
  obtain ⟨settings, board, samples, video, sound, seen, heard⟩ := h
  exact .recast settings _ samples (.recast video sound seen heard)

end Alike

/-- Two boards with settings of their own that agree on what the host does not choose for itself. -/
structure InStep (image : Image) (header : Header) (s t : Settings) (live other : LiveBoard) :
    Prop where
  first : live.InRange image s header
  second : other.InRange image t header
  alike : live.Alike s.colors t.colors other

namespace InStep
variable {image : Image} {header : Header} {s t : Settings}

theorem elapse (h : InStep image header s t live other) (n : Nat) (cycles : UInt64) :
    InStep image header s t (live.elapse n cycles) (other.elapse n cycles) := by
  refine ⟨h.first.elapse n cycles, h.second.elapse n cycles, ?_⟩
  have colors := congrArg Settings.colors h.first.settings
  have colors' := congrArg Settings.colors h.second.settings
  have heard : (live.board.sound.tick live.settings n live.samples).1.core =
      (other.board.sound.tick other.settings n other.samples).1.core := by
    rw [Sound.core_tick _ n _ _ h.first.board.sound.paced,
      Sound.core_tick _ n _ _ h.second.board.sound.paced,
      h.alike.board.heard]
  obtain ⟨seen, requests⟩ := h.alike.board.seen.tick n ∅
  unfold LiveBoard.elapse
  dsimp only
  rw [colors, colors', ← requests]
  obtain ⟨settings, board, samples, video, sound, _, _⟩ := h.alike
  refine .recast settings _ _ ?_
  exact .recast _ _ seen heard

theorem tick (h : InStep image header s t live other) (n : Nat) :
    SameOutcome (InStep image header s t) (live.tick n) (other.tick n) := by
  rw [tick_eq_elapse, tick_eq_elapse, h.alike.board.cycles]
  cases countUp .cycleCounter other.board.cycles n with
  | error fault => exact .error fault
  | ok cycles => exact .ok _ _ (h.elapse n cycles)

theorem takeStall (h : InStep image header s t live other) :
    live.takeStall.1 = other.takeStall.1 ∧
      InStep image header s t live.takeStall.2 other.takeStall.2 := by
  refine ⟨?_, h.first.takeStall, h.second.takeStall, ?_⟩
  · obtain ⟨settings, board, samples, video, sound, _, _⟩ := h.alike
    rfl
  · exact h.alike.withBoard (h.alike.board.update (fun b => b.takeStall.2) fun _ _ _ => rfl)

theorem writeVideo (h : InStep image header s t live other) (address : UInt16) (value : UInt8) :
    (live.writeVideo address value).Alike s.colors t.colors (other.writeVideo address value) := by
  obtain ⟨seen, requests⟩ := h.alike.board.seen.write address value
  unfold LiveBoard.writeVideo
  dsimp only
  rw [h.first.settings, h.second.settings]
  refine h.alike.withBoard ?_
  dsimp only
  rw [← requests]
  exact (h.alike.board.video seen).update (Board.request _) fun _ _ _ => rfl

section Access
variable (access : s.access = t.access)
include access

theorem vramOpen (h : InStep image header s t live other) : live.vramOpen = other.vramOpen := by
  unfold LiveBoard.vramOpen
  rw [h.first.settings, h.second.settings, access]
  obtain ⟨settings, board, samples, video, sound, ⟨frame, _⟩, _⟩ := h.alike
  rfl

theorem oamOpen (h : InStep image header s t live other) : live.oamOpen = other.oamOpen := by
  unfold LiveBoard.oamOpen
  rw [h.first.settings, h.second.settings, access]
  obtain ⟨settings, board, samples, video, sound, ⟨frame, _⟩, _⟩ := h.alike
  rfl

theorem read (h : InStep image header s t live other) (address : UInt16) :
    live.read address = other.read address := by
  have vram := h.vramOpen access
  have oam := h.oamOpen access
  have heard : live.board.sound.read address = other.board.sound.read address := by
    rw [← Sound.read_core, h.alike.board.heard, Sound.read_core]
  have seen := h.alike.board.seen.read address
  unfold LiveBoard.read
  rw [vram, oam]
  obtain ⟨settings, board, samples, video, sound, ⟨frame, _⟩, _⟩ := h.alike
  cases Region.ofAddress address with
  | sound => exact heard
  | video => exact seen
  | _ => rfl

theorem write (h : InStep image header s t live other) (address : UInt16) (value : UInt8) :
    InStep image header s t (live.write address value) (other.write address value) := by
  refine ⟨h.first.write address value, h.second.write address value, ?_⟩
  have vram := h.vramOpen access
  have oam := h.oamOpen access
  have alike := h.alike
  unfold LiveBoard.write
  cases Region.ofAddress address with
  | vram offset =>
    dsimp only
    rw [vram]
    split
    · obtain ⟨settings, board, samples, video, sound, ⟨frame, same⟩, heard⟩ := alike
      exact .recast settings _ samples (.recast _ sound (.recolored frame same) heard)
    · exact alike
  | oam offset =>
    dsimp only
    rw [oam]
    split
    · obtain ⟨settings, board, samples, video, sound, ⟨frame, same⟩, heard⟩ := alike
      exact .recast settings _ samples (.recast _ sound (.recolored frame same) heard)
    · exact alike
  | oamTransfer => exact alike.transfer value
  | serialControl => exact alike.writeSerialControl value
  | video => exact h.writeVideo address value
  | sound =>
    have heard : (live.board.sound.write address value).core =
        (other.board.sound.write address value).core := by
      rw [Sound.core_write, alike.board.heard, Sound.core_write]
    exact alike.withBoard (alike.board.sound heard)
  | unmapped => exact alike
  | rom | cartridgeRam | wram | joypad | serialData | timer | interruptRequest | hram
  | interruptEnable => exact alike.update fun _ _ _ => rfl

theorem lockstep : Lockstep (InStep image header s t) where
  simulation :=
    { read := fun address _ _ h => ⟨h.read access address, h⟩
      write := fun address value _ _ h => h.write access address value }
  tick n _ _ h := h.tick n
  takeStall _ _ h := h.takeStall
  frameReady _ _ h := h.alike.board.seen.frameReady
  registers _ _ h := congrArg Raster.registers h.alike.board.seen.raster

end Access
end InStep
end LiveBoard

namespace Console
variable {p q : Palette} {c d : Console}

/-- The other console has a bus of its own that is alike, and everything else is the same. -/
inductive Alike (p q : Palette) (c : Console) : Console → Prop
  | recast (bus : LiveBoard) (same : c.machine.bus.Alike p q bus) :
      Alike p q c { c with machine := { c.machine with bus } }

namespace Alike

theorem bus (h : c.Alike p q d) : c.machine.bus.Alike p q d.machine.bus := by
  obtain ⟨bus, same⟩ := h
  exact same

theorem header (h : c.Alike p q d) : c.header = d.header := by
  obtain ⟨bus, same⟩ := h
  rfl

theorem frames (h : c.Alike p q d) : c.frames = d.frames := by
  obtain ⟨bus, same⟩ := h
  rfl

theorem withBus (h : c.Alike p q d) {live other : LiveBoard} (same : live.Alike p q other) :
    Alike p q { c with machine := { c.machine with bus := live } }
      { d with machine := { d.machine with bus := other } } := by
  obtain ⟨bus, _⟩ := h
  exact .recast other same

end Alike

/-- Two consoles with settings of their own that have come the same way. -/
structure InStep (image : Image) (s t : Settings) (c d : Console) : Prop where
  first : c.InRange image s
  second : d.InRange image t
  alike : c.Alike s.colors t.colors d

namespace InStep
variable {image : Image} {s t : Settings}

theorem bus (h : InStep image s t c d) :
    LiveBoard.InStep image c.header s t c.machine.bus d.machine.bus := by
  refine ⟨h.first.bus, ?_, h.alike.bus⟩
  rw [h.alike.header]
  exact h.second.bus

theorem beginFrame (h : InStep image s t c d) (held : ButtonSet) :
    InStep image s t (c.beginFrame held) (d.beginFrame held) := by
  refine ⟨h.first.beginFrame held, h.second.beginFrame held, ?_⟩
  have same := h.alike.bus.board.update (Board.hold held) fun _ _ _ => rfl
  exact h.alike.withBus (h.alike.bus.withBoard (same.video (same.seen.withFrameReady false)))

theorem press (h : InStep image s t c d) (button : Button) (held : Bool) :
    InStep image s t (c.press button held) (d.press button held) := by
  refine ⟨h.first.step (.press button held), h.second.step (.press button held), ?_⟩
  exact h.alike.withBus (h.alike.bus.update fun _ _ _ => rfl)

theorem takeSamples (h : InStep image s t c d) :
    InStep image s t c.takeSamples.2 d.takeSamples.2 :=
  ⟨h.first.step .takeSamples, h.second.step .takeSamples, h.alike.withBus h.alike.bus.takeSamples⟩

theorem reset (h : InStep image s t c d) : InStep image s t c.reset d.reset := by
  refine ⟨h.first.reset, h.second.reset, ?_⟩
  have again := Board.Alike.powerOn (resetCartridge c.header c.machine.bus.board.cartridge)
    c.machine.bus.settings d.machine.bus.settings
  rw [h.first.bus.settings, h.second.bus.settings] at again
  unfold Console.reset
  dsimp only
  rw [h.first.bus.settings, h.second.bus.settings, ← h.alike.header, ← h.alike.bus.board.cartridge]
  obtain ⟨bus, ⟨settings, board, samples, same⟩⟩ := h.alike
  exact .recast _ (.recast t _ #[] again)

theorem loadBattery (h : InStep image s t c d) (data : Array UInt8) :
    SameOutcome (InStep image s t) (c.loadBattery data) (d.loadBattery data) := by
  have same := h.alike.bus.board.cartridge
  cases loaded : d.machine.bus.board.cartridge.loadBattery data with
  | error refusal =>
    unfold Console.loadBattery
    rw [same, loaded]
    exact .error refusal
  | ok cartridge =>
    have first : c.loadBattery data = .ok (c.updateBoard ({ · with cartridge })) := by
      unfold Console.loadBattery
      rw [same, loaded]
    have second : d.loadBattery data = .ok (d.updateBoard ({ · with cartridge })) := by
      unfold Console.loadBattery
      rw [loaded]
    rw [first, second]
    exact .ok _ _ ⟨h.first.loadBattery first, h.second.loadBattery second,
      h.alike.withBus (h.alike.bus.update fun _ _ _ => rfl)⟩

def FrameInStep (image : Image) (s t : Settings) (x y : FrameOutput × Console) : Prop :=
  x.1.interrupts = y.1.interrupts ∧ InStep image s t x.2 y.2

theorem endFrame (h : InStep image s t c d) (frames : UInt64) {m m' : Wired LiveBoard}
    (cpu : m.cpu = m'.cpu) (bus : LiveBoard.InStep image c.header s t m.bus m'.bus) :
    FrameInStep image s t
      (⟨m.bus.samples, m.bus.board.raised⟩, ⟨c.header, Console.endFrame m, frames⟩)
      (⟨m'.bus.samples, m'.bus.board.raised⟩, ⟨d.header, Console.endFrame m', frames⟩) := by
  refine ⟨bus.alike.board.raised, h.first.endFrame frames bus.first, ?_, ?_⟩
  · refine h.second.endFrame frames ?_
    rw [← h.alike.header]
    exact bus.second
  · have taken := bus.alike.board.update (fun b => { b with raised := ∅ }) fun _ _ _ => rfl
    rw [h.alike.header]
    obtain ⟨cpu, live⟩ := m
    obtain ⟨_, other⟩ := m'
    cases cpu
    exact .recast _ (bus.alike.withBoard taken).takeSamples

theorem runFrame (h : InStep image s t c d) (access : s.access = t.access)
    (steps : s.maxSteps = t.maxSteps) (held : ButtonSet) :
    SameOutcome (FrameInStep image s t) (c.runFrame held) (d.runFrame held) := by
  have begun := h.beginFrame held
  have cpu : (c.beginFrame held).machine.cpu = (d.beginFrame held).machine.cpu := by
    obtain ⟨bus, _⟩ := h.alike
    rfl
  have ran := Wired.runSteps_lockstep (LiveBoard.InStep.lockstep access) t.maxSteps 0
    ⟨cpu, begun.bus⟩
  rw [runFrame_eq, runFrame_eq, h.first.bus.settings, h.second.bus.settings, steps,
    h.alike.frames]
  revert ran
  generalize (c.beginFrame held).machine.runSteps t.maxSteps 0 = first
  generalize (d.beginFrame held).machine.runSteps t.maxSteps 0 = second
  rintro (⟨a, b, cpu, bus⟩ | fault)
  · dsimp only
    cases countUp .frameCounter d.frames 1 with
    | error fault => exact .error fault
    | ok frames => exact .ok _ _ (h.endFrame frames cpu bus)
  · exact .error fault

theorem serve (h : InStep image s t c d) (access : s.access = t.access)
    (steps : s.maxSteps = t.maxSteps) (request : Request) :
    SameOutcome (InStep image s t) (c.serve request) (d.serve request) := by
  cases request with
  | act act =>
    cases act with
    | runFrame held => exact (h.runFrame access steps held).map fun _ _ same => same.2
    | press button held => exact .ok _ _ (h.press button held)
    | reset => exact .ok _ _ h.reset
    | save => exact .ok _ _ h
  | takeSamples => exact .ok _ _ h.takeSamples
  | loadBattery data =>
    have loaded := h.loadBattery data
    unfold Console.serve
    dsimp only
    revert loaded
    generalize c.loadBattery data = first
    generalize d.loadBattery data = second
    rintro (⟨a, b, next⟩ | refusal)
    · exact .ok _ _ next
    · exact .ok _ _ h

theorem requests (h : InStep image s t c d) (access : s.access = t.access)
    (steps : s.maxSteps = t.maxSteps) (requests : List Request) :
    SameOutcome (InStep image s t) (requests.foldlM Console.serve c)
      (requests.foldlM Console.serve d) := by
  induction requests generalizing c d with
  | nil => exact .ok _ _ h
  | cons request requests ih =>
    rw [List.foldlM_cons, List.foldlM_cons]
    exact (h.serve access steps request).bind fun _ _ next => ih next

end InStep

/-- The consoles are alike, and whichever buttons are held, their next frames request the same
interrupts. -/
structure SameCourse (p q : Palette) (c d : Console) : Prop where
  alike : c.Alike p q d
  interrupts : ∀ held,
    SameOutcome (fun x y => x.1.interrupts = y.1.interrupts) (c.runFrame held) (d.runFrame held)

/-- Two consoles with the same image and with settings that differ in nothing but the presentation
go the same way, whatever the host asks for: each pixel has one shade on both screens, and all
that differs besides is the way to the samples. -/
theorem presentation_unseen {image : Image} {header : Header}
    (accepted : Header.parse image = .ok header) {s t : Settings} (access : s.access = t.access)
    (steps : s.maxSteps = t.maxSteps) :
    ∃ a b, Console.powerOn image s = .ok a ∧ Console.powerOn image t = .ok b ∧
      ∀ requests : List Request,
        SameOutcome (SameCourse s.colors t.colors) (requests.foldlM serve a)
          (requests.foldlM serve b) := by
  have on := powerOn_started accepted s
  have on' := powerOn_started accepted t
  have start : InStep image s t (started image s header) (started image t header) :=
    ⟨.powerOn on, .powerOn on', .recast _ (.recast t _ #[] (.powerOn _ _ _))⟩
  refine ⟨_, _, on, on', fun requests => (start.requests access steps requests).mono ?_⟩
  intro c d h
  exact ⟨h.alike, fun held => (h.runFrame access steps held).mono fun _ _ same => same.1⟩

/-- On a green screen and at another rate, a blank cartridge goes as it does in grey. -/
theorem presentation_unseen_blank :
    let green := { Settings.standard with sampleRate := 48000, palette := some .green }
    ∃ a b, Console.powerOn Image.blank .standard = .ok a ∧
      Console.powerOn Image.blank green = .ok b ∧
        ∀ requests : List Request,
          SameOutcome (SameCourse .grey .green) (requests.foldlM serve a)
            (requests.foldlM serve b) := by
  obtain ⟨header, parsed⟩ := Header.parse_blank
  exact presentation_unseen parsed (s := .standard)
    (t := { Settings.standard with sampleRate := 48000, palette := some .green }) rfl rfl

end Console
end DotMatrix
