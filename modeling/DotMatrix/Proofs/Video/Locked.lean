import DotMatrix.Proofs.Console.History
import DotMatrix.Proofs.Video.Coincidence

/-! The locks on video memory. While the unit reads a memory for the picture, programs that are
guarded can not touch it: their writes are lost and their reads give FF, whichever way they come
by. Time itself writes to neither memory. -/
namespace DotMatrix

namespace Video
variable {v : Video}

def Drawing (v : Video) : Prop :=
  v.raster.registers.lcdOn = true ∧ v.raster.mode = .transfer

def UsesSprites (v : Video) : Prop :=
  v.raster.registers.lcdOn = true ∧ (v.raster.mode = .oamScan ∨ v.raster.mode = .transfer)

theorem vramOpen_eq_false : v.vramOpen = false ↔ v.Drawing := by
  unfold vramOpen Drawing
  cases v.raster.mode <;> simp

theorem oamOpen_eq_false : v.oamOpen = false ↔ v.UsesSprites := by
  unfold oamOpen UsesSprites
  cases v.raster.mode <;> simp

def memories (v : Video) : Memory 0x2000 × Memory 0xA0 := (v.vram, v.oam)

theorem memories_write (palette : Palette) (address : UInt16) (value : UInt8) (v : Video) :
    (v.write palette address value).1.memories = v.memories := by
  unfold write
  split
  case h_1 =>
    unfold writeControl
    dsimp only
    split
    · rfl
    · split <;> rfl
  all_goals rfl

theorem memories_nextLine (v : Video) : v.nextLine.1.memories = v.memories := by
  unfold nextLine
  dsimp only
  repeat' split
  all_goals rfl

theorem memories_advanceMode (palette : Palette) (v : Video) :
    (v.advanceMode palette).1.memories = v.memories := by
  unfold advanceMode
  split
  · rfl
  · rfl
  · exact memories_nextLine v
  · exact memories_nextLine v

theorem memories_tick (palette : Palette) (n : Nat) (v : Video) (requests : InterruptSet) :
    (v.tick palette n requests).1.memories = v.memories := by
  fun_induction tick palette n v requests with
  | case1 | case2 => rfl
  | case3 cycles v requests left stays passes r next more entered ih =>
    have advanced := memories_advanceMode palette v.atBoundary
    rw [show v.atBoundary.advanceMode palette = (next, more) from entered] at advanced
    rw [ih, advanced]
    rfl

end Video

namespace Region
variable {address : UInt16}

theorem ofAddress_vram (first : 0x8000 ≤ address) (last : address < 0xA000) :
    ofAddress address = .vram (address.toNat - 0x8000) := by
  simp only [UInt16.lt_iff_toNat_lt, UInt16.le_iff_toNat_le, UInt16.reduceToNat] at first last
  unfold ofAddress
  dsimp only
  rw [if_neg (by omega), if_pos last]

theorem ofAddress_oam (first : 0xFE00 ≤ address) (last : address < 0xFEA0) :
    ofAddress address = .oam (address.toNat - 0xFE00) := by
  simp only [UInt16.lt_iff_toNat_lt, UInt16.le_iff_toNat_le, UInt16.reduceToNat] at first last
  unfold ofAddress
  dsimp only
  rw [if_neg (by omega), if_neg (by omega), if_neg (by omega), if_neg (by omega), if_pos last]

end Region

namespace LiveBoard
variable {live next : LiveBoard} {event : Event}

theorem settings_write (address : UInt16) (value : UInt8) (live : LiveBoard) :
    (live.write address value).settings = live.settings := by
  obtain ⟨board, sent, written, -⟩ := write_eq address value live
  rw [written]

theorem settings_undergo (happens : live.undergo event = .ok next) :
    next.settings = live.settings := by
  cases event with
  | access access =>
    cases happens
    cases access with
    | read => rfl
    | write address value => exact settings_write ..
  | withdraw =>
    cases happens
    exact settings_write ..
  | tick n =>
    obtain ⟨counter, rfl⟩ := elapsed_of_tick happens
    rfl
  | _ =>
    cases happens
    rfl

/-- Programs respect the locks. -/
def Guarded (live : LiveBoard) : Prop := live.settings.access = .guarded

theorem Guarded.undergo (guarded : live.Guarded) (happens : live.undergo event = .ok next) :
    next.Guarded := by
  unfold Guarded
  rw [settings_undergo happens]
  exact guarded

theorem vramOpen_eq_false (guarded : live.Guarded) (drawing : live.board.video.Drawing) :
    live.vramOpen = false := by
  unfold vramOpen
  rw [show live.settings.access = .guarded from guarded, Video.vramOpen_eq_false.mpr drawing]
  rfl

theorem oamOpen_eq_false (guarded : live.Guarded) (uses : live.board.video.UsesSprites) :
    live.oamOpen = false := by
  unfold oamOpen
  rw [show live.settings.access = .guarded from guarded, Video.oamOpen_eq_false.mpr uses]
  rfl

theorem read_vram (guarded : live.Guarded) (drawing : live.board.video.Drawing)
    {address : UInt16} (first : 0x8000 ≤ address) (last : address < 0xA000) :
    live.read address = 0xFF := by
  unfold read
  rw [Region.ofAddress_vram first last, vramOpen_eq_false guarded drawing]
  rfl

theorem read_oam (guarded : live.Guarded) (uses : live.board.video.UsesSprites)
    {address : UInt16} (first : 0xFE00 ≤ address) (last : address < 0xFEA0) :
    live.read address = 0xFF := by
  unfold read
  rw [Region.ofAddress_oam first last, oamOpen_eq_false guarded uses]
  rfl

theorem vram_write (guarded : live.Guarded) (drawing : live.board.video.Drawing)
    (address : UInt16) (value : UInt8) :
    (live.write address value).board.video.vram = live.board.video.vram := by
  unfold write
  cases Region.ofAddress address with
  | vram offset =>
    dsimp only
    rw [vramOpen_eq_false guarded drawing]
    rfl
  | oam offset =>
    dsimp only
    split <;> rfl
  | oamTransfer =>
    unfold transfer
    rfl
  | video => exact congrArg Prod.fst (Video.memories_write _ address value _)
  | _ => rfl

theorem oam_write (guarded : live.Guarded) (uses : live.board.video.UsesSprites)
    {address : UInt16} (other : address ≠ 0xFF46) (value : UInt8) :
    (live.write address value).board.video.oam = live.board.video.oam := by
  unfold write
  cases region : Region.ofAddress address with
  | vram offset =>
    dsimp only
    split <;> rfl
  | oam offset =>
    dsimp only
    rw [oamOpen_eq_false guarded uses]
    rfl
  | oamTransfer => exact absurd ((Region.ofAddress_eq_oamTransfer address).mp region) other
  | video => exact congrArg Prod.snd (Video.memories_write _ address value _)
  | _ => rfl

theorem memories_tick {n : Nat} (ticks : live.tick n = .ok next) :
    next.board.video.memories = live.board.video.memories := by
  obtain ⟨counter, rfl⟩ := elapsed_of_tick ticks
  exact Video.memories_tick ..

theorem vram_undergo (guarded : live.Guarded)
    (drawing : ∀ access, event = .access access → live.board.video.Drawing)
    (happens : live.undergo event = .ok next) :
    next.board.video.vram = live.board.video.vram := by
  cases event with
  | access access =>
    cases happens
    cases access with
    | read => rfl
    | write address value => exact vram_write guarded (drawing _ rfl) address value
  | tick => exact congrArg Prod.fst (memories_tick happens)
  | _ =>
    cases happens
    rfl

theorem oam_undergo (guarded : live.Guarded)
    (uses : ∀ access, event = .access access → live.board.video.UsesSprites)
    (other : ∀ page, event ≠ .access (.write 0xFF46 page))
    (happens : live.undergo event = .ok next) :
    next.board.video.oam = live.board.video.oam := by
  cases event with
  | access access =>
    cases happens
    cases access with
    | read => rfl
    | write address value =>
      refine oam_write guarded (uses _ rfl) ?_ value
      rintro rfl
      exact other value rfl
  | tick => exact congrArg Prod.snd (memories_tick happens)
  | _ =>
    cases happens
    rfl

/-- Whenever the processor accesses the board, it has the property. -/
def AccessedOnly (P : LiveBoard → Prop) : List Event → LiveBoard → Prop
  | [], _ => True
  | event :: events, live =>
    (∀ access, event = .access access → P live) ∧
      ∀ next, live.undergo event = .ok next → AccessedOnly P events next

theorem accessedOnly_access {P : LiveBoard → Prop} {access : Access} {events : List Event} :
    live.AccessedOnly P (.access access :: events) ↔
      P live ∧ (access.on live).AccessedOnly P events := by
  constructor
  · rintro ⟨now, later⟩
    exact ⟨now access rfl, later _ rfl⟩
  · rintro ⟨now, later⟩
    refine ⟨fun _ _ => now, fun next happens => ?_⟩
    cases happens
    exact later

theorem kept_replay {α : Type} {f : LiveBoard → α} {P : LiveBoard → Prop}
    {events : List Event} {last : LiveBoard}
    (keeps : ∀ live event next, live.Guarded → (∀ access, event = .access access → P live) →
      event ∈ events → live.undergo event = .ok next → f next = f live)
    (guarded : live.Guarded) (only : live.AccessedOnly P events)
    (runs : live.replay events = .ok last) : f last = f live := by
  induction events generalizing live with
  | nil =>
    cases runs
    rfl
  | cons event events ih =>
    obtain ⟨next, happens, runs⟩ := replay_cons.mp runs
    -- This event is judged by the board as it is, those that follow by the boards they find.
    obtain ⟨now, later⟩ := only
    have first := keeps live event next guarded now List.mem_cons_self happens
    have rest := ih (fun live e next guarded now inside => keeps live e next guarded now
      (List.mem_cons_of_mem event inside)) (guarded.undergo happens) (later next happens) runs
    exact rest.trans first

theorem Guarded.replay {events : List Event} {last : LiveBoard} (guarded : live.Guarded)
    (runs : live.replay events = .ok last) : last.Guarded :=
  Except.foldlM_keeps (fun _ _ _ _ guarded happens => guarded.undergo happens) guarded runs

end LiveBoard

namespace Wired
variable {m last : Wired LiveBoard} {turns : List Turn} {before during after : List Event}

/-- Whatever a program does: where all accesses find the unit drawing, as they do from the moment in
which a line begins to transfer pixels to the one in which it ends, video memory stays as it is.
With sprite memory it is the same, from the scan of a line on, but for transfers to it. What is
locked can not be read either. -/
theorem locked_while_drawn (guarded : m.bus.Guarded) (runs : turns.foldlM turn m = .ok last)
    (cut : m.events turns = before ++ during ++ after) :
    ∃ start finish, m.bus.replay before = .ok start ∧ start.replay during = .ok finish ∧
      finish.replay after = .ok last.bus ∧
      (start.AccessedOnly (·.board.video.Drawing) during →
        finish.board.video.vram = start.board.video.vram) ∧
      (start.AccessedOnly (·.board.video.UsesSprites) during →
        (∀ page, .access (.write 0xFF46 page) ∉ during) →
          finish.board.video.oam = start.board.video.oam) ∧
      (start.board.video.Drawing →
        ∀ address, 0x8000 ≤ address → address < 0xA000 → start.read address = 0xFF) ∧
      (start.board.video.UsesSprites →
        ∀ address, 0xFE00 ≤ address → address < 0xFEA0 → start.read address = 0xFF) := by
  have replays := replay_events runs
  rw [cut] at replays
  obtain ⟨finish, replays, rest⟩ := LiveBoard.replay_append.mp replays
  obtain ⟨start, first, middle⟩ := LiveBoard.replay_append.mp replays
  have guarded := guarded.replay first
  refine ⟨start, finish, first, middle, rest, fun drawing => ?_, fun uses other => ?_,
    fun drawing _ => LiveBoard.read_vram guarded drawing,
    fun uses _ => LiveBoard.read_oam guarded uses⟩
  · exact LiveBoard.kept_replay (f := (·.board.video.vram))
      (fun _ _ _ guarded drawing _ => LiveBoard.vram_undergo guarded drawing) guarded drawing middle
  · refine LiveBoard.kept_replay (f := (·.board.video.oam))
      (fun live event next guarded uses inside happens => ?_) guarded uses middle
    refine LiveBoard.oam_undergo guarded uses (fun page same => ?_) happens
    exact other page (same ▸ inside)

/-- A vertical blank is requested while pixels are transferred, with the stack in video memory. -/
def stackInVideo : Wired LiveBoard :=
  let { cpu, bus } := (Console.started Image.blank .standard .bare).machine
  { cpu := { cpu with
      interruptsEnabled := true, registers := { cpu.registers with sp := 0x9002 } }
    bus := bus.update fun b => { b with
      enabled := 1
      video := { b.video with raster := { b.video.raster with mode := .transfer } } } }

/-- The dispatch pushes PC, and the stack stays as it is. -/
theorem locked_while_drawn_stack :
    stackInVideo.events [.step] = [.access (.read 0xFFFF), .access (.read 0xFF0F),
        .access (.write 0x9001 0x01), .access (.write 0x9000 0x00), .withdraw .verticalBlank] ∧
      ∃ last, [.step].foldlM turn stackInVideo = .ok last ∧
        last.bus.board.video.vram = stackInVideo.bus.board.video.vram ∧
        stackInVideo.bus.read 0x9001 = 0xFF := by
  have pushes : stackInVideo.events [.step] = [.access (.read 0xFFFF), .access (.read 0xFF0F),
      .access (.write 0x9001 0x01), .access (.write 0x9000 0x00), .withdraw .verticalBlank] := by
    rfl
  have guarded : stackInVideo.bus.Guarded := rfl
  have runs : [.step].foldlM turn stackInVideo = .ok stackInVideo.step.2 := rfl
  have whole : stackInVideo.events [.step] = [] ++ stackInVideo.events [.step] ++ [] :=
    (List.append_nil _).symm
  obtain ⟨start, finish, first, middle, rest, vram, -, closed, -⟩ :=
    locked_while_drawn guarded runs whole
  rw [pushes] at vram
  obtain rfl : stackInVideo.bus = start := Except.ok.inj first
  obtain rfl : finish = stackInVideo.step.2.bus := Except.ok.inj rest
  refine ⟨pushes, _, runs, vram ?_, closed ⟨rfl, rfl⟩ 0x9001 (by decide) (by decide)⟩
  refine LiveBoard.accessedOnly_access.mpr ⟨⟨rfl, rfl⟩, ?_⟩
  refine LiveBoard.accessedOnly_access.mpr ⟨⟨rfl, rfl⟩, ?_⟩
  refine LiveBoard.accessedOnly_access.mpr ⟨⟨rfl, rfl⟩, ?_⟩
  refine LiveBoard.accessedOnly_access.mpr ⟨⟨rfl, rfl⟩, ?_⟩
  exact ⟨nofun, fun _ _ => trivial⟩

end Wired
end DotMatrix
