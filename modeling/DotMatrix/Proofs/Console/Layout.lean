import DotMatrix.Proofs.Console.Reachable
import DotMatrix.Proofs.Range.Header

/-! The layout check is an invariant. A board that passes it against the cartridge in the slot
still does after anything that a host, a program or time can do to it. -/
namespace DotMatrix
namespace Board
variable {header : Header} {b : Board}

theorem InRange.passes (h : b.InRange header) {live : Board} (plugged : live.cartridge.Fits header) :
    (BoardRecord.ofBoard b).checkLayout live = .ok () :=
  (checkLayout_ofBoard live b).mpr ⟨h.stall, plugged.replaces h.cartridge, h.raster, h.sound⟩

theorem inRange_of_passes {live : Board} (plugged : live.cartridge.Fits header)
    (passes : (BoardRecord.ofBoard b).checkLayout live = .ok ()) : b.InRange header := by
  obtain ⟨stall, replaces, raster, sound⟩ := (checkLayout_ofBoard live b).mp passes
  exact ⟨stall, Cartridge.fits_of_replaces plugged replaces, raster, sound⟩

end Board

namespace Console

/-- What can happen to a board: accesses and time, the host's calls, one step of the processor
and other settings. -/
inductive Operation where
  | write (address : UInt16) (value : UInt8)
  | tick (cycles : Nat)
  | hold (held : ButtonSet)
  | press (button : Button) (held : Bool)
  | transfer (page : UInt8)
  | takeStall
  | loadBattery (data : Array UInt8)
  | step
  | configure (settings : Settings)
  | reset

def onBus (change : LiveBoard → LiveBoard) (c : Console) : Console :=
  { c with machine := { c.machine with bus := change c.machine.bus } }

/-- A refused battery memory leaves the console as it was. -/
def operate (c : Console) : Operation → Except Fault Console
  | .write address value => .ok (c.onBus (LiveBoard.write address value))
  | .tick cycles => (c.machine.bus.tick cycles).map fun bus => c.onBus fun _ => bus
  | .hold held => .ok (c.updateBoard (Board.hold held))
  | .press button held => .ok (c.press button held)
  | .transfer page => .ok (c.onBus (LiveBoard.transfer page))
  | .takeStall => .ok (c.onBus fun live => live.takeStall.2)
  | .loadBattery data => .ok ((c.loadBattery data).toOption.getD c)
  | .step => .ok { c with machine := c.machine.step.2 }
  | .configure settings => .ok (c.onBus ({ · with settings }))
  | .reset => .ok c.reset

/-- Only the counter of cycles can be used up. -/
def OperationRoom (c : Console) : Operation → Prop
  | .tick cycles => c.machine.bus.board.cycles.toNat + cycles < UInt64.size
  | _ => True

/-- The board passes the check against every board with the console's cartridge in its slot. -/
def PassesLayout (c : Console) : Prop :=
  ∀ live : Board, live.cartridge.Fits c.header →
    (BoardRecord.ofBoard c.machine.bus.board).checkLayout live = .ok ()

variable {c next : Console}

@[simp] theorem header_onBus (change : LiveBoard → LiveBoard) (c : Console) :
    (c.onBus change).header = c.header :=
  rfl

@[simp] theorem header_updateBoard (change : Board → Board) (c : Console) :
    (c.updateBoard change).header = c.header :=
  rfl

@[simp] theorem header_press (button : Button) (held : Bool) (c : Console) :
    (c.press button held).header = c.header :=
  rfl

@[simp] theorem header_reset (c : Console) : c.reset.header = c.header := rfl

theorem passesLayout_iff : c.PassesLayout ↔ c.machine.bus.board.InRange c.header := by
  constructor
  · intro passes
    -- The check looks at no more of the other board than its cartridge, so one board will do.
    have plugged := Cartridge.fits_powerOn c.header
    exact Board.inRange_of_passes plugged
      (passes { c.machine.bus.board with cartridge := .powerOn c.header } plugged)
  · intro h live plugged
    exact h.passes plugged

theorem exists_operate {op : Operation} (room : c.OperationRoom op) :
    ∃ next, c.operate op = .ok next := by
  cases op with
  | tick cycles =>
    have room : c.machine.bus.board.cycles.toNat + cycles < UInt64.size := room
    rw [operate, LiveBoard.tick_eq_elapse, countUp, if_pos room]
    exact ⟨_, rfl⟩
  | _ => exact ⟨_, rfl⟩

theorem header_operate {op : Operation} (operates : c.operate op = .ok next) :
    next.header = c.header := by
  cases op with
  | tick cycles =>
    rw [operate] at operates
    cases ticked : c.machine.bus.tick cycles with
    | error fault =>
      rw [ticked] at operates
      cases operates
    | ok bus =>
      rw [ticked] at operates
      cases operates
      rfl
  | loadBattery data =>
    cases operates
    unfold loadBattery
    split <;> rfl
  | step =>
    cases operates
    rfl
  | _ =>
    cases operates
    simp only [header_onBus, header_updateBoard, header_press, header_reset]

theorem inRange_operate {header : Header} (h : c.machine.bus.board.InRange header)
    (same : c.header = header) {op : Operation} (operates : c.operate op = .ok next) :
    next.machine.bus.board.InRange header := by
  have live : c.machine.bus.InRange c.machine.bus.image c.machine.bus.settings header :=
    ⟨rfl, rfl, h⟩
  cases op with
  | write address value =>
    cases operates
    exact (live.write address value).board
  | tick cycles =>
    rw [operate] at operates
    cases ticked : c.machine.bus.tick cycles with
    | error fault =>
      rw [ticked] at operates
      cases operates
    | ok bus =>
      rw [ticked] at operates
      cases operates
      exact (live.tick ticked).board
  | hold held =>
    cases operates
    exact h.hold held
  | press button held =>
    cases operates
    exact h.press button held
  | transfer page =>
    cases operates
    exact (live.transfer page).board
  | takeStall =>
    cases operates
    exact h.takeStall
  | loadBattery data =>
    cases operates
    unfold loadBattery
    split
    · exact h
    · rename_i cartridge loaded
      exact ⟨h.stall, h.cartridge.loadBattery loaded, h.raster, h.sound⟩
  | step =>
    cases operates
    exact (Wired.inRange_step live).board
  | configure settings =>
    cases operates
    exact h
  | reset =>
    cases operates
    subst same
    exact .powerOn (.reset c.header c.machine.bus.board.cartridge) c.machine.bus.settings

theorem PassesLayout.operate (passes : c.PassesLayout) {op : Operation}
    (operates : c.operate op = .ok next) : next.PassesLayout := by
  rw [passesLayout_iff, header_operate operates]
  exact inRange_operate (passesLayout_iff.mp passes) rfl operates

theorem PassesLayout.operations (passes : c.PassesLayout) (ops : List Operation)
    (operates : ops.foldlM Console.operate c = .ok next) : next.PassesLayout :=
  Except.foldlM_keeps (fun _ _ _ _ passes operates => passes.operate operates) passes operates

/-- A console passes the check when it is switched on; a board that passes it against a board
with its cartridge does so after every operation, and against every such board; and so does a
console from power-on after any number of operations. -/
theorem layout_invariant {image : Image} {header : Header}
    (accepted : Header.parse image = .ok header) (settings : Settings) :
    (∃ c, Console.powerOn image settings = .ok c ∧ c.header = header ∧ c.PassesLayout ∧
      ∀ (ops : List Operation) (next : Console), ops.foldlM operate c = .ok next →
        next.PassesLayout) ∧
    ∀ (c : Console) (live : Board), c.header = header → live.cartridge.Fits header →
      (BoardRecord.ofBoard c.machine.bus.board).checkLayout live = .ok () →
      ∀ op, c.OperationRoom op → ∃ next, c.operate op = .ok next ∧
        (BoardRecord.ofBoard next.machine.bus.board).checkLayout live = .ok () ∧
        next.PassesLayout := by
  constructor
  · have on := powerOn_started accepted settings
    have passes : (started image settings header).PassesLayout :=
      passesLayout_iff.mpr (InRange.powerOn on).bus.board
    exact ⟨_, on, rfl, passes, fun ops next operates => passes.operations ops operates⟩
  · intro c live same plugged passes op room
    obtain ⟨next, operates⟩ := exists_operate room
    have inRange := inRange_operate (Board.inRange_of_passes plugged passes) same operates
    refine ⟨next, operates, inRange.passes plugged, ?_⟩
    rw [passesLayout_iff, header_operate operates, same]
    exact inRange

/-- A blank cartridge's console, the LCD of which is switched off. -/
theorem layout_invariant_blank :
    ∃ header c next, Header.parse Image.blank = .ok header ∧
      Console.powerOn Image.blank .standard = .ok c ∧ c.PassesLayout ∧
        c.operate (.write 0xFF40 0x11) = .ok next ∧ next.PassesLayout := by
  obtain ⟨header, parsed⟩ := Header.parse_blank
  obtain ⟨⟨c, on, same, passes, _⟩, keeps⟩ := layout_invariant parsed .standard
  have plugged : c.machine.bus.board.cartridge.Fits header :=
    same ▸ (passesLayout_iff.mp passes).cartridge
  obtain ⟨next, operates, _, after⟩ := keeps c c.machine.bus.board same plugged
    (passes _ (same ▸ plugged)) (.write 0xFF40 0x11) trivial
  exact ⟨header, c, next, parsed, on, passes, operates, after⟩

end Console
end DotMatrix
