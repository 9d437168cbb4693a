import DotMatrix.Proofs.Console.Reachable
import DotMatrix.Proofs.Range.Header
import DotMatrix.Proofs.Video.Beam
import Mathlib.Algebra.GroupWithZero.Nat

/-! The picture unit keeps exact time. Whatever is written to it while the LCD stays on, only the
time that has passed says where the beam is, and the place of the beam says the rest. -/
namespace DotMatrix

inductive VideoOperation where
  | tick (palette : Palette) (dots : Nat)
  | write (palette : Palette) (address : UInt16) (value : UInt8)
  /-- Whatever is written to the two memories. -/
  | store (vram : Memory 0x2000) (oam : Memory 0xA0)
  /-- The host takes note of the picture. -/
  | takeFrame

namespace VideoOperation

def dots : VideoOperation → Nat
  | .tick _ dots => dots
  | _ => 0

def switchesOff : VideoOperation → Bool
  | .write _ address value => address == 0xFF40 && value &&& 0x80 == 0
  | _ => false

end VideoOperation

namespace Video
variable {v : Video} {image : Image} {settings : Settings}

def operate (v : Video) : VideoOperation → Video × InterruptSet
  | .tick palette dots => v.tick palette dots ∅
  | .write palette address value => v.write palette address value
  | .store vram oam => ({ v with vram, oam }, ∅)
  | .takeFrame => ({ v with frameReady := false }, ∅)

/-- The picture units that consoles come to have, also in the middle of a frame. -/
inductive Reachable (image : Image) (settings : Settings) : Video → Prop
  | board (c : Console) (reached : c.Reachable image settings) :
      Reachable image settings c.machine.bus.board.video
  | operate (v : Video) (before : Reachable image settings v) (op : VideoOperation) :
      Reachable image settings (v.operate op).1

theorem inRange_operate (h : v.raster.InRange) (op : VideoOperation) :
    (v.operate op).1.raster.InRange := by
  cases op with
  | tick palette dots => exact inRange_tick palette dots v ∅ h
  | write palette address value => exact inRange_write palette address value v h
  | store vram oam => exact h
  | takeFrame => exact h

theorem Reachable.inRange (reached : v.Reachable image settings) : v.raster.InRange := by
  induction reached with
  | board c reached => exact reached.inRange.bus.board.raster
  | operate v before op ih => exact inRange_operate ih op

theorem beam_write (palette : Palette) (address : UInt16) (value : UInt8)
    (on : v.raster.registers.lcdOn = true)
    (shown : (VideoOperation.write palette address value).switchesOff = false) :
    (v.write palette address value).1.raster.registers.lcdOn = true ∧
      (v.write palette address value).1.raster.position = v.raster.position := by
  unfold write
  split
  case h_1 =>
    have still : (value &&& 0x80 != 0) = true := by
      simpa [VideoOperation.switchesOff] using shown
    have changed : { v.raster.registers with control := value }.lcdOn = true := still
    unfold writeControl
    dsimp only
    rw [on, changed]
    exact ⟨changed, rfl⟩
  all_goals exact ⟨on, rfl⟩

theorem beam_operate (h : v.raster.InRange) (on : v.raster.registers.lcdOn = true)
    (op : VideoOperation) (shown : op.switchesOff = false) :
    (v.operate op).1.raster.registers.lcdOn = true ∧
      (v.operate op).1.raster.position =
        (v.raster.position + op.dots) % Raster.dotsPerFrame := by
  have place := (passed_zero h).position
  cases op with
  | tick palette dots =>
    have passed := passed_tick palette dots h on
    exact ⟨passed.on.trans on, passed.position⟩
  | write palette address value =>
    obtain ⟨still, same⟩ := beam_write palette address value on shown
    exact ⟨still, same.trans place⟩
  | store vram oam => exact ⟨on, place⟩
  | takeFrame => exact ⟨on, place⟩

def operations (ops : List VideoOperation) (v : Video) : Video :=
  ops.foldl (fun v op => (v.operate op).1) v

theorem operations_snoc (ops : List VideoOperation) (op : VideoOperation) (v : Video) :
    v.operations (ops ++ [op]) = ((v.operations ops).operate op).1 := by
  unfold operations
  rw [List.foldl_append]
  rfl

theorem beam_operations (ops : List VideoOperation) (h : v.raster.InRange)
    (on : v.raster.registers.lcdOn = true) (shown : ∀ op ∈ ops, op.switchesOff = false) :
    (v.operations ops).raster.InRange ∧ (v.operations ops).raster.registers.lcdOn = true ∧
      (v.operations ops).raster.position =
        (v.raster.position + (ops.map VideoOperation.dots).sum) % Raster.dotsPerFrame := by
  induction ops generalizing v with
  | nil => exact ⟨h, on, (passed_zero h).position⟩
  | cons op ops ih =>
    obtain ⟨first, rest⟩ := List.forall_mem_cons.mp shown
    obtain ⟨on, moved⟩ := beam_operate h on op first
    obtain ⟨inRange, on, position⟩ := ih (inRange_operate h op) on rest
    refine ⟨inRange, on, ?_⟩
    rw [List.map_cons, List.sum_cons, ← Nat.add_assoc, ← Nat.mod_add_mod, ← moved]
    exact position

/-- The picture unit keeps time to the dot. -/
theorem keeps_time (reached : v.Reachable image settings)
    (on : v.raster.registers.lcdOn = true) (ops : List VideoOperation)
    (shown : ∀ op ∈ ops, op.switchesOff = false) (palette : Palette) :
    (v.operations ops).raster.position =
        (v.raster.position + (ops.map VideoOperation.dots).sum) % 70224 ∧
      (v.operations ops).raster.OnTime ∧
      (.verticalBlank ∈ ((v.operations ops).tick palette 1 ∅).2 ↔
        ((v.operations ops).tick palette 1 ∅).1.raster.position = 144 * 456) ∧
      (((v.operations ops).tick palette 1 ∅).1.frameReady = true ↔
        (v.operations ops).frameReady = true ∨
          ((v.operations ops).tick palette 1 ∅).1.raster.position = 0) := by
  obtain ⟨inRange, on, position⟩ := beam_operations ops reached.inRange on shown
  have passed := passed_tick palette 1 inRange on
  refine ⟨position, inRange.onTime on, ?_, ?_⟩
  · rw [passed.blank, Raster.meets_one, passed.position]
    rfl
  · rw [passed.ready, Raster.meets_one, passed.position]

def toLastDot : List VideoOperation :=
  [.tick Settings.standard.colors 65600, .write Settings.standard.colors 0xFF43 3,
    .tick Settings.standard.colors 63]

/-- The next dot requests the vertical blank. -/
theorem keeps_time_powerOn :
    ∃ v : Video, v.Reachable Image.blank .standard ∧
      (v.operations toLastDot).raster.position = 65663 ∧
      .verticalBlank ∈ ((v.operations toLastDot).tick Settings.standard.colors 1 ∅).2 := by
  obtain ⟨header, accepted⟩ := Header.parse_blank
  have reached : (powerOn Settings.standard.colors).Reachable Image.blank .standard :=
    .board _ (.powerOn _ (Console.powerOn_started accepted .standard))
  have on : (powerOn Settings.standard.colors).raster.registers.lcdOn = true := by decide
  have start : (powerOn Settings.standard.colors).raster.position = 0 := by decide
  have before := keeps_time reached on toLastDot (by decide) Settings.standard.colors
  have after := keeps_time reached on (toLastDot ++ [.tick Settings.standard.colors 1])
    (by decide) Settings.standard.colors
  have here : (0 + (toLastDot.map VideoOperation.dots).sum) % 70224 = 65663 := by decide
  have next : (0 + ((toLastDot ++ [VideoOperation.tick Settings.standard.colors 1]).map
      VideoOperation.dots).sum) % 70224 = 144 * 456 := by decide
  rw [start, here] at before
  rw [start, next, operations_snoc] at after
  exact ⟨_, reached, before.1, before.2.2.1.mpr after.1⟩

end Video
end DotMatrix
