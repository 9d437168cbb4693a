import DotMatrix.Proofs.Time.Wrapping

/-! What can be done to a board on its bus, and how much of it reaches the cartridge in the slot.
A sequence of such operations goes through for as long as the counter of cycles has room. -/
namespace DotMatrix

/-- An access, a stretch of time, or a call that the host makes on the board. -/
inductive BusOperation where
  | read (address : UInt16)
  | write (address : UInt16) (value : UInt8)
  | tick (cycles : Nat)
  | hold (held : ButtonSet)
  | press (button : Button) (held : Bool)
  | loadBattery (data : Array UInt8)
  | takeStall
  | takeRaised
  | takeSamples
  | configure (settings : Settings)

namespace BusOperation

def cycles : BusOperation → Nat
  | .tick cycles => cycles
  | _ => 0

/-- What an operation does to the cartridge. A refused battery memory leaves it as it was. -/
def onCartridge (op : BusOperation) (c : Cartridge) : Cartridge :=
  match op with
  | .write address value =>
    if address < 0x8000 then c.writeRom address value
    else if 0xA000 ≤ address ∧ address < 0xC000 then c.writeRam address value
    else c
  | .tick cycles => c.tick cycles
  | .loadBattery data => (c.loadBattery data).toOption.getD c
  | _ => c

theorem onCartridge_window {address : UInt16} (first : 0xA000 ≤ address)
    (past : address < 0xC000) (value : UInt8) (c : Cartridge) :
    (write address value).onCartridge c = c.writeRam address value := by
  have above : ¬ address < 0x8000 := UInt16.not_lt.mpr (UInt16.le_trans (by decide) first)
  unfold onCartridge
  dsimp only
  rw [if_neg above, if_pos ⟨first, past⟩]

end BusOperation

namespace Region

theorem ofRegister_ne (address : UInt16) :
    ofRegister address ≠ .rom ∧ ofRegister address ≠ .cartridgeRam := by
  unfold ofRegister
  repeat' split
  all_goals decide

theorem ofAddress_eq_rom (address : UInt16) : ofAddress address = .rom ↔ address < 0x8000 := by
  have register := (ofRegister_ne address).1
  simp only [UInt16.lt_iff_toNat_lt, UInt16.reduceToNat]
  unfold ofAddress
  dsimp only
  repeat' split
  all_goals simp_all

theorem ofAddress_eq_cartridgeRam (address : UInt16) :
    ofAddress address = .cartridgeRam ↔ 0xA000 ≤ address ∧ address < 0xC000 := by
  have register := (ofRegister_ne address).2
  simp only [UInt16.lt_iff_toNat_lt, UInt16.le_iff_toNat_le, UInt16.reduceToNat]
  unfold ofAddress
  dsimp only
  repeat' split
  all_goals simp_all
  all_goals omega

def sole? : Region → Option UInt16
  | .serialData => some 0xFF01
  | .serialControl => some 0xFF02
  | .interruptRequest => some 0xFF0F
  | .oamTransfer => some 0xFF46
  | _ => none

theorem sole?_ofRegister {address register : UInt16}
    (sole : sole? (ofRegister address) = some register) : address = register := by
  unfold ofRegister at sole
  repeat' split at sole
  all_goals cases sole <;> assumption

theorem sole?_ofAddress {address register : UInt16}
    (sole : sole? (ofAddress address) = some register) : address = register := by
  refine sole?_ofRegister ?_
  unfold ofAddress at sole
  dsimp only at sole
  repeat' split at sole
  all_goals first | exact sole | cases sole

theorem ofAddress_eq_iff {region : Region} {register : UInt16}
    (sole : sole? region = some register) (address : UInt16) :
    ofAddress address = region ↔ address = register := by
  constructor
  · rintro rfl
    exact sole?_ofAddress sole
  · rintro rfl
    cases region <;> cases sole <;> rfl

theorem ofAddress_eq_interruptRequest (address : UInt16) :
    ofAddress address = .interruptRequest ↔ address = 0xFF0F :=
  ofAddress_eq_iff rfl address

theorem ofAddress_eq_oamTransfer (address : UInt16) :
    ofAddress address = .oamTransfer ↔ address = 0xFF46 :=
  ofAddress_eq_iff rfl address

end Region

namespace LiveBoard
variable {live next : LiveBoard}

def operate (live : LiveBoard) : BusOperation → Except Fault LiveBoard
  | .read address => .ok (Bus.read address live).2
  | .write address value => .ok (Bus.write address value live)
  | .tick cycles => live.tick cycles
  | .hold held => .ok (live.update (Board.hold held))
  | .press button held => .ok (live.update (Board.press button held))
  | .loadBattery data => .ok (live.update fun b =>
      { b with cartridge := (b.cartridge.loadBattery data).toOption.getD b.cartridge })
  | .takeStall => .ok live.takeStall.2
  | .takeRaised => .ok (live.update fun b => b.takeRaised.2)
  | .takeSamples => .ok live.takeSamples.2
  | .configure settings => .ok { live with settings }

theorem image_write (address : UInt16) (value : UInt8) (live : LiveBoard) :
    (live.write address value).image = live.image := by
  obtain ⟨board, sent, written, -⟩ := write_eq address value live
  rw [written]

theorem cartridge_write_region (address : UInt16) (value : UInt8) (live : LiveBoard) :
    (live.write address value).board.cartridge =
      match Region.ofAddress address with
      | .rom => live.board.cartridge.writeRom address value
      | .cartridgeRam => live.board.cartridge.writeRam address value
      | _ => live.board.cartridge := by
  unfold write
  cases Region.ofAddress address with
  | vram | oam =>
    dsimp only
    split <;> rfl
  | oamTransfer =>
    unfold transfer
    rfl
  | _ => rfl

theorem cartridge_write (address : UInt16) (value : UInt8) (live : LiveBoard) :
    (live.write address value).board.cartridge =
      (BusOperation.write address value).onCartridge live.board.cartridge := by
  have rom := Region.ofAddress_eq_rom address
  have ram := Region.ofAddress_eq_cartridgeRam address
  rw [cartridge_write_region]
  unfold BusOperation.onCartridge
  dsimp only
  simp only [← rom, ← ram]
  cases Region.ofAddress address <;> rfl

theorem cartridge_operate {op : BusOperation} (operates : live.operate op = .ok next) :
    next.board.cartridge = op.onCartridge live.board.cartridge := by
  cases op with
  | write address value =>
    cases operates
    exact cartridge_write address value live
  | tick cycles =>
    obtain ⟨counter, rfl⟩ := elapsed_of_tick operates
    rfl
  | _ =>
    cases operates
    rfl

theorem image_operate {op : BusOperation} (operates : live.operate op = .ok next) :
    next.image = live.image := by
  cases op with
  | write address value =>
    cases operates
    exact image_write address value live
  | tick cycles =>
    obtain ⟨counter, rfl⟩ := elapsed_of_tick operates
    rfl
  | _ =>
    cases operates
    rfl

theorem exists_operate (live : LiveBoard) (op : BusOperation)
    (room : live.board.cycles.toNat + op.cycles < UInt64.size) :
    ∃ next, live.operate op = .ok next ∧
      next.board.cycles.toNat = live.board.cycles.toNat + op.cycles := by
  cases op with
  | write address value =>
    exact ⟨_, rfl, congrArg UInt64.toNat (cycles_write address value live)⟩
  | tick cycles =>
    refine ⟨live.pass cycles, ?_, toNat_add_ofNat room⟩
    rw [operate, tick_eq_if]
    exact if_pos room
  | _ => exact ⟨_, rfl, rfl⟩

theorem exists_operations (ops : List BusOperation) (live : LiveBoard)
    (room : live.board.cycles.toNat + (ops.map BusOperation.cycles).sum < UInt64.size) :
    ∃ last, ops.foldlM operate live = .ok last := by
  induction ops generalizing live with
  | nil => exact ⟨live, rfl⟩
  | cons op ops ih =>
    rw [List.map_cons, List.sum_cons] at room
    obtain ⟨next, operates, time⟩ := exists_operate live op (by omega)
    obtain ⟨last, rest⟩ := ih next (by omega)
    refine ⟨last, ?_⟩
    rw [List.foldlM_cons, operates]
    exact rest

theorem slot_operations {ops : List BusOperation} {last : LiveBoard}
    (operates : ops.foldlM operate live = .ok last) :
    last.image = live.image ∧
      last.board.cartridge = ops.foldl (fun c op => op.onCartridge c) live.board.cartridge := by
  induction ops generalizing live with
  | nil =>
    cases operates
    exact ⟨rfl, rfl⟩
  | cons op ops ih =>
    obtain ⟨next, first, rest⟩ := Except.foldlM_cons_eq_ok.mp operates
    obtain ⟨image, cartridge⟩ := ih rest
    rw [image, cartridge, image_operate first, cartridge_operate first, List.foldl_cons]
    exact ⟨rfl, rfl⟩

end LiveBoard
end DotMatrix
