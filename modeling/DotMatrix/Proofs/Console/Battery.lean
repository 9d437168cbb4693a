import DotMatrix.Proofs.Cartridge.ExternalRam
import DotMatrix.Proofs.Console.Genuine
import DotMatrix.Proofs.Safe.PowerOn

/-! Battery memory in the hands of the host. What one console hands out, every other console with
the same image takes back byte for byte: no cell ever holds a bit that the cartridge has no room
for, so that nothing is lost on the way in. -/
namespace DotMatrix

theorem Header.kept_kept (header : Header) (value : UInt8) :
    header.kept (header.kept value) = header.kept value := by
  unfold kept
  split
  · rw [UInt8.and_assoc, UInt8.and_self]
  · rfl

theorem Header.lt_of_kept {header : Header} (mbc2 : header.hardware.mapper = .mbc2)
    {byte : UInt8} (kept : header.kept byte = byte) : byte < 16 := by
  have low : byte &&& 0x0F = byte := (if_pos mbc2).symm.trans kept
  rw [← low]
  exact UInt8.lt_of_le_of_lt UInt8.and_le_right (by decide)

namespace Mapper

def registers (m : Mapper) : Mapper := m.updateClock fun _ => .start

theorem ramCell_registers (address : UInt16) (ramSize : Nat) (m : Mapper) :
    m.registers.ramCell address ramSize = m.ramCell address ramSize := by
  cases m with
  | mbc3 m => simp [registers, updateClock, ramCell]
  | _ => rfl

end Mapper

namespace Cartridge
variable {header : Header} {c loaded : Cartridge}

def Clean (header : Header) (c : Cartridge) : Prop := ∀ byte ∈ c.ram, header.kept byte = byte

namespace Clean

theorem of_wide (wide : header.hardware.mapper ≠ .mbc2) : c.Clean header := by
  intro byte _
  exact if_neg wide

theorem powerOn (header : Header) : (Cartridge.powerOn header).Clean header := by
  intro byte inside
  obtain rfl := Array.eq_of_mem_replicate inside
  unfold Header.kept
  split <;> rfl

theorem writeRam (clean : c.Clean header) (h : c.Fits header) (address : UInt16) (value : UInt8) :
    (c.writeRam address value).Clean header := by
  by_cases mbc2 : header.hardware.mapper = .mbc2
  · have kind := h.kind_eq.trans mbc2
    unfold Cartridge.writeRam
    cases leads : c.mapper.ramCell address c.ram.size with
    | unmapped => exact clean
    | clock select => exact clean
    | byte index =>
      cases plugged : c.mapper with
      | mbc2 m =>
        rw [plugged, Mapper.ramCell] at leads
        split at leads <;> cases leads
      | _ =>
        rw [plugged] at kind
        cases kind
    | nibble index =>
      intro byte inside
      apply (Array.mem_or_eq_of_mem_setIfInBounds inside).elim (clean byte)
      rintro rfl
      have masked : header.kept value = value &&& 0x0F := if_pos mbc2
      rw [← masked, header.kept_kept]
  · exact of_wide mbc2

theorem loadBattery (h : c.Fits header) {data : Array UInt8}
    (accepted : c.loadBattery data = .ok loaded) : loaded.Clean header := by
  have ram := ram_loadBattery h data
  rw [accepted] at ram
  intro byte inside
  have size : data.size = header.ramSize := by
    unfold Cartridge.loadBattery at accepted
    split at accepted
    · cases accepted
    · rw [← h.ramSize_eq]
      simpa using ‹¬data.size ≠ _›
  rw [if_pos size] at ram
  have inside : byte ∈ data.map header.kept := ram ▸ inside
  obtain ⟨value, _, rfl⟩ := Array.mem_map.mp inside
  exact header.kept_kept value

theorem reset (header : Header) (old : Cartridge) :
    (Console.resetCartridge header old).Clean header := by
  unfold Console.resetCartridge
  dsimp only
  split
  · exact powerOn header
  · rename_i ram _
    cases loaded : (Cartridge.powerOn header).loadBattery ram with
    | error refusal => exact powerOn header
    | ok c => exact loadBattery (fits_powerOn header) loaded

end Clean

theorem loadBattery_eq_ok (h : c.Fits header) {data : Array UInt8}
    (size : data.size = header.ramSize) (clean : ∀ byte ∈ data, header.kept byte = byte) :
    c.loadBattery data = .ok { c with ram := data } := by
  have unchanged : data.map header.kept = data := by
    rw [Array.map_congr_left clean, Array.map_id']
  have ram := ram_loadBattery h data
  rw [if_pos size, unchanged] at ram
  unfold loadBattery at ram ⊢
  rw [if_neg (not_not_intro (size.trans h.ramSize_eq.symm))] at ram ⊢
  split
  case h_1 mbc2 =>
    rw [mbc2] at ram
    exact congrArg (fun ram => Except.ok { c with ram }) ram
  case h_2 => rfl

theorem readRam_congr {address : UInt16} {d : Cartridge} (ram : d.ram = c.ram)
    (registers : d.mapper.registers = c.mapper.registers)
    (clockless : ∀ select, c.mapper.ramCell address c.ram.size ≠ .clock select) :
    d.readRam address = c.readRam address := by
  have leads : d.mapper.ramCell address c.ram.size = c.mapper.ramCell address c.ram.size := by
    rw [← Mapper.ramCell_registers, registers, Mapper.ramCell_registers]
  unfold readRam
  rw [ram, leads]
  cases cell : c.mapper.ramCell address c.ram.size with
  | clock select => exact absurd cell (clockless select)
  | _ => rfl

end Cartridge

namespace LiveBoard
variable {header : Header} {image : Image} {settings : Settings} {live next : LiveBoard}
  {event : Event}

theorem read_window {address : UInt16} (first : 0xA000 ≤ address) (past : address < 0xC000)
    (live : LiveBoard) : live.read address = live.board.cartridge.readRam address := by
  have region := (Region.ofAddress_eq_cartridgeRam address).mpr ⟨first, past⟩
  unfold read
  rw [region]

/-- The RAM of a board in range stays clean. -/
theorem clean_undergo (h : live.InRange image settings header)
    (clean : live.board.cartridge.Clean header) (happens : live.undergo event = .ok next) :
    next.board.cartridge.Clean header := by
  have write (address : UInt16) (value : UInt8) :
      (live.write address value).board.cartridge.Clean header := by
    rw [cartridge_write]
    unfold BusOperation.onCartridge
    dsimp only
    split
    · exact clean
    · split
      · exact clean.writeRam h.board.cartridge address value
      · exact clean
  cases event with
  | access access =>
    cases happens
    cases access with
    | read => exact clean
    | write address value => exact write address value
  | withdraw =>
    cases happens
    exact write _ _
  | tick n =>
    obtain ⟨cycles, rfl⟩ := elapsed_of_tick happens
    exact clean
  | _ =>
    cases happens
    exact clean

end LiveBoard

namespace Console
variable {image : Image} {least : Nat} {settings own : Settings} {header : Header} {a b c : Console}

theorem Genuine.clean (h : c.Genuine image least settings) :
    c.machine.bus.board.cartridge.Clean c.header := by
  induction h with
  | powerOn settings c on =>
    obtain ⟨header, _, rfl⟩ := powerOn_eq_ok.mp on
    exact .powerOn header
  | frame settings c steps held output next before enough runs ih =>
    obtain ⟨machine, ran, _, result⟩ := runCapped_eq_ok.mp runs
    cases result
    have start := (before.inRange.beginFrame held).bus
    exact (Wired.runSteps_keeps
      (fun live event next (h : live.InRange image settings c.header ∧
          live.board.cartridge.Clean c.header) happens =>
        ⟨h.1.undergo happens, LiveBoard.clean_undergo h.1 h.2 happens⟩) ⟨start, ih⟩ ran).2
  | press settings c button held before ih => exact ih
  | event settings c event bus before happens ih =>
    exact LiveBoard.clean_undergo before.inRange.bus ih happens
  | loadBattery settings c data next before accepted ih =>
    have fits := before.inRange.bus.board.cartridge
    unfold Console.loadBattery at accepted
    split at accepted
    · cases accepted
    · rename_i cartridge loaded
      cases accepted
      exact Cartridge.Clean.loadBattery fits loaded
  | reset settings c before ih => exact .reset c.header c.machine.bus.board.cartridge
  | resume settings own c saved next before kept accepted ih ih' =>
    have same : c.header = saved.header :=
      Except.ok.inj (before.inRange.header.symm.trans kept.inRange.header)
    rw [before.resumed kept accepted]
    change saved.machine.bus.board.cartridge.Clean c.header
    rw [same]
    exact ih'

theorem InRange.batteryRam?_eq (h : c.InRange image settings) :
    c.batteryRam? =
      if c.header.hardware.battery ∧ 0 < c.header.ramSize then
        some c.machine.bus.board.cartridge.ram
      else none := by
  have fits := h.bus.board.cartridge
  have battery : c.machine.bus.board.cartridge.battery = c.header.hardware.battery := fits.battery
  have size := fits.ramSize_eq
  unfold batteryRam? Cartridge.batteryRam?
  rw [battery, ← size]
  simp [Array.size_pos_iff]

theorem InRange.loadBattery_eq_ok (h : c.InRange image settings) {data : Array UInt8}
    (size : data.size = c.header.ramSize) (clean : ∀ byte ∈ data, c.header.kept byte = byte) :
    c.loadBattery data =
      .ok (c.updateBoard fun b => { b with cartridge := { b.cartridge with ram := data } }) := by
  unfold Console.loadBattery
  rw [Cartridge.loadBattery_eq_ok h.bus.board.cartridge size clean]
  rfl

theorem InRange.loadBattery_eq_error (h : c.InRange image settings) {data : Array UInt8}
    (size : data.size ≠ c.header.ramSize) :
    c.loadBattery data = .error (.batteryLength c.header.ramSize data.size) := by
  unfold Console.loadBattery Cartridge.loadBattery
  rw [h.bus.board.cartridge.ramSize_eq, if_pos size]

/-- Battery memory survives on the host. Whatever has happened to two consoles with the same image,
what the one hands out is all of its RAM, the other takes it and hands the same bytes out again, and
under the same registers programs read there what they read in the first. Data of any other length
is refused, with both lengths in the refusal, and changes nothing. -/
theorem battery_survives (accepted : Header.parse image = .ok header)
    (battery : header.hardware.battery = true) (hasRam : 0 < header.ramSize)
    (h : a.Genuine image 0 settings) (h' : b.Genuine image 0 own) :
    ∃ data restored, a.batteryRam? = some data ∧ data.size = header.ramSize ∧
      (header.hardware.mapper = .mbc2 → ∀ byte ∈ data, byte < 16) ∧
      b.loadBattery data = .ok restored ∧ restored.batteryRam? = some data ∧
      (b.machine.bus.board.cartridge.mapper.registers =
          a.machine.bus.board.cartridge.mapper.registers →
        ∀ address, 0xA000 ≤ address → address < 0xC000 →
          (∀ select, a.machine.bus.board.cartridge.mapper.ramCell address header.ramSize ≠
            .clock select) →
          restored.read address = a.read address) ∧
      ∀ other : Array UInt8, other.size ≠ header.ramSize →
        b.loadBattery other = .error (.batteryLength header.ramSize other.size) ∧
          b.serve (.loadBattery other) = .ok b := by
  obtain rfl : a.header = header := Except.ok.inj (h.inRange.header.symm.trans accepted)
  have same : b.header = a.header := Except.ok.inj (h'.inRange.header.symm.trans accepted)
  have size := h.inRange.bus.board.cartridge.ramSize_eq
  have loads := h'.inRange.loadBattery_eq_ok (size.trans (congrArg _ same.symm))
    (same.symm ▸ h.clean)
  have restored := h'.inRange.loadBattery loads
  refine ⟨_, _, ?_, size, ?_, loads, ?_, ?_, ?_⟩
  · rw [h.inRange.batteryRam?_eq, if_pos ⟨battery, hasRam⟩]
  · intro mbc2 byte inside
    exact Header.lt_of_kept mbc2 (h.clean byte inside)
  · rw [restored.batteryRam?_eq]
    apply if_pos
    exact ⟨same ▸ battery, same ▸ hasRam⟩
  · intro registers address first past clockless
    rw [Console.read, Console.read, LiveBoard.read_window first past,
      LiveBoard.read_window first past]
    refine Cartridge.readRam_congr ?_ registers ?_
    · rfl
    · rw [size]
      exact clockless
  · intro other length
    have refused := h'.inRange.loadBattery_eq_error (same.symm ▸ length)
    rw [same] at refused
    refine ⟨refused, ?_⟩
    rw [serve, refused]
    rfl

end Console

def Image.halfByte (offset : Nat) : UInt8 :=
  if offset = 0x0147 then 0x06 else if offset = 0x014D then 0xE1 else 0

def Image.halfBytes : Image := ofBytes 0x8000 halfByte

theorem Image.byte_halfBytes {offset : Nat} (inside : offset < 0x8000) :
    halfBytes.byte offset = halfByte offset :=
  byte_ofBytes halfByte inside

theorem Image.headerChecksum_halfBytes : Image.halfBytes.headerChecksum = 0xE1 :=
  (headerChecksum_ofBytes halfByte (by decide)).trans (by decide)

theorem Header.parse_halfBytes : ∃ header, Header.parse Image.halfBytes = .ok header ∧
    header.hardware = ⟨.mbc2, true, true, false, false⟩ ∧ header.ramSize = 512 := by
  have size : ByteArray.size Image.halfBytes = 0x8000 := Image.size_ofBytes ..
  have checksum : Image.halfBytes.byte 0x014D = 0xE1 := Image.byte_halfBytes (by decide)
  have type : Image.halfBytes.byte 0x0147 = 0x06 := Image.byte_halfBytes (by decide)
  have rom : Image.halfBytes.byte 0x0148 = 0x00 := Image.byte_halfBytes (by decide)
  have ram : Image.halfBytes.byte 0x0149 = 0x00 := Image.byte_halfBytes (by decide)
  unfold Header.parse
  simp only [size, Image.headerChecksum_halfBytes, checksum, type, rom, ram]
  exact ⟨_, rfl, rfl, rfl⟩

namespace Console

theorem Genuine.exists_halfBytes : ∃ c data, Genuine Image.halfBytes 0 .standard c ∧
    c.batteryRam? = some data ∧ data[0]? = some 0x07 := by
  obtain ⟨header, accepted, hardware, size⟩ := Header.parse_halfBytes
  have fresh : Genuine Image.halfBytes 0 .standard (started _ .standard header) :=
    .powerOn _ _ (powerOn_started accepted .standard)
  have battery : header.hardware.battery = true := hardware ▸ rfl
  have hasRam : 0 < header.ramSize := size ▸ by decide
  have stored := (fresh.write 0x0000 0x0A).write 0xA000 0xF7
  refine ⟨_, _, stored, stored.inRange.batteryRam?_eq.trans (if_pos ⟨battery, hasRam⟩), ?_⟩
  have enabled : (Cartridge.powerOn header).writeRom 0x0000 0x0A =
      ⟨Array.replicate 512 0, .mbc2 ⟨true, 1⟩, UInt64.ofNat (max header.romBanks 1), true⟩ := by
    rw [Cartridge.powerOn, size, hardware]
    rfl
  have cell : Mapper.ramCell 0xA000 512 (.mbc2 ⟨true, 1⟩) = .nibble 0 := rfl
  change (LiveBoard.write 0xA000 0xF7 (LiveBoard.write 0x0000 0x0A _)).board.cartridge.ram[0]? = _
  rw [LiveBoard.cartridge_write, LiveBoard.cartridge_write]
  change (Cartridge.writeRam 0xA000 0xF7 (Cartridge.writeRom 0x0000 0x0A
    (Cartridge.powerOn header))).ram[0]? = _
  rw [enabled, Cartridge.writeRam, Array.size_replicate, cell]
  dsimp only
  rw [Array.getElem?_setIfInBounds, if_pos rfl, if_pos (by simp)]
  rfl

/-- A fresh console takes what it left. -/
theorem battery_survives_halfBytes :
    ∃ a b data restored, Genuine Image.halfBytes 0 .standard a ∧
      Genuine Image.halfBytes 0 .standard b ∧ a.batteryRam? = some data ∧
      data[0]? = some 0x07 ∧ b.loadBattery data = .ok restored ∧
      restored.batteryRam? = some data := by
  obtain ⟨a, data, stored, handed, cell⟩ := Genuine.exists_halfBytes
  obtain ⟨header, accepted, hardware, size⟩ := Header.parse_halfBytes
  have fresh : Genuine Image.halfBytes 0 .standard (started _ .standard header) :=
    .powerOn _ _ (powerOn_started accepted .standard)
  obtain ⟨_, restored, same, -, -, taken, again, -⟩ :=
    battery_survives accepted (hardware ▸ rfl) (size ▸ by decide) stored fresh
  obtain rfl := Option.some.inj (handed.symm.trans same)
  exact ⟨a, _, data, restored, stored, fresh, handed, cell, taken, again⟩

end Console
end DotMatrix
