import DotMatrix.Proofs.Range.Clock
import DotMatrix.Console.Basic

/-! A cartridge stays the hardware that its header describes, whatever is written to it. -/
namespace DotMatrix
namespace Mapper

def clock? : Mapper → Option Clock
  | .mbc3 m => m.clock
  | _ => Option.none

theorem kind_powerOn (hardware : Hardware) : (powerOn hardware).kind = hardware.mapper := by
  unfold powerOn
  cases hardware.mapper <;> rfl

theorem clock?_powerOn (hardware : Hardware) :
    (powerOn hardware).clock? =
      if hardware.mapper = .mbc3 ∧ hardware.clock = true then some .start else Option.none := by
  obtain ⟨kind, _, _, clocked, _⟩ := hardware
  cases kind <;> cases clocked <;> rfl

theorem kind_write (address : UInt16) (value : UInt8) (m : Mapper) :
    (m.write address value).kind = m.kind := by
  cases m <;> rfl

theorem kind_updateClock (change : Clock → Clock) (m : Mapper) :
    (m.updateClock change).kind = m.kind := by
  cases m <;> rfl

theorem clock?_updateClock (change : Clock → Clock) (m : Mapper) :
    (m.updateClock change).clock? = m.clock?.map change := by
  cases m <;> rfl

theorem clock?_write_eq (address : UInt16) (value : UInt8) (m : Mapper) :
    (m.write address value).clock? =
      if address < 0x6000 then m.clock? else m.clock?.map (Clock.writeLatch value) := by
  cases m with
  | mbc3 m =>
    simp only [write, clock?, Mbc3.write, UInt16.lt_iff_toNat_lt, UInt16.reduceToNat]
    repeat' split
    all_goals first | rfl | omega
  | _ => exact (ite_self _).symm

theorem clock?_write (address : UInt16) (value : UInt8) (m : Mapper) :
    (m.write address value).clock? = m.clock? ∨
      (m.write address value).clock? = m.clock?.map (Clock.writeLatch value) := by
  rw [clock?_write_eq]
  split
  · exact .inl rfl
  · exact .inr rfl

end Mapper

namespace Cartridge

/-- The same hardware in another state; the clock, if there is one, is in its ranges. -/
structure Replaces (live saved : Cartridge) : Prop where
  kind : saved.mapper.kind = live.mapper.kind
  ram : saved.ram.size = live.ram.size
  romBanks : saved.romBanks = live.romBanks
  battery : saved.battery = live.battery
  clocked : saved.mapper.clock?.isSome = live.mapper.clock?.isSome
  clock : ∀ clock ∈ saved.mapper.clock?, clock.InRange

theorem mapper_checkLayout_eq_ok (live saved : Mapper) (kind : saved.kind = live.kind) :
    live.checkLayout saved = .ok () ↔
      saved.clock?.isSome = live.clock?.isSome ∧ ∀ clock ∈ saved.clock?, clock.InRange := by
  cases live with
  | mbc3 live =>
    cases saved with
    | mbc3 saved =>
      obtain ⟨_, _, _, clock⟩ := live
      obtain ⟨_, _, _, clock'⟩ := saved
      cases clock <;> cases clock' <;>
        simp [Mapper.checkLayout, Mapper.clock?, Clock.checkLayout_eq_ok]
    | _ => cases kind
  | _ =>
    cases saved with
    | mbc3 saved => cases kind
    | _ => simp [Mapper.checkLayout, Mapper.clock?]

theorem checkLayout_eq_ok (live saved : Cartridge) :
    live.checkLayout saved = .ok () ↔ live.Replaces saved := by
  simp only [checkLayout, Except.andThen_eq_ok, require_eq_ok, Bool.and_eq_true, beq_iff_eq]
  constructor
  · rintro ⟨⟨kind, ram⟩, ⟨banks, battery⟩, clock⟩
    obtain ⟨clocked, inRange⟩ := (mapper_checkLayout_eq_ok _ _ kind).mp clock
    exact ⟨kind, ram, banks, battery, clocked, inRange⟩
  · intro h
    exact ⟨⟨h.kind, h.ram⟩, ⟨h.romBanks, h.battery⟩,
      (mapper_checkLayout_eq_ok _ _ h.kind).mpr ⟨h.clocked, h.clock⟩⟩

/-- The cartridge is what the header describes. -/
abbrev Fits (header : Header) (c : Cartridge) : Prop := (powerOn header).Replaces c

theorem Fits.replaces {header : Header} {live saved : Cartridge} (h : live.Fits header)
    (h' : saved.Fits header) : live.Replaces saved where
  kind := h'.kind.trans h.kind.symm
  ram := h'.ram.trans h.ram.symm
  romBanks := h'.romBanks.trans h.romBanks.symm
  battery := h'.battery.trans h.battery.symm
  clocked := h'.clocked.trans h.clocked.symm
  clock := h'.clock

theorem fits_of_replaces {header : Header} {live saved : Cartridge} (h : live.Fits header)
    (h' : live.Replaces saved) : saved.Fits header where
  kind := h'.kind.trans h.kind
  ram := h'.ram.trans h.ram
  romBanks := h'.romBanks.trans h.romBanks
  battery := h'.battery.trans h.battery
  clocked := h'.clocked.trans h.clocked
  clock := h'.clock

theorem fits_powerOn (header : Header) : (powerOn header).Fits header := by
  refine ⟨rfl, rfl, rfl, rfl, rfl, ?_⟩
  intro clock present
  rw [powerOn, Mapper.clock?_powerOn] at present
  split at present
  · obtain rfl := Option.mem_some_iff.mp present
    exact .start
  · cases present

namespace Fits
variable {header : Header} {c : Cartridge}

theorem kind_eq (h : c.Fits header) : c.mapper.kind = header.hardware.mapper :=
  h.kind.trans (Mapper.kind_powerOn header.hardware)

theorem ramSize_eq (h : c.Fits header) : c.ram.size = header.ramSize := by
  rw [h.ram, Cartridge.powerOn, Array.size_replicate]

theorem writeRom (h : c.Fits header) (address : UInt16) (value : UInt8) :
    (c.writeRom address value).Fits header := by
  refine ⟨(Mapper.kind_write _ _ _).trans h.kind, h.ram, h.romBanks, h.battery, ?_, ?_⟩
  · rcases Mapper.clock?_write address value c.mapper with same | latched
    · exact (congrArg Option.isSome same).trans h.clocked
    · rw [Cartridge.writeRom, latched, Option.isSome_map]
      exact h.clocked
  · rcases Mapper.clock?_write address value c.mapper with same | latched
    · rw [Cartridge.writeRom, same]
      exact h.clock
    · rw [Cartridge.writeRom, latched]
      intro clock present
      obtain ⟨before, there, rfl⟩ := Option.map_eq_some_iff.mp present
      exact (h.clock before there).writeLatch value

theorem updateClock (h : c.Fits header) {change : Clock → Clock}
    (keeps : ∀ clock : Clock, clock.InRange → (change clock).InRange) :
    { c with mapper := c.mapper.updateClock change }.Fits header := by
  refine ⟨(Mapper.kind_updateClock _ _).trans h.kind, h.ram, h.romBanks, h.battery, ?_, ?_⟩
  · rw [Mapper.clock?_updateClock, Option.isSome_map]
    exact h.clocked
  · rw [Mapper.clock?_updateClock]
    intro clock present
    obtain ⟨before, there, rfl⟩ := Option.map_eq_some_iff.mp present
    exact keeps before (h.clock before there)

theorem replaceRam (h : c.Fits header) {ram : Array UInt8} (size : ram.size = c.ram.size) :
    { c with ram }.Fits header :=
  ⟨h.kind, size.trans h.ram, h.romBanks, h.battery, h.clocked, h.clock⟩

theorem writeRam (h : c.Fits header) (address : UInt16) (value : UInt8) :
    (c.writeRam address value).Fits header := by
  unfold Cartridge.writeRam
  split
  · exact h
  · exact h.replaceRam Array.size_setIfInBounds
  · exact h.replaceRam Array.size_setIfInBounds
  · exact h.updateClock fun _ inRange => inRange.write _ _

theorem tick (h : c.Fits header) (n : Nat) : (c.tick n).Fits header :=
  h.updateClock fun _ inRange => inRange.tick n

theorem loadBattery (h : c.Fits header) {data : Array UInt8} {loaded : Cartridge}
    (accepted : c.loadBattery data = .ok loaded) : loaded.Fits header := by
  unfold Cartridge.loadBattery at accepted
  split at accepted
  · cases accepted
  · rename_i size
    have size : data.size = c.ram.size := by simpa using size
    split at accepted <;> cases accepted
    · exact h.replaceRam (by rw [Array.size_map, size])
    · exact h.replaceRam size

theorem reset (header : Header) (old : Cartridge) :
    (Console.resetCartridge header old).Fits header := by
  have fresh := fits_powerOn header
  unfold Console.resetCartridge
  dsimp only
  split
  · exact fresh
  · rename_i ram _
    cases loaded : (Cartridge.powerOn header).loadBattery ram with
    | error refusal => exact fresh
    | ok c => exact fresh.loadBattery loaded

end Fits
end Cartridge
end DotMatrix
