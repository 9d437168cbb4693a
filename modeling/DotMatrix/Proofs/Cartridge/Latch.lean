import DotMatrix.Proofs.Cartridge.ExternalRam

/-! What a program reads of the clock is a copy of its time. It is taken when 1 is written to the
latch right after 0; whatever is done to the clock before that happens again does not show. -/
namespace DotMatrix
open BankRegister

def BusOperation.latch? : BusOperation → Option UInt8
  | .write address value => if 0x6000 ≤ address ∧ address < 0x8000 then some value else none
  | _ => none

namespace History

def lastLatch? (history : History) : Option UInt8 := history.findSome? BusOperation.latch?

abbrev Latches (past : History) (op : BusOperation) : Prop :=
  op.latch? = some 1 ∧ past.lastLatch? = some 0

def moment? : History → Option History
  | [] => none
  | op :: past => if Latches past op then some past else moment? past

/-- The copy that was taken last; zeros before the first. -/
def copy (header : Header) (history : History) : ClockTime :=
  match history.moment? with
  | none => .zero
  | some past => ((Cartridge.after header past).mapper.clock?.map Clock.time).getD .zero

def Unlatched (history : History) : List BusOperation → Prop
  | [] => True
  | op :: more => ¬history.Latches op ∧ Unlatched (op :: history) more

/-- The window is switched on and shows a register of the clock. -/
structure Shows (history : History) (select : UInt8) : Prop where
  enabled : ramSwitch.after history = true
  selected : mbc3Select.after history = select.toNat
  first : 0x08 ≤ select
  last : select ≤ 0x0C

theorem moment?_unlatched {history : History} {more : List BusOperation}
    (unlatched : history.Unlatched more) :
    moment? (more.reverse ++ history) = history.moment? := by
  induction more generalizing history with
  | nil => rfl
  | cons op more ih =>
    obtain ⟨first, rest⟩ := unlatched
    rw [List.reverse_cons, List.append_assoc]
    refine (ih rest).trans ?_
    rw [moment?, if_neg first]

theorem exists_of_moment? {history past : History} (found : history.moment? = some past) :
    ∃ since, history = since ++ past := by
  induction history with
  | nil => cases found
  | cons op history ih =>
    unfold moment? at found
    split at found
    · cases found
      exact ⟨[op], rfl⟩
    · obtain ⟨since, rfl⟩ := ih found
      exact ⟨op :: since, rfl⟩

end History

namespace Clock
variable {header : Header} {history : History} {op : BusOperation} {clock next : Clock}

/-- The latch of a clock and the copy behind it, by what was done. -/
structure Latched (header : Header) (history : History) (clock : Clock) : Prop where
  lastLatch : clock.lastLatch = history.lastLatch?
  latched : clock.latched = history.copy header

theorem Latched.keep (h : clock.Latched header history) (apart : op.latch? = none)
    (lastLatch : next.lastLatch = clock.lastLatch) (latched : next.latched = clock.latched) :
    next.Latched header (op :: history) := by
  refine ⟨?_, ?_⟩
  · rw [lastLatch, h.lastLatch, History.lastLatch?, History.lastLatch?, List.findSome?_cons, apart]
  · have unlatched : ¬history.Latches op := by simp [apart]
    rw [latched, h.latched, History.copy, History.copy, History.moment?, if_neg unlatched]

theorem Latched.writeLatch (h : clock.Latched header history)
    (plugged : (Cartridge.after header history).mapper.clock? = some clock) {value : UInt8}
    (latch : op.latch? = some value) :
    (clock.writeLatch value).Latched header (op :: history) := by
  refine ⟨?_, ?_⟩
  · rw [History.lastLatch?, List.findSome?_cons, latch]
    rfl
  · have pair : clock.lastLatch = some 0 ∧ value = 1 ↔ history.Latches op := by
      rw [History.Latches, h.lastLatch, latch, Option.some_inj, and_comm]
    unfold Clock.writeLatch History.copy History.moment?
    dsimp only
    split
    case isTrue copies =>
      rw [if_pos (pair.mp copies)]
      dsimp only
      rw [plugged]
      rfl
    case isFalse other =>
      rw [if_neg (mt pair.mpr other)]
      exact h.latched

end Clock

namespace Cartridge
variable {header : Header} {history : History} {op : BusOperation}

theorem clock?_latch {value : UInt8} (latch : op.latch? = some value) (c : Cartridge) :
    (op.onCartridge c).mapper.clock? = c.mapper.clock?.map (Clock.writeLatch value) := by
  cases op with
  | write address byte =>
    unfold BusOperation.latch? at latch
    dsimp only at latch
    split at latch
    case isFalse => cases latch
    case isTrue inside =>
      cases latch
      unfold BusOperation.onCartridge
      dsimp only
      rw [if_pos inside.2]
      exact (Mapper.clock?_write_eq _ _ _).trans (if_neg (UInt16.not_lt.mpr inside.1))
  | _ => cases latch

theorem exists_of_clock?_onCartridge (apart : op.latch? = none) {c : Cartridge} {clock : Clock}
    (plugged : clock ∈ (op.onCartridge c).mapper.clock?) :
    ∃ before ∈ c.mapper.clock?, clock.lastLatch = before.lastLatch ∧
      clock.latched = before.latched := by
  -- Time and writes to the running clock change the clock, and neither the latch nor the copy.
  have changed (change : Clock → Clock) (kept : ∀ k : Clock, (change k).lastLatch = k.lastLatch ∧
      (change k).latched = k.latched) (there : clock ∈ (c.mapper.updateClock change).clock?) :
      ∃ before ∈ c.mapper.clock?, clock.lastLatch = before.lastLatch ∧
        clock.latched = before.latched := by
    rw [Mapper.clock?_updateClock] at there
    obtain ⟨before, inside, rfl⟩ := Option.map_eq_some_iff.mp there
    exact ⟨before, inside, kept before⟩
  cases op with
  | write address value =>
    unfold BusOperation.latch? at apart
    unfold BusOperation.onCartridge at plugged
    dsimp only at apart plugged
    split at plugged
    case isTrue below =>
      have bank : address < 0x6000 := by
        by_contra latch
        rw [if_pos ⟨UInt16.not_lt.mp latch, below⟩] at apart
        cases apart
      exact ⟨clock, ((Mapper.clock?_write_eq _ _ _).trans (if_pos bank)) ▸ plugged, rfl, rfl⟩
    case isFalse above =>
      split at plugged
      · unfold writeRam at plugged
        split at plugged
        case h_4 select _ => exact changed (Clock.write select value) (fun _ => ⟨rfl, rfl⟩) plugged
        all_goals exact ⟨clock, plugged, rfl, rfl⟩
      · exact ⟨clock, plugged, rfl, rfl⟩
  | tick cycles =>
    refine changed (Clock.tick cycles) (fun k => ?_) plugged
    unfold Clock.tick
    split <;> exact ⟨rfl, rfl⟩
  | loadBattery data =>
    unfold BusOperation.onCartridge at plugged
    dsimp only at plugged
    rw [mapper_loadBattery] at plugged
    exact ⟨clock, plugged, rfl, rfl⟩
  | _ => exact ⟨clock, plugged, rfl, rfl⟩

theorem latched_after (header : Header) (history : History) :
    ∀ clock ∈ (after header history).mapper.clock?, clock.Latched header history := by
  induction history with
  | nil =>
    intro clock plugged
    change clock ∈ (Mapper.powerOn header.hardware).clock? at plugged
    rw [Mapper.clock?_powerOn] at plugged
    split at plugged
    · cases plugged
      exact ⟨rfl, rfl⟩
    · cases plugged
  | cons op history ih =>
    intro clock plugged
    change clock ∈ (op.onCartridge (after header history)).mapper.clock? at plugged
    cases latch : op.latch? with
    | none =>
      obtain ⟨before, inside, last, latched⟩ := exists_of_clock?_onCartridge latch plugged
      exact (ih before inside).keep latch last latched
    | some value =>
      rw [clock?_latch latch] at plugged
      obtain ⟨before, inside, rfl⟩ := Option.map_eq_some_iff.mp plugged
      exact (ih before inside).writeLatch inside latch

theorem exists_clock (kind : header.hardware.mapper = .mbc3) (clocked : header.hardware.clock = true)
    (history : History) : ∃ clock, (after header history).mapper.clock? = some clock := by
  rw [← Option.isSome_iff_exists, (fits_after header history).clocked, powerOn,
    Mapper.clock?_powerOn, if_pos ⟨kind, clocked⟩]
  rfl

theorem readRam_after (kind : header.hardware.mapper = .mbc3)
    (clocked : header.hardware.clock = true) {select : UInt8} (shows : history.Shows select)
    (address : UInt16) :
    (after header history).readRam address = (history.copy header).get select := by
  have fits := fits_after header history
  obtain ⟨clock, plugged⟩ := exists_clock kind clocked history
  have leads : history.target header address = .clock select := by
    have first : 8 ≤ select.toNat := shows.first
    have last : select.toNat ≤ 12 := shows.last
    unfold History.target History.ramEnabled History.selected
    rw [kind]
    dsimp only
    rw [shows.enabled, shows.selected, clocked, if_pos rfl, if_neg (by omega),
      if_pos ⟨first, last, rfl⟩, UInt8.ofNat_toNat]
  have register : (after header history).mapper.readClock select = clock.read select := by
    revert plugged
    cases (after header history).mapper with
    | mbc3 m =>
      intro plugged
      exact congrArg (fun k : Option Clock => (k.map (Clock.read select)).getD 0xFF) plugged
    | _ => intro plugged; cases plugged
  unfold readRam
  rw [fits.ramSize_eq, (remembers_after header history).ramCell fits.kind_eq, leads]
  dsimp only
  rw [register, Clock.read, (fits.clock clock plugged).latched,
    (latched_after header history clock plugged).latched]

end Cartridge

namespace Header

theorem mapper_of_clock {code : UInt8} {hardware : Hardware}
    (known : Hardware.ofType? code = some hardware) (clocked : hardware.clock = true) :
    hardware.mapper = .mbc3 := by
  unfold Hardware.ofType? at known
  split at known <;> cases known <;> first | rfl | cases clocked

theorem hardware_of_parse {image : Image} {header : Header}
    (accepted : parse image = .ok header) :
    ∃ code, Hardware.ofType? code = some header.hardware := by
  unfold parse at accepted
  simp only [bind, Except.bind, pure, Except.pure, throw, throwThe, MonadExceptOf.throw] at accepted
  repeat' split at accepted
  all_goals cases accepted
  exact ⟨_, ‹_›⟩

end Header
theorem ClockTime.get_zero (select : UInt8) : zero.get select = 0 := by
  unfold get
  split <;> rfl

namespace LiveBoard

/-- What a register of the clock reads as, after `ops` from `start`. -/
structure ReadsCopy (start : LiveBoard) (ops : List BusOperation) (live : LiveBoard)
    (address : UInt16) (select : UInt8) : Prop where
  /-- Before the first copy. -/
  blank : History.moment? ops.reverse = none → live.read address = 0
  /-- Later it is the register of the running clock as it was when the last copy was taken. -/
  copied : ∀ past, History.moment? ops.reverse = some past →
    ∃ earlier clock, past.reverse.foldlM operate start = .ok earlier ∧
      earlier.board.cartridge.mapper.clock? = some clock ∧ live.read address = clock.time.get select
  /-- Until the next copy nothing changes it. -/
  held : ∀ more later, History.Unlatched ops.reverse more → more.foldlM operate live = .ok later →
    History.Shows (more.reverse ++ ops.reverse) select → later.read address = live.read address

theorem read_copy {header : Header} (kind : header.hardware.mapper = .mbc3)
    (clocked : header.hardware.clock = true) {history : History} {live : LiveBoard}
    (cartridge : live.board.cartridge = Cartridge.after header history) {address : UInt16}
    (first : 0xA000 ≤ address) (past : address < 0xC000) {select : UInt8}
    (shows : history.Shows select) : live.read address = (history.copy header).get select := by
  have region := (Region.ofAddress_eq_cartridgeRam address).mpr ⟨first, past⟩
  unfold LiveBoard.read
  rw [region]
  dsimp only
  rw [cartridge, Cartridge.readRam_after kind clocked shows]

/-- Whatever is done on the bus, a program that looks at a register of the clock finds it as it was
at the last copy. -/
theorem read_latched {image : Image} {header : Header} (accepted : Header.parse image = .ok header)
    (clocked : header.hardware.clock = true) (settings : Settings) (ops : List BusOperation) :
    ∃ c, Console.powerOn image settings = .ok c ∧
      ((ops.map BusOperation.cycles).sum < UInt64.size →
        ∃ live, ops.foldlM operate c.machine.bus = .ok live) ∧
      ∀ live, ops.foldlM operate c.machine.bus = .ok live →
        ∀ address select, 0xA000 ≤ address → address < 0xC000 → History.Shows ops.reverse select →
          ReadsCopy c.machine.bus ops live address select := by
  obtain ⟨c, starts, runs, -⟩ := Console.operations_powerOn accepted settings ops
  obtain ⟨code, known⟩ := Header.hardware_of_parse accepted
  have kind := Header.mapper_of_clock known clocked
  have reached (ops : List BusOperation) (live : LiveBoard)
      (operates : ops.foldlM operate c.machine.bus = .ok live) :
      live.board.cartridge = Cartridge.after header ops.reverse := by
    obtain ⟨c', starts', -, reached⟩ := Console.operations_powerOn accepted settings ops
    cases starts.symm.trans starts'
    exact (reached live operates).2
  refine ⟨c, starts, runs, fun live operates address select first past shows => ?_⟩
  have read := read_copy kind clocked (reached ops live operates) first past shows
  constructor
  case blank =>
    intro never
    rw [read, History.copy, never]
    exact ClockTime.get_zero select
  case copied =>
    intro before found
    obtain ⟨since, split⟩ := History.exists_of_moment? found
    have split : ops = before.reverse ++ since.reverse := by
      rw [← List.reverse_append, ← split, List.reverse_reverse]
    obtain ⟨earlier, runs, -⟩ := Except.foldlM_append_eq_ok.mp (split ▸ operates)
    obtain ⟨clock, plugged⟩ := Cartridge.exists_clock kind clocked before
    have cartridge := reached before.reverse earlier runs
    rw [List.reverse_reverse] at cartridge
    refine ⟨earlier, clock, runs, cartridge ▸ plugged, ?_⟩
    rw [read, History.copy, found]
    dsimp only
    rw [plugged]
    rfl
  case held =>
    intro more later unlatched goes shows'
    have whole : (ops ++ more).foldlM operate c.machine.bus = .ok later :=
      Except.foldlM_append_eq_ok.mpr ⟨live, operates, goes⟩
    rw [← List.reverse_append] at shows'
    rw [read, read_copy kind clocked (reached (ops ++ more) later whole) first past shows',
      History.copy, List.reverse_append, History.moment?_unlatched unlatched]
    rfl

end LiveBoard

def Image.clockByte (offset : Nat) : UInt8 :=
  if offset = 0x0147 then 0x0F else if offset = 0x014D then 0xD8 else 0

def Image.clocked : Image := ofBytes 0x8000 clockByte

theorem Image.byte_clocked {offset : Nat} (inside : offset < 0x8000) :
    clocked.byte offset = clockByte offset :=
  byte_ofBytes clockByte inside

theorem Image.headerChecksum_clocked : Image.clocked.headerChecksum = 0xD8 :=
  (headerChecksum_ofBytes clockByte (by decide)).trans (by decide)

theorem Header.parse_clocked : ∃ header, Header.parse Image.clocked = .ok header ∧
    header.hardware = ⟨.mbc3, false, true, true, false⟩ ∧ header.ramSize = 0 := by
  have size : ByteArray.size Image.clocked = 0x8000 := Image.size_ofBytes ..
  have checksum : Image.clocked.byte 0x014D = 0xD8 := Image.byte_clocked (by decide)
  have type : Image.clocked.byte 0x0147 = 0x0F := Image.byte_clocked (by decide)
  have rom : Image.clocked.byte 0x0148 = 0x00 := Image.byte_clocked (by decide)
  have ram : Image.clocked.byte 0x0149 = 0x00 := Image.byte_clocked (by decide)
  unfold Header.parse
  simp only [size, Image.headerChecksum_clocked, checksum, type, rom, ram]
  exact ⟨_, rfl, rfl, rfl⟩

namespace LiveBoard

/-- Three seconds are latched; a fourth one, a new setting of the clock and a second 1 follow. -/
def secondsLatched : List BusOperation :=
  [.write 0x0000 0x0A, .write 0x4000 0x08, .tick 12582912, .write 0x6000 0x00, .write 0x7FFF 0x01,
    .tick 4194304, .write 0xA000 0x2A, .write 0x6000 0x01]

theorem read_latched_seconds :
    ∃ c live, Console.powerOn Image.clocked .standard = .ok c ∧
      secondsLatched.foldlM operate c.machine.bus = .ok live ∧ live.read 0xA123 = 3 := by
  obtain ⟨header, accepted, hardware, size⟩ := Header.parse_clocked
  obtain ⟨c, starts, runs, reads⟩ :=
    read_latched accepted (hardware ▸ rfl) .standard secondsLatched
  obtain ⟨live, operates⟩ := runs (by decide)
  have shows : History.Shows secondsLatched.reverse 0x08 := ⟨rfl, rfl, by decide, by decide⟩
  obtain ⟨earlier, clock, goes, plugged, read⟩ :=
    (reads live operates 0xA123 0x08 (by decide) (by decide) shows).copied
      (secondsLatched.take 4).reverse rfl
  refine ⟨c, live, starts, operates, read.trans ?_⟩
  cases starts.symm.trans (Console.powerOn_started accepted .standard)
  have slot := (slot_operations goes).2
  have time : ((secondsLatched.take 4).foldl (fun c op => op.onCartridge c)
      (Cartridge.powerOn header)).mapper.clock? =
        some ⟨⟨3, 0, 0, 0, 0⟩, .zero, 0, some 0⟩ := by
    rw [Cartridge.powerOn, hardware]
    rfl
  cases plugged.symm.trans ((congrArg (fun c : Cartridge => c.mapper.clock?) slot).trans time)
  rfl

end LiveBoard
end DotMatrix
