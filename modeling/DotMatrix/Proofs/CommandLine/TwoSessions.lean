import DotMatrix.Proofs.CommandLine.Run
import DotMatrix.Proofs.Console.Battery
import DotMatrix.Proofs.Console.Resume

/-! A game in two sessions. A run that saves the state, and another one that takes it up, leave what
one run of as many frames leaves. -/
namespace DotMatrix

namespace Console
variable {image : Image} {settings : Settings} {header : Header} {c next : Console}

theorem InRange.batteryRam?_eq_none (h : c.InRange image settings)
    (h' : next.InRange image settings) (none : c.batteryRam? = none) :
    next.batteryRam? = Option.none := by
  have same : next.header = c.header := Except.ok.inj (h'.header.symm.trans h.header)
  rw [h.batteryRam?_eq] at none
  rw [h'.batteryRam?_eq, same]
  split at none
  · cases none
  · rename_i batteryless
    exact if_neg batteryless

structure Fresh (image : Image) (settings : Settings) (c : Console) : Prop where
  inRange : c.InRange image settings
  untaken : c.machine.bus.samples = #[]
  silent : c.machine.bus.sent = #[]
  cycles : c.machine.bus.board.cycles = 0
  frames : c.frames = 0

namespace Fresh

theorem started (accepted : Header.parse image = .ok header) (settings : Settings) :
    Fresh image settings (started image settings header) :=
  ⟨.powerOn (powerOn_started accepted settings), rfl, rfl, rfl, rfl⟩

theorem withBattery (h : c.Fresh image settings) {file : Option ByteArray}
    (inserted : c.withBattery file = .ok next) : next.Fresh image settings := by
  cases file with
  | none =>
    cases inserted
    exact h
  | some data =>
    have inRange := h.inRange.loadBattery inserted
    change c.loadBattery data.data = .ok next at inserted
    unfold loadBattery at inserted
    split at inserted
    · cases inserted
    · cases inserted
      exact ⟨inRange, h.untaken, h.silent, h.cycles, h.frames⟩

theorem exists_withBattery (h : c.Fresh image settings) {file : Option ByteArray}
    (fits : ∀ data ∈ file, data.size = c.header.ramSize) :
    ∃ next, c.withBattery file = .ok next ∧ next.Fresh image settings := by
  suffices ∃ next, c.withBattery file = .ok next by
    obtain ⟨next, inserted⟩ := this
    exact ⟨next, inserted, h.withBattery inserted⟩
  cases file with
  | none => exact ⟨c, rfl⟩
  | some data =>
    have size : data.data.size = c.machine.bus.board.cartridge.ram.size :=
      (fits data rfl).trans h.inRange.bus.board.cartridge.ramSize_eq.symm
    change ∃ next, c.loadBattery data.data = .ok next
    unfold loadBattery Cartridge.loadBattery
    rw [if_neg (not_not_intro size)]
    cases c.machine.bus.board.cartridge.mapper <;> exact ⟨_, rfl⟩

theorem exists_runFrames (h : c.Fresh image settings) (limit : settings.maxSteps = 200000) {n : Nat}
    (short : n < 2 ^ 32) : ∃ last, c.runFrames n = .ok last := by
  have size : UInt64.size = 0x10000000000000000 := rfl
  have frame : longestStep * settings.maxSteps = 132800000 := by
    rw [limit]
    rfl
  apply h.inRange.exists_runFrames n
  · rw [h.cycles, frame, UInt64.toNat_zero]
    omega
  · rw [h.frames, UInt64.toNat_zero]
    omega

end Fresh
end Console

/-- The files of a game that is left in between. -/
structure Playthrough where
  image : String
  battery : Option String
  /-- The snapshot with which it is left and taken up. -/
  kept : String
  /-- The last picture. -/
  picture : String
  /-- The snapshot at the end. -/
  last : String
  colorize : Bool

namespace Playthrough

def opening (g : Playthrough) (frames : Nat) : Options :=
  { image := g.image, frames, dump := none, saveTo := some g.kept, loadFrom := none
    battery := g.battery, colorize := g.colorize }

def ending (g : Playthrough) (frames : Nat) : Options :=
  { image := g.image, frames, dump := some g.picture, saveTo := some g.last
    loadFrom := some g.kept, battery := g.battery, colorize := g.colorize }

def whole (g : Playthrough) (frames : Nat) : Options :=
  { image := g.image, frames, dump := some g.picture, saveTo := some g.last, loadFrom := none
    battery := g.battery, colorize := g.colorize }

def paths (g : Playthrough) : List String :=
  [g.image, g.kept, g.picture, g.last] ++ g.battery.toList

def settings (g : Playthrough) : Settings := { Settings.standard with colorize := g.colorize }

/-- What the second session finds. Image and snapshot are as the first session has left them, and
the battery file is as that one has either left or found it. -/
structure Waits (g : Playthrough) (n : Nat) (d between : Directory) : Prop where
  image : between.read? g.image = (d.run (g.opening n)).2.read? g.image
  kept : between.read? g.kept = (d.run (g.opening n)).2.read? g.kept
  battery : ∀ path ∈ g.battery,
    between.read? path = (d.run (g.opening n)).2.read? path ∨ between.read? path = d.read? path

/-- The second session leaves what the run without a break does, and has sent what the first one
has not. -/
structure EndsAlike (g : Playthrough) (n m : Nat) (d between : Directory) : Prop where
  completes : (between.run (g.ending m)).1 = .ok ()
  picture : ∃ bytes, (d.run (g.whole (n + m))).2.read? g.picture = some bytes ∧
    (between.run (g.ending m)).2.read? g.picture = some bytes
  last : ∃ bytes, (d.run (g.whole (n + m))).2.read? g.last = some bytes ∧
    (between.run (g.ending m)).2.read? g.last = some bytes
  battery : ∀ path ∈ g.battery,
    (between.run (g.ending m)).2.read? path = (d.run (g.whole (n + m))).2.read? path
  serial : ∃ last first second, d.played (g.whole (n + m)) = .ok last ∧
    d.played (g.opening n) = .ok first ∧ between.played (g.ending m) = .ok second ∧
    last.serialOutput = first.serialOutput ++ second.serialOutput

/-- The battery file, if it is there, has the size of the cartridge's RAM. -/
def Fits (g : Playthrough) (header : Header) (d : Directory) : Prop :=
  ∀ data ∈ g.battery.bind d.read?, data.size = header.ramSize

variable {g : Playthrough} {d between : Directory} {image : Image} {header : Header} {n m : Nat}
  {c first last : Console} {path : String}

theorem waits_opening (g : Playthrough) (n : Nat) (d : Directory) :
    g.Waits n d (d.run (g.opening n)).2 :=
  ⟨rfl, rfl, fun _ _ => .inl rfl⟩

section Paths
variable (apart : Directory.Apart g.paths)
include apart

theorem apart_opening (n : Nat) : Directory.Apart (g.opening n).outputs :=
  apart.sublist (.cons _ (.cons_cons _ (.cons _ (.cons _ (.refl _)))))

theorem apart_whole (n : Nat) : Directory.Apart (g.whole n).outputs :=
  apart.sublist (.cons _ (.cons _ (.refl _)))

theorem isFile_battery (battery : path ∈ g.battery) : Directory.IsFile path :=
  apart.files path (List.mem_append_right _ (Option.mem_toList.mpr battery))

theorem target_image (n : Nat) :
    ∀ output ∈ (g.opening n).outputs, Directory.target g.image ≠ Directory.target output :=
  fun output left => (List.pairwise_cons.mp apart.distinct).1 output
    (List.Sublist.subset (.cons_cons _ (.cons _ (.cons _ (.refl _)))) left)

end Paths

theorem exists_fresh (accepted : Header.parse image = .ok header) (fits : g.Fits header d) :
    ∃ c, Console.withBattery (g.battery.bind d.read?) (.started image g.settings header) = .ok c ∧
      c.Fresh image g.settings :=
  (Console.Fresh.started accepted g.settings).exists_withBattery fits

structure Opened (g : Playthrough) (image : Image) (n m : Nat) (d : Directory)
    (c first last : Console) : Prop where
  fresh : c.Fresh image g.settings
  opens : c.runFrames n = .ok first
  runs : c.runFrames (n + m) = .ok last
  inserted : d.read? g.image = some image
  played : d.outcome (Session.played (g.opening n)) = (.ok first, d)
  playedWhole : d.outcome (Session.played (g.whole (n + m))) = (.ok last, d)

theorem exists_opened (accepted : Header.parse image = .ok header)
    (inserted : d.read? g.image = some image) (apart : Directory.Apart g.paths)
    (fits : g.Fits header d) (short : n + m < 2 ^ 32) :
    ∃ c first last, g.Opened image n m d c first last := by
  obtain ⟨c, battery, fresh⟩ := exists_fresh accepted fits
  obtain ⟨last, runs⟩ := fresh.exists_runFrames rfl short
  obtain ⟨first, opens, _⟩ :=
    Except.bind_eq_ok.mp ((Console.runFrames_add n m c).symm.trans runs)
  have files (path : String) (battery : path ∈ g.battery) := isFile_battery apart battery
  exact ⟨c, first, last, fresh, opens, runs, inserted,
    Directory.outcome_played (Directory.outcome_start inserted accepted files battery rfl) opens,
    Directory.outcome_played (Directory.outcome_start inserted accepted files battery rfl) runs⟩

namespace Opened
variable (opened : g.Opened image n m d c first last) (apart : Directory.Apart g.paths)
include opened

theorem inRange : first.InRange image g.settings := opened.fresh.inRange.runFrames opened.opens

include apart

theorem run_opening : ∃ printed, d.run (g.opening n) =
    (.ok (), { d.storeAll ((g.opening n).leaves first) with printed }) :=
  Directory.run_played opened.played (apart_opening apart n).files

theorem battery_opening (battery : path ∈ g.battery) :
    (d.run (g.opening n)).2.read? path =
      (first.batteryRam?.map (⟨·⟩ : Array UInt8 → ByteArray)).or (d.read? path) := by
  obtain ⟨_, run⟩ := opened.run_opening apart
  rw [run]
  exact Directory.read?_battery (apart_opening apart n) battery first d

variable (waits : g.Waits n d between)
include waits

theorem read?_image : between.read? g.image = some image := by
  obtain ⟨_, run⟩ := opened.run_opening apart
  rw [waits.image, run]
  exact (Directory.read?_elsewhere (target_image apart n) first d).trans opened.inserted

theorem read?_kept : between.read? g.kept = some first.save.toByteArray := by
  obtain ⟨_, run⟩ := opened.run_opening apart
  rw [waits.kept, run]
  exact Directory.read?_saveTo (apart_opening apart n) rfl first d

theorem fits (fits : g.Fits first.header d) : g.Fits first.header between := by
  intro data found
  obtain ⟨path, battery, found⟩ := Option.mem_bind_iff.mp found
  have before (there : data ∈ d.read? path) : data.size = first.header.ramSize :=
    fits data (Option.mem_bind_iff.mpr ⟨path, battery, there⟩)
  rcases waits.battery path battery with left | same
  · rw [left, opened.battery_opening apart battery, opened.inRange.batteryRam?_eq] at found
    split at found
    · cases found
      exact opened.inRange.bus.board.cartridge.ramSize_eq
    · exact before found
  · rw [same] at found
    exact before found

theorem read?_battery (batteryless : first.batteryRam? = none) (battery : path ∈ g.battery) :
    between.read? path = d.read? path := by
  rcases waits.battery path battery with left | same
  · rw [left, opened.battery_opening apart battery, batteryless]
    rfl
  · exact same

/-- The second session goes on with the state of the first, and ends in that of the whole run. -/
theorem played_ending (fits : g.Fits first.header d) :
    ∃ resumed, between.outcome (Session.played (g.ending m)) = (.ok resumed, between) ∧
      last = resumed.sentAfter first.serialOutput := by
  have accepted := opened.inRange.header
  have files (path : String) (battery : path ∈ g.battery) := isFile_battery apart battery
  obtain ⟨other, battery, fresh⟩ := exists_fresh accepted (opened.fits apart waits fits)
  obtain ⟨resumed, loads, resumes, same⟩ := opened.fresh.inRange.runFrames_resumed fresh.inRange
    opened.fresh.untaken fresh.silent opened.opens opened.runs
  rw [← toList_toByteArray first.save] at loads
  have snapshot := Directory.outcome_loadSnapshot (opened.read?_kept apart waits) loads
  have begins : between.outcome (Session.start (g.ending m)) =
      (.ok (other.inStateOf first), between) :=
    Directory.outcome_start (opened.read?_image apart waits) accepted files battery snapshot
  exact ⟨resumed, Directory.outcome_played begins resumes, same⟩

theorem endsAlike (fits : g.Fits first.header d) : g.EndsAlike n m d between := by
  obtain ⟨resumed, played, rfl⟩ := opened.played_ending apart waits fits
  have apart' := apart_whole apart (n + m)
  obtain ⟨_, whole⟩ := Directory.run_played opened.playedWhole apart'.files
  obtain ⟨_, ending⟩ := Directory.run_played played (apart_whole apart m).files
  -- What was sent is the only difference, and it is in none of the files.
  have leaves : (g.whole (n + m)).leaves (resumed.sentAfter first.serialOutput) =
      (g.ending m).leaves resumed := rfl
  rw [leaves] at whole
  constructor
  case completes => rw [ending]
  case picture =>
    rw [whole, ending]
    exact ⟨_, Directory.read?_dump apart' rfl resumed d,
      Directory.read?_dump apart' rfl resumed between⟩
  case last =>
    rw [whole, ending]
    exact ⟨_, Directory.read?_saveTo apart' rfl resumed d,
      Directory.read?_saveTo apart' rfl resumed between⟩
  case battery =>
    intro path battery
    rw [whole, ending]
    refine (Directory.read?_battery apart' battery resumed between).trans
      (.trans ?_ (Directory.read?_battery apart' battery resumed d).symm)
    cases ram : resumed.batteryRam? with
    | some ram => rfl
    | none =>
      -- Nobody writes the file, so that it is the one which the first session found.
      have batteryless : first.batteryRam? = none :=
        (opened.fresh.inRange.runFrames opened.runs).batteryRam?_eq_none opened.inRange ram
      rw [opened.read?_battery apart waits batteryless battery]
  case serial =>
    exact ⟨_, first, resumed, congrArg Prod.fst opened.playedWhole,
      congrArg Prod.fst opened.played, congrArg Prod.fst played, rfl⟩

end Opened

/-- A game in two sessions. Both sessions and the run without a break end well, and what the second
session leaves is what that run leaves: the picture, the snapshot and the battery memory, byte for
byte. What that run has sent over the serial link is what the two sessions have sent. -/
theorem two_sessions (accepted : Header.parse image = .ok header)
    (inserted : d.read? g.image = some image) (apart : Directory.Apart g.paths)
    (fits : g.Fits header d) (short : n + m < 2 ^ 32) :
    (d.run (g.whole (n + m))).1 = .ok () ∧ (d.run (g.opening n)).1 = .ok () ∧
      ∀ between, g.Waits n d between → g.EndsAlike n m d between := by
  obtain ⟨c, first, last, opened⟩ := exists_opened accepted inserted apart fits short
  obtain ⟨_, whole⟩ := Directory.run_played opened.playedWhole (apart_whole apart (n + m)).files
  obtain ⟨_, opening⟩ := opened.run_opening apart
  obtain rfl : first.header = header :=
    Except.ok.inj (opened.inRange.header.symm.trans accepted)
  exact ⟨by rw [whole], by rw [opening], fun between waits => opened.endsAlike apart waits fits⟩

def brief : Playthrough :=
  { image := "game.gb", battery := some "game.sav", kept := "break.state", picture := "last.rgb"
    last := "last.state", colorize := false }

theorem two_sessions_halfBytes :
    let d : Directory := ⟨[("game.gb", Image.halfBytes)], ""⟩
    (d.run (brief.whole 60)).1 = .ok () ∧
      ∃ bytes, (d.run (brief.whole 60)).2.read? "last.state" = some bytes ∧
        ((d.run (brief.opening 20)).2.run (brief.ending 40)).2.read? "last.state" = some bytes := by
  intro d
  obtain ⟨header, accepted, -⟩ := Header.parse_halfBytes
  have apart : Directory.Apart brief.paths := .of_plain (by decide) (by decide)
  have inserted : d.read? "game.gb" = some Image.halfBytes := by
    rw [Directory.read?, Directory.target_plain (by decide)]
    exact Directory.lookup_put "game.gb" Image.halfBytes []
  have fresh : d.read? "game.sav" = none := by
    rw [Directory.read?, Directory.target_plain (by decide)]
    exact Directory.lookup_put_of_ne (by decide) Image.halfBytes []
  have fits : brief.Fits header d := by
    intro data found
    change data ∈ d.read? "game.sav" at found
    rw [fresh] at found
    cases found
  obtain ⟨completes, -, alike⟩ :=
    two_sessions accepted inserted apart fits (by decide : 20 + 40 < 2 ^ 32)
  exact ⟨completes, (alike _ (waits_opening brief 20 d)).last⟩

end Playthrough
end DotMatrix
