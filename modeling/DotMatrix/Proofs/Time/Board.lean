import DotMatrix.Proofs.Time.Sound
import DotMatrix.Proofs.Time.Video
import DotMatrix.Proofs.Range.Board
import DotMatrix.Proofs.Range.Header
import Mathlib.Algebra.GroupWithZero.Nat

/-! Time passes for a whole board as it does for its parts: however it is cut into stretches,
the board, the samples and the requests come out the same. -/
namespace DotMatrix

theorem Cartridge.tick_add (a b : Nat) (c : Cartridge) : c.tick (a + b) = (c.tick a).tick b := by
  obtain ⟨ram, mapper, romBanks, battery⟩ := c
  cases mapper with
  | mbc3 m =>
    obtain ⟨enabled, rom, ram', clock⟩ := m
    cases clock with
    | none => rfl
    | some clock => simp only [tick, Mapper.updateClock, Option.map_some, Clock.tick_add a b]
  | _ => rfl

theorem Cartridge.tick_zero (c : Cartridge)
    (clocked : ∀ clock ∈ c.mapper.clock?, clock.InRange) : c.tick 0 = c := by
  obtain ⟨ram, mapper, romBanks, battery⟩ := c
  cases mapper with
  | mbc3 m =>
    obtain ⟨enabled, rom, ram', clock⟩ := m
    cases clock with
    | none => rfl
    | some clock =>
      have inRange : clock.InRange := clocked clock rfl
      simp only [tick, Mapper.updateClock, Option.map_some, Clock.tick_zero clock inRange.subsecond]
  | _ => rfl

theorem toNat_add_ofNat {counter : UInt64} {n : Nat} (room : counter.toNat + n < UInt64.size) :
    (counter + UInt64.ofNat n).toNat = counter.toNat + n := by
  rw [UInt64.toNat_add, UInt64.toNat_ofNat', Nat.add_mod_mod, Nat.mod_eq_of_lt room]

theorem toNat_add_ofNat_le (counter : UInt64) (n : Nat) :
    (counter + UInt64.ofNat n).toNat ≤ counter.toNat + n := by
  rw [UInt64.toNat_add, UInt64.toNat_ofNat', Nat.add_mod_mod]
  exact Nat.mod_le _ _

theorem countUp_add (fault : Fault) (counter : UInt64) (a b : Nat) :
    countUp fault counter (a + b) = countUp fault counter a >>= (countUp fault · b) := by
  unfold countUp
  by_cases first : counter.toNat + a < UInt64.size
  · rw [if_pos first]
    simp only [bind, Except.bind]
    rw [toNat_add_ofNat first, Nat.add_assoc, UInt64.ofNat_add, UInt64.add_assoc]
  · rw [if_neg first, if_neg (by omega)]
    rfl

namespace LiveBoard

theorem elapse_add (a b : Nat) (first last : UInt64) (live : LiveBoard)
    (sound : live.board.sound.InRange) (raster : live.board.video.raster.InRange) :
    live.elapse (a + b) last = (live.elapse a first).elapse b last := by
  have video := Video.tick_add live.settings.colors a b live.board.video ∅ raster
  rw [Video.tick_requests _ b] at video
  unfold elapse Board.request
  dsimp only
  rw [Cartridge.tick_add, Timer.tick_add, SerialLink.tick_add, video,
    Sound.tick_add _ a b _ _ sound.paced, InterruptSet.union_stretches,
    ← InterruptSet.union_assoc live.board.requested, ← InterruptSet.union_assoc live.board.raised]

theorem tick_add (a b : Nat) (live : LiveBoard) (sound : live.board.sound.InRange)
    (raster : live.board.video.raster.InRange) :
    live.tick (a + b) = live.tick a >>= LiveBoard.tick b := by
  rw [tick_eq_elapse, tick_eq_elapse a, countUp_add]
  cases countUp .cycleCounter live.board.cycles a with
  | error fault => rfl
  | ok first =>
    simp only [Except.map, bind, Except.bind]
    rw [tick_eq_elapse b]
    have cycles : (live.elapse a first).board.cycles = first := rfl
    rw [cycles]
    cases countUp .cycleCounter first b with
    | error fault => rfl
    | ok last => exact congrArg Except.ok (elapse_add a b first last live sound raster)

theorem tick_zero (live : LiveBoard)
    (clocked : ∀ clock ∈ live.board.cartridge.mapper.clock?, clock.InRange) :
    live.tick 0 = .ok live := by
  have counted : countUp .cycleCounter live.board.cycles 0 = .ok live.board.cycles := by
    unfold countUp
    rw [Nat.add_zero, if_pos (by exact live.board.cycles.toNat_lt)]
    exact congrArg Except.ok (UInt64.add_zero _)
  rw [tick_eq_elapse, counted]
  unfold elapse Board.request
  dsimp only
  rw [Cartridge.tick_zero _ clocked, Timer.tick_zero, SerialLink.tick_zero, Video.tick_zero,
    Sound.tick_zero]
  simp only [InterruptSet.union_empty]
  rfl

structure Steady (live : LiveBoard) : Prop where
  clocked : ∀ clock ∈ live.board.cartridge.mapper.clock?, clock.InRange
  sound : live.board.sound.InRange
  raster : live.board.video.raster.InRange

theorem Steady.of_checkLayout {live : LiveBoard} {plugged : Board}
    (checked : (BoardRecord.ofBoard live.board).checkLayout plugged = .ok ()) : live.Steady := by
  obtain ⟨_, replaces, raster, sound⟩ := (Board.checkLayout_ofBoard _ _).mp checked
  exact ⟨replaces.clock, sound, raster⟩

theorem Steady.tick {live next : LiveBoard} (h : live.Steady) {n : Nat}
    (ticks : live.tick n = .ok next) : next.Steady := by
  obtain ⟨cycles, rfl⟩ := elapsed_of_tick ticks
  refine ⟨?_, Sound.inRange_tick _ _ _ _ h.sound, Video.inRange_tick _ _ _ _ h.raster⟩
  intro clock plugged
  change clock ∈ (live.board.cartridge.mapper.updateClock (Clock.tick n)).clock? at plugged
  rw [Mapper.clock?_updateClock] at plugged
  obtain ⟨before, inside, rfl⟩ := Option.map_eq_some_iff.mp plugged
  exact (h.clocked before inside).tick n

theorem tick_sum (cuts : List Nat) (live : LiveBoard) (h : live.Steady) :
    cuts.foldlM (fun live n => live.tick n) live = live.tick cuts.sum := by
  induction cuts generalizing live with
  | nil => exact (tick_zero live h.clocked).symm
  | cons n cuts ih =>
    rw [List.foldlM_cons, List.sum_cons, tick_add n _ live h.sound h.raster]
    cases ticks : live.tick n with
    | error fault => rfl
    | ok next => exact ih next (h.tick ticks)

theorem tick_stall (n : Nat) (live : LiveBoard) (h : live.Steady) :
    (live.tick n >>= fun next => next.takeStall.2.tick next.takeStall.1) =
      live.takeStall.2.tick (n + live.takeStall.1) := by
  rw [tick_add n _ live.takeStall.2 h.sound h.raster, tick_eq_elapse, tick_eq_elapse]
  have counter : live.takeStall.2.board.cycles = live.board.cycles := rfl
  rw [counter]
  cases countUp .cycleCounter live.board.cycles n with
  | error fault => rfl
  | ok cycles => rfl

/-- Batched time is single-cycle time. For a board that a layout check lets through, time may be
cut into any stretches, down to single cycles, and the wait for an OAM transfer may be one of
them: the board, its samples and its requests come out the same, and the counter of cycles runs
over in one case exactly if it does in the other. -/
theorem tick_cuts {live : LiveBoard} {plugged : Board}
    (checked : (BoardRecord.ofBoard live.board).checkLayout plugged = .ok ()) :
    (∀ a b, live.tick (a + b) = live.tick a >>= fun next => next.tick b) ∧
      (∀ cuts : List Nat,
        live.tick cuts.sum = cuts.foldlM (fun live n => live.tick n) live) ∧
      (∀ n, live.tick n = (List.replicate n 1).foldlM (fun live n => live.tick n) live) ∧
      ∀ n, (live.tick n >>= fun next => next.takeStall.2.tick next.takeStall.1) =
        live.takeStall.2.tick (n + live.takeStall.1) := by
  have h := Steady.of_checkLayout checked
  refine ⟨fun a b => tick_add a b live h.sound h.raster, fun cuts => (tick_sum cuts live h).symm,
    fun n => ?_, fun n => tick_stall n live h⟩
  have ones := tick_sum (List.replicate n 1) live h
  rw [List.sum_replicate_nat, Nat.mul_one] at ones
  exact ones.symm

/-- The board of a console that was just switched on is one of those. -/
theorem tick_cuts_powerOn :
    ∃ header, Header.parse Image.blank = .ok header ∧
      ∃ live : LiveBoard, live.board = Board.powerOn (.powerOn header) .standard ∧
        (BoardRecord.ofBoard live.board).checkLayout live.board = .ok () ∧
          ∀ a b, live.tick (a + b) = live.tick a >>= fun next => next.tick b := by
  obtain ⟨header, accepted⟩ := Header.parse_blank
  let board := Board.powerOn (.powerOn header) .standard
  let live : LiveBoard := ⟨Image.blank, .standard, board, #[], #[]⟩
  have inRange : board.InRange header :=
    Board.InRange.powerOn (Cartridge.fits_powerOn header) .standard
  have checked : (BoardRecord.ofBoard live.board).checkLayout live.board = .ok () :=
    (Board.checkLayout_ofBoard _ _).mpr
      ⟨inRange.stall, inRange.cartridge.replaces inRange.cartridge, inRange.raster, inRange.sound⟩
  exact ⟨header, accepted, live, rfl, checked, (tick_cuts checked).1⟩

end LiveBoard
end DotMatrix
