import DotMatrix.Proofs.Board.Requests
import DotMatrix.Proofs.Video.StatusLine

/-! Sets of requests in which every bit names a source. The parts request nothing else and the
register takes nothing else, and of such a set the lowest bit is a source that can be served. -/
namespace DotMatrix

namespace Interrupt

theorem exists_ofIndex? {n : Nat} (small : n < 5) :
    ∃ source, ofIndex? n = some source ∧ source.index = n := by
  match n, small with
  | 0, _ => exact ⟨.verticalBlank, rfl, rfl⟩
  | 1, _ => exact ⟨.lcdStatus, rfl, rfl⟩
  | 2, _ => exact ⟨.timer, rfl, rfl⟩
  | 3, _ => exact ⟨.serial, rfl, rfl⟩
  | 4, _ => exact ⟨.joypad, rfl, rfl⟩

end Interrupt

namespace InterruptSet
variable {i : Interrupt} {s t : InterruptSet}

def Named (s : InterruptSet) : Prop := s.bits &&& sources = s.bits

theorem Named.empty : (∅ : InterruptSet).Named := rfl

theorem Named.singleton (i : Interrupt) : ({i} : InterruptSet).Named := by
  cases i <;> rfl

theorem Named.when (condition : Bool) (i : Interrupt) : (when condition i).Named := by
  cases condition with
  | false => exact .empty
  | true => exact .singleton i

theorem Named.union (hs : s.Named) (ht : t.Named) : (s ∪ t).Named := by
  have spread : (s.bits ||| t.bits) &&& sources = (s.bits &&& sources) ||| (t.bits &&& sources) :=
    UInt8.toBitVec_inj.mp BitVec.and_or_distrib_right
  change (s.bits ||| t.bits) &&& sources = s.bits ||| t.bits
  rw [spread, hs, ht]

theorem Named.masked (bits : UInt8) : (mk (bits &&& sources)).Named := by
  change bits &&& sources &&& sources = bits &&& sources
  rw [UInt8.and_assoc, UInt8.and_self]

theorem mem_iff_testBit : i ∈ s ↔ s.bits.toNat.testBit i.index = true := by
  have single : i.bit.toNat = 2 ^ i.index := by cases i <;> rfl
  rw [← and_mask_ne_zero s.bits i.bit i.index single, bne_iff_ne]
  rfl

theorem Named.testBit_lt (named : s.Named) {n : Nat} (set : s.bits.toNat.testBit n = true) :
    n < 5 := by
  have whole := congrArg (fun bits => bits.toNat.testBit n) named
  have five : sources.toNat = 2 ^ 5 - 1 := rfl
  simp only [UInt8.toNat_and, Nat.testBit_and, set, Bool.true_and, five,
    Nat.testBit_two_pow_sub_one, decide_eq_true_eq] at whole
  exact whole

theorem Named.eq_empty (named : s.Named) (clear : ∀ n < 5, s.bits.toNat.testBit n = false) :
    s = ∅ := by
  refine congrArg mk (UInt8.toNat_inj.mp (Nat.eq_of_testBit_eq fun n => ?_))
  rw [UInt8.toNat_zero, Nat.zero_testBit]
  by_contra set
  have set : s.bits.toNat.testBit n = true := by simpa using set
  simp [clear n (named.testBit_lt set)] at set

theorem highest?_eq_some (named : s.Named) (nonempty : s ≠ ∅) :
    ∃ source, s.highest? = some source ∧ source ∈ s ∧
      ∀ other ∈ s, source.index ≤ other.index := by
  unfold highest? lowest
  cases found : (List.range 8).find? fun i => s.bits.toNat.testBit i with
  | none =>
    have clear := List.find?_range_eq_none.mp found
    refine absurd (named.eq_empty fun n small => ?_) nonempty
    simpa using clear n (by omega)
  | some n =>
    obtain ⟨set, -, below⟩ := List.find?_range_eq_some.mp found
    obtain ⟨source, first, index⟩ := Interrupt.exists_ofIndex? (named.testBit_lt set)
    subst index
    refine ⟨source, first, mem_iff_testBit.mpr set, fun other inside => ?_⟩
    by_contra before
    have set := mem_iff_testBit.mp inside
    simpa [set] using below other.index (by omega)

end InterruptSet

open InterruptSet (Named)

theorem Raster.named_updateStatus (r : Raster) : r.updateStatus.2.Named := .when ..

theorem Raster.named_updateCoincidence (r : Raster) : r.updateCoincidence.2.Named :=
  named_updateStatus _

namespace Video

theorem named_nextLine (v : Video) : v.nextLine.2.Named := by
  unfold nextLine
  dsimp only
  split
  · exact (Named.singleton _).union (Raster.named_updateCoincidence _)
  · split
    · exact Raster.named_updateCoincidence _
    · split <;> exact Raster.named_updateCoincidence _

theorem named_advanceMode (palette : Palette) (v : Video) : (v.advanceMode palette).2.Named := by
  unfold advanceMode
  split
  · exact Raster.named_updateStatus _
  · exact Raster.named_updateStatus _
  · exact named_nextLine v
  · exact named_nextLine v

theorem named_tick (palette : Palette) (n : Nat) (v : Video) (requests : InterruptSet)
    (named : requests.Named) : (v.tick palette n requests).2.Named := by
  fun_induction tick palette n v requests with
  | case1 | case2 => exact named
  | case3 cycles v requests left stays passes r next more entered ih =>
    have advanced := named_advanceMode palette v.atBoundary
    rw [show v.atBoundary.advanceMode palette = (next, more) from entered] at advanced
    exact ih (named.union advanced)

theorem named_write (palette : Palette) (address : UInt16) (value : UInt8) (v : Video) :
    (v.write palette address value).2.Named := by
  unfold write
  split
  case h_1 =>
    unfold writeControl
    dsimp only
    split
    · exact .empty
    · split
      · exact Raster.named_updateCoincidence _
      · exact .empty
  case h_2 => exact Raster.named_updateStatus _
  case h_5 => exact Raster.named_updateCoincidence _
  all_goals exact .empty

end Video

theorem SerialLink.named_tick (n : Nat) (s : SerialLink) : (s.tick n).2.Named := by
  fun_induction SerialLink.tick n s with
  | case1 | case2 | case3 => exact .empty
  | case4 => exact .singleton _
  | case5 n s sending some shifted more ih => exact ih

namespace LiveBoard
variable {live next last : LiveBoard} {event : Event} {events : List Event}

theorem named_requests (live : LiveBoard) (event : Event) : (live.requests event).Named := by
  unfold requests
  split
  · unfold writeRequests
    split
    · exact .when ..
    · exact Video.named_write ..
    · exact .empty
  · refine Named.union ?_ (Video.named_tick _ _ _ _ .empty)
    exact (Named.when _ _).union (SerialLink.named_tick ..)
  · exact .when ..
  · exact .empty

theorem named_write (address : UInt16) (value : UInt8) (named : live.board.requested.Named) :
    (live.write address value).board.requested.Named := by
  rw [requested_write]
  split
  · exact .masked value
  · exact named.union (live.named_requests (.access (.write address value)))

theorem named_undergo (named : live.board.requested.Named)
    (happens : live.undergo event = .ok next) : next.board.requested.Named := by
  cases event with
  | access access =>
    cases happens
    cases access with
    | read => exact named
    | write address value => exact named_write address value named
  | withdraw =>
    cases happens
    exact named_write 0xFF0F _ named
  | tick n =>
    obtain ⟨counter, rfl⟩ := elapsed_of_tick happens
    exact named.union (live.named_requests (.tick n))
  | hold held =>
    cases happens
    exact named.union (live.named_requests (.hold held))
  | _ =>
    cases happens
    exact named

theorem named_replay (named : live.board.requested.Named)
    (runs : live.replay events = .ok last) : last.board.requested.Named :=
  Except.foldlM_keeps (P := (·.board.requested.Named))
    (fun _ _ _ _ named happens => named_undergo named happens) named runs

end LiveBoard
end DotMatrix
