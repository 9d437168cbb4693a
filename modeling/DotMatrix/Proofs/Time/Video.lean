import DotMatrix.Proofs.Time.Parts
import DotMatrix.Proofs.Range.Video

/-! The beam may be stopped at any dot: two stretches of time are the same as their sum, also
when a mode ends on the cut. -/
namespace DotMatrix.Video
variable (palette : Palette)

def moved (n : Nat) (v : Video) : Video :=
  { v with raster := { v.raster with dot := v.raster.dot + UInt16.ofNat n } }

theorem moved_zero (v : Video) : v.moved 0 = v := by
  have dot : v.raster.dot + UInt16.ofNat 0 = v.raster.dot := UInt16.add_zero _
  unfold moved
  rw [dot]

theorem moved_add (a b : Nat) (v : Video) : v.moved (a + b) = (v.moved a).moved b := by
  unfold moved
  rw [UInt16.ofNat_add, ← UInt16.add_assoc]

theorem left_moved (a : Nat) (v : Video) (h : v.raster.InRange)
    (within : a < v.raster.boundary - v.raster.dot.toNat) :
    (v.moved a).raster.boundary - (v.moved a).raster.dot.toNat =
      v.raster.boundary - v.raster.dot.toNat - a := by
  have dot : (v.moved a).raster.dot.toNat = v.raster.dot.toNat + a := h.toNat_move within
  have boundary : (v.moved a).raster.boundary = v.raster.boundary := rfl
  omega

theorem tick_requests (n : Nat) (v : Video) (requests : InterruptSet) :
    v.tick palette n requests = ((v.tick palette n ∅).1, requests ∪ (v.tick palette n ∅).2) := by
  induction n using Nat.strongRecOn generalizing v requests with
  | ind n ih =>
    unfold tick
    dsimp only
    split
    case isTrue => rw [InterruptSet.union_empty]
    case isFalse goes =>
      split
      case isTrue => rw [InterruptSet.union_empty]
      case isFalse =>
        rw [ih _ (by omega) _ (requests ∪ _), ih _ (by omega) _ (∅ ∪ _),
          InterruptSet.empty_union, InterruptSet.union_assoc]

theorem tick_zero (v : Video) (requests : InterruptSet) :
    v.tick palette 0 requests = (v, requests) := by
  unfold tick
  exact if_pos (.inl rfl)

theorem tick_off (n : Nat) (v : Video) (requests : InterruptSet)
    (off : ¬v.raster.registers.lcdOn = true) : v.tick palette n requests = (v, requests) := by
  unfold tick
  exact if_pos (.inr (.inr (by simpa using off)))

theorem goes (n : Nat) (v : Video) (h : v.raster.InRange) (on : v.raster.registers.lcdOn = true)
    (some : n ≠ 0) :
    ¬(n = 0 ∨ v.raster.boundary - v.raster.dot.toNat = 0 ∨
      (!v.raster.registers.lcdOn) = true) := by
  have before := h.dot_lt
  rw [on]
  rintro (none | past | off)
  · exact some none
  · omega
  · cases off

theorem tick_within (n : Nat) (v : Video) (requests : InterruptSet) (h : v.raster.InRange)
    (on : v.raster.registers.lcdOn = true) (some : n ≠ 0)
    (within : n < v.raster.boundary - v.raster.dot.toNat) :
    v.tick palette n requests = (v.moved n, requests) := by
  unfold tick
  dsimp only
  rw [if_neg (goes n v h on some), if_pos within]
  rfl

theorem tick_reach (n : Nat) (v : Video) (requests : InterruptSet) (h : v.raster.InRange)
    (on : v.raster.registers.lcdOn = true)
    (reaches : v.raster.boundary - v.raster.dot.toNat ≤ n) :
    v.tick palette n requests =
      (v.atBoundary.advanceMode palette).1.tick palette
        (n - (v.raster.boundary - v.raster.dot.toNat))
        (requests ∪ (v.atBoundary.advanceMode palette).2) := by
  have before := h.dot_lt
  conv => lhs; unfold tick
  dsimp only
  rw [if_neg (goes n v h on (by omega)), if_neg (Nat.not_lt.mpr reaches)]
  rfl

theorem tick_add_within (a b : Nat) (v : Video) (requests : InterruptSet) (h : v.raster.InRange)
    (on : v.raster.registers.lcdOn = true)
    (within : a < v.raster.boundary - v.raster.dot.toNat) :
    v.tick palette (a + b) requests = (v.moved a).tick palette b requests := by
  have inRange : (v.moved a).raster.InRange := h.move within
  have left := left_moved a v h within
  by_cases none : a = 0
  · rw [none, moved_zero, Nat.zero_add]
  by_cases last : b = 0
  · rw [last, tick_zero]
    exact tick_within palette a v requests h on none within
  by_cases short : a + b < v.raster.boundary - v.raster.dot.toNat
  · rw [tick_within palette _ v requests h on (by omega) short,
      tick_within palette b _ requests inRange on last (by omega), moved_add]
  -- Cut or not, the beam reaches the end of the same mode.
  · have same : (v.moved a).atBoundary = v.atBoundary := rfl
    rw [tick_reach palette _ v requests h on (by omega),
      tick_reach palette b _ requests inRange on (by omega), same, left,
      show a + b - (v.raster.boundary - v.raster.dot.toNat) =
        b - (v.raster.boundary - v.raster.dot.toNat - a) by omega]

theorem tick_add (a b : Nat) (v : Video) (requests : InterruptSet) (h : v.raster.InRange) :
    v.tick palette (a + b) requests =
      (v.tick palette a requests).1.tick palette b (v.tick palette a requests).2 := by
  induction a using Nat.strongRecOn generalizing v requests with
  | ind a ih =>
    by_cases none : a = 0
    · rw [none, tick_zero, Nat.zero_add]
    by_cases on : v.raster.registers.lcdOn = true
    · by_cases within : a < v.raster.boundary - v.raster.dot.toNat
      · rw [tick_add_within palette a b v requests h on within,
          tick_within palette a v requests h on none within]
      have before := h.dot_lt
      rw [tick_reach palette (a + b) v requests h on (by omega),
        tick_reach palette a v requests h on (by omega), Nat.sub_add_comm (by omega)]
      exact ih _ (by omega) _ _ (inRange_advanceMode palette v h)
    · rw [tick_off palette _ v requests on, tick_off palette a v requests on,
        tick_off palette b v requests on]

end DotMatrix.Video
