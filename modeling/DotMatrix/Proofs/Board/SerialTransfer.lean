import DotMatrix.Proofs.Board.Operation
import Mathlib.Data.Nat.Bitwise

/-! A transfer on the serial link. It takes eight times 512 cycles, however they are cut; each 512 of
them shift one bit of the byte out and a one in, and the last ones request the interrupt. -/
namespace DotMatrix

namespace SerialLink
variable {byte : UInt8} {p : Nat} {s : SerialLink}

def shifted (byte : UInt8) (j : Nat) : Nat := (byte.toNat <<< j ||| (2 ^ j - 1)) % 256

theorem shifted_eq (byte : UInt8) (j : Nat) :
    shifted byte j = (byte.toNat * 2 ^ j + (2 ^ j - 1)) % 256 := by
  have ones : 2 ^ j - 1 < 2 ^ j := Nat.sub_lt (Nat.two_pow_pos j) Nat.zero_lt_one
  rw [shifted, ← Nat.shiftLeft_add_eq_or_of_lt ones, Nat.shiftLeft_eq]

theorem shifted_succ (byte : UInt8) (j : Nat) :
    shifted byte (j + 1) = (2 * shifted byte j + 1) % 256 := by
  have positive := Nat.two_pow_pos j
  rw [shifted_eq, shifted_eq, Nat.pow_succ, ← Nat.mul_assoc]
  omega

theorem toNat_shift_data (s : SerialLink) : s.shift.data.toNat = (2 * s.data.toNat + 1) % 256 := by
  have even : s.data.toNat <<< 1 % 256 = 2 ^ 1 * (s.data.toNat % 128) := by
    rw [Nat.shiftLeft_eq]
    omega
  change (s.data <<< 1 ||| 0x01).toNat = _
  rw [UInt8.toNat_or, UInt8.toNat_shiftLeft]
  change s.data.toNat <<< 1 % 256 ||| 1 = _
  rw [even, ← Nat.two_pow_add_eq_or_of_lt (by decide)]
  omega

/-- The state of a link, `p` cycles after a transfer of `byte` has begun. -/
structure Sending (byte : UInt8) (p : Nat) (s : SerialLink) : Prop where
  data : s.data.toNat = shifted byte (min 8 (p / 512))
  control : s.control = if p < 4096 then 0x81 else 0x01
  bitsRemaining : s.bitsRemaining.toNat = 8 - p / 512
  bitTimer : p < 4096 → s.bitTimer.toNat = 512 - p % 512

theorem sending_begin (value : UInt8) (starts : value &&& 0x81 = 0x81) :
    Sending s.data 0 (s.writeControl value) := by
  unfold writeControl
  dsimp only
  rw [starts]
  exact ⟨by simp [shifted, Nat.mod_eq_of_lt s.data.toNat_lt], rfl, rfl, fun _ => rfl⟩

theorem Sending.active (h : Sending byte p s) (before : p < 4096) : s.bitsRemaining ≠ 0 := by
  intro idle
  have left := h.bitsRemaining
  rw [idle] at left
  change 0 = 8 - p / 512 at left
  omega

theorem tick_one_shift (active : s.bitsRemaining ≠ 0) (due : s.bitTimer.toNat = 1) :
    s.tick 1 = (s.shift, .when (s.shift.bitsRemaining == 0) .serial) := by
  rw [tick_shift 1 s active (by decide) (by omega), due, Nat.sub_self, tick_zero,
    InterruptSet.union_empty]

theorem toNat_shift_bitsRemaining (active : s.bitsRemaining ≠ 0) :
    s.shift.bitsRemaining.toNat = s.bitsRemaining.toNat - 1 := by
  have positive : s.bitsRemaining.toNat ≠ 0 := fun zero => active (UInt8.toNat_inj.mp zero)
  exact UInt8.toNat_sub_of_le _ _ (show 1 ≤ s.bitsRemaining.toNat by omega)

theorem Sending.tick_one_shift (h : Sending byte p s) (before : p < 4096) (last : p % 512 = 511) :
    Sending byte (p + 1) (s.tick 1).1 ∧ (s.tick 1).2 = .when (decide (4096 ≤ p + 1)) .serial := by
  have active := h.active before
  have bit : (p + 1) / 512 = p / 512 + 1 := by omega
  have left : s.shift.bitsRemaining.toNat = 8 - (p + 1) / 512 := by
    rw [toNat_shift_bitsRemaining active, h.bitsRemaining]
    omega
  have done : s.shift.bitsRemaining = 0 ↔ 4096 ≤ p + 1 := by
    rw [← UInt8.toNat_inj, left]
    exact (show 8 - (p + 1) / 512 = 0 ↔ 4096 ≤ p + 1 by omega)
  rw [SerialLink.tick_one_shift active (by rw [h.bitTimer before]; omega)]
  refine ⟨⟨?_, ?_, left, fun _ => ?_⟩, by simp only [beq_eq_decide, done]⟩
  · rw [toNat_shift_data, h.data, bit, show min 8 (p / 512) = p / 512 by omega,
      show min 8 (p / 512 + 1) = p / 512 + 1 by omega, shifted_succ]
  · change (if s.shift.bitsRemaining == 0 then s.control &&& 0x7F else s.control) = _
    rw [h.control, if_pos before]
    by_cases ended : 4096 ≤ p + 1
    · rw [if_pos (by simpa using done.mpr ended), if_neg (Nat.not_lt.mpr ended)]
      rfl
    · rw [if_neg (by simpa using mt done.mp ended), if_pos (Nat.not_le.mp ended)]
  · change 512 = 512 - (p + 1) % 512
    omega

theorem Sending.tick_one_within (h : Sending byte p s) (before : p < 4096)
    (within : p % 512 ≠ 511) : Sending byte (p + 1) (s.tick 1).1 ∧ (s.tick 1).2 = ∅ := by
  have timer := h.bitTimer before
  have room : 1 < s.bitTimer.toNat := by omega
  have bit : (p + 1) / 512 = p / 512 := by omega
  rw [tick_within 1 s (h.active before) room]
  refine ⟨⟨bit ▸ h.data, ?_, bit ▸ h.bitsRemaining, fun _ => ?_⟩, rfl⟩
  · rw [h.control, if_pos before, if_pos (by omega)]
  · rw [toNat_bitTimer_sub 1 s room, timer]
    omega

theorem Sending.tick_one_idle (h : Sending byte p s) (ended : 4096 ≤ p) :
    Sending byte (p + 1) (s.tick 1).1 ∧ (s.tick 1).2 = ∅ := by
  have idle : s.bitsRemaining = 0 := by
    rw [← UInt8.toNat_inj, h.bitsRemaining]
    exact (show 8 - p / 512 = 0 by omega)
  have bits : min 8 ((p + 1) / 512) = min 8 (p / 512) := by omega
  rw [tick_idle 1 s idle]
  refine ⟨⟨bits ▸ h.data, ?_, ?_, fun before => by omega⟩, rfl⟩
  · rw [h.control, if_neg (by omega), if_neg (by omega)]
  · rw [h.bitsRemaining]
    omega

theorem Sending.tick_one (h : Sending byte p s) :
    Sending byte (p + 1) (s.tick 1).1 ∧
      (s.tick 1).2 = .when (decide (p < 4096 ∧ 4096 ≤ p + 1)) .serial := by
  by_cases ended : 4096 ≤ p
  · rw [decide_eq_false (by omega)]
    exact h.tick_one_idle ended
  · by_cases last : p % 512 = 511
    · simpa only [Nat.not_le.mp ended, true_and] using h.tick_one_shift (Nat.not_le.mp ended) last
    · rw [decide_eq_false (by omega)]
      exact h.tick_one_within (Nat.not_le.mp ended) last

/-- Any stretch of a transfer, a cycle at a time. No two cycles of it request the interrupt. -/
theorem Sending.tick (h : Sending byte p s) (n : Nat) :
    Sending byte (p + n) (s.tick n).1 ∧
      (s.tick n).2 = .when (decide (p < 4096 ∧ 4096 ≤ p + n)) .serial := by
  induction n with
  | zero =>
    rw [tick_zero, decide_eq_false (by omega)]
    exact ⟨h, rfl⟩
  | succ n ih =>
    obtain ⟨stretch, requested⟩ := ih
    obtain ⟨next, last⟩ := stretch.tick_one
    rw [tick_add, requested, last, ← InterruptSet.when_or, ← Bool.decide_or]
    refine ⟨next, congrArg (InterruptSet.when · .serial) (decide_eq_decide.mpr ?_)⟩
    omega

/-- The register says whether a transfer is under way, and the next bit of one is due within the
time of a bit. -/
structure Orderly (s : SerialLink) : Prop where
  bitsRemaining : s.bitsRemaining.toNat ≤ 8
  active : s.bitsRemaining ≠ 0 ↔ s.control = 0x81
  bitTimer : s.bitsRemaining ≠ 0 → 1 ≤ s.bitTimer.toNat ∧ s.bitTimer.toNat ≤ 512

theorem cyclesPerBit_range : 1 ≤ cyclesPerBit.toNat ∧ cyclesPerBit.toNat ≤ 512 := by decide

theorem Orderly.powerOn : powerOn.Orderly := ⟨by decide, by decide, fun busy => absurd rfl busy⟩

theorem Orderly.shift (h : s.Orderly) (active : s.bitsRemaining ≠ 0) : s.shift.Orderly := by
  have fewer := toNat_shift_bitsRemaining active
  have bits := h.bitsRemaining
  refine ⟨by omega, ?_, fun _ => cyclesPerBit_range⟩
  change s.shift.bitsRemaining ≠ 0 ↔
    (if s.shift.bitsRemaining == 0 then s.control &&& 0x7F else s.control) = 0x81
  rw [h.active.mp active]
  by_cases done : s.shift.bitsRemaining = 0
  · rw [done]
    decide
  · simp [done]

theorem Orderly.tick (h : s.Orderly) (n : Nat) : (s.tick n).1.Orderly := by
  fun_induction SerialLink.tick n s with
  | case1 => exact h
  | case2 => exact h
  | case3 n s active some within =>
    have left := toNat_bitTimer_sub n s within
    have timer := (h.bitTimer active).2
    refine ⟨h.bitsRemaining, h.active, fun _ => ?_⟩
    dsimp only
    omega
  | case4 n s active => exact h.shift active
  | case5 n s active some reaches more ih => exact ih (h.shift active)

theorem orderly_writeControl (value : UInt8) (s : SerialLink) : (s.writeControl value).Orderly := by
  unfold SerialLink.writeControl
  dsimp only
  split
  case isTrue starts =>
    rw [beq_iff_eq.mp starts]
    exact ⟨Nat.le_refl 8, iff_of_true (show (8 : UInt8) ≠ 0 by decide) rfl,
      fun _ => cyclesPerBit_range⟩
  case isFalse cancels =>
    exact ⟨Nat.zero_le 8, iff_of_false (fun busy => busy rfl) (by simpa using cancels),
      fun busy => absurd rfl busy⟩

end SerialLink

inductive LinkOperation where
  | tick (cycles : Nat)
  | writeData (value : UInt8)
  | writeControl (value : UInt8)

/-- The part of an operation on the bus that the link meets. -/
def LinkOperation.ofBus? : BusOperation → Option LinkOperation
  | .tick cycles => some (.tick cycles)
  | .write address value =>
    if address = 0xFF01 then some (.writeData value)
    else if address = 0xFF02 then some (.writeControl value)
    else none
  | _ => none

structure LiveLink where
  serial : SerialLink
  sent : Array UInt8

namespace LiveLink
variable {live : LiveLink}

def powerOn : LiveLink := ⟨.powerOn, #[]⟩

def operate (live : LiveLink) : LinkOperation → LiveLink
  | .tick cycles => { live with serial := (live.serial.tick cycles).1 }
  | .writeData value => { live with serial := live.serial.writeData value }
  | .writeControl value =>
    { serial := live.serial.writeControl value
      sent := match live.serial.sent? value with
        | some byte => live.sent.push byte
        | none => live.sent }

def operations (ops : List LinkOperation) (live : LiveLink) : LiveLink := ops.foldl operate live

def begin (byte value : UInt8) (live : LiveLink) : LiveLink :=
  live.operations [.writeData byte, .writeControl value]

def ticks (cuts : List Nat) (live : LiveLink) : LiveLink := live.operations (cuts.map .tick)

theorem operations_append (first rest : List LinkOperation) (live : LiveLink) :
    live.operations (first ++ rest) = (live.operations first).operations rest :=
  List.foldl_append ..

theorem ticks_eq (cuts : List Nat) (live : LiveLink) :
    live.ticks cuts = { live with serial := (live.serial.tick cuts.sum).1 } := by
  induction cuts generalizing live with
  | nil =>
    rw [List.sum_nil, SerialLink.tick_zero]
    rfl
  | cons cycles cuts ih =>
    rw [List.sum_cons, SerialLink.tick_add]
    exact ih (live.operate (.tick cycles))

theorem sending_begin (byte : UInt8) {value : UInt8} (starts : value &&& 0x81 = 0x81)
    (live : LiveLink) : (live.begin byte value).serial.Sending byte 0 :=
  SerialLink.sending_begin (s := live.serial.writeData byte) value starts

theorem orderly_operate (op : LinkOperation) (h : live.serial.Orderly) :
    (live.operate op).serial.Orderly := by
  cases op with
  | tick cycles => exact h.tick cycles
  | writeData value => exact ⟨h.bitsRemaining, h.active, h.bitTimer⟩
  | writeControl value => exact SerialLink.orderly_writeControl value live.serial

theorem orderly_operations (ops : List LinkOperation) (h : live.serial.Orderly) :
    (live.operations ops).serial.Orderly := by
  induction ops generalizing live with
  | nil => exact h
  | cons op ops ih => exact ih (orderly_operate op h)

end LiveLink

namespace LiveBoard
variable {live next last : LiveBoard}

def link (live : LiveBoard) : LiveLink := ⟨live.board.serial, live.sent⟩

theorem link_write_region (address : UInt16) (value : UInt8) (live : LiveBoard) :
    (live.write address value).link =
      match Region.ofAddress address with
      | .serialData => live.link.operate (.writeData value)
      | .serialControl => live.link.operate (.writeControl value)
      | _ => live.link := by
  unfold write
  cases Region.ofAddress address with
  | vram | oam =>
    dsimp only
    split <;> rfl
  | oamTransfer =>
    unfold transfer link
    rfl
  | _ => rfl

theorem link_write (address : UInt16) (value : UInt8) (live : LiveBoard) :
    (live.write address value).link =
      live.link.operations ([.write address value].filterMap LinkOperation.ofBus?) := by
  have data : Region.ofAddress address = .serialData ↔ address = 0xFF01 :=
    Region.ofAddress_eq_iff rfl address
  have control : Region.ofAddress address = .serialControl ↔ address = 0xFF02 :=
    Region.ofAddress_eq_iff rfl address
  rw [link_write_region]
  simp only [List.filterMap_cons, List.filterMap_nil, LinkOperation.ofBus?, ← data, ← control]
  cases Region.ofAddress address <;> rfl

theorem link_operate {op : BusOperation} (operates : live.operate op = .ok next) :
    next.link = live.link.operations ([op].filterMap LinkOperation.ofBus?) := by
  cases op with
  | write address value =>
    cases operates
    exact link_write address value live
  | tick cycles =>
    obtain ⟨counter, rfl⟩ := elapsed_of_tick operates
    rfl
  | _ =>
    cases operates
    rfl

/-- A link on a board meets time and the writes to its own registers. -/
theorem link_operations {ops : List BusOperation} (operates : ops.foldlM operate live = .ok last) :
    last.link = live.link.operations (ops.filterMap LinkOperation.ofBus?) := by
  induction ops generalizing live with
  | nil =>
    cases operates
    rfl
  | cons op ops ih =>
    obtain ⟨next, first, rest⟩ := Except.foldlM_cons_eq_ok.mp operates
    rw [ih rest, link_operate first, ← LiveLink.operations_append, ← List.filterMap_append,
      List.singleton_append]

/-- A board with nothing in its slot, when the power comes on. -/
def bare : LiveBoard :=
  ⟨.blank, .standard, .powerOn (.powerOn .bare) .standard, #[], #[]⟩

end LiveBoard

namespace LiveLink

/-- The transfer of `byte` that turns `live` into `begun`, for as long as nothing is written to the
link. -/
structure Transfers (byte : UInt8) (live begun : LiveLink) : Prop where
  /-- For each bit that has gone out a one has come in. -/
  data : ∀ cuts j, j = min 8 (cuts.sum / 512) →
    (begun.ticks cuts).serial.data.toNat = (byte.toNat <<< j ||| (2 ^ j - 1)) % 256
  control : ∀ cuts, (begun.ticks cuts).serial.control &&& 0x80 ≠ 0 ↔ cuts.sum < 4096
  /-- Of all the ticks the one that ends the transfer requests the interrupt. -/
  requests : ∀ cuts cycles, ((begun.ticks cuts).serial.tick cycles).2 =
    .when (decide (cuts.sum < 4096 ∧ 4096 ≤ cuts.sum + cycles)) .serial
  sent : ∀ cuts, (begun.ticks cuts).sent = live.sent.push byte

theorem sent_begin (byte : UInt8) {value : UInt8} (starts : value &&& 0x81 = 0x81)
    (live : LiveLink) : (live.begin byte value).sent = live.sent.push byte := by
  have sends : (live.serial.writeData byte).sent? value = some byte := by
    rw [SerialLink.sent?, if_pos (by rw [starts]; rfl)]
    rfl
  change (match (live.serial.writeData byte).sent? value with
    | some byte => live.sent.push byte
    | none => live.sent) = live.sent.push byte
  rw [sends]

/-- A transfer takes its time, from whatever state it begins; time and writes in any order keep the
state of the link orderly, and on a board it meets nothing else. -/
theorem transfers :
    (∀ (live : LiveLink) (byte value : UInt8), value &&& 0x81 = 0x81 →
      Transfers byte live (live.begin byte value)) ∧
    (∀ ops, (powerOn.operations ops).serial.Orderly) ∧
    ∀ (ops : List BusOperation) (first last : LiveBoard),
      ops.foldlM LiveBoard.operate first = .ok last →
        last.link = first.link.operations (ops.filterMap LinkOperation.ofBus?) := by
  refine ⟨fun live byte value starts => ?_, fun ops => orderly_operations ops .powerOn,
    fun _ _ _ => LiveBoard.link_operations⟩
  have sending (cuts : List Nat) :
      ((live.begin byte value).ticks cuts).serial.Sending byte cuts.sum := by
    have passed := ((sending_begin byte starts live).tick cuts.sum).1
    rw [Nat.zero_add] at passed
    rw [ticks_eq]
    exact passed
  constructor
  case data =>
    rintro cuts _ rfl
    exact (sending cuts).data
  case control =>
    intro cuts
    rw [(sending cuts).control]
    by_cases before : cuts.sum < 4096
    · rw [if_pos before]
      exact iff_of_true (by decide) before
    · rw [if_neg before]
      exact iff_of_false (by decide) before
  case requests => exact fun cuts cycles => ((sending cuts).tick cycles).2
  case sent =>
    intro cuts
    rw [ticks_eq]
    exact sent_begin byte starts live

/-- An H is given up for an A in its second bit, and the A goes out whole. -/
def interrupted : List BusOperation :=
  [.write 0xFF01 0x48, .write 0xFF02 0x81, .tick 700, .write 0xFF01 0x41, .write 0xFF02 0xFF,
    .tick 511, .write 0xC000 0x2A, .tick 3585]

theorem transfers_interrupted :
    ∃ last, interrupted.foldlM LiveBoard.operate .bare = .ok last ∧
      last.board.serial.data = 0xFF ∧ last.board.serial.control &&& 0x80 = 0 ∧
      last.sent = #[0x48, 0x41] := by
  obtain ⟨starts, -, board⟩ := transfers
  obtain ⟨last, operates⟩ := LiveBoard.exists_operations interrupted .bare (by decide)
  have link := board interrupted .bare last operates
  have first := starts powerOn 0x48 0x81 (by decide)
  have second := starts ((powerOn.begin 0x48 0x81).ticks [700]) 0x41 0xFF (by decide)
  change last.link =
    (((powerOn.begin 0x48 0x81).ticks [700]).begin 0x41 0xFF).ticks [511, 3585] at link
  have serial := congrArg LiveLink.serial link
  have sent := congrArg LiveLink.sent link
  change last.board.serial = _ at serial
  change last.sent = _ at sent
  refine ⟨last, operates, UInt8.toNat_inj.mp ?_, ?_, ?_⟩
  · rw [serial]
    exact second.data [511, 3585] 8 rfl
  · rw [serial]
    exact Decidable.not_not.mp (mt (second.control [511, 3585]).mp (by decide))
  · rw [sent, second.sent, first.sent]
    rfl

end LiveLink
end DotMatrix
