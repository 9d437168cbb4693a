import DotMatrix.Proofs.Cpu.RepeatedByte

/-! The stack in memory. The words that were pushed lie below the address where SP was, each with
its high byte above its low one; addresses wrap, so that there is room for as many words as fit
into the memory. -/
namespace DotMatrix

namespace FlatMemory

def byte (memory : FlatMemory) (address : UInt16) : UInt8 := (Bus.read address memory).1

theorem byte_write (memory : FlatMemory) (place : UInt16) (value : UInt8) (address : UInt16) :
    byte (Bus.write place value memory) address =
      if address = place then value else byte memory address :=
  read_write memory place value address

end FlatMemory

namespace Stack

def place (base : UInt16) (count : Nat) : UInt16 := base - 1 - UInt16.ofNat count

theorem place_injective {base : UInt16} {i j : Nat} (hi : i < 65536) (hj : j < 65536)
    (same : place base i = place base j) : i = j := by
  have counts : UInt16.ofNat i = UInt16.ofNat j := by
    unfold place at same
    grind
  have values := congrArg UInt16.toNat counts
  rwa [UInt16.toNat_ofNat_of_lt' hi, UInt16.toNat_ofNat_of_lt' hj] at values

/-- The address is that of one of the bytes of `count` words. -/
def Covers (base : UInt16) (count : Nat) (address : UInt16) : Prop :=
  ∃ i < 2 * count, address = place base i

instance (base : UInt16) (count : Nat) (address : UInt16) : Decidable (Covers base count address) :=
  inferInstanceAs (Decidable (∃ i < 2 * count, address = place base i))

def pointer (base : UInt16) (count : Nat) : UInt16 := base - UInt16.ofNat (2 * count)

theorem pointer_succ (base : UInt16) (count : Nat) :
    pointer base (count + 1) = pointer base count - 2 := by
  unfold pointer
  rw [Nat.mul_succ, UInt16.ofNat_add]
  grind

theorem place_high (base : UInt16) (count : Nat) :
    place base (2 * count) = pointer base count - 1 := by
  unfold place pointer
  grind

theorem place_low (base : UInt16) (count : Nat) :
    place base (2 * count + 1) = pointer base count - 2 := by
  unfold place pointer
  rw [UInt16.ofNat_add]
  grind

/-- The words lie in memory below the address, the last one first in the list. -/
def Holds (base : UInt16) (memory : FlatMemory) : List UInt16 → Prop
  | [] => True
  | word :: words =>
    FlatMemory.byte memory (pointer base words.length - 1) = Word.high word ∧
      FlatMemory.byte memory (pointer base words.length - 2) = Word.low word ∧
      Holds base memory words

variable {base : UInt16}

theorem covers_mono {count more : Nat} {address : UInt16} (less : count ≤ more)
    (covers : Covers base count address) : Covers base more address := by
  obtain ⟨i, below, rfl⟩ := covers
  exact ⟨i, by omega, rfl⟩

theorem not_covers_zero (address : UInt16) : ¬Covers base 0 address :=
  fun ⟨_, below, _⟩ => Nat.not_lt_zero _ below

theorem covers_succ {count : Nat} {address : UInt16} :
    Covers base (count + 1) address ↔
      address = pointer base count - 1 ∨ address = pointer base count - 2 ∨
        Covers base count address := by
  rw [← place_high, ← place_low]
  constructor
  · rintro ⟨i, below, rfl⟩
    obtain rfl | rfl | below : i = 2 * count ∨ i = 2 * count + 1 ∨ i < 2 * count := by omega
    · exact .inl rfl
    · exact .inr (.inl rfl)
    · exact .inr (.inr ⟨i, below, rfl⟩)
  · rintro (rfl | rfl | covers)
    · exact ⟨2 * count, by omega, rfl⟩
    · exact ⟨2 * count + 1, by omega, rfl⟩
    · exact covers_mono (Nat.le_succ count) covers

theorem covers_one {address : UInt16} :
    Covers base 1 address ↔ address = base - 1 ∨ address = base - 2 := by
  have empty : pointer base 0 = base := UInt16.sub_zero base
  rw [covers_succ, empty, or_iff_left (not_covers_zero address)]

theorem covers_high (base : UInt16) (count : Nat) :
    Covers base (count + 1) (pointer base count - 1) :=
  covers_succ.mpr (.inl rfl)

theorem covers_low (base : UInt16) (count : Nat) :
    Covers base (count + 1) (pointer base count - 2) :=
  covers_succ.mpr (.inr (.inl rfl))

theorem not_covers {count : Nat} (room : count < 32768) :
    ¬Covers base count (pointer base count - 1) ∧ ¬Covers base count (pointer base count - 2) := by
  rw [← place_high, ← place_low]
  constructor
  · rintro ⟨i, below, same⟩
    have := place_injective (by omega) (by omega) same
    omega
  · rintro ⟨i, below, same⟩
    have := place_injective (by omega) (by omega) same
    omega

theorem room_of_not_covers {count : Nat} {address : UInt16} (free : ¬Covers base count address) :
    count < 32768 := by
  by_contra full
  have small := (base - 1 - address).toNat_lt
  refine free ⟨(base - 1 - address).toNat, by omega, ?_⟩
  rw [place, UInt16.ofNat_toNat]
  grind

theorem Holds.congr {memory memory' : FlatMemory} {words : List UInt16}
    (holds : Holds base memory words)
    (same : ∀ address, Covers base words.length address →
      FlatMemory.byte memory' address = FlatMemory.byte memory address) :
    Holds base memory' words := by
  induction words with
  | nil => trivial
  | cons word words ih =>
    obtain ⟨high, low, rest⟩ := holds
    exact ⟨(same _ (covers_high base _)).trans high, (same _ (covers_low base _)).trans low,
      ih rest fun address covers => same address (covers_mono (Nat.le_succ _) covers)⟩

theorem Holds.push {memory memory' : FlatMemory} {words : List UInt16} {word : UInt16}
    (holds : Holds base memory words)
    (high : FlatMemory.byte memory' (pointer base words.length - 1) = Word.high word)
    (low : FlatMemory.byte memory' (pointer base words.length - 2) = Word.low word)
    (others : ∀ address, Covers base words.length address →
      FlatMemory.byte memory' address = FlatMemory.byte memory address) :
    Holds base memory' (word :: words) :=
  ⟨high, low, holds.congr others⟩

theorem Holds.popped {memory : FlatMemory} {words : List UInt16} {word : UInt16}
    (holds : Holds base memory (word :: words)) :
    Word.join (FlatMemory.byte memory (pointer base (words.length + 1) + 1))
      (FlatMemory.byte memory (pointer base (words.length + 1))) = word := by
  obtain ⟨high, low, -⟩ := holds
  have above : pointer base words.length - 2 + 1 = pointer base words.length - 1 := by grind
  rw [pointer_succ, above, high, low, Word.join_high_low]

theorem pointer_succ_add (base : UInt16) (count : Nat) :
    pointer base (count + 1) + 2 = pointer base count := by
  rw [pointer_succ]
  exact UInt16.sub_add_cancel _ _

end Stack

namespace Execution

def withWord (sp word : UInt16) (memory : FlatMemory) : FlatMemory :=
  Bus.write (sp - 2) (Word.low word) (Bus.write (sp - 1) (Word.high word) memory)

theorem byte_withWord (sp word : UInt16) (memory : FlatMemory) (address : UInt16) :
    FlatMemory.byte (withWord sp word memory) address =
      if address = sp - 2 then Word.low word
      else if address = sp - 1 then Word.high word else FlatMemory.byte memory address := by
  rw [withWord, FlatMemory.byte_write, FlatMemory.byte_write]

theorem run_pushWord (word : UInt16) (w : Wired FlatMemory) :
    (pushWord word).run w =
      ((), ⟨{ w.cpu with registers := { w.cpu.registers with sp := w.cpu.registers.sp - 2 } },
        withWord w.cpu.registers.sp word w.bus⟩) := by
  have twice : w.cpu.registers.sp - 1 - 1 = w.cpu.registers.sp - 2 := by grind
  simp only [withWord, ← twice]
  rfl

theorem run_popWord (w : Wired FlatMemory) :
    popWord.run w =
      (Word.join (FlatMemory.byte w.bus (w.cpu.registers.sp + 1))
          (FlatMemory.byte w.bus w.cpu.registers.sp),
        ⟨{ w.cpu with registers := { w.cpu.registers with sp := w.cpu.registers.sp + 2 } },
          w.bus⟩) :=
  rfl

theorem run_push (operand : UInt16) (source : StackPair) (w : Wired FlatMemory) :
    ((perform operand (.push source)).run w).2 =
      ⟨{ w.cpu with registers := { w.cpu.registers with sp := w.cpu.registers.sp - 2 } },
        withWord w.cpu.registers.sp (source.get w.cpu.registers) w.bus⟩ := by
  rw [perform, run_bind, run_registers, run_bind, run_pushWord, run_pure]

theorem run_pop (operand : UInt16) (target : StackPair) (w : Wired FlatMemory) :
    ((perform operand (.pop target)).run w).2 =
      ⟨{ w.cpu with
          registers := target.set
            (Word.join (FlatMemory.byte w.bus (w.cpu.registers.sp + 1))
              (FlatMemory.byte w.bus w.cpu.registers.sp))
            { w.cpu.registers with sp := w.cpu.registers.sp + 2 } }, w.bus⟩ := by
  rw [perform, run_bind, run_popWord, run_bind, run_update, run_pure]

end Execution

def StackPair.kept (word : UInt16) : StackPair → UInt16
  | .af => Word.join (Word.high word) (Word.low word &&& 0xF0)
  | _ => word

structure StackPair.Got (target : StackPair) (word : UInt16) (r : Registers) : Prop where
  value : target.get r = target.kept word
  clear : target = .af → r.f &&& 0x0F = 0

theorem StackPair.got_set (target : StackPair) (word : UInt16) (r : Registers) :
    target.Got word (target.set word r) := by
  have twice (byte : UInt8) : byte &&& 0xF0 &&& 0xF0 = byte &&& 0xF0 := by
    rw [UInt8.and_assoc, UInt8.and_self]
  have apart (byte : UInt8) : byte &&& 0xF0 &&& 0x0F = 0 := by
    rw [UInt8.and_assoc]
    exact UInt8.and_zero
  cases target with
  | af => exact ⟨congrArg (Word.join _) (twice _), fun _ => apart _⟩
  | bc => exact ⟨r.bc_setBC word, nofun⟩
  | de => exact ⟨r.de_setDE word, nofun⟩
  | hl => exact ⟨r.hl_setHL word, nofun⟩

/-- The words are on the stack of the processor, which was empty with SP at `base`. -/
structure Wired.Stacked (base : UInt16) (words : List UInt16) (w : Wired FlatMemory) : Prop where
  sp : w.cpu.registers.sp = Stack.pointer base words.length
  holds : Stack.Holds base w.bus words

namespace Wired
open Stack Execution
variable {base : UInt16} {words : List UInt16} {word : UInt16} {w w' : Wired FlatMemory}

theorem stacked_nil (w : Wired FlatMemory) : Stacked w.cpu.registers.sp [] w :=
  ⟨(UInt16.sub_zero _).symm, trivial⟩

theorem Stacked.push (h : Stacked base words w) (room : words.length < 32768)
    (sp : w'.cpu.registers.sp = w.cpu.registers.sp - 2)
    (bytes : ∀ address, Covers base (words.length + 1) address →
      FlatMemory.byte w'.bus address =
        FlatMemory.byte (withWord w.cpu.registers.sp word w.bus) address) :
    Stacked base (word :: words) w' := by
  have apart : pointer base words.length - 1 ≠ pointer base words.length - 2 := by grind
  have below {address : UInt16} (covers : Covers base words.length address) :
      address ≠ pointer base words.length - 2 ∧ address ≠ pointer base words.length - 1 := by
    constructor
    · rintro rfl
      exact (not_covers room).2 covers
    · rintro rfl
      exact (not_covers room).1 covers
  simp only [byte_withWord, h.sp] at bytes
  refine ⟨?_, h.holds.push ?_ ?_ fun address covers => ?_⟩
  · rw [sp, h.sp, List.length_cons, pointer_succ]
  · rw [bytes _ (covers_high base _), if_neg apart, if_pos rfl]
  · rw [bytes _ (covers_low base _), if_pos rfl]
  · rw [bytes _ (covers_mono (Nat.le_succ _) covers), if_neg (below covers).1,
      if_neg (below covers).2]

theorem Stacked.popped (h : Stacked base (word :: words) w) :
    Word.join (FlatMemory.byte w.bus (w.cpu.registers.sp + 1))
      (FlatMemory.byte w.bus w.cpu.registers.sp) = word := by
  rw [h.sp]
  exact h.holds.popped

theorem Stacked.pop (h : Stacked base (word :: words) w)
    (sp : w'.cpu.registers.sp = w.cpu.registers.sp + 2) (bus : w'.bus = w.bus) :
    Stacked base words w' := by
  refine ⟨?_, bus ▸ h.holds.2.2⟩
  rw [sp, h.sp]
  exact pointer_succ_add base words.length

theorem Stacked.keep (h : Stacked base words w)
    (sp : w'.cpu.registers.sp = w.cpu.registers.sp)
    (bytes : ∀ address, Covers base words.length address →
      FlatMemory.byte w'.bus address = FlatMemory.byte w.bus address) :
    Stacked base words w' :=
  ⟨sp.trans h.sp, h.holds.congr bytes⟩

end Wired

namespace Execution

def pushAll : List (StackPair × Registers) → Execution FlatMemory Unit
  | [] => return ()
  | (source, loaded) :: rest => do
    update fun r => { loaded with sp := r.sp }
    let _ ← perform 0 (.push source)
    pushAll rest

def popAll : List StackPair → Execution FlatMemory (List Registers)
  | [] => return []
  | target :: rest => do
    let _ ← perform 0 (.pop target)
    let r ← registers
    return r :: (← popAll rest)

/-- Pushes all and pops all. -/
def passAll (pushes : List (StackPair × Registers)) (targets : List StackPair) :
    Execution FlatMemory (List Registers) := do
  pushAll pushes
  popAll targets

def pushedWords (pushes : List (StackPair × Registers)) : List UInt16 :=
  pushes.map fun push => push.1.get push.2

variable {base : UInt16}

theorem get_withStackPointer (pair : StackPair) (r : Registers) (sp : UInt16) :
    pair.get { r with sp } = pair.get r := by
  cases pair <;> rfl

theorem run_pushAll_cons (source : StackPair) (loaded : Registers)
    (rest : List (StackPair × Registers)) (w : Wired FlatMemory) :
    (pushAll ((source, loaded) :: rest)).run w =
      (pushAll rest).run
        ⟨{ w.cpu with registers := { loaded with sp := w.cpu.registers.sp - 2 } },
          withWord w.cpu.registers.sp (source.get loaded) w.bus⟩ := by
  rw [pushAll, run_bind, run_update, run_bind, run_push, get_withStackPointer]

theorem stacked_pushAll (pushes : List (StackPair × Registers)) {words : List UInt16}
    {w : Wired FlatMemory} (h : Wired.Stacked base words w)
    (room : words.length + pushes.length ≤ 32768) :
    Wired.Stacked base ((pushedWords pushes).reverse ++ words) ((pushAll pushes).run w).2 ∧
      ∀ address, ¬Stack.Covers base (words.length + pushes.length) address →
        FlatMemory.byte ((pushAll pushes).run w).2.bus address =
          FlatMemory.byte w.bus address := by
  induction pushes generalizing words w with
  | nil => exact ⟨h, fun _ _ => rfl⟩
  | cons push rest ih =>
    obtain ⟨source, loaded⟩ := push
    have shorter : words.length + 1 + rest.length ≤ 32768 := by
      rw [List.length_cons] at room
      omega
    let pushed : Wired FlatMemory :=
      ⟨{ w.cpu with registers := { loaded with sp := w.cpu.registers.sp - 2 } },
        withWord w.cpu.registers.sp (source.get loaded) w.bus⟩
    have next : Wired.Stacked base (source.get loaded :: words) pushed :=
      h.push (by omega) rfl fun _ _ => rfl
    have length : words.length + (rest.length + 1) = words.length + 1 + rest.length := by omega
    obtain ⟨stacked, others⟩ := ih next shorter
    rw [run_pushAll_cons, pushedWords, List.map_cons, List.reverse_cons, List.append_assoc,
      List.length_cons, length]
    refine ⟨stacked, fun address free => (others address free).trans ?_⟩
    have freed : ¬Stack.Covers base (words.length + 1) address := fun covers =>
      free (Stack.covers_mono (by omega) covers)
    rw [Stack.covers_succ, not_or, not_or] at freed
    change FlatMemory.byte (withWord _ _ _) address = _
    rw [byte_withWord, h.sp, if_neg freed.2.1, if_neg freed.1]

theorem popAll_stacked (targets : List StackPair) {popped words : List UInt16}
    {w : Wired FlatMemory} (h : Wired.Stacked base (popped ++ words) w)
    (same : targets.length = popped.length) :
    List.Forall₂ (fun pop r => pop.1.Got pop.2 r) (targets.zip popped) ((popAll targets).run w).1 ∧
      Wired.Stacked base words ((popAll targets).run w).2 ∧
      ((popAll targets).run w).2.bus = w.bus := by
  induction targets generalizing popped w with
  | nil =>
    obtain rfl := List.eq_nil_of_length_eq_zero same.symm
    exact ⟨.nil, h, rfl⟩
  | cons target rest ih =>
    cases popped with
    | nil => cases same
    | cons word popped =>
      let r := target.set word { w.cpu.registers with sp := w.cpu.registers.sp + 2 }
      have first : (popAll (target :: rest)).run w =
          (r :: ((popAll rest).run ⟨{ w.cpu with registers := r }, w.bus⟩).1,
            ((popAll rest).run ⟨{ w.cpu with registers := r }, w.bus⟩).2) := by
        rw [popAll, run_bind, run_pop, run_bind, run_registers, run_bind, run_pure, h.popped]
      have sp : r.sp = w.cpu.registers.sp + 2 := by
        cases target <;> rfl
      have next : Wired.Stacked base (popped ++ words) ⟨{ w.cpu with registers := r }, w.bus⟩ :=
        h.pop sp rfl
      obtain ⟨received, stacked, bus⟩ := ih next (Nat.succ.inj same)
      rw [first]
      exact ⟨.cons (target.got_set word _) received, stacked, bus⟩

end Execution

open Execution

/-- What is left when words are pushed out of pairs and popped into others: the registers behind
each pop, and the machine at the end. -/
structure Passed (w : Wired FlatMemory) (pushes : List (StackPair × Registers))
    (targets : List StackPair) (popped : List Registers) (after : Wired FlatMemory) : Prop where
  got : List.Forall₂ (fun pop r => pop.1.Got pop.2 r)
    (targets.zip (pushedWords pushes).reverse) popped
  sp : after.cpu.registers.sp = w.cpu.registers.sp
  others : ∀ address, ¬Stack.Covers w.cpu.registers.sp pushes.length address →
    FlatMemory.byte after.bus address = FlatMemory.byte w.bus address

/-- The words come back in reverse order, whatever the pairs and wherever the stack wraps. -/
theorem passed_passAll (w : Wired FlatMemory) {pushes : List (StackPair × Registers)}
    {targets : List StackPair} (same : targets.length = pushes.length)
    (room : pushes.length ≤ 32768) :
    Passed w pushes targets ((passAll pushes targets).run w).1
      ((passAll pushes targets).run w).2 := by
  have start := w.stacked_nil
  obtain ⟨stacked, others⟩ := stacked_pushAll pushes start (by simpa using room)
  have length : targets.length = (pushedWords pushes).reverse.length := by
    simpa [pushedWords] using same
  obtain ⟨got, empty, bus⟩ := popAll_stacked targets stacked length
  rw [List.length_nil, Nat.zero_add] at others
  refine ⟨got, empty.sp.trans start.sp.symm, fun address free => ?_⟩
  change FlatMemory.byte ((popAll targets).run ((pushAll pushes).run w).2).2.bus address = _
  rw [bus]
  exact others address free

end DotMatrix
