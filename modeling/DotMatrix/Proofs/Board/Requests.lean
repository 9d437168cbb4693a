import DotMatrix.Proofs.Board.Event
import DotMatrix.Proofs.Board.Operation
import DotMatrix.Proofs.Video.Beam
import Mathlib.Data.List.Induction

/-! Which interrupts are requested. A part makes a request in time that passes, in a write to one
of its registers or when buttons change; a dispatch withdraws its own source and no other; and a
write to the request register settles them all. -/
namespace DotMatrix

namespace InterruptSet
variable {i j : Interrupt} {s : InterruptSet}

theorem not_mem_empty (i : Interrupt) : i ∉ (∅ : InterruptSet) := by
  cases i <;> decide

theorem mem_singleton : i ∈ ({j} : InterruptSet) ↔ i = j := by
  cases i <;> cases j <;> decide

theorem mem_masked (bits : UInt8) : i ∈ mk (bits &&& sources) ↔ i ∈ mk bits := by
  have named : sources &&& i.bit = i.bit := by cases i <;> decide
  change bits &&& sources &&& i.bit ≠ 0 ↔ bits &&& i.bit ≠ 0
  rw [UInt8.and_assoc, named]

theorem mem_read : i ∈ mk (s.bits ||| 0xE0) ↔ i ∈ s := by
  have unnamed : i ∉ mk 0xE0 := by cases i <;> decide
  exact mem_union.trans (or_iff_left unnamed)

theorem mem_erase : i ∈ s.erase j ↔ i ∈ s ∧ i ≠ j := by
  change s.bits &&& ~~~j.bit &&& i.bit ≠ 0 ↔ s.bits &&& i.bit ≠ 0 ∧ i ≠ j
  rw [UInt8.and_assoc]
  by_cases same : i = j
  · simp [same]
  · have other : ~~~j.bit &&& i.bit = i.bit := by
      cases i <;> cases j <;> first | decide | exact absurd rfl same
    simp [other, same]

end InterruptSet

namespace Event

def Stores (i : Interrupt) : Event → Prop
  | .access (.write address value) => address = 0xFF0F ∧ i ∈ InterruptSet.mk value
  | _ => False

/-- An earlier request does not outlast the event. -/
def Withdraws (i : Interrupt) : Event → Prop
  | .access (.write address _) => address = 0xFF0F
  | .withdraw source => source = i
  | _ => False

end Event

namespace LiveBoard
variable {start live next middle last : LiveBoard} {event : Event}
  {events first rest : List Event} {i : Interrupt}

def writeRequests (address : UInt16) (value : UInt8) (live : LiveBoard) : InterruptSet :=
  match Region.ofAddress address with
  | .joypad => (live.board.joypad.write value).2
  | .video => (live.board.video.write live.settings.colors address value).2
  | _ => ∅

def requests (live : LiveBoard) : Event → InterruptSet
  | .access (.write address value) => live.writeRequests address value
  | .tick n =>
    (live.board.timer.tick n).2 ∪ (live.board.serial.tick n).2 ∪
      (live.board.video.tick live.settings.colors n ∅).2
  | .hold held => (live.board.joypad.hold held).2
  | _ => ∅

theorem requested_write (address : UInt16) (value : UInt8) (live : LiveBoard) :
    (live.write address value).board.requested =
      if address = 0xFF0F then ⟨value &&& InterruptSet.sources⟩
      else live.board.requested ∪ live.writeRequests address value := by
  have register := Region.ofAddress_eq_interruptRequest address
  unfold write writeRequests
  cases region : Region.ofAddress address with
  | interruptRequest =>
    rw [if_pos (register.mp region)]
    rfl
  | joypad | video =>
    rw [if_neg fun same => by simp [register.mpr same] at region]
    rfl
  | vram | oam =>
    rw [if_neg fun same => by simp [register.mpr same] at region, InterruptSet.union_empty]
    dsimp only
    split <;> rfl
  | oamTransfer =>
    rw [if_neg fun same => by simp [register.mpr same] at region, InterruptSet.union_empty]
    unfold transfer
    rfl
  | unmapped =>
    rw [if_neg fun same => by simp [register.mpr same] at region, InterruptSet.union_empty]
  | _ =>
    rw [if_neg fun same => by simp [register.mpr same] at region, InterruptSet.union_empty]
    rfl

theorem raised_write (address : UInt16) (value : UInt8) (live : LiveBoard) :
    (live.write address value).board.raised =
      live.board.raised ∪ live.writeRequests address value := by
  unfold write writeRequests
  cases Region.ofAddress address with
  | joypad | video => rfl
  | vram | oam =>
    rw [InterruptSet.union_empty]
    dsimp only
    split <;> rfl
  | oamTransfer =>
    rw [InterruptSet.union_empty]
    unfold transfer
    rfl
  | unmapped => rw [InterruptSet.union_empty]
  | _ =>
    rw [InterruptSet.union_empty]
    rfl

theorem writeRequests_register (value : UInt8) (live : LiveBoard) :
    live.writeRequests 0xFF0F value = ∅ := rfl

theorem mem_requested_undergo (happens : live.undergo event = .ok next) :
    i ∈ next.board.requested ↔
      (i ∈ live.requests event ∨ event.Stores i) ∨
        i ∈ live.board.requested ∧ ¬event.Withdraws i := by
  have quiet : i ∉ (∅ : InterruptSet) := InterruptSet.not_mem_empty i
  cases event with
  | access access =>
    cases happens
    cases access with
    | read => simp [Access.on, Bus.read, requests, Event.Stores, Event.Withdraws, quiet]
    | write address value =>
      change i ∈ (live.write address value).board.requested ↔ _
      rw [requested_write]
      split
      case isTrue same =>
        subst same
        rw [InterruptSet.mem_masked]
        simp [requests, writeRequests_register, Event.Stores, Event.Withdraws, quiet]
      case isFalse other =>
        rw [InterruptSet.mem_union, or_comm]
        simp [requests, Event.Stores, Event.Withdraws, other]
  | withdraw source =>
    cases happens
    rw [requested_write, if_pos rfl, InterruptSet.mem_masked]
    refine InterruptSet.mem_erase.trans ?_
    rw [show live.read 0xFF0F = live.board.requested.bits ||| 0xE0 from rfl,
      InterruptSet.mem_read]
    simp [requests, Event.Stores, Event.Withdraws, quiet, eq_comm]
  | tick n =>
    obtain ⟨counter, rfl⟩ := elapsed_of_tick happens
    refine InterruptSet.mem_union.trans ?_
    simp [requests, Event.Stores, Event.Withdraws, or_comm]
  | hold held =>
    cases happens
    change i ∈ live.board.requested ∪ (live.board.joypad.hold held).2 ↔ _
    rw [InterruptSet.mem_union]
    simp [requests, Event.Stores, Event.Withdraws, or_comm]
  | _ =>
    cases happens
    simp [requests, Event.Stores, Event.Withdraws, quiet]
    rfl

/-- Some event entered the request, and none after it withdrew it. -/
def Entered (i : Interrupt) (events : List Event) (start : LiveBoard) : Prop :=
  ∃ before event after there, events = before ++ event :: after ∧
    start.replay before = .ok there ∧ (i ∈ there.requests event ∨ event.Stores i) ∧
    ∀ later ∈ after, ¬later.Withdraws i

theorem entered_snoc (runs : start.replay events = .ok live) :
    start.Entered i (events ++ [event]) ↔
      (i ∈ live.requests event ∨ event.Stores i) ∨
        start.Entered i events ∧ ¬event.Withdraws i := by
  constructor
  · rintro ⟨before, cause, after, there, cut, reaches, enters, kept⟩
    rcases List.eq_nil_or_concat after with rfl | ⟨after, last, rfl⟩
    · obtain ⟨rfl, same⟩ := List.append_inj' cut rfl
      cases same
      rw [runs] at reaches
      cases reaches
      exact .inl enters
    · rw [List.concat_eq_append, ← List.cons_append, ← List.append_assoc] at cut
      obtain ⟨rfl, same⟩ := List.append_inj' cut rfl
      cases same
      have still : ∀ later ∈ after, ¬later.Withdraws i := fun later inside =>
        kept later (by simp [inside])
      exact .inr ⟨⟨before, cause, after, there, rfl, reaches, enters, still⟩, kept event (by simp)⟩
  · rintro (enters | ⟨⟨before, cause, after, there, rfl, reaches, enters, kept⟩, last⟩)
    · exact ⟨events, event, [], live, rfl, runs, enters, by simp⟩
    · refine ⟨before, cause, after ++ [event], there, by simp, reaches, enters, ?_⟩
      simpa [or_imp, forall_and] using ⟨kept, last⟩

/-- A request stands if it was entered and not withdrawn since. -/
theorem mem_requested_replay (runs : start.replay events = .ok last) :
    i ∈ last.board.requested ↔
      start.Entered i events ∨
        i ∈ start.board.requested ∧ ∀ event ∈ events, ¬event.Withdraws i := by
  -- From the last event back, since what it withdraws is what the events before it entered.
  induction events using List.reverseRecOn generalizing last with
  | nil =>
    cases runs
    refine ⟨fun inside => .inr ⟨inside, by simp⟩, ?_⟩
    rintro (⟨before, event, after, there, cut, -⟩ | ⟨inside, -⟩)
    · exact absurd cut (by simp)
    · exact inside
  | append_singleton events event ih =>
    obtain ⟨live, runs, happens⟩ := replay_append.mp runs
    rw [replay_singleton] at happens
    rw [mem_requested_undergo happens, ih runs, entered_snoc runs]
    simp only [List.forall_mem_append, List.forall_mem_singleton, or_and_right, and_assoc,
      or_assoc]

def requestsIn : List Event → LiveBoard → InterruptSet
  | [], _ => ∅
  | event :: events, live =>
    live.requests event ∪
      match live.undergo event with
      | .ok next => requestsIn events next
      | .error _ => ∅

theorem requestsIn_cons (happens : live.undergo event = .ok next) :
    live.requestsIn (event :: events) = live.requests event ∪ next.requestsIn events := by
  rw [requestsIn, happens]

theorem requestsIn_append (runs : start.replay first = .ok middle) :
    start.requestsIn (first ++ rest) = start.requestsIn first ∪ middle.requestsIn rest := by
  induction first generalizing start with
  | nil =>
    cases runs
    exact (InterruptSet.empty_union _).symm
  | cons event first ih =>
    obtain ⟨next, happens, runs⟩ := replay_cons.mp runs
    rw [List.cons_append, requestsIn_cons happens, requestsIn_cons happens, ih runs,
      InterruptSet.union_assoc]

theorem raised_undergo (happens : live.undergo event = .ok next) (kept : event ≠ .takeRaised) :
    next.board.raised = live.board.raised ∪ live.requests event := by
  cases event with
  | access access =>
    cases happens
    cases access with
    | read => exact (InterruptSet.union_empty _).symm
    | write address value => exact raised_write ..
  | withdraw source =>
    cases happens
    exact raised_write ..
  | tick n =>
    obtain ⟨counter, rfl⟩ := elapsed_of_tick happens
    rfl
  | hold held =>
    cases happens
    rfl
  | takeRaised => exact absurd rfl kept
  | _ =>
    cases happens
    exact (InterruptSet.union_empty _).symm

/-- Until the host takes them the requests gather. -/
theorem raised_replay (kept : .takeRaised ∉ events) (runs : start.replay events = .ok last) :
    last.board.raised = start.board.raised ∪ start.requestsIn events := by
  induction events generalizing start with
  | nil =>
    cases runs
    exact (InterruptSet.union_empty _).symm
  | cons event events ih =>
    obtain ⟨next, happens, runs⟩ := replay_cons.mp runs
    have now : event ≠ .takeRaised := fun same => kept (same ▸ List.mem_cons_self)
    rw [ih (fun later => kept (List.mem_cons_of_mem event later)) runs, raised_undergo happens now,
      requestsIn_cons happens, InterruptSet.union_assoc]

end LiveBoard
end DotMatrix
