import DotMatrix.Proofs.Range.Board
import DotMatrix.Proofs.Snapshot.Precise
import DotMatrix.Proofs.Snapshot.Preamble

/-! Which byte strings a console refuses, and why. The check that fails first is the one that is
reported, and a refusal leaves the console as it was. -/
namespace DotMatrix

theorem BoardRecord.exists_ofBoard {live : Board} {saved : BoardRecord}
    (passes : saved.checkLayout live = .ok ()) : ∃ b, saved = .ofBoard b := by
  simp only [checkLayout, VideoRecord.checkLayout, Except.andThen_eq_ok, require_eq_ok,
    Bool.and_eq_true, beq_iff_eq] at passes
  obtain ⟨⟨wram, hram⟩, _, _, ⟨⟨vram, oam⟩, frame, _⟩, _⟩ := passes
  obtain ⟨board, holds⟩ : ∃ board, saved.toBoard? = some board := by
    simp only [toBoard?, VideoRecord.toVideo?, vram, oam, frame, wram, hram, and_self, dite_true]
    exact ⟨_, rfl⟩
  exact ⟨board, Board.ofBoard_of_toBoard? holds⟩

theorem BoardRecord.toBoard_eq_error {live : Board} {saved : BoardRecord} {flaw : Flaw} :
    saved.toBoard live = .error flaw ↔ saved.checkLayout live = .error flaw := by
  cases checked : saved.checkLayout live with
  | error flaw' =>
    simp [toBoard, checked, bind, Except.bind]
  | ok _ =>
    obtain ⟨b, rfl⟩ := exists_ofBoard checked
    rw [Board.toBoard_eq_ok.mpr ⟨checked, rfl⟩]
    constructor
    · intro refused
      cases refused
    · intro refused
      cases refused

namespace Console

/-- What comes of a byte string: a refusal before the body, a body that ends within a field or has
a malformed one, a state out of its ranges, or the state that the console takes over. -/
inductive Loads (c : Console) : List UInt8 → Except SnapshotError Console → Prop
  | refused (bytes : List UInt8) (error : SnapshotError)
      (judged : Snapshot.Judged c.header c.machine.bus.image bytes (.error error)) :
      Loads c bytes (.error error)
  | cut (front part : List UInt8) (field : Codec.Field)
      (place : Format.snapshot.Expects front field) (ends : part.length < field.width) :
      Loads c (Snapshot.preamble c.header c.machine.bus.image ++ (front ++ part))
        (.error (.truncated (Snapshot.headerLength + (front ++ part).length)))
  | malformed (front rest : List UInt8) (field : Codec.Field) (error : DecodeError)
      (place : Format.snapshot.Expects front field) (bad : field.Malformed rest error) :
      Loads c (Snapshot.preamble c.header c.machine.bus.image ++ (front ++ rest))
        (.error (.malformed error))
  | inconsistent (saved : Snapshot) (trailing : List UInt8) (flaw : Flaw)
      (stored : saved.board.Storable)
      (fails : saved.board.checkLayout c.machine.bus.board = .error flaw) :
      Loads c (Snapshot.preamble c.header c.machine.bus.image ++
        (Format.snapshot.encode saved ++ trailing)) (.error (.inconsistent flaw))
  | accepted (cpu : Cpu) (board : Board) (frames : UInt64) (trailing : List UInt8)
      (stored : (BoardRecord.ofBoard board).Storable)
      (passes : (BoardRecord.ofBoard board).checkLayout c.machine.bus.board = .ok ()) :
      Loads c (Snapshot.preamble c.header c.machine.bus.image ++
        (Format.snapshot.encode ⟨cpu, .ofBoard board, frames⟩ ++ trailing))
        (.ok ⟨c.header, ⟨cpu, { c.machine.bus with board, samples := #[] }⟩, frames⟩)

theorem load_preamble (c : Console) (body : List UInt8) :
    c.load (Snapshot.preamble c.header c.machine.bus.image ++ body) =
      match Format.snapshot.decode body with
      | .error .endOfInput => .error (.truncated (Snapshot.headerLength + body.length))
      | .error error => .error (.malformed error)
      | .ok (saved, _) =>
        match saved.board.toBoard c.machine.bus.board with
        | .error flaw => .error (.inconsistent flaw)
        | .ok board =>
          .ok ⟨c.header, ⟨saved.cpu, { c.machine.bus with board, samples := #[] }⟩,
            saved.frames⟩ := by
  unfold Console.load
  dsimp only
  rw [Snapshot.body_eq_ok.mpr rfl, List.length_append, Snapshot.length_preamble]
  change (Snapshot.decode _ body >>= _) = _
  unfold Snapshot.decode
  cases Format.snapshot.decode body with
  | error error => cases error <;> rfl
  | ok read =>
    obtain ⟨saved, trailing⟩ := read
    change ((saved.board.toBoard c.machine.bus.board).mapError _ >>= _) = _
    dsimp only
    cases saved.board.toBoard c.machine.bus.board <;> rfl

namespace Loads
variable {c : Console} {bytes : List UInt8} {result : Except SnapshotError Console}

theorem load_eq (loads : c.Loads bytes result) : c.load bytes = result := by
  cases loads with
  | refused _ error judged =>
    unfold Console.load
    dsimp only
    rw [judged.body_eq]
    rfl
  | cut front part field place ends =>
    rw [load_preamble, place.decode_eq_error (.ends ends)]
  | malformed front rest field error place bad =>
    rw [load_preamble, place.decode_eq_error (.malformed error bad)]
    cases bad <;> rfl
  | inconsistent saved trailing flaw stored fails =>
    have read := Format.lawful_snapshot.decode_encode saved trailing stored
    rw [load_preamble, read]
    simp only [BoardRecord.toBoard_eq_error.mpr fails]
  | accepted cpu board frames trailing stored passes =>
    have read := Format.lawful_snapshot.decode_encode ⟨cpu, .ofBoard board, frames⟩ trailing stored
    rw [load_preamble, read]
    simp only [Board.toBoard_eq_ok.mpr ⟨passes, rfl⟩]

theorem exists_result (c : Console) (bytes : List UInt8) : ∃ result, c.Loads bytes result := by
  obtain ⟨judgement, judged⟩ :=
    Snapshot.Judged.exists_result c.header c.machine.bus.image bytes
  cases judgement with
  | error error => exact ⟨_, .refused bytes error judged⟩
  | ok body =>
    obtain rfl := Snapshot.body_eq_ok.mp judged.body_eq
    cases decoded : Format.snapshot.decode body with
    | error error =>
      obtain ⟨front, field, rest, rfl, place, fails⟩ :=
        Codec.Precise.decode_eq_error_iff.mp decoded
      cases fails with
      | ends short => exact ⟨_, .cut front rest field place short⟩
      | malformed _ bad => exact ⟨_, .malformed front rest field error place bad⟩
    | ok read =>
      obtain ⟨⟨cpu, record, frames⟩, trailing⟩ := read
      obtain ⟨stored, rfl⟩ := Format.lawful_snapshot.encode_of_decode _ _ _ decoded
      cases checked : record.checkLayout c.machine.bus.board with
      | error flaw => exact ⟨_, .inconsistent ⟨cpu, record, frames⟩ trailing flaw stored checked⟩
      | ok _ =>
        obtain ⟨board, rfl⟩ := BoardRecord.exists_ofBoard checked
        exact ⟨_, .accepted cpu board frames trailing stored checked⟩

end Loads

theorem load_eq_iff {c : Console} {bytes : List UInt8} {result : Except SnapshotError Console} :
    c.load bytes = result ↔ c.Loads bytes result := by
  refine ⟨?_, Loads.load_eq⟩
  rintro rfl
  obtain ⟨result, loads⟩ := Loads.exists_result c bytes
  rw [loads.load_eq]
  exact loads

def takeImage : StateM Console Image :=
  modifyGet fun c =>
    (c.machine.bus.image,
      { c with machine := { c.machine with bus := { c.machine.bus with image := .empty } } })

def takeSent : StateM Console (Array UInt8) :=
  modifyGet fun c =>
    (c.machine.bus.sent,
      { c with machine := { c.machine with bus := { c.machine.bus with sent := #[] } } })

/-- Loading in place. A snapshot holds neither the image nor what was sent; both are moved over
from the state that is replaced. -/
def restore (bytes : List UInt8) : ExceptT SnapshotError (StateM Console) Unit := do
  let c ← get
  let body ← Snapshot.body c.header c.machine.bus.image bytes
  let saved ← Snapshot.decode bytes.length body
  let board ← (saved.board.toBoard c.machine.bus.board).mapError SnapshotError.inconsistent
  let image ← takeImage
  let sent ← takeSent
  let settings := c.machine.bus.settings
  set (⟨c.header, ⟨saved.cpu, { image, settings, board, samples := #[], sent }⟩, saved.frames⟩ :
    Console)

/-- What a host is left with: a refusal and the console as it was, or the new console. -/
def settle (c : Console) : Except SnapshotError Console → Except SnapshotError Unit × Console
  | .error error => (.error error, c)
  | .ok next => (.ok (), next)

theorem run_get (program : Console → ExceptT SnapshotError (StateM Console) Unit) (c : Console) :
    (get >>= program).run.run c = (program c).run.run c :=
  rfl

theorem run_check {α : Type} (checked : Except SnapshotError α) {c : Console}
    {inPlace : α → ExceptT SnapshotError (StateM Console) Unit}
    {load : α → Except SnapshotError Console}
    (same : ∀ a, (inPlace a).run.run c = settle c (load a)) :
    (liftM checked >>= inPlace : ExceptT SnapshotError (StateM Console) Unit).run.run c =
      settle c (checked >>= load) := by
  cases checked with
  | error error => rfl
  | ok a => exact same a

theorem run_restore (bytes : List UInt8) (c : Console) :
    (restore bytes).run.run c = settle c (c.load bytes) := by
  rw [restore, run_get]
  refine run_check (Snapshot.body c.header c.machine.bus.image bytes) fun body => ?_
  refine run_check (Snapshot.decode bytes.length body) fun saved => ?_
  refine run_check ((saved.board.toBoard c.machine.bus.board).mapError .inconsistent) fun board => ?_
  rfl

/-- The outcome of every byte string, reported by the first check that fails; where one fails,
the console in place is as it was. -/
theorem load_outcome (c : Console) (bytes : List UInt8) (result : Except SnapshotError Console) :
    (c.load bytes = result ↔ c.Loads bytes result) ∧
      (restore bytes).run.run c = settle c (c.load bytes) :=
  ⟨load_eq_iff, run_restore bytes c⟩

example (c : Console) : c.load [0x52, 0x42] = .error (.truncated 2) := rfl

example (c : Console) : c.load [0x52, 0x53] = .error .badMagic := rfl

end Console
end DotMatrix
