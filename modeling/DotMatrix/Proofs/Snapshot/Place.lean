import DotMatrix.Snapshot.Codec.Lawful

/-! Where decoding fails. The places of a format are the points at which it expects another
field, all values before that being complete. A byte string that cannot be decoded either ends
within the field of such a place or has a value there that the field does not admit. -/
namespace DotMatrix
namespace Codec

/-- What a decoder judges as a whole: a byte of any value, a flag, the tag of an option, the
index of a variant. -/
inductive Field where
  | byte
  | bool
  | tag
  | index (count : Nat)

namespace Field

def width : Field → Nat
  | .byte | .bool | .tag => 1
  | .index _ => 4

/-- The field at the front of the input has a value that it does not admit. -/
inductive Malformed : Field → List UInt8 → DecodeError → Prop
  | boolean (found : UInt8) (large : 1 < found) (rest : List UInt8) :
      Malformed .bool (found :: rest) (.boolean found)
  | option (found : UInt8) (large : 1 < found) (rest : List UInt8) :
      Malformed .tag (found :: rest) (.option found)
  | variant (found : UInt32) (count : Nat) (large : count ≤ found.toNat) (rest : List UInt8) :
      Malformed (.index count) (word32.encode found ++ rest) (.variant found count)

inductive Fails (field : Field) (input : List UInt8) : DecodeError → Prop
  | ends (short : input.length < field.width) : Fails field input .endOfInput
  | malformed (e : DecodeError) (bad : field.Malformed input e) : Fails field input e

end Field

def Stores {α : Type} (c : Codec α) (a : α) : Prop :=
  ∀ rest, c.decode (c.encode a ++ rest) = .ok (a, rest)

inductive Expects : {α : Type} → Codec α → List UInt8 → Field → Prop
  | byte : Expects byte [] .byte
  | bool : Expects bool [] .bool
  | index (count : Nat) : Expects (index count) [] (.index count)
  | first {α β : Type} {a : Codec α} {b : Codec β} {front : List UInt8} {field : Field}
      (place : Expects a front field) : Expects (a.pair b) front field
  | second {α β : Type} {a : Codec α} {b : Codec β} {front : List UInt8} {field : Field}
      (v : α) (stored : a.Stores v) (place : Expects b front field) :
      Expects (a.pair b) (a.encode v ++ front) field
  | iso {α β : Type} {c : Codec β} {there : α → β} {back : β → α} {front : List UInt8}
      {field : Field} (place : Expects c front field) : Expects (c.iso there back) front field
  | tag {α : Type} (c : Codec α) : Expects c.option [] .tag
  | value {α : Type} {c : Codec α} {front : List UInt8} {field : Field}
      (place : Expects c front field) : Expects c.option (1 :: front) field
  | early {α : Type} {c : Codec α} {n : Nat} {front : List UInt8} {field : Field}
      (place : Expects (c.vector n) front field) : Expects (c.vector (n + 1)) front field
  | last {α : Type} {c : Codec α} {n : Nat} {front : List UInt8} {field : Field}
      (done : Vector α n) (stored : (c.vector n).Stores done) (place : Expects c front field) :
      Expects (c.vector (n + 1)) ((c.vector n).encode done ++ front) field
  | count {α : Type} {c : Codec α} {front : List UInt8} {field : Field}
      (place : Expects word64 front field) : Expects c.array front field
  | element {α : Type} {c : Codec α} {front : List UInt8} {field : Field} (count : UInt64)
      (done : List α) (more : done.length < count.toNat) (stored : ∀ a ∈ done, c.Stores a)
      (place : Expects c front field) :
      Expects c.array (word64.encode count ++ (done.flatMap c.encode ++ front)) field
  | variant {count : Nat} {payload : Fin count → Type}
      {codec : (i : Fin count) → Codec (payload i)} {front : List UInt8} {field : Field}
      (place : Expects (Codec.index count) front field) :
      Expects (Codec.sum payload codec) front field
  | payload {count : Nat} {payload : Fin count → Type}
      {codec : (i : Fin count) → Codec (payload i)} {front : List UInt8} {field : Field}
      (i : Fin count) (stored : (Codec.index count).Stores i) (place : Expects (codec i) front field) :
      Expects (Codec.sum payload codec) ((Codec.index count).encode i ++ front) field

variable {α β : Type}

theorem word_decode_cases (input : List UInt8) :
    (input.length < 2 ∧ word.decode input = .error .endOfInput) ∨
      ∃ n rest, input = word.encode n ++ rest ∧ word.decode input = .ok (n, rest) := by
  match input with
  | [] => exact .inl ⟨Nat.zero_lt_two, rfl⟩
  | [_] => exact .inl ⟨Nat.one_lt_two, rfl⟩
  | low :: high :: rest =>
    have read : word.decode (low :: high :: rest) = .ok (Word.join high low, rest) := rfl
    exact .inr ⟨_, _, (lawful_word.encode_of_decode _ _ _ read).2, read⟩

theorem word32_decode_cases (input : List UInt8) :
    (input.length < 4 ∧ word32.decode input = .error .endOfInput) ∨
      ∃ n rest, input = word32.encode n ++ rest ∧ word32.decode input = .ok (n, rest) := by
  rcases word_decode_cases input with ⟨short, fails⟩ | ⟨low, middle, whole, read⟩
  · refine .inl ⟨by omega, ?_⟩
    simp only [word32, iso, pair, fails]
  · rcases word_decode_cases middle with ⟨short, fails⟩ | ⟨high, rest, whole', read'⟩
    · refine .inl ⟨?_, ?_⟩
      · have two : (word.encode low).length = 2 := rfl
        rw [whole, List.length_append]
        omega
      · simp only [word32, iso, pair, read, fails]
    · have read32 : word32.decode input = .ok (high.toUInt32 * 0x10000 + low.toUInt32, rest) := by
        simp only [word32, iso, pair, read, read']
      exact .inr ⟨_, _, (lawful_word32.encode_of_decode _ _ _ read32).2, read32⟩

theorem byte_decode_eq_error {input : List UInt8} {e : DecodeError} :
    byte.decode input = .error e ↔ Field.byte.Fails input e := by
  cases input with
  | nil =>
    constructor
    · intro fails
      cases fails
      exact .ends Nat.zero_lt_one
    · rintro (_ | ⟨_, ⟨⟩⟩)
      rfl
  | cons b rest =>
    refine ⟨fun fails => (by cases fails), ?_⟩
    rintro (short | ⟨_, ⟨⟩⟩)
    simp [Field.width] at short

theorem one_lt_iff (b : UInt8) : 1 < b ↔ ¬b = 0 ∧ ¬b = 1 := by
  rw [UInt8.lt_iff_toNat_lt, ← UInt8.toNat_inj, ← UInt8.toNat_inj, UInt8.toNat_zero,
    UInt8.toNat_one]
  omega

theorem bool_decode_eq_error {input : List UInt8} {e : DecodeError} :
    bool.decode input = .error e ↔ Field.bool.Fails input e := by
  cases input with
  | nil =>
    constructor
    · intro fails
      cases fails
      exact .ends Nat.zero_lt_one
    · rintro (_ | ⟨_, ⟨⟩⟩)
      rfl
  | cons b rest =>
    simp only [bool]
    constructor
    · intro fails
      split at fails
      · cases fails
      · split at fails
        · cases fails
        · cases fails
          exact .malformed _ (.boolean b ((one_lt_iff b).mpr ⟨‹_›, ‹_›⟩) rest)
    · rintro (short | ⟨_, ⟨_, large, _⟩⟩)
      · simp [Field.width] at short
      · obtain ⟨zero, one⟩ := (one_lt_iff b).mp large
        rw [if_neg zero, if_neg one]

theorem index_decode_eq_error {count : Nat} {input : List UInt8} {e : DecodeError} :
    (index count).decode input = .error e ↔ (Field.index count).Fails input e := by
  constructor
  · intro failed
    rcases word32_decode_cases input with ⟨short, fails⟩ | ⟨n, rest, rfl, read⟩
    · simp only [index, fails] at failed
      cases failed
      exact .ends short
    · simp only [index, read] at failed
      split at failed
      · cases failed
      · cases failed
        exact .malformed _ (.variant n count (by omega) rest)
  · intro failed
    cases failed with
    | ends short =>
      rcases word32_decode_cases input with ⟨_, fails⟩ | ⟨n, rest, rfl, _⟩
      · simp only [index, fails]
      · rw [List.length_append, show (word32.encode n).length = 4 from rfl] at short
        simp only [Field.width] at short
        omega
    | malformed _ bad =>
      cases bad with
      | variant found _ large rest =>
        simp only [index, lawful_word32.decode_encode found rest trivial]
        rw [dif_neg (by omega)]

/-! Decoding stops with the error of the field that the format expects. -/

theorem decode_option_value (c : Codec α) (input : List UInt8) :
    c.option.decode (1 :: input) =
      match c.decode input with
      | .error e => .error e
      | .ok (a, rest) => .ok (some a, rest) :=
  rfl

theorem option_decode_tag {c : Codec α} {input : List UInt8} {e : DecodeError}
    (fails : Field.tag.Fails input e) : c.option.decode input = .error e := by
  cases fails with
  | ends short =>
    cases input with
    | nil => rfl
    | cons tag rest => simp [Field.width] at short
  | malformed _ bad =>
    cases bad with
    | option found large rest =>
      obtain ⟨zero, one⟩ := (one_lt_iff found).mp large
      simp only [Codec.option, zero, one, if_false]

theorem decodeMany_stored {c : Codec α} (done : List α) (stored : ∀ a ∈ done, c.Stores a) (n : Nat)
    (before : Array α) (rest : List UInt8) :
    decodeMany c (done.length + n) before (done.flatMap c.encode ++ rest) =
      decodeMany c n (before ++ done.toArray) rest := by
  induction done generalizing before with
  | nil => simp
  | cons a done ih =>
    have read := stored a (by simp) (done.flatMap c.encode ++ rest)
    rw [List.length_cons, Nat.add_right_comm, List.flatMap_cons, List.append_assoc, decodeMany, read]
    simp only
    rw [ih fun b hb => stored b (by simp [hb])]
    simp

theorem Expects.decode_eq_error {c : Codec α} {front : List UInt8} {field : Field}
    (place : c.Expects front field) {input : List UInt8} {e : DecodeError}
    (fails : field.Fails input e) : c.decode (front ++ input) = .error e := by
  induction place with
  | byte => exact byte_decode_eq_error.mpr fails
  | bool => exact bool_decode_eq_error.mpr fails
  | index count => exact index_decode_eq_error.mpr fails
  | first place ih => simp only [Codec.pair, ih fails]
  | second v stored place ih =>
    simp only [Codec.pair, List.append_assoc, stored _, ih fails]
  | iso place ih => simp only [Codec.iso, ih fails]
  | tag c => exact option_decode_tag fails
  | value place ih => rw [List.cons_append, decode_option_value, ih fails]
  | early place ih => simp only [decode_vector_succ, Codec.pair, ih fails]
  | last done stored place ih =>
    simp only [decode_vector_succ, Codec.pair, List.append_assoc, stored _, ih fails]
  | count place ih => simp only [Codec.array, ih fails]
  | element count done more stored place ih =>
    obtain ⟨left, size⟩ : ∃ left, count.toNat = done.length + (left + 1) :=
      ⟨count.toNat - done.length - 1, by omega⟩
    simp only [Codec.array, List.append_assoc, lawful_word64.decode_encode _ _ trivial, size]
    rw [decodeMany_stored done stored, decodeMany, ih fails]
  | variant place ih => simp only [Codec.sum, ih fails]
  | @payload _ _ codec front _ i stored place ih =>
    rw [List.append_assoc, decode_sum, stored (front ++ input)]
    dsimp only
    rw [ih fails]

/-- A format whose failures are all at one of its places. The ways of building codecs keep this,
so that it is found along the structure of a format. -/
class Precise (c : Codec α) : Prop where
  lawful : ∃ fits, c.Lawful fits
  located : ∀ input e, c.decode input = .error e →
    ∃ front field rest, input = front ++ rest ∧ c.Expects front field ∧ field.Fails rest e

theorem Precise.decode_eq_error_iff {c : Codec α} [h : c.Precise] {input : List UInt8}
    {e : DecodeError} :
    c.decode input = .error e ↔
      ∃ front field rest, input = front ++ rest ∧ c.Expects front field ∧ field.Fails rest e := by
  refine ⟨h.located input e, ?_⟩
  rintro ⟨front, field, rest, rfl, place, fails⟩
  exact place.decode_eq_error fails

/-- What was decoded is the front of the input, and can be stored. -/
theorem Precise.stores_of_decode {c : Codec α} [h : c.Precise] {input rest : List UInt8} {a : α}
    (read : c.decode input = .ok (a, rest)) : c.Stores a ∧ input = c.encode a ++ rest := by
  obtain ⟨fits, lawful⟩ := h.lawful
  obtain ⟨ha, whole⟩ := lawful.encode_of_decode _ _ _ read
  exact ⟨fun rest => lawful.decode_encode a rest ha, whole⟩

instance precise_byte : byte.Precise where
  lawful := ⟨_, lawful_byte⟩
  located input _ failed := ⟨[], .byte, input, rfl, .byte, byte_decode_eq_error.mp failed⟩

instance precise_unit : unit.Precise where
  lawful := ⟨_, lawful_unit⟩
  located _ _ failed := by cases failed

instance precise_bool : bool.Precise where
  lawful := ⟨_, lawful_bool⟩
  located input _ failed := ⟨[], .bool, input, rfl, .bool, bool_decode_eq_error.mp failed⟩

theorem precise_index {count : Nat} (few : count ≤ UInt32.size) : (index count).Precise where
  lawful := ⟨_, lawful_index few⟩
  located input _ failed :=
    ⟨[], .index count, input, rfl, .index count, index_decode_eq_error.mp failed⟩

instance Precise.pair {a : Codec α} {b : Codec β} [ha : a.Precise] [hb : b.Precise] :
    (a.pair b).Precise where
  lawful := by
    obtain ⟨_, first⟩ := ha.lawful
    obtain ⟨_, second⟩ := hb.lawful
    exact ⟨_, first.pair second⟩
  located input e failed := by
    simp only [Codec.pair] at failed
    split at failed
    case h_1 e' failed' =>
      cases failed
      obtain ⟨front, field, rest, whole, place, fails⟩ := ha.located _ _ failed'
      exact ⟨front, field, rest, whole, place.first, fails⟩
    case h_2 v middle read =>
      obtain ⟨stored, rfl⟩ := Precise.stores_of_decode read
      split at failed
      case h_1 e' failed' =>
        cases failed
        obtain ⟨front, field, rest, rfl, place, fails⟩ := hb.located _ _ failed'
        exact ⟨_, field, rest, (List.append_assoc ..).symm, .second v stored place, fails⟩
      case h_2 => cases failed

theorem Precise.iso {c : Codec β} [h : c.Precise] {there : α → β} {back : β → α}
    {fits : α → Prop} (lawful : (c.iso there back).Lawful fits) : (c.iso there back).Precise where
  lawful := ⟨fits, lawful⟩
  located input e failed := by
    simp only [Codec.iso] at failed
    split at failed
    case h_1 e' failed' =>
      cases failed
      obtain ⟨front, field, rest, whole, place, fails⟩ := h.located _ _ failed'
      exact ⟨front, field, rest, whole, place.iso, fails⟩
    case h_2 => cases failed

instance precise_word : word.Precise := .iso lawful_word

instance precise_word32 : word32.Precise := .iso lawful_word32

instance precise_word64 : word64.Precise := .iso lawful_word64

instance Precise.option {c : Codec α} [h : c.Precise] : c.option.Precise where
  lawful := by
    obtain ⟨_, lawful⟩ := h.lawful
    exact ⟨_, lawful.option⟩
  located input e failed := by
    cases input with
    | nil =>
      cases failed
      exact ⟨[], .tag, [], rfl, .tag c, .ends Nat.zero_lt_one⟩
    | cons tag input =>
      simp only [Codec.option] at failed
      split at failed
      · cases failed
      · rename_i zero
        split at failed
        · rename_i one
          subst one
          split at failed
          case h_1 e' failed' =>
            cases failed
            obtain ⟨front, field, rest, rfl, place, fails⟩ := h.located _ _ failed'
            exact ⟨1 :: front, field, rest, rfl, place.value, fails⟩
          case h_2 => cases failed
        · rename_i one
          cases failed
          have large := (one_lt_iff tag).mpr ⟨zero, one⟩
          exact ⟨[], .tag, tag :: input, rfl, .tag c, .malformed _ (.option tag large input)⟩

instance Precise.vector {c : Codec α} [h : c.Precise] (n : Nat) : (c.vector n).Precise := by
  obtain ⟨fits, lawful⟩ := h.lawful
  induction n with
  | zero => exact ⟨⟨_, lawful.vector 0⟩, fun input e failed => (by cases failed)⟩
  | succ n ih =>
    refine ⟨⟨_, lawful.vector (n + 1)⟩, fun input e failed => ?_⟩
    simp only [Codec.vector, decodeVector] at failed
    split at failed
    case h_1 e' failed' =>
      cases failed
      obtain ⟨front, field, rest, whole, place, fails⟩ := ih.located _ _ failed'
      exact ⟨front, field, rest, whole, place.early, fails⟩
    case h_2 done middle read =>
      obtain ⟨stored, rfl⟩ := Precise.stores_of_decode (c := c.vector n) read
      split at failed
      case h_1 e' failed' =>
        cases failed
        obtain ⟨front, field, rest, rfl, place, fails⟩ := h.located _ _ failed'
        exact ⟨_, field, rest, (List.append_assoc ..).symm, .last done stored place, fails⟩
      case h_2 => cases failed

/-- In a sequence, the elements before the failure are complete. -/
theorem Precise.decodeMany_located {c : Codec α} [h : c.Precise] (n : Nat) (before : Array α)
    (input : List UInt8) (e : DecodeError) (failed : decodeMany c n before input = .error e) :
    ∃ (done : List α) (front : List UInt8) (field : Field) (rest : List UInt8),
      done.length < n ∧ (∀ a ∈ done, c.Stores a) ∧
        input = done.flatMap c.encode ++ (front ++ rest) ∧ c.Expects front field ∧
          field.Fails rest e := by
  induction n generalizing before input with
  | zero => cases failed
  | succ n ih =>
    simp only [decodeMany] at failed
    split at failed
    case h_1 e' failed' =>
      cases failed
      obtain ⟨front, field, rest, whole, place, fails⟩ := h.located _ _ failed'
      exact ⟨[], front, field, rest, Nat.succ_pos n, by simp, whole, place, fails⟩
    case h_2 a middle read =>
      obtain ⟨stored, rfl⟩ := Precise.stores_of_decode read
      obtain ⟨done, front, field, rest, more, stores, rfl, place, fails⟩ := ih _ _ failed
      refine ⟨a :: done, front, field, rest, Nat.succ_lt_succ more, ?_, ?_, place, fails⟩
      · intro b hb
        rcases List.mem_cons.mp hb with rfl | hb
        · exact stored
        · exact stores b hb
      · rw [List.flatMap_cons, List.append_assoc]

instance Precise.array {c : Codec α} [h : c.Precise] : c.array.Precise where
  lawful := by
    obtain ⟨_, lawful⟩ := h.lawful
    exact ⟨_, lawful.array⟩
  located input e failed := by
    simp only [Codec.array] at failed
    split at failed
    case h_1 e' failed' =>
      cases failed
      obtain ⟨front, field, rest, whole, place, fails⟩ := precise_word64.located _ _ failed'
      exact ⟨front, field, rest, whole, place.count, fails⟩
    case h_2 count middle read =>
      obtain ⟨_, rfl⟩ := Precise.stores_of_decode read
      obtain ⟨done, front, field, rest, more, stored, rfl, place, fails⟩ :=
        Precise.decodeMany_located _ _ _ _ failed
      refine ⟨_, field, rest, ?_, .element count done more stored place, fails⟩
      rw [List.append_assoc, List.append_assoc]

instance Precise.list {c : Codec α} [h : c.Precise] : c.list.Precise := by
  obtain ⟨_, lawful⟩ := h.lawful
  exact .iso lawful.list

theorem Precise.sum {count : Nat} (few : count ≤ UInt32.size) {payload : Fin count → Type}
    {codec : (i : Fin count) → Codec (payload i)} (h : ∀ i, (codec i).Precise) :
    (Codec.sum payload codec).Precise where
  lawful := ⟨_, Lawful.sum few fun i => (h i).lawful.choose_spec⟩
  located input e failed := by
    simp only [Codec.sum] at failed
    split at failed
    case h_1 e' failed' =>
      cases failed
      obtain ⟨front, field, rest, whole, place, fails⟩ := (precise_index few).located _ _ failed'
      exact ⟨front, field, rest, whole, place.variant, fails⟩
    case h_2 i middle read =>
      have := precise_index few
      obtain ⟨stored, rfl⟩ := Precise.stores_of_decode read
      split at failed
      case h_1 e' failed' =>
        cases failed
        obtain ⟨front, field, rest, rfl, place, fails⟩ := (h i).located _ _ failed'
        exact ⟨_, field, rest, (List.append_assoc ..).symm, .payload i stored place, fails⟩
      case h_2 => cases failed

end Codec
end DotMatrix
