import DotMatrix.Snapshot.Codec

/-! Laws of binary formats. A lawful codec reads back what it wrote whatever follows, accepts
only what it would write, and takes a cut-off encoding for the end of the input. The ways of
building codecs keep the laws. -/
namespace DotMatrix.Codec
variable {α β : Type}

/-- The laws of a codec, for the values that `fits` admits. -/
structure Lawful (c : Codec α) (fits : α → Prop) : Prop where
  decode_encode : ∀ a rest, fits a → c.decode (c.encode a ++ rest) = .ok (a, rest)
  encode_of_decode : ∀ input a rest, c.decode input = .ok (a, rest) →
    fits a ∧ input = c.encode a ++ rest
  decode_cut : ∀ a input more, fits a → c.encode a = input ++ more → more ≠ [] →
    c.decode input = .error .endOfInput

def Always (_ : α) : Prop := True

theorem cut_append {x y input more : List UInt8} (h : x ++ y = input ++ more) :
    (∃ left, left ≠ [] ∧ x = input ++ left) ∨ ∃ left, input = x ++ left ∧ y = left ++ more := by
  rcases List.append_eq_append_iff.1 h with ⟨left, hx, hy⟩ | ⟨left, hx, hy⟩
  · exact .inr ⟨left, hx, hy⟩
  · by_cases empty : left = []
    · subst empty
      exact .inr ⟨[], by simpa using hx.symm, by simpa using hy.symm⟩
    · exact .inl ⟨left, empty, hx⟩

theorem Lawful.weaken {c : Codec α} {p q : α → Prop} (h : c.Lawful p) (same : ∀ a, p a ↔ q a) :
    c.Lawful q :=
  (funext fun a => propext (same a) : p = q) ▸ h

theorem lawful_byte : byte.Lawful Always where
  decode_encode _ _ _ := rfl
  encode_of_decode input b rest h := by
    cases input with
    | nil => cases h
    | cons c input => cases h; exact ⟨trivial, rfl⟩
  decode_cut b input more _ h cut := by
    cases input with
    | nil => rfl
    | cons c input =>
      simp [byte] at h
      exact absurd h.2.2 cut

theorem lawful_unit : unit.Lawful Always where
  decode_encode _ _ _ := rfl
  encode_of_decode input b rest h := by cases h; exact ⟨trivial, rfl⟩
  decode_cut b input more _ h cut := by
    simp [unit] at h
    exact absurd h.2 cut

theorem lawful_bool : bool.Lawful Always where
  decode_encode b rest _ := by cases b <;> rfl
  encode_of_decode input b rest h := by
    cases input with
    | nil => cases h
    | cons c input =>
      simp only [bool] at h
      split at h
      · next hc => cases h; exact ⟨trivial, by simp [bool, hc]⟩
      · split at h
        · next hc => cases h; exact ⟨trivial, by simp [bool, hc]⟩
        · cases h
  decode_cut b input more _ h cut := by
    cases input with
    | nil => rfl
    | cons c input =>
      simp [bool] at h
      exact absurd h.2.2 cut

theorem Lawful.pair {first : Codec α} {second : Codec β} {p : α → Prop} {q : β → Prop}
    (hf : first.Lawful p) (hs : second.Lawful q) :
    (first.pair second).Lawful fun v => p v.1 ∧ q v.2 where
  decode_encode v rest hv := by
    simp only [Codec.pair, List.append_assoc]
    rw [hf.decode_encode _ _ hv.1]
    simp only
    rw [hs.decode_encode _ _ hv.2]
  encode_of_decode input v rest h := by
    simp only [Codec.pair] at h
    split at h
    · cases h
    · next a middle ha =>
      split at h
      · cases h
      · next b left hb =>
        cases h
        obtain ⟨hpa, ea⟩ := hf.encode_of_decode _ _ _ ha
        obtain ⟨hqb, eb⟩ := hs.encode_of_decode _ _ _ hb
        exact ⟨⟨hpa, hqb⟩, by simp [Codec.pair, ea, eb]⟩
  decode_cut v input more hv h cut := by
    simp only [Codec.pair] at h ⊢
    rcases cut_append h with ⟨left, inside, e⟩ | ⟨left, e1, e2⟩
    · rw [hf.decode_cut _ _ _ hv.1 e inside]
    · rw [e1, hf.decode_encode _ _ hv.1]
      simp only
      rw [hs.decode_cut _ _ _ hv.2 e2 cut]

theorem Lawful.iso {c : Codec β} {p : β → Prop} (h : c.Lawful p) {there : α → β} {back : β → α}
    (back_there : ∀ a, back (there a) = a) (there_back : ∀ b, there (back b) = b) :
    (c.iso there back).Lawful fun a => p (there a) where
  decode_encode a rest ha := by
    simp only [Codec.iso]
    rw [h.decode_encode _ _ ha]
    simp only [back_there]
  encode_of_decode input a rest ha := by
    simp only [Codec.iso] at ha
    split at ha
    · cases ha
    · next b left hb =>
      cases ha
      obtain ⟨hp, e⟩ := h.encode_of_decode _ _ _ hb
      exact ⟨by rw [there_back]; exact hp, by simp [Codec.iso, there_back, e]⟩
  decode_cut a input more ha e cut := by
    simp only [Codec.iso] at e ⊢
    rw [h.decode_cut _ _ _ ha e cut]

theorem lawful_word : word.Lawful Always :=
  ((lawful_byte.pair lawful_byte).iso (fun _ => Word.join_high_low _)
    (fun _ => by simp)).weaken fun _ => by simp [Always]

theorem lawful_word32 : word32.Lawful Always :=
  ((lawful_word.pair lawful_word).iso
    (fun n => by
      apply UInt32.toNat_inj.1
      have := n.toNat_lt
      simp
      omega)
    (fun (low, high) => by
      have hl := low.toNat_lt
      have hh := high.toNat_lt
      apply Prod.ext
      · apply UInt16.toNat_inj.1
        simp
      · apply UInt16.toNat_inj.1
        simp
        omega)).weaken
    fun _ => by simp [Always]

theorem lawful_word64 : word64.Lawful Always :=
  ((lawful_word32.pair lawful_word32).iso
    (fun n => by
      apply UInt64.toNat_inj.1
      have := n.toNat_lt
      simp
      omega)
    (fun (low, high) => by
      have hl := low.toNat_lt
      have hh := high.toNat_lt
      apply Prod.ext
      · apply UInt32.toNat_inj.1
        simp
      · apply UInt32.toNat_inj.1
        simp
        omega)).weaken
    fun _ => by simp [Always]

theorem Lawful.option {c : Codec α} {p : α → Prop} (h : c.Lawful p) :
    c.option.Lawful fun o => ∀ a ∈ o, p a where
  decode_encode o rest ho := by
    cases o with
    | none => rfl
    | some a =>
      simp only [Codec.option, List.cons_append]
      rw [h.decode_encode _ _ (ho a rfl)]
      rfl
  encode_of_decode input o rest ho := by
    cases input with
    | nil => cases ho
    | cons tag input =>
      simp only [Codec.option] at ho
      split at ho
      · next ht => cases ho; exact ⟨by simp, by simp [Codec.option, ht]⟩
      · split at ho
        · next ht =>
          split at ho
          · cases ho
          · next a left ha =>
            cases ho
            obtain ⟨hp, e⟩ := h.encode_of_decode _ _ _ ha
            refine ⟨?_, by simp [Codec.option, ht, e]⟩
            intro b hb
            cases hb
            exact hp
        · cases ho
  decode_cut o input more ho e cut := by
    cases input with
    | nil => rfl
    | cons tag input =>
      cases o with
      | none =>
        simp [Codec.option] at e
        exact absurd e.2.2 cut
      | some a =>
        simp only [Codec.option, List.cons_append, List.cons.injEq] at e ⊢
        rw [← e.1, h.decode_cut _ _ _ (ho a rfl) e.2 cut]
        rfl

theorem decodeMany_flatMap {c : Codec α} {p : α → Prop} (h : c.Lawful p) (values : List α)
    (done : Array α) (rest : List UInt8) (hv : ∀ a ∈ values, p a) :
    decodeMany c values.length done (values.flatMap c.encode ++ rest) =
      .ok (done ++ values.toArray, rest) := by
  induction values generalizing done with
  | nil => simp [decodeMany]
  | cons a values ih =>
    simp only [List.length_cons, List.flatMap_cons, List.append_assoc, decodeMany]
    rw [h.decode_encode _ _ (hv a (by simp))]
    simp only
    rw [ih _ (fun b hb => hv b (by simp [hb]))]
    simp

theorem flatMap_of_decodeMany {c : Codec α} {p : α → Prop} (h : c.Lawful p) (n : Nat)
    (done : Array α) (input : List UInt8) (out : Array α) (rest : List UInt8)
    (ho : decodeMany c n done input = .ok (out, rest)) :
    ∃ values : List α, values.length = n ∧ out = done ++ values.toArray ∧ (∀ a ∈ values, p a) ∧
      input = values.flatMap c.encode ++ rest := by
  induction n generalizing done input with
  | zero => cases ho; exact ⟨[], by simp⟩
  | succ n ih =>
    simp only [decodeMany] at ho
    split at ho
    · cases ho
    · next a left ha =>
      obtain ⟨hp, e⟩ := h.encode_of_decode _ _ _ ha
      obtain ⟨values, hn, hout, hv, hi⟩ := ih _ _ ho
      refine ⟨a :: values, by simp [hn], by simp [hout], ?_, by simp [e, hi]⟩
      intro b hb
      rcases List.mem_cons.1 hb with rfl | hb
      · exact hp
      · exact hv b hb

theorem decodeMany_cut {c : Codec α} {p : α → Prop} (h : c.Lawful p) (values : List α)
    (done : Array α) (input more : List UInt8) (hv : ∀ a ∈ values, p a)
    (e : values.flatMap c.encode = input ++ more) (cut : more ≠ []) :
    decodeMany c values.length done input = .error .endOfInput := by
  induction values generalizing done input with
  | nil => simp at e; exact absurd e.2 cut
  | cons a values ih =>
    have hp := hv a (by simp)
    simp only [List.length_cons, List.flatMap_cons, decodeMany] at e ⊢
    rcases cut_append e with ⟨left, inside, e⟩ | ⟨left, e1, e2⟩
    · rw [h.decode_cut _ _ _ hp e inside]
    · rw [e1, h.decode_encode _ _ hp]
      exact ih _ _ (fun b hb => hv b (by simp [hb])) e2

theorem toNat_count {values : Array α} (h : values.size < UInt64.size) :
    (UInt64.ofNat values.size).toNat = values.toList.length := by
  simp only [UInt64.toNat_ofNat', Array.length_toList]
  exact Nat.mod_eq_of_lt h

theorem Lawful.array {c : Codec α} {p : α → Prop} (h : c.Lawful p) :
    c.array.Lawful fun values => values.size < UInt64.size ∧ ∀ a ∈ values, p a where
  decode_encode values rest hv := by
    simp only [Codec.array, List.append_assoc]
    rw [lawful_word64.decode_encode _ _ trivial]
    simp only [toNat_count hv.1]
    rw [decodeMany_flatMap h _ _ _ (by simpa using hv.2)]
    simp
  encode_of_decode input values rest hv := by
    simp only [Codec.array] at hv
    split at hv
    · cases hv
    · next count left hc =>
      obtain ⟨-, ec⟩ := lawful_word64.encode_of_decode _ _ _ hc
      obtain ⟨elements, hn, rfl, hp, e⟩ := flatMap_of_decodeMany h _ _ _ _ _ hv
      have := count.toNat_lt
      refine ⟨⟨by simp [hn]; exact this, by simpa using hp⟩, ?_⟩
      simp only [Codec.array, ec, e]
      simp [hn]
  decode_cut values input more hv e cut := by
    simp only [Codec.array] at e ⊢
    rcases cut_append e with ⟨left, inside, e⟩ | ⟨left, e1, e2⟩
    · rw [lawful_word64.decode_cut _ _ _ trivial e inside]
    · rw [e1, lawful_word64.decode_encode _ _ trivial]
      simp only [toNat_count hv.1]
      exact decodeMany_cut h _ _ _ _ (by simpa using hv.2) e2 cut

theorem Lawful.list {c : Codec α} {p : α → Prop} (h : c.Lawful p) :
    c.list.Lawful fun values => values.length < UInt64.size ∧ ∀ a ∈ values, p a :=
  (h.array.iso (fun _ => rfl) (fun _ => rfl)).weaken fun _ => by simp

theorem encode_vector_push (c : Codec α) {n : Nat} (front : Vector α n) (last : α) :
    (c.vector (n + 1)).encode (front.push last) = (c.vector n).encode front ++ c.encode last := by
  simp [Codec.vector, Vector.toList_push]

theorem decode_vector_succ (c : Codec α) (n : Nat) (input : List UInt8) :
    (c.vector (n + 1)).decode input =
      match ((c.vector n).pair c).decode input with
      | .error e => .error e
      | .ok ((front, last), rest) => .ok (front.push last, rest) := by
  simp only [Codec.vector, Codec.pair, decodeVector]
  cases decodeVector c n input with
  | error e => rfl
  | ok front => cases hl : c.decode front.2 <;> simp [hl]

theorem Lawful.vector {c : Codec α} {p : α → Prop} (h : c.Lawful p) (n : Nat) :
    (c.vector n).Lawful fun values => ∀ a ∈ values, p a := by
  induction n with
  | zero =>
    refine ⟨fun values rest _ => ?_, fun input values rest hv => ?_, fun values input more _ e cut => ?_⟩
    · obtain rfl : values = #v[] := by simp
      rfl
    · cases hv
      exact ⟨by simp, rfl⟩
    · obtain rfl : values = #v[] := by simp
      simp [Codec.vector] at e
      exact absurd e.2 cut
  | succ n ih =>
    have parts {front : Vector α n} {last : α} (hv : ∀ a ∈ front.push last, p a) :
        (∀ a ∈ front, p a) ∧ p last := ⟨fun a ha => hv a (by simp [ha]), hv last (by simp)⟩
    refine ⟨fun values rest hv => ?_, fun input values rest hv => ?_, fun values input more hv e cut => ?_⟩
    · obtain ⟨front, last, rfl⟩ : ∃ (front : Vector α n) (last : α), values = front.push last :=
        Vector.exists_push
      rw [encode_vector_push, decode_vector_succ]
      have := (ih.pair h).decode_encode (front, last) rest (parts hv)
      simp only [Codec.pair] at this ⊢
      rw [this]
    · rw [decode_vector_succ] at hv
      split at hv
      · cases hv
      · next front last left ho =>
        cases hv
        obtain ⟨hp, e⟩ := (ih.pair h).encode_of_decode _ _ _ ho
        refine ⟨fun a ha => ?_, by rw [encode_vector_push]; exact e⟩
        rcases Vector.mem_push.1 ha with ha | rfl
        · exact hp.1 a ha
        · exact hp.2
    · obtain ⟨front, last, rfl⟩ : ∃ (front : Vector α n) (last : α), values = front.push last :=
        Vector.exists_push
      rw [encode_vector_push] at e
      rw [decode_vector_succ, (ih.pair h).decode_cut (front, last) input more (parts hv) e cut]

theorem lawful_index {count : Nat} (few : count ≤ UInt32.size) : (index count).Lawful Always where
  decode_encode i rest _ := by
    have hi : (UInt32.ofNat i).toNat = i := by
      simp only [UInt32.toNat_ofNat']
      exact Nat.mod_eq_of_lt (Nat.lt_of_lt_of_le i.isLt few)
    simp only [index]
    rw [lawful_word32.decode_encode _ _ trivial]
    simp [hi]
  encode_of_decode input i rest h := by
    simp only [index] at h
    split at h
    · cases h
    · next n left hn =>
      split at h
      · cases h
        obtain ⟨-, e⟩ := lawful_word32.encode_of_decode _ _ _ hn
        exact ⟨trivial, by simp [index, e]⟩
      · cases h
  decode_cut i input more _ e cut := by
    simp only [index] at e ⊢
    rw [lawful_word32.decode_cut _ _ _ trivial e cut]

theorem decode_sum {count : Nat} {payload : Fin count → Type}
    (codec : (i : Fin count) → Codec (payload i)) (input : List UInt8) :
    (Codec.sum payload codec).decode input =
      match (index count).decode input with
      | .error e => .error e
      | .ok (i, rest) =>
        match (codec i).decode rest with
        | .error e => .error e
        | .ok (a, rest) => .ok (⟨i, a⟩, rest) :=
  rfl

theorem Lawful.sum {count : Nat} (few : count ≤ UInt32.size) {payload : Fin count → Type}
    {codec : (i : Fin count) → Codec (payload i)} {p : (i : Fin count) → payload i → Prop}
    (h : ∀ i, (codec i).Lawful (p i)) : (Codec.sum payload codec).Lawful fun v => p v.1 v.2 where
  decode_encode v rest hv := by
    obtain ⟨i, a⟩ := v
    have first := (lawful_index few).decode_encode i ((codec i).encode a ++ rest) trivial
    have second := (h i).decode_encode a rest hv
    have parts : (Codec.sum payload codec).encode ⟨i, a⟩ =
      (index count).encode i ++ (codec i).encode a := rfl
    rw [parts, List.append_assoc, decode_sum, first]
    dsimp only
    rw [second]
  encode_of_decode input v rest hv := by
    simp only [Codec.sum] at hv
    split at hv
    · cases hv
    · next i left hi =>
      split at hv
      · cases hv
      · next a tail ha =>
        cases hv
        obtain ⟨-, ei⟩ := (lawful_index few).encode_of_decode _ _ _ hi
        obtain ⟨hp, ea⟩ := (h i).encode_of_decode _ _ _ ha
        exact ⟨hp, by simp [Codec.sum, ei, ea]⟩
  decode_cut v input more hv e cut := by
    simp only [Codec.sum] at e ⊢
    rcases cut_append e with ⟨left, inside, e⟩ | ⟨left, e1, e2⟩
    · rw [(lawful_index few).decode_cut _ _ _ trivial e inside]
    · rw [e1, (lawful_index few).decode_encode _ _ trivial]
      simp only
      rw [(h v.1).decode_cut _ _ _ hv e2 cut]

end DotMatrix.Codec
