import DotMatrix.Proofs.Snapshot.Place
import DotMatrix.Snapshot.Basic

/-! What stands before the body of a snapshot, in stages: the magic word, the version, the
identity of the cartridge. The first stage that a byte string does not pass decides about it. -/
namespace DotMatrix.Snapshot

def preamble (header : Header) (image : Image) : List UInt8 :=
  magic ++ Codec.word.encode snapshotVersion ++ identity header image

/-- Which byte strings each stage turns away, and what is left of those that pass them all. -/
inductive Judged (header : Header) (image : Image) :
    List UInt8 → Except SnapshotError (List UInt8) → Prop
  | badMagic (bytes : List UInt8) (differs : ¬ bytes.take 4 <+: magic) :
      Judged header image bytes (.error .badMagic)
  | noVersion (bytes : List UInt8) (begins : bytes.take 4 <+: magic) (short : bytes.length < 6) :
      Judged header image bytes (.error (.truncated bytes.length))
  | version (found : UInt16) (rest : List UInt8) (other : found ≠ snapshotVersion) :
      Judged header image (magic ++ (Codec.word.encode found ++ rest)) (.error (.version found))
  | noIdentity (rest : List UInt8) (short : 6 + rest.length < headerLength) :
      Judged header image (magic ++ (Codec.word.encode snapshotVersion ++ rest))
        (.error (.truncated (6 + rest.length)))
  | otherCartridge (stored rest : List UInt8) (whole : 6 + stored.length = headerLength)
      (other : stored ≠ identity header image) :
      Judged header image (magic ++ (Codec.word.encode snapshotVersion ++ (stored ++ rest)))
        (.error .otherCartridge)
  | accepted (rest : List UInt8) : Judged header image (preamble header image ++ rest) (.ok rest)

variable {header : Header} {image : Image}

theorem length_digest (message : ByteArray) : (Sha1.digest message).length = 20 := rfl

theorem length_identity (header : Header) (image : Image) :
    (identity header image).length = 22 := by
  rw [identity, List.length_append, length_digest]
  rfl

@[simp] theorem length_magic : magic.length = 4 := rfl

@[simp] theorem length_word (n : UInt16) : (Codec.word.encode n).length = 2 := rfl

theorem length_preamble (header : Header) (image : Image) :
    (preamble header image).length = headerLength := by
  simp only [preamble, List.length_append, length_magic, length_word, length_identity,
    headerLength]

theorem begins_iff (bytes : List UInt8) :
    (magic.take bytes.length).isPrefixOf bytes = true ↔ bytes.take 4 <+: magic := by
  have same : bytes.take (min bytes.length 4) = bytes.take 4 := by
    rw [List.take_eq_take_iff]
    omega
  have same' : magic.take (min 4 bytes.length) = magic.take bytes.length := by
    rw [List.take_eq_take_iff, length_magic]
    omega
  rw [List.isPrefixOf_iff_prefix, List.prefix_iff_eq_take, List.prefix_iff_eq_take,
    List.length_take, List.length_take, length_magic, same, same', eq_comm]

theorem body_version (found : UInt16) (rest : List UInt8) :
    body header image (magic ++ (Codec.word.encode found ++ rest)) =
      if found ≠ snapshotVersion then .error (.version found)
      else if 6 + rest.length < headerLength then .error (.truncated (6 + rest.length))
      else if rest.take 22 ≠ identity header image then .error .otherCartridge
      else .ok (rest.drop 22) := by
  have opening : (magic ++ (Codec.word.encode found ++ rest)).take 4 = magic :=
    List.take_left' length_magic
  have begins : (magic ++ (Codec.word.encode found ++ rest)).take 4 <+: magic :=
    opening ▸ List.prefix_rfl
  have length : (magic ++ (Codec.word.encode found ++ rest)).length = 6 + rest.length := by
    simp only [List.length_append, length_magic, length_word]
    omega
  have read := Codec.lawful_word.decode_encode found rest trivial
  rw [body, (begins_iff _).mpr begins, List.drop_left, read, length]
  simp only [Bool.not_true, Bool.false_eq_true, if_false]

namespace Judged

theorem body_eq {bytes : List UInt8} {result : Except SnapshotError (List UInt8)}
    (judged : Judged header image bytes result) : body header image bytes = result := by
  cases judged with
  | badMagic _ differs =>
    have unlike : (magic.take bytes.length).isPrefixOf bytes = false := by
      rw [Bool.eq_false_iff, Ne, begins_iff]
      exact differs
    rw [body, unlike]
    rfl
  | noVersion _ begins short =>
    rw [body, (begins_iff bytes).mpr begins]
    rcases Codec.word_decode_cases (bytes.drop magic.length) with ⟨_, fails⟩ | ⟨found, rest, e, _⟩
    · rw [fails]
      rfl
    · have length := congrArg List.length e
      simp only [List.length_drop, List.length_append, length_magic, length_word] at length
      omega
  | version found rest other => rw [body_version, if_pos other]
  | noIdentity rest short => rw [body_version, if_neg (fun other => other rfl), if_pos short]
  | otherCartridge stored rest whole other =>
    have length : stored.length = 22 := by
      simp only [headerLength] at whole
      omega
    rw [body_version, if_neg (fun other => other rfl), if_neg, List.take_left' length, if_pos other]
    rw [List.length_append]
    omega
  | accepted rest =>
    have length := length_identity header image
    rw [preamble, List.append_assoc, List.append_assoc, body_version,
      if_neg (fun other => other rfl), if_neg, List.take_left' length,
      if_neg (fun other => other rfl), List.drop_left' length]
    rw [List.length_append, length, headerLength]
    omega

theorem exists_result (header : Header) (image : Image) (bytes : List UInt8) :
    ∃ result, Judged header image bytes result := by
  by_cases begins : bytes.take 4 <+: magic
  case neg => exact ⟨_, .badMagic bytes begins⟩
  by_cases short : bytes.length < 6
  case pos => exact ⟨_, .noVersion bytes begins short⟩
  have opening : bytes.take 4 = magic :=
    begins.eq_of_length (by rw [List.length_take, length_magic]; omega)
  rw [← List.take_append_drop 4 bytes, opening]
  rcases Codec.word_decode_cases (bytes.drop 4) with ⟨missing, _⟩ | ⟨found, rest, e, _⟩
  · rw [List.length_drop] at missing
    omega
  rw [e]
  by_cases version : found = snapshotVersion
  case neg => exact ⟨_, .version found rest version⟩
  subst version
  by_cases cut : 6 + rest.length < headerLength
  case pos => exact ⟨_, .noIdentity rest cut⟩
  simp only [headerLength] at cut
  rw [← List.take_append_drop 22 rest]
  by_cases same : rest.take 22 = identity header image
  · rw [same, ← List.append_assoc, ← List.append_assoc]
    exact ⟨_, .accepted _⟩
  · exact ⟨_, .otherCartridge _ _ (by rw [List.length_take, headerLength]; omega) same⟩

end Judged

/-- The check before the body decides by the first stage that is not passed. -/
theorem body_eq_iff {bytes : List UInt8} {result : Except SnapshotError (List UInt8)} :
    body header image bytes = result ↔ Judged header image bytes result := by
  constructor
  · rintro rfl
    obtain ⟨result, judged⟩ := Judged.exists_result header image bytes
    rw [judged.body_eq]
    exact judged
  · exact Judged.body_eq

theorem body_eq_ok {bytes rest : List UInt8} :
    body header image bytes = .ok rest ↔ bytes = preamble header image ++ rest := by
  constructor
  · intro passes
    cases body_eq_iff.mp passes
    rfl
  · rintro rfl
    exact body_eq_iff.mpr (.accepted rest)

end DotMatrix.Snapshot
