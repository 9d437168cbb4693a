import DotMatrix.Proofs.Range.Header
import Mathlib.Algebra.GroupWithZero.Nat
import Mathlib.Algebra.Ring.Int.Defs
import Mathlib.Data.List.DropRight

/-! Which images are accepted. Six demands are made of an image, one after the other; the first that
it does not meet is the reason why it is refused, and one that meets them all gets the header that
its bytes describe. No byte is looked for behind the end of an image. -/
namespace DotMatrix

def supportedTypes : List UInt8 :=
  [0x00, 0x01, 0x02, 0x03, 0x05, 0x06, 0x08, 0x09, 0x0F, 0x10, 0x11, 0x12, 0x13, 0x19, 0x1A, 0x1B,
    0x1C, 0x1D, 0x1E]

theorem Hardware.ofType?_isSome (code : UInt8) :
    (Hardware.ofType? code).isSome ↔ code ∈ supportedTypes := by
  revert code
  apply Word.forall_byte
  decide +kernel

theorem declaredRam?_isSome (code : UInt8) : (declaredRam? code).isSome ↔ code ≤ 5 := by
  revert code
  apply Word.forall_byte
  decide +kernel

namespace Image

def headerSum (image : Image) : Int := ((image.bytes 0x0134 25).map fun b => (b.toNat : Int)).sum

theorem toNat_foldl_sub (bytes : List UInt8) (start : UInt8) :
    ((bytes.foldl (fun sum b => sum - b - 1) start).toNat : Int) =
      (start.toNat - (bytes.map fun b => (b.toNat : Int)).sum - bytes.length) % 256 := by
  induction bytes generalizing start with
  | nil =>
    have small := start.toNat_lt
    simp only [List.foldl_nil, List.map_nil, List.sum_nil, List.length_nil]
    omega
  | cons b bytes ih =>
    have first : ((start - b - 1).toNat : Int) = (start.toNat - b.toNat - 1) % 256 := by
      have small := start.toNat_lt
      have small' := b.toNat_lt
      rw [UInt8.toNat_sub, UInt8.toNat_sub, UInt8.toNat_one]
      omega
    rw [List.foldl_cons, ih, first, List.map_cons, List.sum_cons, List.length_cons]
    omega

theorem toNat_headerChecksum (image : Image) :
    (image.headerChecksum.toNat : Int) = (0 - image.headerSum - 25) % 256 :=
  (toNat_foldl_sub (image.bytes 0x0134 25) 0).trans (by simp [headerSum, bytes])

end Image

namespace Header

inductive Demand where
  | length | wholeBanks | checksum | type | romSize | ramSize

namespace Demand

def place : Demand → Nat
  | .length => 0
  | .wholeBanks => 1
  | .checksum => 2
  | .type => 3
  | .romSize => 4
  | .ramSize => 5

def Met (image : Image) : Demand → Prop
  | .length => 0x0150 ≤ image.size
  | .wholeBanks => 0x4000 ∣ image.size
  | .checksum => ((image.byte 0x014D).toNat : Int) = (0 - image.headerSum - 25) % 256
  | .type => image.byte 0x0147 ∈ supportedTypes
  | .romSize => image.byte 0x0148 ≤ 8 ∧ image.size = 0x8000 * 2 ^ (image.byte 0x0148).toNat
  | .ramSize => image.byte 0x0149 ≤ 5

/-- The error of an image that does not meet the demand. A ROM code past the last one declares
nothing. -/
def refusal (image : Image) : Demand → LoadError
  | .length => .tooShort image.size
  | .wholeBanks => .brokenBank image.size
  | .checksum => .headerChecksum (image.byte 0x014D) image.headerChecksum
  | .type => .unsupportedType (image.byte 0x0147)
  | .romSize =>
    .lengthMismatch (image.byte 0x0148)
      (if image.byte 0x0148 ≤ 8 then 0x8000 * 2 ^ (image.byte 0x0148).toNat else 0) image.size
  | .ramSize => .ramCode (image.byte 0x0149)

instance (image : Image) : DecidablePred (Met image)
  | .length => inferInstanceAs (Decidable (_ ≤ _))
  | .wholeBanks => inferInstanceAs (Decidable (_ ∣ _))
  | .checksum => inferInstanceAs (Decidable (_ = _))
  | .type => inferInstanceAs (Decidable (_ ∈ _))
  | .romSize => inferInstanceAs (Decidable (_ ∧ _))
  | .ramSize => inferInstanceAs (Decidable (_ ≤ _))

variable {image : Image}

theorem met_wholeBanks : wholeBanks.Met image ↔ image.size % Image.bankSize = 0 :=
  Nat.dvd_iff_mod_eq_zero

theorem met_checksum : checksum.Met image ↔ image.byte 0x014D = image.headerChecksum := by
  rw [Met, ← Image.toNat_headerChecksum, Int.natCast_inj, UInt8.toNat_inj]

theorem met_type :
    type.Met image ↔ ∃ hardware, Hardware.ofType? (image.byte 0x0147) = some hardware := by
  rw [Met, ← Hardware.ofType?_isSome, Option.isSome_iff_exists]

theorem met_ramSize :
    ramSize.Met image ↔ ∃ declared, declaredRam? (image.byte 0x0149) = some declared := by
  rw [Met, ← declaredRam?_isSome, Option.isSome_iff_exists]

end Demand

def describe (image : Image) (hardware : Hardware) (declared : Nat) : Header :=
  { title := titleOf (image.bytes 0x0134 16)
    typeCode := image.byte 0x0147
    hardware
    romSize := 0x8000 <<< (image.byte 0x0148).toNat
    ramSize := ramSizeFor hardware declared
    headerChecksum := image.byte 0x014D
    globalChecksum := Word.join (image.byte 0x014E) (image.byte 0x014F) }

theorem parse_eq (image : Image) :
    parse image =
      if image.size < 0x0150 then .error (.tooShort image.size)
      else if image.size % Image.bankSize ≠ 0 then .error (.brokenBank image.size)
      else if image.byte 0x014D ≠ image.headerChecksum then
        .error (.headerChecksum (image.byte 0x014D) image.headerChecksum)
      else
        match Hardware.ofType? (image.byte 0x0147) with
        | some hardware =>
          if image.byte 0x0148 > 8 then .error (.lengthMismatch (image.byte 0x0148) 0 image.size)
          else if 0x8000 <<< (image.byte 0x0148).toNat ≠ image.size then
            .error (.lengthMismatch (image.byte 0x0148) (0x8000 <<< (image.byte 0x0148).toNat)
              image.size)
          else
            match declaredRam? (image.byte 0x0149) with
            | some declared => .ok (describe image hardware declared)
            | none => .error (.ramCode (image.byte 0x0149))
        | none => .error (.unsupportedType (image.byte 0x0147)) := by
  unfold parse
  simp only [bind, Except.bind, pure, Except.pure, throw, throwThe, MonadExceptOf.throw]
  cases Hardware.ofType? (image.byte 0x0147) with
  | none => rfl
  | some hardware =>
    cases declaredRam? (image.byte 0x0149) with
    | none => rfl
    | some declared => rfl

theorem romSize_eq (image : Image) (accepted : Except LoadError Header) :
    (if image.byte 0x0148 > 8 then .error (.lengthMismatch (image.byte 0x0148) 0 image.size)
      else if ¬0x8000 <<< (image.byte 0x0148).toNat = image.size then
        .error (.lengthMismatch (image.byte 0x0148) (0x8000 <<< (image.byte 0x0148).toNat)
          image.size)
      else accepted) =
      if ¬Demand.romSize.Met image then .error (Demand.romSize.refusal image) else accepted := by
  by_cases met : Demand.romSize.Met image
  · have ⟨inside, exact⟩ := met
    rw [if_neg (not_not_intro met), if_neg (UInt8.not_lt.mpr inside),
      if_neg (not_not_intro (by rw [exact, Nat.shiftLeft_eq]))]
  · rw [if_pos met]
    by_cases past : image.byte 0x0148 > 8
    · rw [if_pos past, Demand.refusal, if_neg (UInt8.not_le.mpr past)]
    · have inside : image.byte 0x0148 ≤ 8 := UInt8.not_lt.mp past
      have differs : ¬0x8000 <<< (image.byte 0x0148).toNat = image.size := fun exact =>
        met ⟨inside, by rw [← exact, Nat.shiftLeft_eq]⟩
      rw [if_neg past, if_pos differs, Demand.refusal, if_pos inside, Nat.shiftLeft_eq]

theorem parse_demands (image : Image) :
    parse image =
      if ¬Demand.length.Met image then .error (Demand.length.refusal image)
      else if ¬Demand.wholeBanks.Met image then .error (Demand.wholeBanks.refusal image)
      else if ¬Demand.checksum.Met image then .error (Demand.checksum.refusal image)
      else
        match Hardware.ofType? (image.byte 0x0147) with
        | some hardware =>
          if ¬Demand.romSize.Met image then .error (Demand.romSize.refusal image)
          else
            match declaredRam? (image.byte 0x0149) with
            | some declared => .ok (describe image hardware declared)
            | none => .error (Demand.ramSize.refusal image)
        | none => .error (Demand.type.refusal image) := by
  have length : image.size < 0x0150 ↔ ¬Demand.length.Met image := Nat.not_le.symm
  rw [parse_eq]
  simp only [length, ne_eq, ← Demand.met_wholeBanks, ← Demand.met_checksum, romSize_eq]
  rfl

/-- The image does not meet the demand, but all that are made before it. -/
def FirstUnmet (image : Image) (d : Demand) : Prop :=
  ¬d.Met image ∧ ∀ earlier : Demand, earlier.place < d.place → earlier.Met image

theorem firstUnmet_or_met (image : Image) :
    (∃ d, FirstUnmet image d) ∨ ∀ d : Demand, d.Met image := by
  by_contra neither
  rw [not_or, not_exists] at neither
  obtain ⟨none, some⟩ := neither
  refine some fun d => ?_
  induction place : d.place using Nat.strongRecOn generalizing d with
  | ind place ih =>
    by_contra unmet
    exact none d ⟨unmet, fun earlier before => ih _ (place ▸ before) earlier rfl⟩

variable {image : Image}

theorem parse_of_whole (met : ∀ d : Demand, d.place < 3 → d.Met image) :
    parse image =
      match Hardware.ofType? (image.byte 0x0147) with
      | some hardware =>
        if ¬Demand.romSize.Met image then .error (Demand.romSize.refusal image)
        else
          match declaredRam? (image.byte 0x0149) with
          | some declared => .ok (describe image hardware declared)
          | none => .error (Demand.ramSize.refusal image)
      | none => .error (Demand.type.refusal image) := by
  rw [parse_demands, if_neg (not_not_intro (met .length (by decide))),
    if_neg (not_not_intro (met .wholeBanks (by decide))),
    if_neg (not_not_intro (met .checksum (by decide)))]

/-- The first demand that is not met is the reason for the refusal. -/
theorem parse_of_firstUnmet {d : Demand} (first : FirstUnmet image d) :
    parse image = .error (d.refusal image) := by
  obtain ⟨unmet, earlier⟩ := first
  have whole (behind : 3 ≤ d.place) : ∀ e : Demand, e.place < 3 → e.Met image := fun e before =>
    earlier e (by omega)
  cases d with
  | length => rw [parse_demands, if_pos unmet]
  | wholeBanks =>
    rw [parse_demands, if_neg (not_not_intro (earlier .length (by decide))), if_pos unmet]
  | checksum =>
    rw [parse_demands, if_neg (not_not_intro (earlier .length (by decide))),
      if_neg (not_not_intro (earlier .wholeBanks (by decide))), if_pos unmet]
  | type =>
    rw [Demand.met_type, not_exists, ← Option.eq_none_iff_forall_ne_some] at unmet
    rw [parse_of_whole (whole (by decide)), unmet]
  | romSize =>
    obtain ⟨hardware, known⟩ := Demand.met_type.mp (earlier .type (by decide))
    rw [parse_of_whole (whole (by decide)), known]
    exact if_pos unmet
  | ramSize =>
    obtain ⟨hardware, known⟩ := Demand.met_type.mp (earlier .type (by decide))
    rw [Demand.met_ramSize, not_exists, ← Option.eq_none_iff_forall_ne_some] at unmet
    rw [parse_of_whole (whole (by decide)), known, unmet]
    exact if_neg (not_not_intro (earlier .romSize (by decide)))

theorem parse_of_met (met : ∀ d : Demand, d.Met image) :
    ∃ hardware declared, Hardware.ofType? (image.byte 0x0147) = some hardware ∧
      declaredRam? (image.byte 0x0149) = some declared ∧
      parse image = .ok (describe image hardware declared) := by
  obtain ⟨hardware, known⟩ := Demand.met_type.mp (met .type)
  obtain ⟨declared, valid⟩ := Demand.met_ramSize.mp (met .ramSize)
  refine ⟨hardware, declared, known, valid, ?_⟩
  rw [parse_of_whole fun d _ => met d, known, valid]
  exact if_neg (not_not_intro (met .romSize))

theorem met_of_parse {header : Header} (accepted : parse image = .ok header) :
    ∀ d : Demand, d.Met image := by
  refine (firstUnmet_or_met image).resolve_left fun ⟨d, first⟩ => ?_
  rw [parse_of_firstUnmet first] at accepted
  contradiction

end Header

def printed (field : List UInt8) : List Char :=
  (field.filter fun b => 0x20 ≤ b ∧ b ≤ 0x7E).map fun b => Char.ofNat b.toNat

/-- A title is what can be printed of its field before the first zero, less the spaces at its
end. -/
structure Titled (field : List UInt8) (title : String) : Prop where
  shown : ∃ named rest blanks, field = named ++ rest ∧ 0 ∉ named ∧
    (rest = [] ∨ rest.head? = some 0) ∧
    printed named = title.toList ++ List.replicate blanks ' '
  trimmed : title.toList.getLast? ≠ some ' '

theorem Header.toList_titleOf (field : List UInt8) :
    (titleOf field).toList = (printed (field.takeWhile (· != 0))).rdropWhile (· == ' ') := by
  simp only [titleOf, printed, String.toList_ofList, Bool.decide_and]
  rfl

theorem dropWhile_ne_zero (field : List UInt8) :
    field.dropWhile (· != 0) = [] ∨ (field.dropWhile (· != 0)).head? = some 0 := by
  have first := List.head?_dropWhile_not (· != 0) field
  cases rest : field.dropWhile (· != 0) with
  | nil => exact .inl rfl
  | cons b rest' =>
    rw [rest] at first
    exact .inr (congrArg some (by simpa using first))

theorem mapM_eq_some {α β : Type} {f : α → Option β} {g : α → β} {l : List α}
    (found : ∀ a ∈ l, f a = some (g a)) : l.mapM f = some (l.map g) := by
  induction l with
  | nil => rfl
  | cons a l ih =>
    rw [List.mapM_cons, found a List.mem_cons_self, ih fun b member =>
      found b (List.mem_cons_of_mem _ member)]
    rfl

theorem eq_rdropWhile_append_replicate {α : Type} [BEq α] [LawfulBEq α] (l : List α) (a : α) :
    ∃ count, l = l.rdropWhile (· == a) ++ List.replicate count a := by
  have dropped : ∀ b ∈ l.rtakeWhile (· == a), b = a := fun b trailing =>
    eq_of_beq (List.mem_rtakeWhile_imp (p := (· == a)) trailing)
  refine ⟨(l.rtakeWhile (· == a)).length, ?_⟩
  rw [← List.eq_replicate_iff.mpr ⟨rfl, dropped⟩, List.rdropWhile_append_rtakeWhile]

theorem getLast?_rdropWhile_ne {α : Type} [BEq α] [LawfulBEq α] (l : List α) (a : α) :
    (l.rdropWhile (· == a)).getLast? ≠ some a := by
  intro last
  have present : l.rdropWhile (· == a) ≠ [] := fun none => by simp [none] at last
  rw [List.getLast?_eq_some_getLast present] at last
  exact List.rdropWhile_last_not _ _ present (beq_iff_eq.mpr (Option.some.inj last))

theorem Header.titled_titleOf (field : List UInt8) : Titled field (titleOf field) := by
  obtain ⟨blanks, split⟩ :=
    eq_rdropWhile_append_replicate (printed (field.takeWhile (· != 0))) ' '
  rw [← toList_titleOf] at split
  constructor
  · refine ⟨field.takeWhile (· != 0), field.dropWhile (· != 0), blanks,
      List.takeWhile_append_dropWhile.symm, fun zero => ?_, dropWhile_ne_zero field, split⟩
    have other := List.mem_takeWhile_imp zero
    contradiction
  · rw [toList_titleOf]
    exact getLast?_rdropWhile_ne _ ' '

namespace Header

/-- The parser on an image that answers no look behind its end: such a look ends it without a
result. -/
def attempt (image : Image) : Option (Except LoadError Header) := do
  if image.size < 0x0150 then return .error (.tooShort image.size)
  if image.size % Image.bankSize ≠ 0 then return .error (.brokenBank image.size)
  let expected ← image[0x014D]?
  let summed ← (List.range 25).mapM fun i => image[0x0134 + i]?
  let actual := summed.foldl (fun sum b => sum - b - 1) 0
  if expected ≠ actual then return .error (.headerChecksum expected actual)
  let typeCode ← image[0x0147]?
  let some hardware := Hardware.ofType? typeCode | return .error (.unsupportedType typeCode)
  let romCode ← image[0x0148]?
  if romCode > 8 then return .error (.lengthMismatch romCode 0 image.size)
  let romSize := 0x8000 <<< romCode.toNat
  if romSize ≠ image.size then return .error (.lengthMismatch romCode romSize image.size)
  let ramCode ← image[0x0149]?
  let some declared := declaredRam? ramCode | return .error (.ramCode ramCode)
  let field ← (List.range 16).mapM fun i => image[0x0134 + i]?
  let high ← image[0x014E]?
  let low ← image[0x014F]?
  return .ok {
    title := titleOf field
    typeCode
    hardware
    romSize
    ramSize := ramSizeFor hardware declared
    headerChecksum := expected
    globalChecksum := Word.join high low }

theorem attempt_eq (image : Image) : attempt image = some (parse image) := by
  rw [parse_eq, attempt]
  by_cases short : image.size < 0x0150
  · rw [if_pos short, if_pos short]
    rfl
  have inside {offset : Nat} (small : offset < 0x0150) :
      image[offset]? = some (image.byte offset) := by
    rw [Image.byte, getElem?_pos image offset (by omega)]
    rfl
  have stretch (count : Nat) (small : count ≤ 25) :
      (List.range count).mapM (fun i => image[0x0134 + i]?) =
        some (image.bytes 0x0134 count) := by
    refine mapM_eq_some fun i listed => inside ?_
    have small' := List.mem_range.mp listed
    omega
  simp only [if_neg short, inside, stretch, Nat.reduceLT, Nat.reduceLeDiff, Option.bind_eq_bind,
    Option.bind_some, Option.pure_def, apply_ite some]
  cases Hardware.ofType? (image.byte 0x0147) with
  | none => rfl
  | some hardware =>
    cases declaredRam? (image.byte 0x0149) with
    | none =>
      simp only [apply_ite some]
      rfl
    | some declared =>
      simp only [apply_ite some]
      rfl

/-- What a header says of the image that it was read from. -/
structure Reads (image : Image) (header : Header) : Prop where
  typeCode : header.typeCode = image.byte 0x0147
  hardware : Hardware.ofType? header.typeCode = some header.hardware
  romSize : header.romSize = image.size
  romBanks : header.romBanks = image.size / 0x4000
  power : ∃ exponent, header.romBanks = 2 ^ exponent
  pair : 2 ≤ header.romBanks
  ramSize : ∃ declared, declaredRam? (image.byte 0x0149) = some declared ∧
    header.ramSize = if header.hardware.mapper = .mbc2 then 512
      else if header.hardware.ram then declared else 0
  hasRam : header.hasRam ↔ 0 < header.ramSize
  title : Titled (image.bytes 0x0134 16) header.title
  headerChecksum : header.headerChecksum = image.byte 0x014D
  globalChecksum : header.globalChecksum = Word.join (image.byte 0x014E) (image.byte 0x014F)

theorem ramSizeFor_eq (hardware : Hardware) (declared : Nat) :
    ramSizeFor hardware declared = if hardware.mapper = .mbc2 then 512
      else if hardware.ram then declared else 0 := by
  obtain ⟨mapper, ram, battery, clock, rumble⟩ := hardware
  cases mapper <;> cases ram <;> rfl

variable {image : Image}

theorem reads_of_met (met : ∀ d : Demand, d.Met image) :
    ∃ header, parse image = .ok header ∧ Reads image header := by
  obtain ⟨hardware, declared, known, valid, accepted⟩ := parse_of_met met
  have size : 0x8000 <<< (image.byte 0x0148).toNat = image.size := by
    rw [Nat.shiftLeft_eq, (met .romSize).2]
  have banks : image.size / 0x4000 = 2 ^ ((image.byte 0x0148).toNat + 1) := by
    rw [(met .romSize).2, Nat.pow_succ]
    omega
  have pair : 2 ≤ 0x8000 <<< (image.byte 0x0148).toNat / 0x4000 := by
    have positive : 0 < 2 ^ (image.byte 0x0148).toNat := Nat.two_pow_pos _
    rw [size, banks, Nat.pow_succ]
    omega
  refine ⟨_, accepted, ?_⟩
  exact
    { typeCode := rfl
      hardware := known
      romSize := size
      romBanks := congrArg (· / 0x4000) size
      power := ⟨_, (congrArg (· / 0x4000) size).trans banks⟩
      pair := pair
      ramSize := ⟨declared, valid, ramSizeFor_eq hardware declared⟩
      hasRam := decide_eq_true_iff
      title := titled_titleOf _
      headerChecksum := rfl
      globalChecksum := rfl }

/-- The images that are accepted, the reason why another one is refused, and what the header of an
accepted one says. -/
theorem parse_accepts (image : Image) :
    attempt image = some (parse image) ∧
      ((∃ header, parse image = .ok header) ↔ ∀ d : Demand, d.Met image) ∧
      (∀ e, parse image = .error e ↔ ∃ d, FirstUnmet image d ∧ e = d.refusal image) ∧
      ∀ header, parse image = .ok header → Reads image header := by
  refine ⟨attempt_eq image, ⟨?_, ?_⟩, fun e => ⟨?_, ?_⟩, ?_⟩
  · rintro ⟨header, accepted⟩
    exact met_of_parse accepted
  · intro met
    obtain ⟨header, accepted, -⟩ := reads_of_met met
    exact ⟨header, accepted⟩
  · intro refused
    rcases firstUnmet_or_met image with ⟨d, first⟩ | met
    · rw [parse_of_firstUnmet first] at refused
      exact ⟨d, first, (Except.error.inj refused).symm⟩
    · obtain ⟨header, accepted, -⟩ := reads_of_met met
      rw [accepted] at refused
      contradiction
  · rintro ⟨d, first, rfl⟩
    exact parse_of_firstUnmet first
  · intro header accepted
    obtain ⟨header', accepted', reads⟩ := reads_of_met (met_of_parse accepted)
    rw [accepted] at accepted'
    cases accepted'
    exact reads

theorem parse_accepts_banked : ∃ header, parse Image.banked = .ok header ∧
    Reads Image.banked header ∧ header.romBanks = 4 ∧ header.ramSize = 0x8000 := by
  obtain ⟨header, accepted, -, ramSize⟩ := parse_banked
  have reads := (parse_accepts Image.banked).2.2.2 header accepted
  have size : ByteArray.size Image.banked = 0x10000 := Image.size_ofBytes ..
  exact ⟨header, accepted, reads, by rw [reads.romBanks, size], ramSize⟩

end Header
end DotMatrix
