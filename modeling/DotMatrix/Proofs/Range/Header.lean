import DotMatrix.Cartridge.Header

/-! What an accepted header says about its image. -/
namespace DotMatrix

structure Header.Describes (header : Header) (image : Image) : Prop where
  romSize : header.romSize = image.size
  romBanks : ∃ code ≤ 8, header.romSize = (2 * Image.bankSize) <<< code
  ramSize : header.ramSize ≤ 0x20000
  mbc2 : header.hardware.mapper = .mbc2 → header.ramSize = 512

theorem declaredRam_le {code : UInt8} {declared : Nat} (valid : declaredRam? code = some declared) :
    declared ≤ 0x20000 := by
  unfold declaredRam? at valid
  split at valid <;> cases valid <;> decide

theorem Header.ramSizeFor_le (hardware : Hardware) {declared : Nat} (small : declared ≤ 0x20000) :
    ramSizeFor hardware declared ≤ 0x20000 := by
  unfold ramSizeFor
  split
  · decide
  · exact small
  · decide

theorem Header.describes_of_parse {image : Image} {header : Header}
    (accepted : Header.parse image = .ok header) : header.Describes image := by
  unfold Header.parse at accepted
  simp only [bind, Except.bind, pure, Except.pure, throw, throwThe, MonadExceptOf.throw] at accepted
  repeat' split at accepted
  all_goals cases accepted
  rename_i hardware _ code size _ declared valid
  have code : (image.byte 328).toNat ≤ 8 := UInt8.not_lt.mp code
  refine ⟨Decidable.of_not_not size, ⟨_, code, rfl⟩, ramSizeFor_le _ (declaredRam_le valid), ?_⟩
  intro mbc2
  change hardware.mapper = .mbc2 at mbc2
  simp only [ramSizeFor, mbc2]

/-! The smallest image that is accepted: two banks of zeros and the checksum of its header. -/

def Image.blank : Image := ⟨(Array.replicate 0x8000 0).set! 0x014D 0xE7⟩

theorem Image.size_blank : ByteArray.size Image.blank = 0x8000 := by
  simp [blank, ByteArray.size]

theorem Image.byte_mk (data : Array UInt8) (offset : Nat) (inside : offset < data.size) :
    Image.byte ⟨data⟩ offset = data[offset] := by
  unfold Image.byte
  rw [getElem?_pos (⟨data⟩ : ByteArray) offset inside]
  rfl

theorem Image.byte_blank (offset : Nat) (inside : offset < 0x8000) :
    Image.blank.byte offset = if offset = 0x014D then 0xE7 else 0 := by
  have small : offset < (Array.replicate 0x8000 (0 : UInt8)).size := by
    rw [Array.size_replicate]
    exact inside
  rw [blank, byte_mk _ _ (by simpa using inside)]
  simp only [Array.set!_eq_setIfInBounds, Array.getElem_setIfInBounds small,
    Array.getElem_replicate, eq_comm]

theorem Image.headerChecksum_blank : Image.blank.headerChecksum = 0xE7 := by
  have zeros : Image.blank.bytes 0x0134 25 = (List.range 25).map fun _ => 0 := by
    refine List.map_congr_left fun i listed => ?_
    have small := List.mem_range.mp listed
    rw [byte_blank _ (by omega), if_neg (by omega)]
  rw [headerChecksum, zeros]
  decide

theorem Header.parse_blank : ∃ header, Header.parse Image.blank = .ok header := by
  have checksum := Image.byte_blank 0x014D (by decide)
  have type := Image.byte_blank 0x0147 (by decide)
  have rom := Image.byte_blank 0x0148 (by decide)
  have ram := Image.byte_blank 0x0149 (by decide)
  unfold Header.parse
  simp only [Image.size_blank, Image.headerChecksum_blank, checksum, type, rom, ram]
  exact ⟨_, rfl⟩

def Header.bare : Header :=
  { title := "", typeCode := 0, hardware := ⟨.none, false, false, false, false⟩
    romSize := 0x8000, ramSize := 0, headerChecksum := 0xE7, globalChecksum := 0 }

def Image.ofBytes (size : Nat) (byteAt : Nat → UInt8) : Image :=
  ⟨Array.ofFn fun i : Fin size => byteAt i⟩

theorem Image.size_ofBytes (size : Nat) (byteAt : Nat → UInt8) :
    (ofBytes size byteAt).size = size :=
  Array.size_ofFn

theorem Image.byte_ofBytes {size : Nat} (byteAt : Nat → UInt8) {offset : Nat}
    (inside : offset < size) : (ofBytes size byteAt).byte offset = byteAt offset := by
  rw [ofBytes, byte_mk _ _ (by rw [Array.size_ofFn]; exact inside), Array.getElem_ofFn]

theorem Image.headerChecksum_ofBytes {size : Nat} (byteAt : Nat → UInt8) (whole : 0x014D ≤ size) :
    (ofBytes size byteAt).headerChecksum =
      ((List.range 25).map fun i => byteAt (0x0134 + i)).foldl (fun sum b => sum - b - 1) 0 := by
  have header : (ofBytes size byteAt).bytes 0x0134 25 =
      (List.range 25).map fun i => byteAt (0x0134 + i) := by
    apply List.map_congr_left
    intro i listed
    have small := List.mem_range.mp listed
    exact byte_ofBytes byteAt (by omega)
  rw [headerChecksum, header]

def Image.bankedByte (offset : Nat) : UInt8 :=
  if offset = 0x0147 then 0x03
  else if offset = 0x0148 then 0x01
  else if offset = 0x0149 then 0x03
  else if offset = 0x014D then 0xE0
  else if offset = 0x8123 then 0x5A
  else 0

/-- Four banks behind an MBC1 with four banks of RAM. A byte of bank 2 tells it from the others. -/
def Image.banked : Image := ofBytes 0x10000 bankedByte

theorem Image.byte_banked {offset : Nat} (inside : offset < 0x10000) :
    banked.byte offset = bankedByte offset :=
  byte_ofBytes bankedByte inside

theorem Image.headerChecksum_banked : Image.banked.headerChecksum = 0xE0 :=
  (headerChecksum_ofBytes bankedByte (by decide)).trans (by decide)

theorem Header.parse_banked : ∃ header, Header.parse Image.banked = .ok header ∧
    header.hardware = ⟨.mbc1, true, true, false, false⟩ ∧ header.ramSize = 0x8000 := by
  have size : ByteArray.size Image.banked = 0x10000 := Image.size_ofBytes ..
  have checksum : Image.banked.byte 0x014D = 0xE0 := Image.byte_banked (by decide)
  have type : Image.banked.byte 0x0147 = 0x03 := Image.byte_banked (by decide)
  have rom : Image.banked.byte 0x0148 = 0x01 := Image.byte_banked (by decide)
  have ram : Image.banked.byte 0x0149 = 0x03 := Image.byte_banked (by decide)
  unfold Header.parse
  simp only [size, Image.headerChecksum_banked, checksum, type, rom, ram]
  exact ⟨_, rfl, rfl, rfl⟩

end DotMatrix
