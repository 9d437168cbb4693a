import DotMatrix.Proofs.Console.LoadSave

/-! Snapshots that were cut off. However much is missing at the end, be it one byte, a console
finds the snapshot truncated: no front part of a snapshot passes for a whole or for a damaged one. -/
namespace DotMatrix
namespace Snapshot
variable {header : Header} {image : Image}

/-- Before the body, a cut is noticed by the first stage that lacks its bytes. -/
theorem Judged.cut {front : List UInt8} (opens : front <+: preamble header image)
    (short : front.length < headerLength) :
    Judged header image front (.error (.truncated front.length)) := by
  by_cases noVersion : front.length < 6
  case pos =>
    have magicFirst : magic <+: preamble header image := by
      rw [preamble, List.append_assoc]
      exact List.prefix_append _ _
    apply Judged.noVersion front _ noVersion
    apply List.prefix_of_prefix_length_le ((List.take_prefix 4 front).trans opens) magicFirst
    simp only [List.length_take, length_magic]
    omega
  case neg =>
    -- The magic word and the version are still there, so they are the right ones.
    have versioned : magic ++ Codec.word.encode snapshotVersion <+: front := by
      apply List.prefix_of_prefix_length_le (List.prefix_append _ _) opens
      simp only [List.length_append, length_magic, length_word]
      omega
    obtain ⟨rest, rfl⟩ := versioned
    have length : (magic ++ Codec.word.encode snapshotVersion ++ rest).length = 6 + rest.length := by
      simp only [List.length_append, length_magic, length_word]
    rw [length] at short ⊢
    rw [List.append_assoc]
    exact .noIdentity rest short

end Snapshot

namespace Console
variable {image : Image} {settings : Settings} {c other : Console}

/-- Every cut is found. What is left of a snapshot of any state that can be reached is refused as
truncated, with its own length, by every console with the same cartridge. -/
theorem load_front (reached : c.Reachable image settings) (sameHeader : other.header = c.header)
    (sameImage : other.machine.bus.image = c.machine.bus.image) (front : List UInt8)
    (opens : front <+: c.save) (missing : front ≠ c.save) :
    other.load front = .error (.truncated front.length) := by
  have inRange := reached.inRange
  have stored := inRange.bus.board.storable (Header.describes_of_parse inRange.header)
  obtain ⟨more, whole⟩ := opens
  have some : more ≠ [] := by
    rintro rfl
    exact missing (by rw [← whole, List.append_nil])
  rw [save_eq_preamble, ← sameHeader, ← sameImage] at whole
  rcases Codec.cut_append whole.symm with ⟨left, inside, preamble⟩ | ⟨left, rfl, body⟩
  · have short : front.length < Snapshot.headerLength := by
      have length := congrArg List.length preamble
      rw [Snapshot.length_preamble, List.length_append] at length
      have := List.length_pos_iff.mpr inside
      omega
    exact load_eq_iff.mpr (.refused front _ (.cut ⟨left, preamble.symm⟩ short))
  · have ends := Format.lawful_snapshot.decode_cut c.snapshot left more stored body some
    rw [load_preamble, ends, List.length_append, Snapshot.length_preamble]

/-- A snapshot that lacks its last byte. -/
theorem load_front_dropLast :
    ∃ c, Reachable Image.blank .standard c ∧ c.save.dropLast <+: c.save ∧
      c.save.dropLast ≠ c.save ∧
        c.load c.save.dropLast = .error (.truncated c.save.dropLast.length) := by
  obtain ⟨header, accepted⟩ := Header.parse_blank
  have reached := Reachable.powerOn _ (powerOn_started accepted .standard)
  have lacks (c : Console) : c.save.dropLast ≠ c.save := by
    intro same
    have length := congrArg List.length same
    rw [List.length_dropLast, save_eq_preamble, List.length_append,
      Snapshot.length_preamble, Snapshot.headerLength] at length
    omega
  have opens := List.dropLast_prefix (started Image.blank .standard header).save
  exact ⟨_, reached, opens, lacks _, load_front reached rfl rfl _ opens (lacks _)⟩

end Console
end DotMatrix
