import DotMatrix.Proofs.Console.Refusal
import DotMatrix.Proofs.Console.SaveLoad

/-! Loading normalises nothing. What a console saves right after it has accepted a byte string
is that byte string, without the bytes that stood behind the snapshot. -/
namespace DotMatrix
namespace Console
variable {c next : Console} {bytes : List UInt8}

theorem save_eq_preamble (c : Console) :
    c.save = Snapshot.preamble c.header c.machine.bus.image ++ Format.snapshot.encode c.snapshot :=
  rfl

theorem load_append (accepted : c.load bytes = .ok next) (more : List UInt8) :
    c.load (bytes ++ more) = .ok next := by
  rw [load_eq_iff] at accepted ⊢
  cases accepted with
  | accepted cpu board frames trailing stored passes =>
    rw [List.append_assoc, List.append_assoc]
    exact .accepted cpu board frames (trailing ++ more) stored passes

/-- An accepted byte string is what the console now saves, and what stood behind it. -/
theorem load_eq_ok_save (accepted : c.load bytes = .ok next) :
    ∃ trailing, bytes = next.save ++ trailing ∧ next.snapshot.board.Storable ∧
      next.header = c.header ∧ next.machine.bus.image = c.machine.bus.image := by
  cases load_eq_iff.mp accepted with
  | accepted cpu board frames trailing stored passes =>
    exact ⟨trailing, (List.append_assoc ..).symm, stored, rfl, rfl⟩

/-- Saving right after a byte string was accepted gives it back, up to the bytes behind its frame
counter. Two byte strings that bring consoles of one cartridge into the same state are therefore
the same up to such bytes. -/
theorem save_after_load (accepted : c.load bytes = .ok next) :
    ∃ trailing,
      bytes = next.save ++ trailing ∧
      Format.snapshot.decode (bytes.drop Snapshot.headerLength) = .ok (next.snapshot, trailing) ∧
      (trailing = [] → next.save = bytes) ∧
      ∀ (other next' : Console) (bytes' : List UInt8), other.header = c.header →
        other.machine.bus.image = c.machine.bus.image → other.load bytes' = .ok next' →
        next'.snapshot = next.snapshot → ∃ trailing', bytes' = next.save ++ trailing' := by
  obtain ⟨trailing, whole, stored, header, image⟩ := load_eq_ok_save accepted
  refine ⟨trailing, whole, ?_, ?_, ?_⟩
  · have behind : bytes.drop Snapshot.headerLength =
        Format.snapshot.encode next.snapshot ++ trailing := by
      rw [whole, save_eq_preamble, List.append_assoc, List.drop_left' (Snapshot.length_preamble ..)]
    rw [behind]
    exact Format.lawful_snapshot.decode_encode _ _ stored
  · rintro rfl
    rw [whole, List.append_nil]
  · intro other next' bytes' sameHeader sameImage accepted' same
    obtain ⟨trailing', whole', _, header', image'⟩ := load_eq_ok_save accepted'
    refine ⟨trailing', ?_⟩
    -- The preamble depends on the cartridge alone and the rest on the state.
    rw [whole', save_eq_preamble, save_eq_preamble, header', image', sameHeader, sameImage, header,
      image, same]

/-- A snapshot whose interrupt flags name no source, with three bytes behind it. -/
theorem save_after_load_blank :
    ∃ c odd next : Console, Console.powerOn Image.blank .standard = .ok c ∧
      odd.machine.bus.board.requested = ⟨0xFF⟩ ∧ c.load (odd.save ++ [1, 2, 3]) = .ok next ∧
      ∃ trailing, odd.save ++ [1, 2, 3] = next.save ++ trailing := by
  obtain ⟨header, parsed⟩ := Header.parse_blank
  obtain ⟨c, on⟩ : ∃ c, Console.powerOn Image.blank .standard = .ok c :=
    ⟨_, powerOn_started parsed .standard⟩
  have h := InRange.powerOn on
  obtain ⟨stall, cartridge, raster, sound⟩ := h.bus.board
  have odd : (c.updateBoard ({ · with requested := ⟨0xFF⟩ })).InRange Image.blank .standard :=
    h.updateBoard ⟨stall, cartridge, raster, sound⟩
  have accepted := load_append (load_save odd h) [1, 2, 3]
  obtain ⟨trailing, whole, _⟩ := save_after_load accepted
  exact ⟨c, _, _, on, rfl, accepted, trailing, whole⟩

end Console
end DotMatrix
