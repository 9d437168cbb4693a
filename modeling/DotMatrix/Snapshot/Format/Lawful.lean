import DotMatrix.Snapshot.Codec.Lawful
import DotMatrix.Snapshot.Format

/-! The snapshot's format is lawful, part by part. A value can be stored when each of its
sequences is shorter than 2 to the 64. -/
namespace DotMatrix

def Cartridge.Storable (c : Cartridge) : Prop := c.ram.size < UInt64.size

def Raster.Storable (r : Raster) : Prop := r.sprites.length < UInt64.size

structure VideoRecord.Storable (v : VideoRecord) : Prop where
  vram : v.vram.size < UInt64.size
  oam : v.oam.size < UInt64.size
  raster : v.raster.Storable
  frame : v.frame.size < UInt64.size

structure BoardRecord.Storable (b : BoardRecord) : Prop where
  cartridge : b.cartridge.Storable
  wram : b.wram.size < UInt64.size
  hram : b.hram.size < UInt64.size
  video : b.video.Storable

namespace Format
open Codec

theorem lawful_registers : registers.Lawful Always :=
  ((lawful_byte.pair <| lawful_byte.pair <| lawful_byte.pair <| lawful_byte.pair <|
      lawful_byte.pair <| lawful_byte.pair <| lawful_byte.pair <| lawful_byte.pair <|
      lawful_word.pair lawful_word).iso (fun _ => rfl) (fun _ => rfl)).weaken (by simp [Always])

theorem lawful_cpu : cpu.Lawful Always :=
  ((lawful_registers.pair <| lawful_bool.pair <| lawful_byte.pair <| lawful_bool.pair <|
      lawful_bool.pair <| lawful_bool.pair lawful_bool).iso (fun _ => rfl) (fun _ => rfl)).weaken
    (by simp [Always])

theorem lawful_clockTime : clockTime.Lawful Always :=
  ((lawful_byte.pair <| lawful_byte.pair <| lawful_byte.pair <| lawful_byte.pair lawful_byte).iso
    (fun _ => rfl) (fun _ => rfl)).weaken (by simp [Always])

theorem lawful_clock : clock.Lawful Always :=
  ((lawful_clockTime.pair <| lawful_clockTime.pair <| lawful_word32.pair lawful_byte.option).iso
    (fun _ => rfl) (fun _ => rfl)).weaken (by simp [Always])

theorem lawful_mbc1 : mbc1.Lawful Always :=
  ((lawful_bool.pair <| lawful_byte.pair <| lawful_byte.pair lawful_bool).iso
    (fun _ => rfl) (fun _ => rfl)).weaken (by simp [Always])

theorem lawful_mbc2 : mbc2.Lawful Always :=
  ((lawful_bool.pair lawful_byte).iso (fun _ => rfl) (fun _ => rfl)).weaken (by simp [Always])

theorem lawful_mbc3 : mbc3.Lawful Always :=
  ((lawful_bool.pair <| lawful_byte.pair <| lawful_byte.pair lawful_clock.option).iso
    (fun _ => rfl) (fun _ => rfl)).weaken (by simp [Always])

theorem lawful_mbc5 : mbc5.Lawful Always :=
  ((lawful_bool.pair <| lawful_word.pair <| lawful_byte.pair lawful_bool).iso
    (fun _ => rfl) (fun _ => rfl)).weaken (by simp [Always])

theorem lawful_mapperState : ∀ i, (mapperStateCodec i).Lawful Always
  | 0 => lawful_unit
  | 1 => lawful_mbc1
  | 2 => lawful_mbc2
  | 3 => lawful_mbc3
  | 4 => lawful_mbc5

theorem lawful_mapper : mapper.Lawful Always :=
  ((Lawful.sum (by decide) lawful_mapperState).iso (fun m => by cases m <;> rfl)
    (fun
      | ⟨0, _⟩ => rfl
      | ⟨1, _⟩ => rfl
      | ⟨2, _⟩ => rfl
      | ⟨3, _⟩ => rfl
      | ⟨4, _⟩ => rfl)).weaken (by simp [Always])

theorem lawful_cartridge : cartridge.Lawful Cartridge.Storable :=
  ((lawful_byte.array.pair <| lawful_mapper.pair <| lawful_word64.pair lawful_bool).iso
    (fun _ => rfl) (fun _ => rfl)).weaken (by simp [Always, Cartridge.Storable])

theorem lawful_videoRegisters : videoRegisters.Lawful Always :=
  ((lawful_byte.pair <| lawful_byte.pair <| lawful_byte.pair <| lawful_byte.pair <|
      lawful_byte.pair <| lawful_byte.pair <| lawful_byte.pair <| lawful_byte.pair <|
      lawful_byte.pair <| lawful_byte.pair lawful_byte).iso
    (fun _ => rfl) (fun _ => rfl)).weaken (by simp [Always])

theorem lawful_videoMode : videoMode.Lawful Always :=
  ((@lawful_index 4 (by decide)).iso (fun m => by cases m <;> rfl)
    (show ∀ i : Fin 4, _ from by decide)).weaken (by simp [Always])

theorem lawful_int16 : int16.Lawful Always :=
  (lawful_word.iso (fun _ => rfl) (fun _ => rfl)).weaken (by simp [Always])

theorem lawful_sprite : sprite.Lawful Always :=
  ((lawful_int16.pair <| lawful_int16.pair <| lawful_byte.pair <| lawful_byte.pair lawful_byte).iso
    (fun _ => rfl) (fun _ => rfl)).weaken (by simp [Always])

theorem lawful_raster : raster.Lawful Raster.Storable :=
  ((lawful_videoRegisters.pair <| lawful_videoMode.pair <| lawful_word.pair <| lawful_word.pair <|
      lawful_bool.pair <| lawful_bool.pair <| lawful_bool.pair <| lawful_byte.pair
      lawful_sprite.list).iso (fun _ => rfl) (fun _ => rfl)).weaken
    (by simp [Always, Raster.Storable])

theorem lawful_video : video.Lawful VideoRecord.Storable :=
  ((lawful_byte.array.pair <| lawful_byte.array.pair <| lawful_raster.pair <|
      lawful_word32.array.pair lawful_bool).iso (fun _ => rfl) (fun _ => rfl)).weaken fun _ =>
    ⟨fun h => ⟨h.1.1, h.2.1.1, h.2.2.1, h.2.2.2.1.1⟩,
      fun h => ⟨⟨h.vram, fun _ _ => trivial⟩, ⟨h.oam, fun _ _ => trivial⟩, h.raster,
        ⟨h.frame, fun _ _ => trivial⟩, trivial⟩⟩

theorem lawful_length : length.Lawful Always :=
  ((lawful_word.pair lawful_bool).iso (fun _ => rfl) (fun _ => rfl)).weaken (by simp [Always])

theorem lawful_envelope : envelope.Lawful Always :=
  ((lawful_byte.pair <| lawful_bool.pair <| lawful_byte.pair <| lawful_byte.pair lawful_byte).iso
    (fun _ => rfl) (fun _ => rfl)).weaken (by simp [Always])

theorem lawful_sweep : sweep.Lawful Always :=
  ((lawful_byte.pair <| lawful_bool.pair <| lawful_byte.pair <| lawful_byte.pair <|
      lawful_word.pair lawful_bool).iso (fun _ => rfl) (fun _ => rfl)).weaken (by simp [Always])

theorem lawful_pulse : pulse.Lawful Always :=
  ((lawful_bool.pair <| lawful_bool.pair <| lawful_byte.pair <| lawful_byte.pair <|
      lawful_word.pair <| lawful_word32.pair <| lawful_length.pair <|
      lawful_envelope.pair lawful_sweep.option).iso (fun _ => rfl) (fun _ => rfl)).weaken
    (by simp [Always])

theorem lawful_wave : wave.Lawful Always :=
  ((lawful_bool.pair <| lawful_bool.pair <| (lawful_byte.vector 16).pair <| lawful_byte.pair <|
      lawful_word.pair <| lawful_word32.pair <| lawful_byte.pair lawful_length).iso
    (fun _ => rfl) (fun _ => rfl)).weaken (by simp [Always])

theorem lawful_noise : noise.Lawful Always :=
  ((lawful_bool.pair <| lawful_bool.pair <| lawful_word.pair <| lawful_byte.pair <|
      lawful_bool.pair <| lawful_byte.pair <| lawful_word32.pair <|
      lawful_length.pair lawful_envelope).iso (fun _ => rfl) (fun _ => rfl)).weaken
    (by simp [Always])

theorem lawful_single : single.Lawful Always :=
  (lawful_word32.iso (fun _ => rfl) (fun _ => rfl)).weaken (by simp [Always])

theorem lawful_highPass : highPass.Lawful Always :=
  ((lawful_single.pair lawful_single).iso (fun _ => rfl) (fun _ => rfl)).weaken (by simp [Always])

theorem lawful_sound : sound.Lawful Always :=
  ((lawful_bool.pair <| (lawful_byte.vector 23).pair <| lawful_pulse.pair <| lawful_pulse.pair <|
      lawful_wave.pair <| lawful_noise.pair <| lawful_word32.pair <| lawful_byte.pair <|
      lawful_word64.pair <| lawful_highPass.pair lawful_highPass).iso
    (fun _ => rfl) (fun _ => rfl)).weaken (by simp [Always])

theorem lawful_timer : timer.Lawful Always :=
  ((lawful_word.pair <| lawful_byte.pair <| lawful_byte.pair <| lawful_byte.pair lawful_byte).iso
    (fun _ => rfl) (fun _ => rfl)).weaken (by simp [Always])

theorem lawful_serial : serial.Lawful Always :=
  ((lawful_byte.pair <| lawful_byte.pair <| lawful_byte.pair lawful_word32).iso
    (fun _ => rfl) (fun _ => rfl)).weaken (by simp [Always])

theorem lawful_joypad : joypad.Lawful Always :=
  ((lawful_byte.pair lawful_byte).iso (fun _ => rfl) (fun _ => rfl)).weaken (by simp [Always])

theorem lawful_interrupts : interrupts.Lawful Always :=
  (lawful_byte.iso (fun _ => rfl) (fun _ => rfl)).weaken (by simp [Always])

theorem lawful_board : board.Lawful BoardRecord.Storable :=
  ((lawful_cartridge.pair <| lawful_byte.array.pair <| lawful_byte.array.pair <|
      lawful_video.pair <| lawful_sound.pair <| lawful_timer.pair <| lawful_serial.pair <|
      lawful_joypad.pair <| lawful_interrupts.pair <| lawful_byte.pair <| lawful_byte.pair <|
      lawful_word32.pair <| lawful_interrupts.pair lawful_word64).iso
    (fun _ => rfl) (fun _ => rfl)).weaken fun _ =>
    ⟨fun h => ⟨h.1, h.2.1.1, h.2.2.1.1, h.2.2.2.1⟩,
      fun h => ⟨h.cartridge, ⟨h.wram, fun _ _ => trivial⟩, ⟨h.hram, fun _ _ => trivial⟩, h.video,
        by simp [Always]⟩⟩

theorem lawful_snapshot : snapshot.Lawful fun s => s.board.Storable :=
  ((lawful_cpu.pair <| lawful_board.pair lawful_word64).iso (fun _ => rfl) (fun _ => rfl)).weaken
    (by simp [Always])

end Format
end DotMatrix
