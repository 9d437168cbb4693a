import DotMatrix.Snapshot.Format.Lawful
import DotMatrix.Proofs.Snapshot.Place

/-! Every part of a snapshot's body fails to decode only at one of its places. -/
namespace DotMatrix.Format
open Codec

instance precise_registers : registers.Precise := .iso lawful_registers

instance precise_cpu : cpu.Precise := .iso lawful_cpu

instance precise_clockTime : clockTime.Precise := .iso lawful_clockTime

instance precise_clock : clock.Precise := .iso lawful_clock

theorem precise_mapperState : ∀ i, (mapperStateCodec i).Precise
  | 0 => precise_unit
  | 1 => .iso lawful_mbc1
  | 2 => .iso lawful_mbc2
  | 3 => .iso lawful_mbc3
  | 4 => .iso lawful_mbc5

instance precise_mapper : mapper.Precise :=
  have := Precise.sum (by decide) precise_mapperState
  .iso lawful_mapper

instance precise_cartridge : cartridge.Precise := .iso lawful_cartridge

instance precise_videoRegisters : videoRegisters.Precise := .iso lawful_videoRegisters

instance precise_videoMode : videoMode.Precise :=
  have := @precise_index 4 (by decide)
  .iso lawful_videoMode

instance precise_int16 : int16.Precise := .iso lawful_int16

instance precise_sprite : sprite.Precise := .iso lawful_sprite

instance precise_raster : raster.Precise := .iso lawful_raster

instance precise_video : video.Precise := .iso lawful_video

instance precise_length : length.Precise := .iso lawful_length

instance precise_envelope : envelope.Precise := .iso lawful_envelope

instance precise_sweep : sweep.Precise := .iso lawful_sweep

instance precise_pulse : pulse.Precise := .iso lawful_pulse

instance precise_wave : wave.Precise := .iso lawful_wave

instance precise_noise : noise.Precise := .iso lawful_noise

instance precise_single : single.Precise := .iso lawful_single

instance precise_highPass : highPass.Precise := .iso lawful_highPass

instance precise_sound : sound.Precise := .iso lawful_sound

instance precise_timer : timer.Precise := .iso lawful_timer

instance precise_serial : serial.Precise := .iso lawful_serial

instance precise_joypad : joypad.Precise := .iso lawful_joypad

instance precise_interrupts : interrupts.Precise := .iso lawful_interrupts

instance precise_board : board.Precise := .iso lawful_board

instance precise_snapshot : snapshot.Precise := .iso lawful_snapshot

end DotMatrix.Format
