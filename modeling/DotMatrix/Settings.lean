import DotMatrix.Cartridge.Clock
import DotMatrix.Single

/-! What the host chooses for a session. -/
namespace DotMatrix

/-- The colours of the four shades, lightest first, as red, green and blue bytes below a
zero byte. -/
abbrev Palette := Vector UInt32 4

namespace Palette

def grey : Palette := #v[0x00FFFFFF, 0x00AAAAAA, 0x00555555, 0x00000000]
def green : Palette := #v[0x009BBC0F, 0x008BAC0F, 0x00306230, 0x000F380F]

end Palette

/-- Whether programs can reach video memory while the picture unit uses it. -/
inductive VideoAccess where
  /-- Locked reads give FF and locked writes are dropped. -/
  | guarded
  | unrestricted
  deriving DecidableEq

structure Settings where
  /-- Stereo samples a second. -/
  sampleRate : UInt32
  volume : Single
  /-- Which of the four sound channels are heard. -/
  channels : Vector Bool 4
  colorize : Bool
  /-- Goes before the palette that `colorize` selects. -/
  palette : Option Palette
  access : VideoAccess
  /-- The most processor steps that one frame may take. -/
  maxSteps : Nat

namespace Settings

def standard : Settings :=
  { sampleRate := 44100
    volume := ⟨0x3F333333⟩
    channels := Vector.replicate 4 true
    colorize := false
    palette := none
    access := .guarded
    maxSteps := 200000 }

def colors (s : Settings) : Palette :=
  match s.palette with
  | some palette => palette
  | none => if s.colorize then .green else .grey

/-- A rate of zero stands for 44100; no rate is above one sample a clock cycle. -/
def effectiveRate (s : Settings) : Nat :=
  if s.sampleRate = 0 then 44100 else min s.sampleRate.toNat cyclesPerSecond

def effectiveVolume (s : Settings) : Single := s.volume.clamp .zero .one

end Settings
end DotMatrix
