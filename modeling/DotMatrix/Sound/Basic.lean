import DotMatrix.Sound.Pulse
import DotMatrix.Sound.Wave
import DotMatrix.Sound.Noise
import DotMatrix.Single

/-! The sound unit: four channels, the registers FF10 to FF3F, and the sequencer that clocks
lengths, sweep and envelopes. Without power the registers are zero and cannot be written;
the wave memory keeps its contents and stays accessible. -/
namespace DotMatrix

/-- One side of the filter that removes a constant offset: its last input and output. -/
structure HighPass where
  input : Single
  output : Single
  deriving DecidableEq

structure Sound where
  powered : Bool
  /-- FF10 to FF26 as they were written. -/
  registers : Memory 23
  pulse1 : Pulse
  pulse2 : Pulse
  wave : Wave
  noise : Noise
  sequencerTimer : UInt32
  sequencerStep : UInt8
  /-- The part of the next sample that has passed, in units of cycles times rate. -/
  samplePhase : UInt64
  left : HighPass
  right : HighPass

namespace Sound

def sequencerPeriod : Nat := 8192

/-- The bits of FF10 to FF26 that read as one. -/
def readMasks : Memory 23 :=
  #v[0x80, 0x3F, 0x00, 0xFF, 0xBF,
    0xFF, 0x3F, 0x00, 0xFF, 0xBF,
    0x7F, 0xFF, 0x9F, 0xFF, 0xBF,
    0xFF, 0xFF, 0x00, 0x00, 0xBF,
    0x00, 0x00, 0x70]

/-- What the boot program writes, without starting a note. -/
def bootWrites : List (UInt16 × UInt8) :=
  [(0xFF10, 0x80), (0xFF11, 0xBF), (0xFF12, 0xF3), (0xFF13, 0xFF), (0xFF14, 0x3F),
    (0xFF16, 0x3F), (0xFF17, 0x00), (0xFF18, 0xFF), (0xFF19, 0x3F),
    (0xFF1A, 0x7F), (0xFF1B, 0xFF), (0xFF1C, 0x9F), (0xFF1E, 0x3F),
    (0xFF20, 0xFF), (0xFF21, 0x00), (0xFF22, 0x00), (0xFF23, 0x3F),
    (0xFF24, 0x77), (0xFF25, 0xF3)]

/-- Whether an address is that of a register below the power switch. -/
def InRegisters (address : UInt16) : Prop := 0xFF10 ≤ address ∧ address ≤ 0xFF25

def InWave (address : UInt16) : Prop := 0xFF30 ≤ address ∧ address ≤ 0xFF3F

instance (address : UInt16) : Decidable (InRegisters address) := inferInstanceAs (Decidable (_ ∧ _))

instance (address : UInt16) : Decidable (InWave address) := inferInstanceAs (Decidable (_ ∧ _))

def index (address : UInt16) : Nat := address.toNat - 0xFF10

/-- Which channels play, one bit each. -/
def status (s : Sound) : UInt8 :=
  (if s.pulse1.enabled then 0x01 else 0) ||| (if s.pulse2.enabled then 0x02 else 0) |||
    (if s.wave.enabled then 0x04 else 0) ||| (if s.noise.enabled then 0x08 else 0)

def read (s : Sound) (address : UInt16) : UInt8 :=
  if InRegisters address then
    s.registers.read (index address) ||| readMasks.read (index address)
  else if address = 0xFF26 then 0x70 ||| (if s.powered then 0x80 else 0) ||| s.status
  else if InWave address then s.wave.ram.read (address.toNat - 0xFF30)
  else 0xFF

/-- The effect of a register write on the channels. -/
def applyWrite (address : UInt16) (value : UInt8) (s : Sound) : Sound :=
  match address with
  | 0xFF10 => { s with pulse1 := s.pulse1.writeSweep value }
  | 0xFF11 => { s with pulse1 := s.pulse1.writeDutyLength value }
  | 0xFF12 => { s with pulse1 := s.pulse1.writeEnvelope value }
  | 0xFF13 => { s with pulse1 := s.pulse1.writeFrequencyLow value }
  | 0xFF14 => { s with pulse1 := s.pulse1.writeControl value }
  | 0xFF16 => { s with pulse2 := s.pulse2.writeDutyLength value }
  | 0xFF17 => { s with pulse2 := s.pulse2.writeEnvelope value }
  | 0xFF18 => { s with pulse2 := s.pulse2.writeFrequencyLow value }
  | 0xFF19 => { s with pulse2 := s.pulse2.writeControl value }
  | 0xFF1A => { s with wave := s.wave.writeConverter value }
  | 0xFF1B => { s with wave := s.wave.writeLength value }
  | 0xFF1C => { s with wave := s.wave.writeVolume value }
  | 0xFF1D => { s with wave := s.wave.writeFrequencyLow value }
  | 0xFF1E => { s with wave := s.wave.writeControl value }
  | 0xFF20 => { s with noise := s.noise.writeLength value }
  | 0xFF21 => { s with noise := s.noise.writeEnvelope value }
  | 0xFF22 => { s with noise := s.noise.writePolynomial value }
  | 0xFF23 => { s with noise := s.noise.writeControl value }
  | _ => s

/-- Switching off erases registers and channels; switching on restarts the sequencer. -/
def writePower (value : UInt8) (s : Sound) : Sound :=
  let on := value &&& 0x80 != 0
  if s.powered && !on then
    { s with
      powered := false
      registers := Memory.zeros
      pulse1 := .off true
      pulse2 := .off false
      wave := .off s.wave.ram
      noise := .off }
  else if !s.powered && on then
    { s with powered := true, sequencerStep := 0, sequencerTimer := 0 }
  else s

def write (address : UInt16) (value : UInt8) (s : Sound) : Sound :=
  if InRegisters address then
    if s.powered then
      applyWrite address value { s with registers := s.registers.write (index address) value }
    else s
  else if address = 0xFF26 then s.writePower value
  else if InWave address then
    { s with wave := { s.wave with ram := s.wave.ram.write (address.toNat - 0xFF30) value } }
  else s

/-- The unit before the boot program has written to it. -/
def unbooted : Sound :=
  { powered := true
    registers := Memory.zeros
    pulse1 := .off true
    pulse2 := .off false
    wave := .off Wave.powerOnRam
    noise := .off
    sequencerTimer := 0
    sequencerStep := 0
    samplePhase := 0
    left := ⟨.zero, .zero⟩
    right := ⟨.zero, .zero⟩ }

def powerOn : Sound :=
  bootWrites.foldl (fun s (address, value) => s.write address value) unbooted

def clockLengths (s : Sound) : Sound :=
  { s with
    pulse1 := s.pulse1.clockLength
    pulse2 := s.pulse2.clockLength
    wave := s.wave.clockLength
    noise := s.noise.clockLength }

def clockEnvelopes (s : Sound) : Sound :=
  { s with
    pulse1 := s.pulse1.clockEnvelope
    pulse2 := s.pulse2.clockEnvelope
    noise := s.noise.clockEnvelope }

/-- One of eight steps: lengths on the even ones, the sweep on 2 and 6, envelopes on 7. -/
def clockSequencer (s : Sound) : Sound :=
  let step := s.sequencerStep
  let s := if step % 2 == 0 then s.clockLengths else s
  let s := if step == 2 || step == 6 then { s with pulse1 := s.pulse1.clockSweep } else s
  let s := if step == 7 then s.clockEnvelopes else s
  { s with sequencerStep := (step + 1) &&& 0x07 }

def stepChannels (cycles : Nat) (s : Sound) : Sound :=
  { s with
    pulse1 := s.pulse1.step cycles
    pulse2 := s.pulse2.step cycles
    wave := s.wave.step cycles
    noise := s.noise.step cycles }

end Sound
end DotMatrix
