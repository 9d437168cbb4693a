import DotMatrix.Sound.Basic
import DotMatrix.Settings

/-! The way from channel levels to stereo samples at the host's rate. Time is cut at the
sequencer's steps and at the samples, so that both happen at their exact cycle. -/
namespace DotMatrix

namespace HighPass

def alpha : Single := ⟨0x3F7F3B64⟩

def next (input : Single) (h : HighPass) : HighPass :=
  ⟨input, alpha * (h.output + input - h.input)⟩

def sample (h : HighPass) : Single := h.output.clamp .minusOne .one

end HighPass

namespace Sound

def sevenAndHalf : Single := ⟨0x40F00000⟩
def four : Single := ⟨0x40800000⟩
def eight : Single := ⟨0x41000000⟩

/-- The level of one side before its volume: the audible channels that the mask routes to it. -/
def sumRouted (settings : Settings) (routed : UInt8) (s : Sound) : Single :=
  let channels :=
    [(s.pulse1.output, s.pulse1.converter), (s.pulse2.output, s.pulse2.converter),
      (s.wave.output, s.wave.converter), (s.noise.output, s.noise.converter)]
  let audible := (channels.zip settings.channels.toList).zipIdx.filter
    fun (((_, converter), heard), i) => converter && heard && routed.toNat.testBit i
  audible.foldl (fun sum (((output, _), _), _) =>
    sum + (Single.ofByte output / sevenAndHalf - .one)) .zero

def factor (volume : UInt8) : Single := Single.ofByte ((volume &&& 0x07) + 1) / eight

/-- The two sides, from -1 to 1. -/
def mix (settings : Settings) (s : Sound) : Single × Single :=
  if s.powered then
    let volumes := s.registers.read 0x14
    let routing := s.registers.read 0x15
    let side (routed volume : UInt8) : Single :=
      s.sumRouted settings routed / four * factor volume * settings.effectiveVolume
    (side (routing >>> 4) (volumes >>> 4), side (routing &&& 0x0F) volumes)
  else (.zero, .zero)

/-- Filters the mixed sides; the new outputs are the next sample pair. -/
def filter (settings : Settings) (s : Sound) : Sound :=
  let (left, right) := s.mix settings
  { s with left := s.left.next left, right := s.right.next right }

/-- The cycles of the next slice: no further than the sequencer's step, the next sample and
the time that is left. -/
def slice (rate remaining : Nat) (s : Sound) : Nat :=
  let toSequencer := sequencerPeriod - s.sequencerTimer.toNat
  let toSample := (cyclesPerSecond - s.samplePhase.toNat + rate - 1) / rate
  min remaining (min toSequencer toSample)

def runSlice (cycles : Nat) (s : Sound) : Sound :=
  if s.powered then
    let s := s.stepChannels cycles
    let timer := s.sequencerTimer.toNat + cycles
    if timer = sequencerPeriod then { s with sequencerTimer := 0 }.clockSequencer
    else { s with sequencerTimer := UInt32.ofNat timer }
  else s

theorem slice_le (rate remaining : Nat) (s : Sound) : s.slice rate remaining ≤ remaining :=
  Nat.min_le_left ..

/-- Lets time pass. Samples are pushed to `samples`, left before right. -/
def tick (settings : Settings) (cycles : Nat) (s : Sound) (samples : Array Single) :
    Sound × Array Single :=
  let rate := settings.effectiveRate
  let cut := s.slice rate cycles
  if cut = 0 then (s, samples)
  else
    let ran := s.runSlice cut
    let phase := ran.samplePhase.toNat + cut * rate
    if phase < cyclesPerSecond then
      tick settings (cycles - cut) { ran with samplePhase := UInt64.ofNat phase } samples
    else
      let next :=
        { ran with samplePhase := UInt64.ofNat (phase - cyclesPerSecond) }.filter settings
      tick settings (cycles - cut) next
        ((samples.push next.left.sample).push next.right.sample)
termination_by cycles
decreasing_by
  all_goals exact Nat.sub_lt_self (Nat.pos_of_ne_zero (by assumption)) (s.slice_le ..)

end Sound
end DotMatrix
