import DotMatrix.Proofs.Sound.Core

/-! What happens to a sound unit. Whatever goes on around it, it meets nothing but time, the writes
to its registers and a host that takes its samples. -/
namespace DotMatrix

inductive SoundOperation where
  | tick (cycles : Nat)
  | write (address : UInt16) (value : UInt8)
  /-- The host takes what has gathered. -/
  | takeSamples

def SoundOperation.cycles : SoundOperation → Nat
  | .tick cycles => cycles
  | _ => 0

namespace Sound
variable {s : Sound}

theorem samplePhase_write (address : UInt16) (value : UInt8) (s : Sound) :
    (s.write address value).samplePhase = s.samplePhase := by
  have applied (s : Sound) : (s.applyWrite address value).samplePhase = s.samplePhase := by
    unfold applyWrite
    split <;> rfl
  unfold write writePower
  dsimp only
  repeat' split
  all_goals first | rfl | exact applied _

theorem sequencerTimer_write (address : UInt16) (value : UInt8) (s : Sound) :
    (s.write address value).sequencerTimer = s.sequencerTimer ∨
      (s.write address value).sequencerTimer = 0 := by
  have applied (s : Sound) : (s.applyWrite address value).sequencerTimer = s.sequencerTimer := by
    unfold applyWrite
    split <;> rfl
  unfold write writePower
  dsimp only
  repeat' split
  all_goals first | exact .inl rfl | exact .inr rfl | exact .inl (applied _)

theorem Paced.write (h : s.Paced) (address : UInt16) (value : UInt8) :
    (s.write address value).Paced := by
  refine ⟨?_, (samplePhase_write address value s).symm ▸ h.samplePhase⟩
  obtain same | restarted := sequencerTimer_write address value s
  · rw [same]
    exact h.sequencerTimer
  · rw [restarted]
    decide

end Sound

structure LiveSound where
  settings : Settings
  sound : Sound
  samples : Array Single

namespace LiveSound
variable {live : LiveSound}

def powerOn (settings : Settings) : LiveSound := ⟨settings, .powerOn, #[]⟩

def operate (live : LiveSound) : SoundOperation → LiveSound
  | .tick cycles =>
    let (sound, samples) := live.sound.tick live.settings cycles live.samples
    { live with sound, samples }
  | .write address value => { live with sound := live.sound.write address value }
  | .takeSamples => { live with samples := #[] }

def operations (ops : List SoundOperation) (live : LiveSound) : LiveSound := ops.foldl operate live

def taken : List SoundOperation → LiveSound → Array Single
  | [], _ => #[]
  | .takeSamples :: ops, live => live.samples ++ taken ops (live.operate .takeSamples)
  | op :: ops, live => taken ops (live.operate op)

theorem operations_cons (op : SoundOperation) (ops : List SoundOperation) (live : LiveSound) :
    live.operations (op :: ops) = (live.operate op).operations ops :=
  rfl

theorem operations_append (first rest : List SoundOperation) (live : LiveSound) :
    live.operations (first ++ rest) = (live.operations first).operations rest :=
  List.foldl_append ..

theorem settings_operate (op : SoundOperation) (live : LiveSound) :
    (live.operate op).settings = live.settings := by
  cases op <;> rfl

/-- What every operation keeps, all of them keep. -/
theorem operations_keeps {P : LiveSound → Prop} {ops : List SoundOperation}
    (keeps : ∀ op ∈ ops, ∀ live, P live → P (live.operate op)) (h : P live) :
    P (live.operations ops) := by
  induction ops generalizing live with
  | nil => exact h
  | cons op ops ih =>
    exact ih (fun op listed => keeps op (List.mem_cons_of_mem _ listed))
      (keeps op List.mem_cons_self live h)

theorem paced_operate (op : SoundOperation) (h : live.sound.Paced) :
    (live.operate op).sound.Paced := by
  cases op with
  | tick cycles => exact Sound.paced_tick live.settings cycles _ live.samples h
  | write address value => exact h.write address value
  | takeSamples => exact h

theorem inRange_operate (op : SoundOperation) (h : live.sound.InRange) :
    (live.operate op).sound.InRange := by
  cases op with
  | tick cycles => exact Sound.inRange_tick live.settings cycles _ live.samples h
  | write address value => exact h.write address value
  | takeSamples => exact h

theorem inRange_operations (ops : List SoundOperation) (h : live.sound.InRange) :
    (live.operations ops).sound.InRange :=
  operations_keeps (P := (·.sound.InRange)) (fun op _ _ h => inRange_operate op h) h

theorem inRange_powerOn (settings : Settings) (ops : List SoundOperation) :
    ((powerOn settings).operations ops).sound.InRange :=
  inRange_operations ops .powerOn

end LiveSound
end DotMatrix
