import DotMatrix.Proofs.Safe.Session

/-! No program crashes the console. From power-on, whatever the image holds and whatever the host
asks for, every call returns and nothing that is checked fails on the way, for as long as the
cycles and the frames of the session can be counted. -/
namespace DotMatrix
namespace Console

/-- What a host asks of a console that it has switched on. -/
inductive Request where
  | act (act : Act)
  | takeSamples
  | loadBattery (data : Array UInt8)

/-- The console after a request. A refused battery memory leaves it as it was. -/
def serve (c : Console) : Request → Except Fault Console
  | .act act => c.perform act
  | .takeSamples => .ok c.takeSamples.2
  | .loadBattery data => .ok ((c.loadBattery data).toOption.getD c)

/-- What a request needs, the counters apart: what a call needs. The host's arrays are taken and
given as they are. -/
def RequestSafe (c : Console) : Request → Prop
  | .act act => c.ActSafe act
  | .takeSamples | .loadBattery _ => True

/-- Every request of a session is answered, and nothing that is checked fails on the way. -/
def Endures (c : Console) : List Request → Prop
  | [] => True
  | request :: requests =>
    c.RequestSafe request ∧ ∃ next, c.serve request = .ok next ∧ next.Endures requests

def after (c : Console) : Request → Console
  | .act act => c.pass act
  | .takeSamples => c.takeSamples.2
  | .loadBattery data => (c.loadBattery data).toOption.getD c

def requestTime (c : Console) : Request → Nat
  | .act (.runFrame held) => c.frameTime held
  | _ => 0

def sessionTime (c : Console) : List Request → Nat
  | [] => 0
  | request :: requests => c.requestTime request + (c.after request).sessionTime requests

def Request.frames : Request → Nat
  | .act (.runFrame _) => 1
  | _ => 0

theorem Request.frames_le (request : Request) : request.frames ≤ 1 := by
  unfold frames
  split <;> decide

def sessionFrames : List Request → Nat
  | [] => 0
  | request :: requests => request.frames + sessionFrames requests

theorem sessionFrames_le (requests : List Request) : sessionFrames requests ≤ requests.length := by
  induction requests with
  | nil => exact Nat.le_refl 0
  | cons request requests ih =>
    have one := request.frames_le
    rw [sessionFrames, List.length_cons]
    omega

namespace InRange
variable {image : Image} {settings : Settings} {c next : Console}

theorem requestSafe (h : c.InRange image settings) (request : Request) :
    c.RequestSafe request := by
  cases request with
  | act act => exact h.actSafe act
  | takeSamples | loadBattery => trivial

theorem serve_eq (request : Request)
    (cycles : c.machine.bus.board.cycles.toNat + c.requestTime request < UInt64.size)
    (frames : c.frames.toNat + request.frames < UInt64.size) :
    c.serve request = .ok (c.after request) := by
  cases request with
  | act act =>
    refine perform_eq_ok.mpr ⟨?_, rfl⟩
    cases act with
    | runFrame held => exact ⟨cycles, frames⟩
    | press | reset | save => trivial
  | takeSamples | loadBattery => rfl

theorem serve (h : c.InRange image settings) {request : Request}
    (served : c.serve request = .ok next) : next.InRange image settings := by
  cases request with
  | act act => exact h.perform served
  | takeSamples =>
    cases served
    exact h.step .takeSamples
  | loadBattery data =>
    cases served
    cases loaded : c.loadBattery data with
    | error refusal => exact h
    | ok next => exact h.loadBattery loaded

theorem counters_after_le (c : Console) (request : Request) :
    (c.after request).machine.bus.board.cycles.toNat ≤
        c.machine.bus.board.cycles.toNat + c.requestTime request ∧
      (c.after request).frames.toNat ≤ c.frames.toNat + request.frames := by
  cases request with
  | act act =>
    cases act with
    | runFrame held =>
      have counted := Wired.cycles_passSteps_le c.machine.bus.settings.maxSteps 0
        (c.beginFrame held).machine
      exact ⟨counted, toNat_add_ofNat_le c.frames 1⟩
    | press | save => exact ⟨Nat.le_refl _, Nat.le_refl _⟩
    | reset => exact ⟨Nat.zero_le _, Nat.zero_le _⟩
  | takeSamples => exact ⟨Nat.le_refl _, Nat.le_refl _⟩
  | loadBattery data =>
    simp only [after]
    unfold Console.loadBattery
    split <;> exact ⟨Nat.le_refl _, Nat.le_refl _⟩

theorem endures (h : c.InRange image settings) (requests : List Request)
    (cycles : c.machine.bus.board.cycles.toNat + c.sessionTime requests < UInt64.size)
    (frames : c.frames.toNat + sessionFrames requests < UInt64.size) : c.Endures requests := by
  induction requests generalizing c with
  | nil => trivial
  | cons request requests ih =>
    rw [sessionTime] at cycles
    rw [sessionFrames] at frames
    -- What this request adds to the counters is what the session has less to go.
    have served := serve_eq request (c := c) (by omega) (by omega)
    obtain ⟨cycles_le, frames_le⟩ := counters_after_le c request
    exact ⟨h.requestSafe request, _, served, ih (h.serve served) (by omega) (by omega)⟩

theorem requestTime_le (h : c.InRange image settings) (request : Request) :
    c.requestTime request ≤ longestStep * settings.maxSteps := by
  cases request with
  | act act =>
    cases act with
    | runFrame held => exact h.frameTime_le held
    | press | reset | save => exact Nat.zero_le _
  | takeSamples | loadBattery => exact Nat.zero_le _

theorem sessionTime_le (h : c.InRange image settings) (requests : List Request)
    (cycles : c.machine.bus.board.cycles.toNat + longestStep * settings.maxSteps * requests.length <
      UInt64.size)
    (frames : c.frames.toNat + requests.length < UInt64.size) :
    c.sessionTime requests ≤ longestStep * settings.maxSteps * requests.length := by
  induction requests generalizing c with
  | nil => exact Nat.zero_le _
  | cons request requests ih =>
    rw [List.length_cons, Nat.mul_succ] at cycles ⊢
    rw [List.length_cons] at frames
    have time := h.requestTime_le request
    have one := request.frames_le
    have served := serve_eq request (c := c) (by omega) (by omega)
    obtain ⟨cycles_le, frames_le⟩ := counters_after_le c request
    have rest := ih (h.serve served) (by omega) (by omega)
    rw [sessionTime]
    omega

end InRange

/-! At power-on nothing is counted yet. -/

theorem cycles_started (image : Image) (settings : Settings) (header : Header) :
    (started image settings header).machine.bus.board.cycles.toNat = 0 :=
  rfl

theorem frames_started (image : Image) (settings : Settings) (header : Header) :
    (started image settings header).frames.toNat = 0 :=
  rfl

/-- Every console that an accepted image gives goes through every session of fewer than 2 to the
64 cycles and frames. -/
theorem powerOn_endures {image : Image} {header : Header}
    (accepted : Header.parse image = .ok header) (settings : Settings) :
    Sound.BootSafe ∧ ∃ c, Console.powerOn image settings = .ok c ∧
      ∀ requests : List Request, c.sessionTime requests < UInt64.size →
        sessionFrames requests < UInt64.size → c.Endures requests := by
  have on := powerOn_started accepted settings
  refine ⟨Sound.bootSafe, _, on, fun requests cycles frames => ?_⟩
  have h := InRange.powerOn on
  refine h.endures requests ?_ ?_
  · rw [cycles_started, Nat.zero_add]
    exact cycles
  · rw [frames_started, Nat.zero_add]
    exact frames

/-- Four thousand million requests of a console with a blank cartridge. -/
theorem powerOn_endures_blank :
    ∃ c, Console.powerOn Image.blank .standard = .ok c ∧
      ∀ requests : List Request, requests.length < 0x100000000 → c.Endures requests := by
  obtain ⟨header, parsed⟩ := Header.parse_blank
  obtain ⟨_, c, on, endures⟩ := powerOn_endures parsed .standard
  refine ⟨c, on, fun requests short => ?_⟩
  obtain rfl : started Image.blank .standard header = c :=
    Except.ok.inj ((powerOn_started parsed .standard).symm.trans on)
  have size : UInt64.size = 0x10000000000000000 := rfl
  have frame : longestStep * Settings.standard.maxSteps = 132800000 := rfl
  have few := sessionFrames_le requests
  have time := (InRange.powerOn on).sessionTime_le requests
    (by
      rw [cycles_started, frame]
      omega)
    (by
      rw [frames_started]
      omega)
  rw [frame] at time
  exact endures requests (by omega) (by omega)

end Console
end DotMatrix
