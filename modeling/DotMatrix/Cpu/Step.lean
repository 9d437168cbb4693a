import DotMatrix.Cpu.Execute

/-! One step of the processor: an instruction, an interrupt dispatch, or an idle slice.
The processor never advances the rest of the machine; a step tells how many clock cycles
it took, and its caller lets that time pass. -/
namespace DotMatrix

/-- Two idle machine cycles, the push of PC and the jump. -/
def dispatchCycles : Nat := 20

/-- Counts down a pending enable after an instruction; at zero interrupts are enabled. -/
def Cpu.countEnableDelay (cpu : Cpu) : Cpu :=
  if cpu.enableDelay == 0 then cpu
  else
    { cpu with
      enableDelay := cpu.enableDelay - 1
      interruptsEnabled := cpu.interruptsEnabled || cpu.enableDelay == 1 }

namespace Execution
variable {β : Type} [Bus β]

/-- Pushes PC, withdraws the request and goes to the handler. -/
def dispatch (source : Interrupt) : Execution β Nat := do
  updateCpu fun cpu => { cpu with interruptsEnabled := false, enableDelay := 0 }
  pushWord (← registers).pc
  let requested ← readByte 0xFF0F
  writeByte 0xFF0F (InterruptSet.erase ⟨requested⟩ source).bits
  setPC source.vector
  return dispatchCycles

def executeNext : Execution β Nat := do
  let cycles ← execute (Instruction.decode (← fetch))
  updateCpu Cpu.countEnableDelay
  return cycles

def stepAwake : Execution β Nat := do
  let pending ← pendingInterrupts
  let cpu ← processor
  if cpu.halted && pending == ∅ then
    return idleCycles
  else
    updateCpu fun cpu => { cpu with halted := false }
    match pending.highest? with
    | some source => if cpu.interruptsEnabled then dispatch source else executeNext
    | none => executeNext

/-- A stopped processor wakes when a joypad line is low. -/
def step : Execution β Nat := do
  let cpu ← processor
  if cpu.locked then
    return idleCycles
  else if cpu.stopped then
    if (← readByte 0xFF00) &&& 0x0F == 0x0F then
      return idleCycles
    else
      updateCpu fun cpu => { cpu with stopped := false }
      stepAwake
  else
    stepAwake

end Execution

def Wired.step {β : Type} [Bus β] (wired : Wired β) : Nat × Wired β := Execution.step.run wired

end DotMatrix
