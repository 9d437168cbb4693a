import DotMatrix.Cpu.Registers
import DotMatrix.Bus

/-! The processor's own state, and computations of a processor that is wired to a bus. -/
namespace DotMatrix

structure Cpu where
  registers : Registers
  /-- Interrupts are dispatched. -/
  interruptsEnabled : Bool
  /-- Instructions to complete, the current one included, before a pending enable takes
  effect; 0 when none is pending. -/
  enableDelay : UInt8
  halted : Bool
  stopped : Bool
  /-- The next opcode fetch does not advance PC. -/
  haltBug : Bool
  /-- An undefined opcode was executed; only a reset leaves this state. -/
  locked : Bool
  deriving DecidableEq

/-- The processor as the boot program leaves it. -/
def Cpu.postBoot : Cpu :=
  { registers := .postBoot, interruptsEnabled := false, enableDelay := 0, halted := false,
    stopped := false, haltBug := false, locked := false }

/-- A processor and the bus it is wired to. -/
structure Wired (β : Type) where
  cpu : Cpu
  bus : β

abbrev Execution (β : Type) := StateM (Wired β)

namespace Execution
variable {β : Type}

def processor : Execution β Cpu := do
  return (← get).cpu

def registers : Execution β Registers := do
  return (← get).cpu.registers

def updateCpu (change : Cpu → Cpu) : Execution β Unit :=
  modify fun wired => { wired with cpu := change wired.cpu }

def update (change : Registers → Registers) : Execution β Unit :=
  updateCpu fun cpu => { cpu with registers := change cpu.registers }

variable [Bus β]

def readByte (address : UInt16) : Execution β UInt8 :=
  modifyGet fun wired =>
    let (value, bus) := Bus.read address wired.bus
    (value, { wired with bus })

def writeByte (address : UInt16) (value : UInt8) : Execution β Unit :=
  modify fun wired => { wired with bus := Bus.write address value wired.bus }

/-- Reads the byte at PC and advances, except right after the HALT bug: then the same byte
is read once more. -/
def fetch : Execution β UInt8 := do
  let value ← readByte (← registers).pc
  updateCpu fun cpu =>
    if cpu.haltBug then { cpu with haltBug := false }
    else { cpu with registers := { cpu.registers with pc := cpu.registers.pc + 1 } }
  return value

def fetchWord : Execution β UInt16 := do
  let low ← fetch
  let high ← fetch
  return Word.join high low

/-- Fetches an operand of `count` bytes, the low one first. -/
def fetchOperand : (count : Nat) → Execution β UInt16
  | 0 => return 0
  | 1 => return (← fetch).toUInt16
  | _ => fetchWord

/-- Stores a word below SP, high byte first. -/
def pushWord (word : UInt16) : Execution β Unit := do
  update fun r => { r with sp := r.sp - 1 }
  writeByte (← registers).sp (Word.high word)
  update fun r => { r with sp := r.sp - 1 }
  writeByte (← registers).sp (Word.low word)

def popWord : Execution β UInt16 := do
  let sp := (← registers).sp
  let low ← readByte sp
  let high ← readByte (sp + 1)
  update fun r => { r with sp := r.sp + 2 }
  return Word.join high low

end Execution
end DotMatrix
