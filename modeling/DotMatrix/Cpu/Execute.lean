import DotMatrix.Cpu.Basic
import DotMatrix.Cpu.Instruction
import DotMatrix.Interrupt

/-! What each instruction does, and its cost in clock cycles. `execute` runs an
instruction whose opcode has been fetched: it fetches the operand, and only then
does `perform` touch registers and data. -/
namespace DotMatrix

def idleCycles : Nat := 4

def Condition.holds (condition : Condition) (r : Registers) : Bool :=
  match condition with
  | .notZero => !r.flag .zero
  | .zero => r.flag .zero
  | .notCarry => !r.flag .carry
  | .carry => r.flag .carry

def Register.get (register : Register) (r : Registers) : UInt8 :=
  match register with
  | .b => r.b
  | .c => r.c
  | .d => r.d
  | .e => r.e
  | .h => r.h
  | .l => r.l
  | .a => r.a

def Register.set (register : Register) (value : UInt8) (r : Registers) : Registers :=
  match register with
  | .b => { r with b := value }
  | .c => { r with c := value }
  | .d => { r with d := value }
  | .e => { r with e := value }
  | .h => { r with h := value }
  | .l => { r with l := value }
  | .a => { r with a := value }

def Pair.get (pair : Pair) (r : Registers) : UInt16 :=
  match pair with
  | .bc => r.bc
  | .de => r.de
  | .hl => r.hl
  | .sp => r.sp

def Pair.set (pair : Pair) (word : UInt16) (r : Registers) : Registers :=
  match pair with
  | .bc => r.setBC word
  | .de => r.setDE word
  | .hl => r.setHL word
  | .sp => { r with sp := word }

def StackPair.get (pair : StackPair) (r : Registers) : UInt16 :=
  match pair with
  | .bc => r.bc
  | .de => r.de
  | .hl => r.hl
  | .af => r.af

def StackPair.set (pair : StackPair) (word : UInt16) (r : Registers) : Registers :=
  match pair with
  | .bc => r.setBC word
  | .de => r.setDE word
  | .hl => r.setHL word
  | .af => r.setAF word

/-- `inMemory` for the memory operand, `inRegister` for a register. -/
def Operand.cost (operand : Operand) (inMemory inRegister : Nat) : Nat :=
  match operand with
  | .memory => inMemory
  | .register _ => inRegister

namespace Registers

def operate (r : Registers) (operation : Arithmetic.Operation) (value : UInt8) : Registers :=
  let (result, flags) := operation.apply r.a value (r.flag .carry)
  { r with a := result }.setFlags flags

/-- Increment and decrement keep the carry flag. -/
def setStepFlags (r : Registers) (zero subtract halfCarry : Bool) : Registers :=
  ((r.setFlag .zero zero).setFlag .subtract subtract).setFlag .halfCarry halfCarry

def addToHL (r : Registers) (value : UInt16) : Registers :=
  let (total, halfCarry, carry) := Arithmetic.addWords r.hl value
  (((r.setFlag .subtract false).setFlag .halfCarry halfCarry).setFlag .carry carry).setHL total

def decimalAdjust (r : Registers) : Registers :=
  let (a, carry) :=
    Arithmetic.decimalAdjust r.a (r.flag .subtract) (r.flag .halfCarry) (r.flag .carry)
  ((({ r with a }).setFlag .zero (a == 0)).setFlag .halfCarry false).setFlag .carry carry

/-- The carry flag alone, with the subtract and half-carry flags cleared. -/
def setCarryOnly (r : Registers) (carry : Bool) : Registers :=
  ((r.setFlag .subtract false).setFlag .halfCarry false).setFlag .carry carry

def complement (r : Registers) : Registers :=
  (({ r with a := ~~~r.a }).setFlag .subtract true).setFlag .halfCarry true

end Registers

namespace Execution
variable {β : Type} [Bus β]

def readOperand : Operand → Execution β UInt8
  | .register r => return r.get (← registers)
  | .memory => do readByte (← registers).hl

def writeOperand (operand : Operand) (value : UInt8) : Execution β Unit :=
  match operand with
  | .register r => update (r.set value)
  | .memory => do writeByte (← registers).hl value

/-- The address that a location names, given the operand. Two locations step HL after its
use. -/
def locate (operand : UInt16) : Location → Execution β UInt16
  | .bc => return (← registers).bc
  | .de => return (← registers).de
  | .hlIncrement => do
    let hl := (← registers).hl
    update fun r => r.setHL (hl + 1)
    return hl
  | .hlDecrement => do
    let hl := (← registers).hl
    update fun r => r.setHL (hl - 1)
    return hl
  | .page => return Word.join 0xFF (Word.low operand)
  | .pageC => return Word.join 0xFF (← registers).c
  | .immediate => return operand

/-- The source bits requested in FF0F and enabled in FFFF. -/
def pendingInterrupts : Execution β InterruptSet := do
  let enabled ← readByte 0xFFFF
  let requested ← readByte 0xFF0F
  return ⟨enabled &&& requested &&& InterruptSet.sources⟩

def taken : Option Condition → Execution β Bool
  | none => return true
  | some condition => return condition.holds (← registers)

def setPC (address : UInt16) : Execution β Unit :=
  update fun r => { r with pc := address }

def callTo (address : UInt16) : Execution β Unit := do
  pushWord (← registers).pc
  setPC address

def addOffset (byte : UInt8) : Execution β UInt16 := do
  let (word, flags) := Arithmetic.offset (← registers).sp byte
  update fun r => r.setFlags flags
  return word

def shiftOperand (shift : Arithmetic.Shift) (value : UInt8) : Execution β UInt8 := do
  let (result, flags) := shift.apply value ((← registers).flag .carry)
  update fun r => r.setFlags flags
  return result

/-- Bit instructions cost 8 cycles on a register. On memory a test costs 12 and a change 16. -/
def executeBit : BitInstruction → Execution β Nat
  | .shift shift target => do
    let value ← readOperand target
    writeOperand target (← shiftOperand shift value)
    return target.cost 16 8
  | .test bit source => do
    let value ← readOperand source
    update fun r =>
      ((r.setFlag .zero (!value.toNat.testBit bit)).setFlag .subtract false).setFlag
        .halfCarry true
    return source.cost 12 8
  | .reset bit target => do
    let value ← readOperand target
    writeOperand target (value &&& ~~~((1 : UInt8) <<< UInt8.ofNat bit))
    return target.cost 16 8
  | .set bit target => do
    let value ← readOperand target
    writeOperand target (value ||| (1 : UInt8) <<< UInt8.ofNat bit)
    return target.cost 16 8

def executeHalt : Execution β Nat := do
  if (← processor).interruptsEnabled then
    updateCpu fun cpu => { cpu with halted := true }
  else if (← pendingInterrupts) = ∅ then
    updateCpu fun cpu => { cpu with halted := true }
  else
    updateCpu fun cpu => { cpu with haltBug := true }
  return 4

/-- The effect of an instruction once its operand has been fetched. -/
def perform (operand : UInt16) : Instruction → Execution β Nat
  | .nop => return 4
  | .stop => do
    updateCpu fun cpu => { cpu with stopped := true }
    return 4
  | .halt => executeHalt
  | .disableInterrupts => do
    updateCpu fun cpu => { cpu with interruptsEnabled := false, enableDelay := 0 }
    return 4
  | .enableInterrupts => do
    updateCpu fun cpu =>
      if !cpu.interruptsEnabled && cpu.enableDelay == 0 then { cpu with enableDelay := 2 }
      else cpu
    return 4
  | .extended => executeBit (BitInstruction.decode (Word.low operand))
  | .load target source => do
    writeOperand target (← readOperand source)
    return target.cost 8 (source.cost 8 4)
  | .loadImmediate target => do
    writeOperand target (Word.low operand)
    return target.cost 12 8
  | .loadPair target => do
    update (target.set operand)
    return 12
  | .loadAccumulator source => do
    let value ← readByte (← locate operand source)
    update fun r => { r with a := value }
    return transferCycles source
  | .storeAccumulator target => do
    let address ← locate operand target
    writeByte address (← registers).a
    return transferCycles target
  | .storeStackPointer => do
    let sp := (← registers).sp
    writeByte operand (Word.low sp)
    writeByte (operand + 1) (Word.high sp)
    return 20
  | .loadStackPointer => do
    update fun r => { r with sp := r.hl }
    return 8
  | .loadOffset => do
    let word ← addOffset (Word.low operand)
    update fun r => r.setHL word
    return 12
  | .increment target => do
    let value ← readOperand target
    update fun r => r.setStepFlags (value + 1 == 0) false (value &&& 0x0F == 0x0F)
    writeOperand target (value + 1)
    return target.cost 12 4
  | .decrement target => do
    let value ← readOperand target
    update fun r => r.setStepFlags (value - 1 == 0) true (value &&& 0x0F == 0)
    writeOperand target (value - 1)
    return target.cost 12 4
  | .incrementPair target => do
    update fun r => target.set (target.get r + 1) r
    return 8
  | .decrementPair target => do
    update fun r => target.set (target.get r - 1) r
    return 8
  | .addPair source => do
    update fun r => r.addToHL (source.get r)
    return 8
  | .addOffset => do
    let word ← addOffset (Word.low operand)
    update fun r => { r with sp := word }
    return 16
  | .rotateAccumulator shift => do
    let result ← shiftOperand shift (← registers).a
    update fun r => { r with a := result }.setFlag .zero false
    return 4
  | .decimalAdjust => do
    update Registers.decimalAdjust
    return 4
  | .complement => do
    update Registers.complement
    return 4
  | .setCarry => do
    update fun r => r.setCarryOnly true
    return 4
  | .complementCarry => do
    update fun r => r.setCarryOnly !(r.flag .carry)
    return 4
  | .arithmetic operation source => do
    let value ← readOperand source
    update fun r => r.operate operation value
    return source.cost 8 4
  | .arithmeticImmediate operation => do
    update fun r => r.operate operation (Word.low operand)
    return 8
  | .jumpRelative condition => do
    if ← taken condition then
      update fun r => { r with pc := r.pc + Word.signed (Word.low operand) }
      return 12
    else
      return 8
  | .jump condition => do
    if ← taken condition then
      setPC operand
      return 16
    else
      return 12
  | .jumpPair => do
    update fun r => { r with pc := r.hl }
    return 4
  | .call condition => do
    if ← taken condition then
      callTo operand
      return 24
    else
      return 12
  | .ret => do
    setPC (← popWord)
    return 16
  | .returnIf condition => do
    if ← taken (some condition) then
      setPC (← popWord)
      return 20
    else
      return 8
  | .returnEnable => do
    setPC (← popWord)
    updateCpu fun cpu => { cpu with interruptsEnabled := true, enableDelay := 0 }
    return 16
  | .restart slot => do
    callTo (UInt16.ofNat (8 * slot))
    return 16
  | .push source => do
    pushWord (source.get (← registers))
    return 16
  | .pop target => do
    let word ← popWord
    update (target.set word)
    return 12
  | .undefined => do
    updateCpu fun cpu => { cpu with locked := true }
    return idleCycles
where
  transferCycles : Location → Nat
    | .bc | .de | .hlIncrement | .hlDecrement | .pageC => 8
    | .page => 12
    | .immediate => 16

def execute (instruction : Instruction) : Execution β Nat := do
  perform (← fetchOperand instruction.operandBytes) instruction

end Execution
end DotMatrix
