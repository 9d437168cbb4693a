import DotMatrix.Cpu.Arithmetic

/-! What an opcode byte means. `Instruction.decode` reads the opcode as three octal
digits; the eleven bytes without a meaning decode to `undefined`. The operand bytes that
follow the opcode are not part of an instruction's description, but their number is. -/
namespace DotMatrix

inductive Register where
  | b | c | d | e | h | l | a
  deriving DecidableEq

/-- A byte register, or the memory byte that HL points at. -/
inductive Operand where
  | register (r : Register)
  | memory
  deriving DecidableEq

inductive Pair where
  | bc | de | hl | sp
  deriving DecidableEq

/-- The pairs that can be pushed: AF in the place of SP. -/
inductive StackPair where
  | bc | de | hl | af
  deriving DecidableEq

inductive Condition where
  | notZero | zero | notCarry | carry
  deriving DecidableEq

/-- Where a transfer between memory and the accumulator finds its address. -/
inductive Location where
  | bc | de | hlIncrement | hlDecrement
  | page | pageC
  | immediate
  deriving DecidableEq

inductive Instruction where
  | nop
  | stop
  | halt
  | disableInterrupts
  | enableInterrupts
  /-- The next byte selects a `BitInstruction`. -/
  | extended
  | load (target source : Operand)
  | loadImmediate (target : Operand)
  | loadPair (target : Pair)
  | loadAccumulator (source : Location)
  | storeAccumulator (target : Location)
  | storeStackPointer
  | loadStackPointer
  | loadOffset
  | increment (target : Operand)
  | decrement (target : Operand)
  | incrementPair (target : Pair)
  | decrementPair (target : Pair)
  | addPair (source : Pair)
  | addOffset
  | rotateAccumulator (shift : Arithmetic.Shift)
  | decimalAdjust
  | complement
  | setCarry
  | complementCarry
  | arithmetic (operation : Arithmetic.Operation) (source : Operand)
  | arithmeticImmediate (operation : Arithmetic.Operation)
  | jumpRelative (condition : Option Condition)
  | jump (condition : Option Condition)
  | jumpPair
  | call (condition : Option Condition)
  | ret
  | returnIf (condition : Condition)
  | returnEnable
  | restart (slot : Fin 8)
  | push (source : StackPair)
  | pop (target : StackPair)
  | undefined
  deriving DecidableEq

/-- The instructions on single bits and the shifts, selected by the byte after the
`extended` opcode. -/
inductive BitInstruction where
  | shift (shift : Arithmetic.Shift) (target : Operand)
  | test (bit : Fin 8) (source : Operand)
  | reset (bit : Fin 8) (target : Operand)
  | set (bit : Fin 8) (target : Operand)
  deriving DecidableEq

namespace Instruction

/-- The number of bytes that follow the opcode of a transfer. -/
def locationBytes : Location → Nat
  | .page => 1
  | .immediate => 2
  | _ => 0

/-- The number of bytes that follow the opcode. -/
def operandBytes : Instruction → Nat
  | .stop | .extended | .loadImmediate _ | .loadOffset | .addOffset | .arithmeticImmediate _
  | .jumpRelative _ => 1
  | .loadPair _ | .storeStackPointer | .jump _ | .call _ => 2
  | .loadAccumulator location | .storeAccumulator location => locationBytes location
  | _ => 0

end Instruction

def Operand.ofDigit : Fin 8 → Operand
  | 0 => .register .b
  | 1 => .register .c
  | 2 => .register .d
  | 3 => .register .e
  | 4 => .register .h
  | 5 => .register .l
  | 6 => .memory
  | 7 => .register .a

/-- Pairs, conditions and pointers use two of the three bits of a digit. -/
def Pair.ofDigit (digit : Fin 8) : Pair :=
  match digit.val / 2 with
  | 0 => .bc
  | 1 => .de
  | 2 => .hl
  | _ => .sp

def StackPair.ofDigit (digit : Fin 8) : StackPair :=
  match digit.val / 2 with
  | 0 => .bc
  | 1 => .de
  | 2 => .hl
  | _ => .af

def Location.ofDigit (digit : Fin 8) : Location :=
  match digit.val / 2 with
  | 0 => .bc
  | 1 => .de
  | 2 => .hlIncrement
  | _ => .hlDecrement

def Condition.ofDigit (digit : Fin 8) : Condition :=
  match digit.val % 4 with
  | 0 => .notZero
  | 1 => .zero
  | 2 => .notCarry
  | _ => .carry

def Arithmetic.Operation.ofDigit : Fin 8 → Arithmetic.Operation
  | 0 => .add
  | 1 => .adc
  | 2 => .sub
  | 3 => .sbc
  | 4 => .and
  | 5 => .xor
  | 6 => .or
  | 7 => .cp

def Arithmetic.Shift.ofDigit : Fin 8 → Arithmetic.Shift
  | 0 => .rlc
  | 1 => .rrc
  | 2 => .rl
  | 3 => .rr
  | 4 => .sla
  | 5 => .sra
  | 6 => .swap
  | 7 => .srl

namespace Instruction

/-- Opcodes 00 to 3F, by their middle and last digits. -/
def decodeLow (y : Fin 8) : Fin 8 → Instruction
  | 0 => match y with
    | 0 => .nop
    | 1 => .storeStackPointer
    | 2 => .stop
    | 3 => .jumpRelative none
    | y => .jumpRelative (some (.ofDigit y))
  | 1 => if y.val % 2 = 0 then .loadPair (.ofDigit y) else .addPair (.ofDigit y)
  | 2 =>
    if y.val % 2 = 0 then .storeAccumulator (.ofDigit y) else .loadAccumulator (.ofDigit y)
  | 3 => if y.val % 2 = 0 then .incrementPair (.ofDigit y) else .decrementPair (.ofDigit y)
  | 4 => .increment (.ofDigit y)
  | 5 => .decrement (.ofDigit y)
  | 6 => .loadImmediate (.ofDigit y)
  | 7 => match y with
    | 4 => .decimalAdjust
    | 5 => .complement
    | 6 => .setCarry
    | 7 => .complementCarry
    | y => .rotateAccumulator (.ofDigit y)

/-- Opcodes C0 to FF, by their middle and last digits. -/
def decodeHigh (y : Fin 8) : Fin 8 → Instruction
  | 0 => match y with
    | 4 => .storeAccumulator .page
    | 5 => .addOffset
    | 6 => .loadAccumulator .page
    | 7 => .loadOffset
    | y => .returnIf (.ofDigit y)
  | 1 => match y with
    | 1 => .ret
    | 3 => .returnEnable
    | 5 => .jumpPair
    | 7 => .loadStackPointer
    | y => .pop (.ofDigit y)
  | 2 => match y with
    | 4 => .storeAccumulator .pageC
    | 5 => .storeAccumulator .immediate
    | 6 => .loadAccumulator .pageC
    | 7 => .loadAccumulator .immediate
    | y => .jump (some (.ofDigit y))
  | 3 => match y with
    | 0 => .jump none
    | 1 => .extended
    | 6 => .disableInterrupts
    | 7 => .enableInterrupts
    | _ => .undefined
  | 4 => if y < 4 then .call (some (.ofDigit y)) else .undefined
  | 5 => match y with
    | 1 => .call none
    | 3 | 5 | 7 => .undefined
    | y => .push (.ofDigit y)
  | 6 => .arithmeticImmediate (.ofDigit y)
  | 7 => .restart y

/-- The digits of a byte: two bits, three bits, three bits. -/
def digits (byte : UInt8) : Nat × Fin 8 × Fin 8 :=
  (byte.toNat / 64, Fin.ofNat 8 (byte.toNat / 8), Fin.ofNat 8 byte.toNat)

def decode (opcode : UInt8) : Instruction :=
  match digits opcode with
  | (0, y, z) => decodeLow y z
  | (1, 6, 6) => .halt
  | (1, y, z) => .load (.ofDigit y) (.ofDigit z)
  | (2, y, z) => .arithmetic (.ofDigit y) (.ofDigit z)
  | (_, y, z) => decodeHigh y z

end Instruction

def BitInstruction.decode (byte : UInt8) : BitInstruction :=
  match Instruction.digits byte with
  | (0, y, z) => .shift (.ofDigit y) (.ofDigit z)
  | (1, y, z) => .test y (.ofDigit z)
  | (2, y, z) => .reset y (.ofDigit z)
  | (_, y, z) => .set y (.ofDigit z)

end DotMatrix
