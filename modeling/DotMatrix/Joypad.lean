import DotMatrix.Interrupt

/-! The eight buttons and the register that programs read them through. -/
namespace DotMatrix

inductive Button where
  | right | left | up | down | a | b | select | start
  deriving DecidableEq

/-- A set of held buttons: the actions in the low half, the directions in the high half. -/
structure ButtonSet where
  bits : UInt8
  deriving DecidableEq

namespace Button

/-- Hosts number the buttons from 0 to 7 in the order of the type. -/
def ofCode? : Nat → Option Button
  | 0 => some .right
  | 1 => some .left
  | 2 => some .up
  | 3 => some .down
  | 4 => some .a
  | 5 => some .b
  | 6 => some .select
  | 7 => some .start
  | _ => none

def bit : Button → UInt8
  | .a => 0x01
  | .b => 0x02
  | .select => 0x04
  | .start => 0x08
  | .right => 0x10
  | .left => 0x20
  | .up => 0x40
  | .down => 0x80

end Button

def ButtonSet.set (s : ButtonSet) (button : Button) (held : Bool) : ButtonSet :=
  ⟨if held then s.bits ||| button.bit else s.bits &&& ~~~button.bit⟩

structure Joypad where
  /-- Bit 4 clear selects the directions and bit 5 clear the actions. -/
  select : UInt8
  held : ButtonSet
  deriving DecidableEq

namespace Joypad

def powerOn : Joypad := ⟨0x30, ⟨0⟩⟩

/-- The four input lines; a line of a selected, held button is low. -/
def lines (j : Joypad) : UInt8 :=
  let directions := if j.select &&& 0x10 == 0 then ~~~(j.held.bits >>> 4) else 0xFF
  let actions := if j.select &&& 0x20 == 0 then ~~~j.held.bits else 0xFF
  directions &&& actions &&& 0x0F

def read (j : Joypad) : UInt8 := 0xC0 ||| j.select ||| j.lines

/-- The interrupt is requested when a line falls. -/
def changed (before after : Joypad) : Joypad × InterruptSet :=
  (after, .when (before.lines &&& ~~~after.lines != 0) .joypad)

def write (value : UInt8) (j : Joypad) : Joypad × InterruptSet :=
  j.changed { j with select := value &&& 0x30 }

def hold (held : ButtonSet) (j : Joypad) : Joypad × InterruptSet := j.changed { j with held }

end Joypad
end DotMatrix
