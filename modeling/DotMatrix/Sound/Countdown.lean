/-! The period timer of a sound channel: it counts down, clocks the channel when it reaches
zero, and is loaded with the period again when the next cycle begins. -/
namespace DotMatrix.Countdown

def loaded (period timer : Nat) : Nat := if timer = 0 then period else timer

/-- The timer after `n` cycles, and `clocks` plus the number of times it reached zero. -/
def advance (period timer n clocks : Nat) : Nat × Nat :=
  let start := loaded period timer
  if n = 0 then (timer, clocks)
  else if n < start then (start - n, clocks)
  else if start = 0 then (0, clocks)
  else advance period 0 (n - start) (clocks + 1)
termination_by n

end DotMatrix.Countdown
