import DotMatrix.Cpu.Registers

/-! What the flags read as once they have been set, one of them or all four. -/
namespace DotMatrix

def Flags.get (flags : Flags) : Flag → Bool
  | .zero => flags.zero
  | .subtract => flags.subtract
  | .halfCarry => flags.halfCarry
  | .carry => flags.carry

namespace Flag
variable (flag other : Flag)

theorem mask_and_mask : flag.mask &&& other.mask = if other = flag then other.mask else 0 := by
  cases flag <;> cases other <;> rfl

theorem not_mask_and_mask :
    ~~~flag.mask &&& other.mask = if other = flag then 0 else other.mask := by
  cases flag <;> cases other <;> rfl

theorem mask_ne_zero : flag.mask ≠ 0 := by
  cases flag <;> decide

end Flag

namespace Registers
variable (r : Registers)

@[simp] theorem flag_setFlags (flags : Flags) (flag : Flag) :
    (r.setFlags flags).flag flag = flags.get flag := by
  change (flags.toByte &&& flag.mask != 0) = flags.get flag
  obtain ⟨zero, subtract, halfCarry, carry⟩ := flags
  cases flag <;> cases zero <;> cases subtract <;> cases halfCarry <;> cases carry <;> rfl

@[simp] theorem flag_setFlag (flag other : Flag) (value : Bool) :
    (r.setFlag flag value).flag other = if other = flag then value else r.flag other := by
  cases value with
  | true =>
    change ((r.f ||| flag.mask) &&& other.mask != 0) = _
    have spread : (r.f ||| flag.mask) &&& other.mask =
        r.f &&& other.mask ||| flag.mask &&& other.mask :=
      UInt8.toBitVec_inj.mp BitVec.and_or_distrib_right
    rw [spread, flag.mask_and_mask]
    by_cases same : other = flag
    · simp [same, flag.mask_ne_zero]
    · simp [same, Registers.flag]
  | false =>
    change ((r.f &&& ~~~flag.mask) &&& other.mask != 0) = _
    rw [UInt8.and_assoc, flag.not_mask_and_mask]
    by_cases same : other = flag
    · simp [same]
    · simp [same, Registers.flag]

end Registers
end DotMatrix
