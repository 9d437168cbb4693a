/-! Words of two bytes. Addresses and register pairs are words; the parts of a word
are its bytes, and `join` puts them together again. -/
namespace DotMatrix.Word

def join (high low : UInt8) : UInt16 := high.toUInt16 * 256 + low.toUInt16

def high (word : UInt16) : UInt8 := (word / 256).toUInt8

def low (word : UInt16) : UInt8 := word.toUInt8

/-- A byte read as a two's-complement number, at the width of a word. -/
def signed (byte : UInt8) : UInt16 := byte.toInt8.toInt16.toUInt16

theorem toNat_join (h l : UInt8) : (join h l).toNat = 256 * h.toNat + l.toNat := by
  have hh := h.toNat_lt
  have hl := l.toNat_lt
  simp only [join, UInt16.toNat_add, UInt16.toNat_mul, UInt8.toNat_toUInt16, UInt16.reduceToNat]
  omega

theorem toNat_high (w : UInt16) : (high w).toNat = w.toNat / 256 := by
  have hw := w.toNat_lt
  simp only [high, UInt16.toNat_toUInt8, UInt16.toNat_div, UInt16.reduceToNat]
  omega

theorem toNat_low (w : UInt16) : (low w).toNat = w.toNat % 256 := by
  simp [low, UInt16.toNat_toUInt8]

@[simp] theorem high_join (h l : UInt8) : high (join h l) = h := by
  have hl := l.toNat_lt
  apply UInt8.toNat_inj.1
  rw [toNat_high, toNat_join]
  omega

@[simp] theorem low_join (h l : UInt8) : low (join h l) = l := by
  have hl := l.toNat_lt
  apply UInt8.toNat_inj.1
  rw [toNat_low, toNat_join]
  omega

theorem forall_byte_lt {p : UInt8 → Prop} {bound : Nat} (every : ∀ n < bound, p (UInt8.ofNat n))
    (byte : UInt8) (small : byte.toNat < bound) : p byte := by
  have this := every byte.toNat small
  rwa [UInt8.ofNat_toNat] at this

theorem forall_byte {p : UInt8 → Prop} (every : ∀ n < 256, p (UInt8.ofNat n)) (byte : UInt8) :
    p byte :=
  forall_byte_lt every byte byte.toNat_lt

@[simp] theorem join_high_low (w : UInt16) : join (high w) (low w) = w := by
  apply UInt16.toNat_inj.1
  rw [toNat_join, toNat_high, toNat_low]
  omega

end DotMatrix.Word
