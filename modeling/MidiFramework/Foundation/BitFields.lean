import Mathlib.Data.Nat.Bitwise

/-!
# Words made of bit fields

A field of a word is cut out by a shift and a mask, and a word is put together
from shifted fields by `|||`. Over the natural numbers both are arithmetic:
division and remainder by powers of two, and sums of fields that do not meet.
-/

namespace Foundation

/-- Fields that do not meet add up. -/
theorem or_eq_add {a b k : Nat} (ha : 2 ^ k ∣ a) (hb : b < 2 ^ k) : a ||| b = a + b := by
  obtain ⟨q, rfl⟩ := ha
  rw [Nat.mul_comm, ← Nat.shiftLeft_eq, Nat.shiftLeft_add_eq_or_of_lt hb]

/-- `(w >> shift) & mask`, cut to a byte. -/
def field (w shift mask : UInt32) : UInt8 := ((w >>> shift) &&& mask).toUInt8

/-- The byte of `w` that starts at bit `shift`. -/
def byteField (w shift : UInt32) : UInt8 := field w shift 0xFF

/-- The four bits of `w` that start at bit `shift`. -/
def nibbleField (w shift : UInt32) : UInt8 := field w shift 0x0F

variable {w shift : UInt32}

theorem toNat_shiftRight (hs : shift.toNat < 32) :
    (w >>> shift).toNat = w.toNat / 2 ^ shift.toNat := by
  rw [UInt32.toNat_shiftRight, Nat.mod_eq_of_lt hs, Nat.shiftRight_eq_div_pow]

theorem byteField_toNat (hs : shift.toNat < 32) :
    (byteField w shift).toNat = w.toNat / 2 ^ shift.toNat % 256 := by
  have hmask : ((w >>> shift) &&& 0xFF).toNat = w.toNat / 2 ^ shift.toNat % 256 := by
    rw [UInt32.toNat_and, toNat_shiftRight hs]
    exact Nat.and_two_pow_sub_one_eq_mod _ 8
  rw [byteField, field, UInt32.toNat_toUInt8, hmask, Nat.mod_mod]

theorem nibbleField_toNat (hs : shift.toNat < 32) :
    (nibbleField w shift).toNat = w.toNat / 2 ^ shift.toNat % 16 := by
  have hmask : ((w >>> shift) &&& 0x0F).toNat = w.toNat / 2 ^ shift.toNat % 16 := by
    rw [UInt32.toNat_and, toNat_shiftRight hs]
    exact Nat.and_two_pow_sub_one_eq_mod _ 4
  rw [nibbleField, field, UInt32.toNat_toUInt8, hmask]
  omega

/-- A field of `n` bits moved up by `k` bits, still within the word. -/
theorem toNat_field_shiftLeft {s : UInt32} {b : UInt8} {n k : Nat} (hk : s.toNat = k)
    (hb : b.toNat < 2 ^ n) (hn : 0 < n) (hs : n + k ≤ 32) :
    (b.toUInt32 <<< s).toNat = b.toNat * 2 ^ k := by
  have hlt : b.toNat * 2 ^ k < 2 ^ 32 := by
    calc b.toNat * 2 ^ k < 2 ^ n * 2 ^ k := Nat.mul_lt_mul_of_pos_right hb (Nat.two_pow_pos _)
      _ = 2 ^ (n + k) := (Nat.pow_add 2 n k).symm
      _ ≤ 2 ^ 32 := Nat.pow_le_pow_right (by omega) hs
  rw [UInt32.toNat_shiftLeft, UInt8.toNat_toUInt32, hk, Nat.mod_eq_of_lt (by omega : k < 32),
    Nat.shiftLeft_eq, Nat.mod_eq_of_lt hlt]

/-- A field of `n` bits put below the fields that `w` already has. -/
theorem toNat_or_field {s : UInt32} {b : UInt8} {n k m : Nat} (hw : w.toNat = m) (hk : s.toNat = k)
    (hb : b.toNat < 2 ^ n) (hn : 0 < n) (hs : n + k ≤ 32) (hm : 2 ^ (n + k) ∣ m) :
    (w ||| b.toUInt32 <<< s).toNat = m + b.toNat * 2 ^ k := by
  rw [UInt32.toNat_or, toNat_field_shiftLeft hk hb hn hs, hw]
  apply or_eq_add hm
  rw [Nat.pow_add]
  exact Nat.mul_lt_mul_of_pos_right hb (Nat.two_pow_pos _)

end Foundation
