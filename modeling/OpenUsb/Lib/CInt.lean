import Mathlib

/-!
# CInt — C integer conversions

Unsigned counters are kept as naturals below `2 ^ w`, signed values as integers.
-/

namespace OpenUsb.CInt

/-- `a - b` of two unsigned `w`-bit values. -/
def sub (w a b : ℕ) : ℕ := (a + (2 ^ w - b % 2 ^ w)) % 2 ^ w

/-- An `int` converted to `unsigned int`. -/
def toU32 (z : ℤ) : ℕ := (z % 2 ^ 32).toNat

/-- An `int` converted to `size_t`. -/
def toU64 (z : ℤ) : ℕ := (z % 2 ^ 64).toNat

/-- An unsigned value converted to `int`. -/
def toI32 (n : ℕ) : ℤ := if n % 2 ^ 32 < 2 ^ 31 then (n % 2 ^ 32 : ℕ) else (n % 2 ^ 32 : ℕ) - 2 ^ 32

/-- The value of a plain `char`, signed as on x86. -/
def schar (b : UInt8) : ℤ := if b.toNat < 128 then b.toNat else b.toNat - 256

theorem sub_of_le {w a b : ℕ} (ha : a < 2 ^ w) (h : b ≤ a) : sub w a b = a - b := by
  unfold sub
  have hb : b < 2 ^ w := Nat.lt_of_le_of_lt h ha
  rw [Nat.mod_eq_of_lt hb, show a + (2 ^ w - b) = (a - b) + 2 ^ w by omega, Nat.add_mod_right,
    Nat.mod_eq_of_lt (by omega)]

theorem sub_of_lt {w a b : ℕ} (hb : b < 2 ^ w) (h : a < b) : sub w a b = a + (2 ^ w - b) := by
  unfold sub
  rw [Nat.mod_eq_of_lt hb, Nat.mod_eq_of_lt (by omega)]

theorem toU32_of_nonneg {z : ℤ} (h : 0 ≤ z) (h' : z < 2 ^ 32) : (toU32 z : ℤ) = z := by
  unfold toU32; omega

theorem toU32_of_neg {z : ℤ} (h : z < 0) (h' : -2 ^ 31 ≤ z) : 2 ^ 31 ≤ toU32 z := by
  unfold toU32; omega

theorem toU64_natCast {n : ℕ} (h : n < 2 ^ 64) : toU64 n = n := by
  unfold toU64; omega

theorem toU64_of_neg {z : ℤ} (h : z < 0) (h' : -2 ^ 31 ≤ z) : 2 ^ 63 ≤ toU64 z := by
  unfold toU64; omega

theorem toI32_of_lt {n : ℕ} (h : n < 2 ^ 31) : toI32 n = n := by
  unfold toI32
  rw [Nat.mod_eq_of_lt (by omega), if_pos h]

theorem schar_lt (b : UInt8) : schar b < 128 := by
  unfold schar; have := b.toNat_lt; split_ifs <;> omega

theorem neg_le_schar (b : UInt8) : -128 ≤ schar b := by
  unfold schar; split_ifs <;> omega

theorem schar_of_lt {b : UInt8} (h : b.toNat < 128) : schar b = b.toNat := if_pos h

end OpenUsb.CInt
