import Mathlib

/-!
# Bytes — little-endian values in memory, and the natural layout of fields

Memory is a function from addresses to bytes.

* `leValue_of_holds`: a value is read back from its bytes.
* `holds_writeBytes`, `writeBytes_outside`: a write puts the bytes in their place, and changes no other address.
-/

namespace OpenUsb

/-- The little-endian value of the `k` bytes at `p`. -/
def leValue (mem : ℤ → UInt8) (p : ℤ) : ℕ → ℕ
  | 0 => 0
  | k + 1 => (mem p).toNat + 256 * leValue mem (p + 1) k

/-- The `k` bytes of a value, the lowest first. -/
def leBytes : ℕ → ℕ → List UInt8
  | 0, _ => []
  | k + 1, v => UInt8.ofNat v :: leBytes k (v / 256)

/-- The bytes are in memory at `p`. -/
def HoldsBytes (mem : ℤ → UInt8) : ℤ → List UInt8 → Prop
  | _, [] => True
  | p, b :: bs => mem p = b ∧ HoldsBytes mem (p + 1) bs

/-- The bytes are written at `p`. -/
def writeBytes (mem : ℤ → UInt8) (p : ℤ) : List UInt8 → ℤ → UInt8
  | [] => mem
  | b :: bs => writeBytes (Function.update mem p b) (p + 1) bs

/-- The first multiple of `k` from `a` on. -/
def alignUp (a k : ℕ) : ℕ := a + (k - a % k) % k

theorem le_alignUp (a k : ℕ) : a ≤ alignUp a k := Nat.le_add_right _ _

section

variable {mem mem' : ℤ → UInt8} {p q : ℤ} {k v : ℕ} {bs cs : List UInt8}

@[simp] theorem length_leBytes (k v : ℕ) : (leBytes k v).length = k := by
  induction k generalizing v with
  | zero => rfl
  | succ k ih => rw [leBytes, List.length_cons, ih]

theorem holdsBytes_append : HoldsBytes mem p (bs ++ cs) ↔ HoldsBytes mem p bs ∧ HoldsBytes mem (p + bs.length) cs := by
  induction bs generalizing p with
  | nil => simp [HoldsBytes]
  | cons b bs ih =>
    have hnext : p + 1 + bs.length = p + (b :: bs).length := by
      rw [List.length_cons]
      omega
    rw [List.cons_append, HoldsBytes, HoldsBytes, ih, and_assoc, hnext]

/-- A value that was encoded is read back, up to its width. -/
theorem leValue_of_holds (h : HoldsBytes mem p (leBytes k v)) : leValue mem p k = v % 256 ^ k := by
  induction k generalizing p v with
  | zero => rw [leValue, pow_zero, Nat.mod_one]
  | succ k ih =>
    obtain ⟨hfirst, hrest⟩ := h
    have hbyte : (UInt8.ofNat v).toNat = v % 256 := UInt8.toNat_ofNat'
    rw [leValue, hfirst, ih hrest, hbyte, Nat.pow_succ, Nat.mul_comm (256 ^ k) 256, Nat.mod_mul]

theorem leValue_congr (h : ∀ q, p ≤ q → q < p + k → mem q = mem' q) : leValue mem p k = leValue mem' p k := by
  induction k generalizing p with
  | zero => rfl
  | succ k ih =>
    rw [leValue, leValue, h p le_rfl (by omega), ih fun q hlo hhi => h q (by omega) (by omega)]

theorem writeBytes_outside (h : q < p ∨ p + bs.length ≤ q) : writeBytes mem p bs q = mem q := by
  induction bs generalizing mem p with
  | nil => rfl
  | cons b bs ih =>
    rw [List.length_cons] at h
    have hne : q ≠ p := by omega
    rw [writeBytes, ih (by omega), Function.update_of_ne hne]

theorem holds_writeBytes (mem : ℤ → UInt8) (p : ℤ) (bs : List UInt8) : HoldsBytes (writeBytes mem p bs) p bs := by
  induction bs generalizing mem p with
  | nil => trivial
  | cons b bs ih =>
    refine ⟨?_, ih _ _⟩
    rw [writeBytes, writeBytes_outside (.inl (by omega)), Function.update_self]

/-- A value is read back from where it was written. -/
theorem leValue_writeBytes : leValue (writeBytes mem p (leBytes k v)) p k = v % 256 ^ k :=
  leValue_of_holds (holds_writeBytes mem p _)

/-- A write leaves the values before and behind it alone. -/
theorem leValue_writeBytes_outside (h : q + k ≤ p ∨ p + bs.length ≤ q) :
    leValue (writeBytes mem p bs) q k = leValue mem q k :=
  leValue_congr fun r hlo hhi => writeBytes_outside (by omega)

end

end OpenUsb
