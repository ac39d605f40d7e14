import OpenUsb.BulkOnce
import OpenUsb.Lib.CInt

/-!
# BulkSplit — the URBs of a bulk or interrupt request

`linux_submit_bulk_intr` computes the number of URBs by a division and a flag for the rest, and the address of each buffer
by a product of two `int`s.

* `splits_iff`: the lengths for which the URBs partition the buffer.
-/

namespace OpenUsb

/-- `max_xfer_size` for bulk and interrupt transfers, as `linux_find_buses` sets it. -/
def maxXferSize : ℕ := 2 ^ 32 - 1

/-- A URB as it is submitted: the offset of its buffer in the payload, and its `buffer_length`. -/
structure BulkUrb where
  offset : ℤ
  buffer_length : ℕ
  deriving DecidableEq, Repr

namespace BulkRequest

variable (B : BulkRequest)

/-- URB `i`; the product `i * LINUX_MAX_BULK_INTR_XFER` is an `int`. -/
def urb (i : ℕ) : BulkUrb := ⟨CInt.toI32 (i * LINUX_MAX_BULK_INTR_XFER), B.buffer_length i⟩

/-- The submission loop from URB `i` on, with `k` to go, on a kernel that accepts them. -/
def submitUrbs : ℕ → ℕ → List BulkUrb
  | 0, _ => []
  | k + 1, i => B.urb i :: submitUrbs k (i + 1)

/-- The URBs in the order of their submission. -/
def urbs : List BulkUrb := B.submitUrbs B.num_urbs 0

/-- No request is refused for its length. -/
theorem admitted : ¬ B.length > maxXferSize := by
  have hlength := B.length_lt
  unfold maxXferSize
  omega

end BulkRequest

/-- The buffers are consecutive ranges from `lo` to `hi`, none of them empty. -/
def Tiles (lo : ℤ) : List BulkUrb → ℤ → Prop
  | [], hi => lo = hi
  | u :: us, hi => u.offset = lo ∧ 0 < u.buffer_length ∧ Tiles (lo + u.buffer_length) us hi

/-- At least one URB is submitted, the URBs partition the payload, each is at most 16 KiB, and no offset overflows an
`int`. -/
structure BulkRequest.Splits (B : BulkRequest) : Prop where
  some : B.urbs ≠ []
  tiles : Tiles 0 B.urbs B.length
  small : ∀ u ∈ B.urbs, u.buffer_length ≤ LINUX_MAX_BULK_INTR_XFER
  offsets : ∀ i < B.num_urbs, i * LINUX_MAX_BULK_INTR_XFER < 2 ^ 31

section

variable {B : BulkRequest} {s : BulkState} {ls : List BulkLabel}

theorem mem_submitUrbs {u : BulkUrb} {k i : ℕ} (h : u ∈ B.submitUrbs k i) : ∃ j, u = B.urb j := by
  induction k generalizing i with
  | zero => exact absurd h (List.not_mem_nil)
  | succ k ih =>
    rcases List.mem_cons.mp h with rfl | h
    · exact ⟨i, rfl⟩
    · exact ih h

@[simp] theorem length_submitUrbs (k i : ℕ) : (B.submitUrbs k i).length = k := by
  induction k generalizing i with
  | zero => rfl
  | succ k ih => rw [BulkRequest.submitUrbs, List.length_cons, ih]

theorem buffer_length_le (B : BulkRequest) (i : ℕ) : B.buffer_length i ≤ LINUX_MAX_BULK_INTR_XFER := by
  unfold BulkRequest.buffer_length
  split_ifs
  · exact (Nat.mod_lt _ (by decide)).le
  · exact le_rfl

theorem buffer_length_pos (B : BulkRequest) (i : ℕ) : 0 < B.buffer_length i := by
  unfold BulkRequest.buffer_length
  split_ifs with h
  · exact h.2
  · decide

theorem num_urbs_pos : 0 < B.num_urbs ↔ 0 < B.length := by
  unfold BulkRequest.num_urbs LINUX_MAX_BULK_INTR_XFER
  split_ifs <;> omega

/-- Every URB begins inside of the payload. -/
theorem offset_lt {i : ℕ} (hi : i < B.num_urbs) : i * LINUX_MAX_BULK_INTR_XFER < B.length := by
  unfold BulkRequest.num_urbs LINUX_MAX_BULK_INTR_XFER at hi
  unfold LINUX_MAX_BULK_INTR_XFER
  split_ifs at hi <;> omega

/-- The last URB ends at the end of the payload or behind it. -/
theorem length_le (B : BulkRequest) : B.length ≤ B.num_urbs * LINUX_MAX_BULK_INTR_XFER := by
  unfold BulkRequest.num_urbs LINUX_MAX_BULK_INTR_XFER
  split_ifs <;> omega

/-- The range of a URB ends where the next one begins, and that of the last one at the end of the payload. -/
theorem urb_end {i : ℕ} (hi : i < B.num_urbs) :
    i * LINUX_MAX_BULK_INTR_XFER + B.buffer_length i =
      if i + 1 = B.num_urbs then B.length else (i + 1) * LINUX_MAX_BULK_INTR_XFER := by
  unfold BulkRequest.num_urbs at hi
  unfold BulkRequest.buffer_length BulkRequest.num_urbs
  unfold LINUX_MAX_BULK_INTR_XFER at hi ⊢
  split_ifs at hi ⊢ <;> omega

/-- From any URB on, the ranges reach the end of the payload. -/
theorem tiles_submitUrbs (hlength : B.length ≤ 2 ^ 31) : ∀ k i, 0 < k → i + k = B.num_urbs →
    Tiles ((i * LINUX_MAX_BULK_INTR_XFER : ℕ) : ℤ) (B.submitUrbs k i) B.length
  | 0, _, hk, _ => absurd hk (lt_irrefl 0)
  | k + 1, i, _, hend => by
    have hlast := urb_end (B := B) (i := i) (by omega)
    have hlt := offset_lt (B := B) (i := i) (by omega)
    have hoffset : CInt.toI32 (i * LINUX_MAX_BULK_INTR_XFER) = (i * LINUX_MAX_BULK_INTR_XFER : ℕ) :=
      CInt.toI32_of_lt (by omega)
    refine ⟨hoffset, buffer_length_pos B i, ?_⟩
    have hnext : ((i * LINUX_MAX_BULK_INTR_XFER : ℕ) : ℤ) + (B.buffer_length i : ℕ) =
        (i * LINUX_MAX_BULK_INTR_XFER + B.buffer_length i : ℕ) := by
      rw [Nat.cast_add]
    show Tiles (((i * LINUX_MAX_BULK_INTR_XFER : ℕ) : ℤ) + (B.buffer_length i : ℕ)) _ _
    rw [hnext, hlast]
    cases k with
    | zero =>
      rw [if_pos (by omega)]
      rfl
    | succ k =>
      rw [if_neg (by omega)]
      exact tiles_submitUrbs hlength (k + 1) (i + 1) (Nat.succ_pos k) (by omega)

/-- The URBs of a request partition its payload, with at least one of them and without an overflow, if and only if its
length is positive and at most `2 ^ 31`. -/
theorem splits_iff (B : BulkRequest) : B.Splits ↔ 0 < B.length ∧ B.length ≤ 2 ^ 31 := by
  constructor
  · rintro ⟨hsome, -, -, hoffsets⟩
    have hpos : 0 < B.num_urbs := by
      by_contra hzero
      refine hsome ?_
      unfold BulkRequest.urbs
      rw [Nat.eq_zero_of_not_pos hzero]
      rfl
    refine ⟨num_urbs_pos.mp hpos, ?_⟩
    have hlast := hoffsets (B.num_urbs - 1) (by omega)
    have hlength := length_le B
    unfold LINUX_MAX_BULK_INTR_XFER at hlast hlength
    omega
  · rintro ⟨hpos, hlength⟩
    have hn := num_urbs_pos.mpr hpos
    refine ⟨?_, ?_, ?_, ?_⟩
    · intro hnil
      have hlen := congrArg List.length hnil
      rw [BulkRequest.urbs, length_submitUrbs, List.length_nil] at hlen
      omega
    · have htiles := tiles_submitUrbs hlength B.num_urbs 0 hn (Nat.zero_add _)
      rwa [Nat.zero_mul] at htiles
    · intro u hu
      obtain ⟨j, rfl⟩ := mem_submitUrbs hu
      exact buffer_length_le B j
    · intro i hi
      exact (offset_lt hi).trans_le hlength

/-- A request of length 0 submits nothing, and one of `2 ^ 31 + 1` bytes overflows the offset of its last URB. -/
theorem splits_fails : ¬ BulkRequest.Splits ⟨0, by decide, false⟩ ∧ ¬ BulkRequest.Splits ⟨2 ^ 31 + 1, by decide, false⟩ := by
  constructor
  · intro h
    exact h.some rfl
  · intro h
    exact absurd (h.offsets 131072 (by decide)) (by decide)

/-- In a run of acceptances the loop returns when all these URBs are submitted. -/
theorem submitted_all (hrun : Run (BulkStep B) (fun _ l => l = .accept) .start ls s)
    (hret : s.returned = some OPENUSB_SUCCESS) : s.submitted = B.urbs.length := by
  have hinv : s.returned = some OPENUSB_SUCCESS → s.submitted = B.num_urbs := by
    refine hrun.inv (I := fun s => s.returned = some OPENUSB_SUCCESS → s.submitted = B.num_urbs) ?_ nofun
    rintro s _ t hs rfl hstep
    cases hstep with
    | accept hloop hlt =>
      intro hret
      have hret : (if s.submitted + 1 = B.num_urbs then some OPENUSB_SUCCESS else none) = some OPENUSB_SUCCESS := hret
      by_contra hne
      have hne : ¬ s.submitted + 1 = B.num_urbs := hne
      rw [if_neg hne] at hret
      exact absurd hret nofun
  rw [BulkRequest.urbs, length_submitUrbs, hinv hret]

end

end OpenUsb
