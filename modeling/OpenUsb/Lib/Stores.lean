import OpenUsb.Lib.Bytes

/-!
# Stores — buffers that are filled by stores, and strings that lie one behind another

A buffer is filled by a sequence of stores of byte strings.  A string table is cut by the lengths of its strings.

* `holds_storeAll`: of stores that are apart, each is found in memory at the end.
* `cutRow_of_holds`: strings that lie one behind another are cut out again by their lengths.
-/

namespace OpenUsb

/-- A store of bytes at an address. -/
structure MemStore where
  addr : ℤ
  bytes : List UInt8
  deriving DecidableEq, Repr

namespace MemStore

/-- The address behind the bytes. -/
def stop (s : MemStore) : ℤ := s.addr + s.bytes.length

/-- A store stays in a buffer of `size` bytes at address 0. -/
def Inside (size : ℤ) (s : MemStore) : Prop := 0 ≤ s.addr ∧ s.stop ≤ size

/-- Two stores have no address in common. -/
def Apart (s t : MemStore) : Prop := s.stop ≤ t.addr ∨ t.stop ≤ s.addr

instance (size : ℤ) (s : MemStore) : Decidable (s.Inside size) := inferInstanceAs (Decidable (_ ∧ _))

end MemStore

/-- The stores are made one after another. -/
def storeAll (mem : ℤ → UInt8) (stores : List MemStore) : ℤ → UInt8 :=
  stores.foldl (fun mem s => writeBytes mem s.addr s.bytes) mem

/-- The `n` bytes at `p`. -/
def readBytes (mem : ℤ → UInt8) (p : ℤ) : ℕ → List UInt8
  | 0 => []
  | n + 1 => mem p :: readBytes mem (p + 1) n

/-- The strings of these lengths that lie one behind another at `p`. -/
def cutRow (mem : ℤ → UInt8) (p : ℤ) : List ℕ → List (List UInt8)
  | [] => []
  | n :: ns => readBytes mem p n :: cutRow mem (p + n) ns

/-- The strings lie one behind another at `p`. -/
def HoldsRow (mem : ℤ → UInt8) (p : ℤ) : List (List UInt8) → Prop
  | [] => True
  | bs :: rest => HoldsBytes mem p bs ∧ HoldsRow mem (p + bs.length) rest

section

variable {mem mem' : ℤ → UInt8} {p q : ℤ} {n : ℕ} {bs : List UInt8} {s t : MemStore} {stores : List MemStore}
  {row : List (List UInt8)}

theorem MemStore.Apart.symm (h : s.Apart t) : t.Apart s := Or.symm h

@[simp] theorem length_readBytes : (readBytes mem p n).length = n := by
  induction n generalizing p with
  | zero => rfl
  | succ n ih => rw [readBytes, List.length_cons, ih]

theorem readBytes_of_holds (h : HoldsBytes mem p bs) : readBytes mem p bs.length = bs := by
  induction bs generalizing p with
  | nil => rfl
  | cons b bs ih => rw [List.length_cons, readBytes, h.1, ih h.2]

theorem holdsBytes_congr (hmem : ∀ q, p ≤ q → q < p + bs.length → mem' q = mem q) (h : HoldsBytes mem p bs) :
    HoldsBytes mem' p bs := by
  induction bs generalizing p with
  | nil => trivial
  | cons b bs ih =>
    rw [List.length_cons] at hmem
    exact ⟨(hmem p le_rfl (by omega)).trans h.1, ih (fun q hlo hhi => hmem q (by omega) (by omega)) h.2⟩

theorem storeAll_outside (h : ∀ s ∈ stores, q < s.addr ∨ s.stop ≤ q) : storeAll mem stores q = mem q := by
  induction stores generalizing mem with
  | nil => rfl
  | cons s stores ih =>
    obtain ⟨hs, hrest⟩ := List.forall_mem_cons.mp h
    show storeAll (writeBytes mem s.addr s.bytes) stores q = mem q
    rw [ih hrest]
    exact writeBytes_outside hs

/-- A store is found in memory if the others are apart from it. -/
theorem holds_storeAll (hapart : stores.Pairwise MemStore.Apart) (hs : s ∈ stores) :
    HoldsBytes (storeAll mem stores) s.addr s.bytes := by
  induction stores generalizing mem with
  | nil => exact absurd hs List.not_mem_nil
  | cons t stores ih =>
    obtain ⟨hfirst, hrest⟩ := List.pairwise_cons.mp hapart
    rcases List.mem_cons.mp hs with rfl | hs
    · refine holdsBytes_congr (fun q hlo hhi => ?_) (holds_writeBytes mem s.addr s.bytes)
      show storeAll (writeBytes mem s.addr s.bytes) stores q = _
      refine storeAll_outside fun t ht => ?_
      have := hfirst t ht
      unfold MemStore.Apart MemStore.stop at this
      unfold MemStore.stop
      omega
    · exact ih hrest hs

/-- Strings that lie one behind another are cut out again by their lengths. -/
theorem cutRow_of_holds (h : HoldsRow mem p row) : cutRow mem p (row.map List.length) = row := by
  induction row generalizing p with
  | nil => rfl
  | cons bs row ih => rw [List.map_cons, cutRow, readBytes_of_holds h.1, ih h.2]

theorem holdsRow_iff : HoldsRow mem p row ↔ HoldsBytes mem p row.flatten := by
  induction row generalizing p with
  | nil => exact Iff.rfl
  | cons bs row ih => rw [HoldsRow, ih, List.flatten_cons, holdsBytes_append]

/-- What is cut out has the lengths. -/
theorem length_cutRow {ns : List ℕ} : (cutRow mem p ns).map List.length = ns := by
  induction ns generalizing p with
  | nil => rfl
  | cons n ns ih => rw [cutRow, List.map_cons, length_readBytes, ih]

end

end OpenUsb
