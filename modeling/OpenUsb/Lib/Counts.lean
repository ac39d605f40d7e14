import Mathlib.Logic.Function.Basic
import Mathlib.Algebra.BigOperators.Group.Finset.Basic
import Mathlib.Algebra.GroupWithZero.Nat

/-!
# Counts — weights of entries added up over a list of indices

`total w f l` adds the weights `w (f j)` for the indices `j` of `l`.  Counters that a program keeps for a table are such
totals; the lemmas say how a total moves when one entry does.
-/

namespace OpenUsb

section

variable {ι α : Type} {w : α → ℕ} {f g : ι → α} {l : List ι} {i : ι}

def total (w : α → ℕ) (f : ι → α) (l : List ι) : ℕ := (l.map fun j => w (f j)).sum

@[simp] theorem total_nil : total w f [] = 0 := rfl

@[simp] theorem total_cons (j : ι) (l : List ι) : total w f (j :: l) = w (f j) + total w f l := by
  simp [total]

theorem total_append (l m : List ι) : total w f (l ++ m) = total w f l + total w f m := by
  simp [total]

theorem total_congr (h : ∀ j ∈ l, w (f j) = w (g j)) : total w f l = total w g l := by
  unfold total
  rw [List.map_congr_left h]

theorem total_eq_zero : total w f l = 0 ↔ ∀ j ∈ l, w (f j) = 0 := by
  induction l with
  | nil => simp
  | cons j l ih => rw [total_cons, Nat.add_eq_zero_iff, ih, List.forall_mem_cons]

theorem total_le (h : ∀ a, w a ≤ 1) : total w f l ≤ l.length := by
  induction l with
  | nil => exact Nat.le_refl 0
  | cons j l ih =>
    have hj := h (f j)
    rw [total_cons, List.length_cons]
    omega

theorem total_eq_length (h : ∀ j ∈ l, w (f j) = 1) : total w f l = l.length := by
  induction l with
  | nil => rfl
  | cons j l ih =>
    rw [total_cons, List.length_cons, h j List.mem_cons_self, ih fun m hm => h m (List.mem_cons_of_mem j hm), Nat.add_comm]

theorem total_range_mono {f : ℕ → α} {a b : ℕ} (h : a ≤ b) : total w f (List.range a) ≤ total w f (List.range b) := by
  obtain ⟨c, rfl⟩ := Nat.exists_eq_add_of_le h
  rw [List.range_add, total_append]
  exact Nat.le_add_right _ _

theorem total_add_le {v : α → ℕ} (h : ∀ a, v a + w a ≤ 1) : total v f l + total w f l ≤ l.length := by
  induction l with
  | nil => exact Nat.le_refl 0
  | cons j l ih =>
    have hj := h (f j)
    rw [total_cons, total_cons, List.length_cons]
    omega

variable [DecidableEq ι]

theorem total_update_of_notMem {u : α} (hi : i ∉ l) : total w (Function.update f i u) l = total w f l := by
  refine total_congr fun j hj => ?_
  rw [Function.update_of_ne (ne_of_mem_of_not_mem hj hi)]

/-- Indices of weight zero do not count. -/
theorem total_of_subset {m : List ι} (hl : l.Nodup) (hm : m.Nodup) (hsub : ∀ j ∈ l, j ∈ m)
    (hzero : ∀ j ∈ m, j ∉ l → w (f j) = 0) : total w f m = total w f l := by
  unfold total
  rw [← List.sum_toFinset _ hl, ← List.sum_toFinset _ hm]
  refine (Finset.sum_subset (fun j hj => ?_) fun j hj hjl => ?_).symm
  · exact List.mem_toFinset.mpr (hsub j (List.mem_toFinset.mp hj))
  · exact hzero j (List.mem_toFinset.mp hj) fun h => hjl (List.mem_toFinset.mpr h)

/-- One entry moves: its old weight goes and its new one comes. -/
theorem total_update {u : α} (hnodup : l.Nodup) (hi : i ∈ l) :
    total w (Function.update f i u) l + w (f i) = total w f l + w u := by
  induction l with
  | nil => exact absurd hi (List.not_mem_nil)
  | cons j l ih =>
    rw [List.nodup_cons] at hnodup
    rw [total_cons, total_cons]
    by_cases hj : i = j
    · subst hj
      rw [Function.update_self, total_update_of_notMem hnodup.1]
      omega
    · have hil : i ∈ l := (List.mem_cons.mp hi).resolve_left hj
      have hrest := ih hnodup.2 hil
      rw [Function.update_of_ne (Ne.symm hj)]
      omega

end

end OpenUsb
