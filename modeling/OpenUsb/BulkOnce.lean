import OpenUsb.Bulk
import OpenUsb.Lib.Counts

/-!
# BulkOnce — a bulk or interrupt request completes exactly once

Once a request has left `NORMAL`, `urbs_to_reap` and `urbs_to_cancel` are meant to count the URBs that are still to be
reaped, and the URB that brings both to zero completes the request.  The helpers count a URB that is not pending under
`urbs_to_reap`, as one that will come with status 0.  `BulkState.Orderly` says when this is so at each place where the
counters are set, and `bulk_completes_once` follows from the invariant that the counters are what they are meant to be.
-/

namespace OpenUsb

/-! ## What is owed -/

namespace UrbState

/-- The URB is counted in `urbs_to_reap`. -/
def owedReap : UrbState → ℕ
  | .done status _ => if status = 0 then 1 else 0
  | _ => 0

/-- The URB is counted in `urbs_to_cancel`. -/
def owedCancel : UrbState → ℕ
  | .pending => 1
  | .done status _ => if status = 0 then 0 else 1
  | _ => 0

/-- Pending, or finished with status 0. -/
def Clean (u : UrbState) : Prop := u = .pending ∨ ∃ len, u = .done 0 len

/-- Pending, or cancelled. -/
def Dropped (u : UrbState) : Prop := u = .pending ∨ ∃ len, u = .done (-ECONNRESET) len ∨ u = .done (-ENOENT) len

/-- A URB that the counters are right about: gone, or finished with a status that its counter is decremented for. -/
def Counted (continuation : Bool) (u : UrbState) : Prop :=
  u = .idle ∨ u = .reaped ∨ (∃ len, u = .done 0 len) ∨ (∃ len, u = .done (-ENOENT) len) ∨
    continuation = true ∧ u.Dropped

theorem owed_le (u : UrbState) : u.owedReap + u.owedCancel ≤ 1 := by
  cases u with
  | done status len => by_cases h : status = 0 <;> simp [owedReap, owedCancel, h]
  | idle | pending | reaped => simp [owedReap, owedCancel]

end UrbState

/-- The state of a request under a counter for one more URB: `s` becomes `t` by the round for URB `j`. -/
structure UrbIo.Counts (continuation : Bool) (j : ℕ) (s t : UrbIo) : Prop where
  to_reap : t.urbs_to_reap = s.urbs_to_reap + (s.kernel j).owedReap
  to_cancel : t.urbs_to_cancel = s.urbs_to_cancel + (s.kernel j).owedCancel
  reap_same : (t.kernel j).owedReap = (s.kernel j).owedReap
  cancel_same : (t.kernel j).owedCancel = (s.kernel j).owedCancel
  counted : (t.kernel j).Counted continuation
  others : ∀ k, k ≠ j → t.kernel k = s.kernel k

section

variable {L : UrbLayout} {s : UrbIo} {j : ℕ}

theorem discard_counts (continuation : Bool) (hname : L.names j = some j) (hclean : (s.kernel j).Clean)
    (hroom : s.urbs_to_reap + s.urbs_to_cancel + 1 < 2 ^ 32) : s.Counts continuation j (discardUrb L j s) := by
  unfold discardUrb
  rw [hname]
  rcases hclean with hpending | ⟨len, hdone⟩
  · simp only [if_pos hpending]
    refine ⟨?_, ?_, ?_, ?_, ?_, fun k hk => UrbIo.setKernel_of_ne _ _ hk _⟩
    · simp [hpending, UrbIo.incCancel, UrbIo.setKernel, UrbState.owedReap]
    · simp only [hpending, UrbIo.incCancel, UrbIo.setKernel, UrbState.owedCancel]
      omega
    · simp [hpending, UrbIo.incCancel, UrbIo.setKernel, UrbState.owedReap, ENOENT]
    · simp [hpending, UrbIo.incCancel, UrbIo.setKernel, UrbState.owedCancel, ENOENT]
    · exact .inr (.inr (.inr (.inl ⟨0, UrbIo.setKernel_self ..⟩)))
  · have hne : s.kernel j ≠ .pending := by simp [hdone]
    simp only [if_neg hne]
    refine ⟨?_, ?_, rfl, rfl, .inr (.inr (.inl ⟨len, hdone⟩)), fun _ _ => rfl⟩
    · simp only [hdone, UrbIo.incReap, UrbState.owedReap, if_pos]
      omega
    · simp [hdone, UrbIo.incReap, UrbState.owedCancel]

/-- A round of `handle_partial_xfer`. -/
theorem round_counts (hname : L.names j = some j)
    (hwait : if L.continuation j = true then (s.kernel j).Dropped else (s.kernel j).Clean)
    (hroom : s.urbs_to_reap + s.urbs_to_cancel + 1 < 2 ^ 32) :
    s.Counts (L.continuation j) j (partialXferRound L s j) := by
  unfold partialXferRound
  by_cases hcont : L.continuation j = true
  · rw [if_pos hcont] at hwait ⊢
    have howed : (s.kernel j).owedReap = 0 ∧ (s.kernel j).owedCancel = 1 := by
      rcases hwait with h | ⟨len, h | h⟩ <;> simp [h, UrbState.owedReap, UrbState.owedCancel, ENOENT, ECONNRESET]
    refine ⟨?_, ?_, rfl, rfl, .inr (.inr (.inr (.inr ⟨hcont, hwait⟩))), fun _ _ => rfl⟩
    · rw [howed.1]
      rfl
    · rw [howed.2]
      exact Nat.mod_eq_of_lt (by omega)
  · rw [if_neg hcont] at hwait ⊢
    exact discard_counts _ hname hwait hroom

/-- A loop over the URBs of a list has counted each of them. -/
structure UrbIo.CountsAll (continuation : ℕ → Bool) (l : List ℕ) (s t : UrbIo) : Prop where
  to_reap : t.urbs_to_reap = s.urbs_to_reap + total UrbState.owedReap s.kernel l
  to_cancel : t.urbs_to_cancel = s.urbs_to_cancel + total UrbState.owedCancel s.kernel l
  reap_same : ∀ k, (t.kernel k).owedReap = (s.kernel k).owedReap
  cancel_same : ∀ k, (t.kernel k).owedCancel = (s.kernel k).owedCancel
  counted : ∀ k ∈ l, (t.kernel k).Counted (continuation k)
  others : ∀ k, k ∉ l → t.kernel k = s.kernel k

theorem foldl_counts {continuation : ℕ → Bool} {f : UrbIo → ℕ → UrbIo} {W : ℕ → UrbState → Prop}
    (hf : ∀ (s : UrbIo) (j : ℕ), W j (s.kernel j) → s.urbs_to_reap + s.urbs_to_cancel + 1 < 2 ^ 32 →
      s.Counts (continuation j) j (f s j))
    {l : List ℕ} {s : UrbIo} (hnodup : l.Nodup) (hw : ∀ j ∈ l, W j (s.kernel j))
    (hroom : s.urbs_to_reap + s.urbs_to_cancel + l.length < 2 ^ 32) : s.CountsAll continuation l (l.foldl f s) := by
  induction l generalizing s with
  | nil => exact ⟨rfl, rfl, fun _ => rfl, fun _ => rfl, fun _ hk => absurd hk List.not_mem_nil, fun _ _ => rfl⟩
  | cons j l ih =>
    rw [List.nodup_cons] at hnodup
    rw [List.length_cons] at hroom
    have hj := hf s j (hw j List.mem_cons_self) (by omega)
    have howed := (s.kernel j).owed_le
    have hsame : ∀ k ∈ l, (f s j).kernel k = s.kernel k := fun k hk => hj.others k (ne_of_mem_of_not_mem hk hnodup.1)
    have hw' : ∀ k ∈ l, W k ((f s j).kernel k) := by
      intro k hk
      rw [hsame k hk]
      exact hw k (List.mem_cons_of_mem j hk)
    have hrest := ih hnodup.2 hw' (by rw [hj.to_reap, hj.to_cancel]; omega)
    refine ⟨?_, ?_, ?_, ?_, ?_, ?_⟩
    · rw [List.foldl_cons, hrest.to_reap, hj.to_reap, total_cons,
        total_congr fun k hk => congrArg UrbState.owedReap (hsame k hk), Nat.add_assoc]
    · rw [List.foldl_cons, hrest.to_cancel, hj.to_cancel, total_cons,
        total_congr fun k hk => congrArg UrbState.owedCancel (hsame k hk), Nat.add_assoc]
    · intro k
      rw [List.foldl_cons, hrest.reap_same k]
      by_cases hk : k = j
      · exact hk ▸ hj.reap_same
      · rw [hj.others k hk]
    · intro k
      rw [List.foldl_cons, hrest.cancel_same k]
      by_cases hk : k = j
      · exact hk ▸ hj.cancel_same
      · rw [hj.others k hk]
    · intro k hk
      by_cases hkl : k ∈ l
      · exact hrest.counted k hkl
      · have hkj : k = j := (List.mem_cons.mp hk).resolve_right hkl
        subst hkj
        rw [List.foldl_cons, hrest.others k hkl]
        exact hj.counted
    · intro k hk
      rw [List.mem_cons, not_or] at hk
      rw [List.foldl_cons, hrest.others k hk.2, hj.others k hk.1]

end

/-! ## Orderly runs -/

section

variable (B : BulkRequest)

/-- Freed memory is not used, and when all submitted URBs have been reaped the request has completed once; it is not
completed, and its URBs are not released, before. -/
structure BulkState.Sound (s : BulkState) : Prop where
  unmisused : s.io.misuse = false
  once : s.returned ≠ none → (∀ i < s.submitted, s.io.kernel i = .reaped) → s.io.completions.length = 1
  held : s.io.completions ≠ [] ∨ s.io.frees ≠ 0 → ∀ i < s.submitted, s.io.kernel i = .reaped

/-- The URB can be counted by `handle_partial_xfer`. -/
def BulkRequest.Awaitable (j : ℕ) (u : UrbState) : Prop := if B.continuation j = true then u.Dropped else u.Clean

/-- A reap from a request that is still `NORMAL`.  A stall and the last URB come when no other URB is left, the last one
with no other error; any other short or failed URB comes after the URBs before it, and the URBs after it can be counted. -/
def BulkState.ReapOrderly (s : BulkState) (i : ℕ) (status : ℤ) (len : ℕ) : Prop :=
  if status = -EPIPE ∨ i = B.num_urbs - 1 then
    (status = 0 ∨ status = - EREMOTEIO ∨ status = -EPIPE) ∧ ∀ j < B.num_urbs, j ≠ i → s.io.kernel j = .reaped
  else
    (status = 0 ∨ status = - EREMOTEIO) ∧ ¬ len < B.buffer_length i ∨
      (∀ j < i, s.io.kernel j = .reaped) ∧ ∀ j < B.num_urbs, i < j → B.Awaitable j (s.io.kernel j)

/-- A refusal comes after the first URB and finds no submitted URB with an error; a cancel or a sweep finds a `NORMAL`
request with every URB pending or finished with status 0; once the request has left `NORMAL`, URBs finish as cancelled. -/
def BulkState.Orderly (s : BulkState) : BulkLabel → Prop
  | .accept => True
  | .refuse _ => 0 < s.submitted ∧ ∀ j < s.submitted, (s.io.kernel j).Clean
  | .finish _ status _ => s.io.reap_action ≠ .normal → status = -ECONNRESET ∨ status = -ENOENT
  | .cancel | .timeout => s.io.reap_action = .normal ∧ ∀ j < B.num_urbs, (s.io.kernel j).Clean
  | .reap i => s.io.reap_action = .normal → ∀ status len, s.io.kernel i = .done status len → s.ReapOrderly B i status len

/-! ## The three stages of an orderly run -/

structure BulkState.Common (s : BulkState) : Prop where
  misuse : s.io.misuse = false
  idle : ∀ i, s.submitted ≤ i → s.io.kernel i = .idle
  live : ∀ i < s.submitted, s.io.kernel i ≠ .idle
  loop : if s.returned = none then s.submitted < B.num_urbs else s.submitted ≤ B.num_urbs

/-- The request is `NORMAL`, and its last URB is still to come. -/
structure BulkState.Running (s : BulkState) : Prop where
  action : s.io.reap_action = .normal
  to_reap : s.io.urbs_to_reap = 0
  to_cancel : s.io.urbs_to_cancel = 0
  completions : s.io.completions = []
  frees : s.io.frees = 0
  full : s.returned ≠ none → s.submitted = B.num_urbs
  last : s.io.kernel (B.num_urbs - 1) ≠ .reaped

/-- The counters are what is owed, and something is. -/
structure BulkState.Winding (s : BulkState) : Prop where
  action : s.io.reap_action ≠ .normal
  result : s.io.reap_action.result ≠ none
  to_reap : s.io.urbs_to_reap = total UrbState.owedReap s.io.kernel (List.range B.num_urbs)
  to_cancel : s.io.urbs_to_cancel = total UrbState.owedCancel s.io.kernel (List.range B.num_urbs)
  owed : ¬ (s.io.urbs_to_reap = 0 ∧ s.io.urbs_to_cancel = 0)
  counted : ∀ j < B.num_urbs, (s.io.kernel j).Counted (B.continuation j)
  completions : s.io.completions = []
  frees : s.io.frees = 0
  returned : s.returned ≠ none

structure BulkState.Finished (s : BulkState) : Prop where
  completions : s.io.completions.length = 1
  reaped : ∀ i < s.submitted, s.io.kernel i = .reaped
  listed : s.listed = false
  returned : s.returned ≠ none

def BulkState.Staged (s : BulkState) : Prop := s.Common B ∧ (s.Running B ∨ s.Winding B ∨ s.Finished)

end

section

variable {B : BulkRequest} {s t : BulkState} {l : BulkLabel}

theorem num_urbs_lt (B : BulkRequest) : B.num_urbs < 2 ^ 31 := by
  have hlength := B.length_lt
  unfold BulkRequest.num_urbs LINUX_MAX_BULK_INTR_XFER
  split_ifs <;> omega

theorem BulkState.Common.lt {i : ℕ} (h : s.Common B) (hi : s.io.kernel i ≠ .idle) : i < s.submitted := by
  by_contra hge
  exact hi (h.idle i (Nat.le_of_not_lt hge))

theorem BulkState.Common.le (h : s.Common B) : s.submitted ≤ B.num_urbs := by
  have hloop := h.loop
  split_ifs at hloop <;> omega

theorem owes_of_awaitable {j : ℕ} {u : UrbState} (h : B.Awaitable j u) : u.owedReap + u.owedCancel = 1 := by
  unfold BulkRequest.Awaitable at h
  split_ifs at h
  · rcases h with rfl | ⟨len, rfl | rfl⟩ <;> simp [UrbState.owedReap, UrbState.owedCancel, ENOENT, ECONNRESET]
  · rcases h with rfl | ⟨len, rfl⟩ <;> simp [UrbState.owedReap, UrbState.owedCancel]

theorem gone_of_owed_zero {c : Bool} {u : UrbState} (h : u.Counted c) (hreap : u.owedReap = 0)
    (hcancel : u.owedCancel = 0) : u = .idle ∨ u = .reaped := by
  rcases h with h | h | ⟨len, rfl⟩ | ⟨len, rfl⟩ | ⟨-, rfl | ⟨len, rfl | rfl⟩⟩
  · exact .inl h
  · exact .inr h
  · exact absurd hreap (by simp [UrbState.owedReap])
  · exact absurd hcancel (by simp [UrbState.owedCancel, ENOENT])
  · exact absurd hcancel (by simp [UrbState.owedCancel])
  · exact absurd hcancel (by simp [UrbState.owedCancel, ECONNRESET])
  · exact absurd hcancel (by simp [UrbState.owedCancel, ENOENT])

/-- When all that was submitted is reaped, no URB owes anything. -/
theorem BulkState.Common.total_eq_zero {f : UrbState → ℕ} {l : List ℕ} (hcommon : s.Common B)
    (hall : ∀ i < s.submitted, s.io.kernel i = .reaped) (hidle : f .idle = 0) (hreaped : f .reaped = 0) :
    total f s.io.kernel l = 0 := by
  rw [OpenUsb.total_eq_zero]
  intro j _
  by_cases hlt : j < s.submitted
  · rw [hall j hlt]
    exact hreaped
  · rw [hcommon.idle j (Nat.le_of_not_lt hlt)]
    exact hidle

theorem BulkState.Winding.pending (hcommon : s.Common B) (h : s.Winding B) : ∃ i < s.submitted, s.io.kernel i ≠ .reaped := by
  by_contra hnone
  push Not at hnone
  refine h.owed ⟨?_, ?_⟩
  · rw [h.to_reap]
    exact hcommon.total_eq_zero hnone rfl rfl
  · rw [h.to_cancel]
    exact hcommon.total_eq_zero hnone rfl rfl

theorem BulkState.Staged.sound (hn : 0 < B.num_urbs) (h : s.Staged B) : s.Sound where
  unmisused := h.1.misuse
  once hreturned hall := by
    rcases h.2 with hrun | hwind | hfin
    · exact absurd (hall _ (by rw [hrun.full hreturned]; omega)) hrun.last
    · obtain ⟨i, hi, hne⟩ := hwind.pending h.1
      exact absurd (hall i hi) hne
    · exact hfin.completions
  held hclosed := by
    rcases h.2 with hrun | hwind | hfin
    · exact absurd hclosed (by simp [hrun.completions, hrun.frees])
    · exact absurd hclosed (by simp [hwind.completions, hwind.frees])
    · exact hfin.reaped

/-! ## The counters are set -/

theorem names_self {j : ℕ} (h : j < B.num_urbs) : B.layout.names j = some j := if_pos h

theorem owes_of_clean {u : UrbState} (h : u.Clean) : u.owedReap + u.owedCancel = 1 := by
  rcases h with rfl | ⟨len, rfl⟩ <;> simp [UrbState.owedReap, UrbState.owedCancel]

/-- `discard_urbs` and `handle_partial_submit` count the URBs of their range. -/
theorem discards_count {io : UrbIo} {m : ℕ} (hm : m ≤ B.num_urbs) (hclean : ∀ j < m, (io.kernel j).Clean)
    (hr : io.urbs_to_reap = 0) (hc : io.urbs_to_cancel = 0) :
    io.CountsAll B.continuation (List.range m) ((List.range m).foldl (fun s i => discardUrb B.layout i s) io) := by
  have hlt := num_urbs_lt B
  have hround : ∀ (s : UrbIo) (j : ℕ), (j < B.num_urbs ∧ (s.kernel j).Clean) →
      s.urbs_to_reap + s.urbs_to_cancel + 1 < 2 ^ 32 → s.Counts (B.continuation j) j (discardUrb B.layout j s) :=
    fun s j hj hroom => discard_counts _ (names_self hj.1) hj.2 hroom
  refine foldl_counts (W := fun j u => j < B.num_urbs ∧ u.Clean) hround List.nodup_range (fun j hj => ?_) ?_
  · have hjm := List.mem_range.mp hj
    exact ⟨hjm.trans_le hm, hclean j hjm⟩
  · rw [hr, hc, List.length_range]
    omega

/-- `handle_partial_xfer` counts the URBs from an index on. -/
theorem xfer_counts {io : UrbIo} {i : ℕ} (hwait : ∀ j < B.num_urbs, i < j → B.Awaitable j (io.kernel j))
    (hr : io.urbs_to_reap = 0) (hc : io.urbs_to_cancel = 0) :
    io.CountsAll B.continuation (List.range' (i + 1) (B.num_urbs - (i + 1)))
      ((List.range' (i + 1) (B.num_urbs - (i + 1))).foldl (partialXferRound B.layout) io) := by
  have hlt := num_urbs_lt B
  have hround : ∀ (s : UrbIo) (j : ℕ), (j < B.num_urbs ∧ B.Awaitable j (s.kernel j)) →
      s.urbs_to_reap + s.urbs_to_cancel + 1 < 2 ^ 32 → s.Counts (B.continuation j) j (partialXferRound B.layout s j) :=
    fun s j hj hroom => round_counts (names_self hj.1) hj.2 hroom
  refine foldl_counts (W := fun j u => j < B.num_urbs ∧ B.Awaitable j u) hround List.nodup_range' (fun j hj => ?_) ?_
  · rw [List.mem_range'_1] at hj
    exact ⟨by omega, hwait j (by omega) (by omega)⟩
  · rw [hr, hc, List.length_range']
    omega

/-- Counters that count the URBs of a list, with all others gone, are what is owed. -/
theorem winding_of_counts {io : UrbIo} {js : List ℕ} (hcounts : io.CountsAll B.continuation js t.io) (hnodup : js.Nodup)
    (hsub : ∀ j ∈ js, j < B.num_urbs) (hgone : ∀ j < B.num_urbs, j ∉ js → io.kernel j = .idle ∨ io.kernel j = .reaped)
    (hr : io.urbs_to_reap = 0) (hc : io.urbs_to_cancel = 0)
    (howes : ∃ j ∈ js, (io.kernel j).owedReap + (io.kernel j).owedCancel = 1) (haction : t.io.reap_action ≠ .normal)
    (hresult : t.io.reap_action.result ≠ none) (hcompletions : t.io.completions = []) (hfrees : t.io.frees = 0)
    (hreturned : t.returned ≠ none) : t.Winding B := by
  have hmem : ∀ j ∈ js, j ∈ List.range B.num_urbs := fun j hj => List.mem_range.mpr (hsub j hj)
  have hreap : t.io.urbs_to_reap = total UrbState.owedReap t.io.kernel (List.range B.num_urbs) := by
    rw [hcounts.to_reap, hr, Nat.zero_add, total_congr fun j _ => hcounts.reap_same j]
    refine (total_of_subset hnodup List.nodup_range hmem fun j hj hjs => ?_).symm
    rcases hgone j (List.mem_range.mp hj) hjs with h | h <;> rw [h] <;> rfl
  have hcancel : t.io.urbs_to_cancel = total UrbState.owedCancel t.io.kernel (List.range B.num_urbs) := by
    rw [hcounts.to_cancel, hc, Nat.zero_add, total_congr fun j _ => hcounts.cancel_same j]
    refine (total_of_subset hnodup List.nodup_range hmem fun j hj hjs => ?_).symm
    rcases hgone j (List.mem_range.mp hj) hjs with h | h <;> rw [h] <;> rfl
  refine ⟨haction, hresult, hreap, hcancel, ?_, fun j hj => ?_, hcompletions, hfrees, hreturned⟩
  · rintro ⟨hr', hc'⟩
    obtain ⟨j, hj, howe⟩ := howes
    have hj' := hmem j hj
    rw [hreap, total_eq_zero] at hr'
    rw [hcancel, total_eq_zero] at hc'
    have h1 := hr' j hj'
    have h2 := hc' j hj'
    rw [hcounts.reap_same] at h1
    rw [hcounts.cancel_same] at h2
    omega
  · by_cases hjs : j ∈ js
    · exact hcounts.counted j hjs
    · rw [hcounts.others j hjs]
      exact (hgone j hj hjs).elim .inl fun h => .inr (.inl h)

/-- The URBs stay idle or not when pending ones are discarded. -/
theorem common_of_frame {io : UrbIo} (hframe : io.Frame t.io) (hkernel : io.kernel = s.io.kernel)
    (hmisuse : io.misuse = false) (hsub : t.submitted = s.submitted)
    (hloop : if t.returned = none then t.submitted < B.num_urbs else t.submitted ≤ B.num_urbs) (h : s.Common B) :
    t.Common B where
  misuse := hframe.misuse.trans hmisuse
  idle i hi := by
    have hidle := h.idle i (hsub ▸ hi)
    rw [← hkernel] at hidle
    exact (hframe.kernel_of_ne (by simp [hidle])).trans hidle
  live i hi := by
    have hlive := h.live i (hsub ▸ hi)
    rw [← hkernel] at hlive
    rcases hframe.kernel i with hk | ⟨-, hk⟩
    · exact hk ▸ hlive
    · simp [hk]
  loop := hloop

/-! ## One orderly step -/

theorem BulkState.Common.accepted (h : s.Common B) (hlt : s.submitted < B.num_urbs) : (s.accepted B).Common B where
  misuse := h.misuse
  idle i hi := by
    have hlt' : s.submitted < i := hi
    exact (UrbIo.setKernel_of_ne _ _ hlt'.ne' _).trans (h.idle i hlt'.le)
  live i hi := by
    show (s.io.setKernel s.submitted .pending).kernel i ≠ .idle
    by_cases hi' : i = s.submitted
    · rw [hi', UrbIo.setKernel_self]
      simp
    · have hlt' : i < s.submitted + 1 := hi
      rw [UrbIo.setKernel_of_ne _ _ hi']
      exact h.live i (by omega)
  loop := by
    show if (if s.submitted + 1 = B.num_urbs then some OPENUSB_SUCCESS else none) = none then
      s.submitted + 1 < B.num_urbs else s.submitted + 1 ≤ B.num_urbs
    by_cases hend : s.submitted + 1 = B.num_urbs
    · rw [if_pos hend, if_neg nofun]
      exact hlt
    · rw [if_neg hend, if_pos rfl]
      omega

theorem bulk_accept_staged (h : s.Staged B) (hloop : s.returned = none) (hlt : s.submitted < B.num_urbs) :
    (s.accepted B).Staged B := by
  refine ⟨h.1.accepted hlt, .inl ?_⟩
  rcases h.2 with hrun | hwind | hfin
  · refine ⟨hrun.action, hrun.to_reap, hrun.to_cancel, hrun.completions, hrun.frees, fun hne => ?_, ?_⟩
    · show s.submitted + 1 = B.num_urbs
      by_contra hmore
      exact hne (if_neg hmore)
    · show (s.io.setKernel s.submitted .pending).kernel (B.num_urbs - 1) ≠ .reaped
      by_cases hlast : B.num_urbs - 1 = s.submitted
      · rw [hlast, UrbIo.setKernel_self]
        simp
      · rw [UrbIo.setKernel_of_ne _ _ hlast]
        exact hrun.last
  · exact absurd hloop hwind.returned
  · exact absurd hloop hfin.returned

theorem refuse_staged (h : s.Staged B) (errno : ℤ) (hloop : s.returned = none) (hlt : s.submitted < B.num_urbs)
    (hpos : 0 < s.submitted) (hclean : ∀ j < s.submitted, (s.io.kernel j).Clean) : (s.refused B errno).Staged B := by
  have hrun : s.Running B := by
    rcases h.2 with hrun | hwind | hfin
    · exact hrun
    · exact absurd hloop hwind.returned
    · exact absurd hloop hfin.returned
  have hrefused : s.refused B errno =
      { s with io := handlePartialSubmit B.layout s.submitted s.io, returned := some OPENUSB_SUCCESS } := by
    unfold BulkState.refused
    rw [if_neg hpos.ne', if_neg (by decide)]
  have hframe := handlePartialSubmit_frame B.layout s.submitted s.io
  have hcounts := @discards_count B { s.io with reap_action := .submitFailed } s.submitted hlt.le hclean hrun.to_reap
    hrun.to_cancel
  rw [hrefused]
  refine ⟨common_of_frame hframe rfl h.1.misuse rfl ?_ h.1, .inr (.inl ?_)⟩
  · rw [if_neg nofun]
    exact hlt.le
  · refine winding_of_counts hcounts List.nodup_range ?_ ?_ hrun.to_reap hrun.to_cancel ?_ ?_ ?_ ?_ ?_ nofun
    · intro j hj
      exact (List.mem_range.mp hj).trans hlt
    · intro j _ hj
      exact .inl (h.1.idle j (Nat.le_of_not_lt fun hlt' => hj (List.mem_range.mpr hlt')))
    · exact ⟨0, List.mem_range.mpr hpos, owes_of_clean (hclean 0 hpos)⟩
    · exact hframe.action.trans_ne nofun
    · rw [hframe.action]
      exact nofun
    · exact hframe.completions.trans hrun.completions
    · exact hframe.frees.trans hrun.frees

/-- A cancel or a sweep. -/
theorem discard_staged (h : s.Staged B) {action : ReapAction} (status : IoStatus) (hreturned : s.returned ≠ none)
    (hnormal : s.io.reap_action = .normal) (hlisted : s.listed = true) (hn : 0 < B.num_urbs)
    (hclean : ∀ j < B.num_urbs, (s.io.kernel j).Clean) (haction : action ≠ .normal) (hresult : action.result ≠ none) :
    BulkState.Staged B { s with status := status, io := discardUrbs B.layout action s.io.touch } := by
  have hrun : s.Running B := by
    rcases h.2 with hrun | hwind | hfin
    · exact hrun
    · exact absurd hnormal hwind.action
    · rw [hfin.listed] at hlisted
      exact absurd hlisted nofun
  have hmisuse : s.io.touch.misuse = false := by simp [UrbIo.touch, h.1.misuse, hrun.frees]
  have hframe := discardUrbs_frame B.layout action s.io.touch
  have hcounts := @discards_count B { s.io.touch with reap_action := action } B.num_urbs (Nat.le_refl _) hclean hrun.to_reap
    hrun.to_cancel
  refine ⟨common_of_frame hframe rfl hmisuse rfl h.1.loop h.1, .inr (.inl ?_)⟩
  refine winding_of_counts hcounts List.nodup_range ?_ ?_ hrun.to_reap hrun.to_cancel ?_ ?_ ?_ ?_ ?_ hreturned
  · exact fun j hj => List.mem_range.mp hj
  · exact fun j hj hj' => absurd (List.mem_range.mpr hj) hj'
  · exact ⟨0, List.mem_range.mpr hn, owes_of_clean (hclean 0 hn)⟩
  · exact hframe.action.trans_ne haction
  · exact hframe.action.symm ▸ hresult
  · exact hframe.completions.trans hrun.completions
  · exact hframe.frees.trans hrun.frees

/-- The request with some number of bytes. -/
def BulkState.withBytes (s : BulkState) (b : ℕ) : BulkState := { s with io := { s.io with bytes_transferred := b } }

theorem countBytes_eq (s : BulkState) (status : ℤ) (len : ℕ) : ∃ b, s.countBytes status len = s.withBytes b := by
  unfold BulkState.countBytes
  by_cases h : status = 0 ∨ status = - EREMOTEIO
  · rw [if_pos h]
    exact ⟨_, rfl⟩
  · rw [if_neg h]
    exact ⟨s.io.bytes_transferred, rfl⟩

theorem bulk_handle_normal (i : ℕ) (status : ℤ) (len : ℕ) (hfrees : s.io.frees = 0)
    (haction : s.io.reap_action = .normal) :
    s.handleBulkIntrComplete B i status len = (s.countBytes status len).reapNormal B i status len := by
  unfold BulkState.handleBulkIntrComplete
  rw [if_neg (not_not_intro hfrees), if_neg (not_not_intro haction)]

theorem bulk_handle_awaited (i : ℕ) (status : ℤ) (len : ℕ) (hfrees : s.io.frees = 0)
    (haction : s.io.reap_action ≠ .normal) :
    s.handleBulkIntrComplete B i status len = (s.countBytes status len).reapAwaited B i status := by
  unfold BulkState.handleBulkIntrComplete
  rw [if_neg (not_not_intro hfrees), if_pos haction]

theorem BulkState.Common.withBytes (h : s.Common B) (b : ℕ) : (s.withBytes b).Common B :=
  ⟨h.misuse, h.idle, h.live, h.loop⟩

end

section

variable {B : BulkRequest} {s t : BulkState} {l : BulkLabel}

/-- A submitted URB moves. -/
theorem BulkState.Common.setKernel {i : ℕ} {u : UrbState} (h : s.Common B) (hi : s.io.kernel i ≠ .idle) (hu : u ≠ .idle) :
    BulkState.Common B { s with io := s.io.setKernel i u } where
  misuse := h.misuse
  idle j hj := by
    have hne : j ≠ i := by
      rintro rfl
      exact hi (h.idle j hj)
    exact (UrbIo.setKernel_of_ne _ _ hne u).trans (h.idle j hj)
  live j hj := by
    show (s.io.setKernel i u).kernel j ≠ .idle
    by_cases hji : j = i
    · rw [hji, UrbIo.setKernel_self]
      exact hu
    · rw [UrbIo.setKernel_of_ne _ _ hji]
      exact h.live j hj
  loop := h.loop

section

variable {i : ℕ} {status : ℤ} {len : ℕ}

theorem normal_quiet (hstatus : status = 0 ∨ status = - EREMOTEIO) (hlast : i ≠ B.num_urbs - 1)
    (hfull : ¬ len < B.buffer_length i) : s.reapNormal B i status len = s := by
  unfold BulkState.reapNormal
  rw [if_pos hstatus, if_neg hlast, if_neg hfull]

theorem normal_last (hstatus : status = 0 ∨ status = - EREMOTEIO) (hlast : i = B.num_urbs - 1) :
    s.reapNormal B i status len = (s.complete OPENUSB_SUCCESS).release := by
  unfold BulkState.reapNormal
  rw [if_pos hstatus, if_pos hlast]

theorem normal_stall (hstatus : status = -EPIPE) : s.reapNormal B i status len =
    ({ s with io := handlePartialXfer B.layout (i + 1) .stall s.io }.release).complete OPENUSB_IO_STALL := by
  unfold BulkState.reapNormal
  subst hstatus
  rw [if_neg (by decide), if_pos rfl]

theorem normal_short (hstatus : status = 0 ∨ status = - EREMOTEIO) (hlast : i ≠ B.num_urbs - 1)
    (hshort : len < B.buffer_length i) : s.reapNormal B i status len =
      { s with io := handlePartialXfer B.layout (i + 1) .completedEarly s.io } := by
  unfold BulkState.reapNormal
  rw [if_pos hstatus, if_neg hlast, if_pos hshort]

/-- Every other URB leaves the later ones to be counted. -/
theorem normal_switch (hstall : status ≠ -EPIPE) (hlast : i ≠ B.num_urbs - 1)
    (hquiet : ¬ ((status = 0 ∨ status = - EREMOTEIO) ∧ ¬ len < B.buffer_length i)) :
    ∃ action, (action = .completedEarly ∨ action = .unknownFailure) ∧
      s.reapNormal B i status len = { s with io := handlePartialXfer B.layout (i + 1) action s.io } := by
  by_cases hstatus : status = 0 ∨ status = - EREMOTEIO
  · have hshort : len < B.buffer_length i := by
      by_contra hfull
      exact hquiet ⟨hstatus, hfull⟩
    exact ⟨_, .inl rfl, normal_short hstatus hlast hshort⟩
  · unfold BulkState.reapNormal
    rw [if_neg hstatus, if_neg hstall]
    exact ⟨_, .inr rfl, rfl⟩

/-- The last URB, or a stall with no other URB left, closes the request. -/
theorem normal_closes (h : s.Common B) (hnone : s.io.completions = []) (hreturned : s.returned ≠ none)
    (hstatus : status = 0 ∨ status = - EREMOTEIO ∨ status = -EPIPE) (hlast : status = -EPIPE ∨ i = B.num_urbs - 1)
    (hall : ∀ j < B.num_urbs, s.io.kernel j = .reaped) : (s.reapNormal B i status len).Staged B := by
  by_cases hstall : status = -EPIPE
  · have hframe := handlePartialXfer_frame B.layout (i + 1) .stall s.io
    have hcommon : BulkState.Common B { s with io := handlePartialXfer B.layout (i + 1) .stall s.io } :=
      common_of_frame hframe rfl h.misuse rfl h.loop h
    rw [normal_stall hstall]
    refine ⟨⟨hcommon.misuse, hcommon.idle, hcommon.live, hcommon.loop⟩, .inr (.inr ⟨?_, fun j hj => ?_, rfl, hreturned⟩)⟩
    · show ((handlePartialXfer B.layout (i + 1) .stall s.io).completions ++ [_]).length = 1
      rw [hframe.completions.trans hnone]
      rfl
    · have hj' := hall j (Nat.lt_of_lt_of_le hj h.le)
      exact (hframe.kernel_of_ne (by simp [hj'])).trans hj'
  · rw [normal_last (by tauto) (hlast.resolve_left hstall)]
    refine ⟨⟨h.misuse, h.idle, h.live, h.loop⟩, .inr (.inr ⟨?_, ?_, rfl, hreturned⟩)⟩
    · show (s.io.completions ++ [_]).length = 1
      rw [hnone]
      rfl
    · exact fun j hj => hall j (hj.trans_le h.le)

/-- An error or a short URB: the later ones are counted. -/
theorem switch_winding (h : s.Common B) (hreturned : s.returned ≠ none) {action : ReapAction}
    (haction : action = .completedEarly ∨ action = .unknownFailure) (hr : s.io.urbs_to_reap = 0)
    (hc : s.io.urbs_to_cancel = 0) (hcompletions : s.io.completions = []) (hfrees : s.io.frees = 0)
    (hearlier : ∀ j ≤ i, s.io.kernel j = .reaped) (hi : i + 1 < B.num_urbs)
    (hlater : ∀ j < B.num_urbs, i < j → B.Awaitable j (s.io.kernel j)) :
    BulkState.Staged B { s with io := handlePartialXfer B.layout (i + 1) action s.io } := by
  have hframe := handlePartialXfer_frame B.layout (i + 1) action s.io
  have hcounts := @xfer_counts B { s.io with reap_action := action } i hlater hr hc
  refine ⟨common_of_frame hframe rfl h.misuse rfl h.loop h, .inr (.inl ?_)⟩
  refine winding_of_counts hcounts List.nodup_range' ?_ ?_ hr hc ?_ ?_ ?_ ?_ ?_ hreturned
  · intro j hj
    rw [List.mem_range'_1] at hj
    omega
  · intro j hj hjs
    rw [List.mem_range'_1] at hjs
    exact .inr (hearlier j (by omega))
  · exact ⟨i + 1, by rw [List.mem_range'_1]; omega, owes_of_awaitable (hlater (i + 1) hi (Nat.lt_succ_self i))⟩
  · refine hframe.action.trans_ne ?_
    rcases haction with rfl | rfl <;> exact nofun
  · rw [hframe.action]
    rcases haction with rfl | rfl <;> exact nofun
  · exact hframe.completions.trans hcompletions
  · exact hframe.frees.trans hfrees

theorem taken_self (s : BulkState) (i : ℕ) : (s.taken i).io.kernel i = .reaped := UrbIo.setKernel_self ..

theorem taken_of_ne {j : ℕ} (s : BulkState) (h : j ≠ i) : (s.taken i).io.kernel j = s.io.kernel j :=
  UrbIo.setKernel_of_ne _ _ h _

/-- The reap of URB `i` from a request that is still `NORMAL`. -/
theorem bulk_reap_running (h : s.Common B) (hrun : s.Running B) (hreturned : s.returned ≠ none)
    (hdone : s.io.kernel i = .done status len) (hG : s.ReapOrderly B i status len) :
    ((s.taken i).handleBulkIntrComplete B i status len).Staged B := by
  have hi : s.io.kernel i ≠ .idle := by simp [hdone]
  have hsub := hrun.full hreturned
  have hlt : i < B.num_urbs := hsub ▸ h.lt hi
  have hhandle := @bulk_handle_normal B (s.taken i) i status len hrun.frees hrun.action
  obtain ⟨b, hbytes⟩ := countBytes_eq (s.taken i) status len
  have hcommon : ((s.taken i).withBytes b).Common B := (h.setKernel (u := .reaped) hi nofun).withBytes b
  unfold BulkState.ReapOrderly at hG
  rw [hhandle, hbytes]
  by_cases hlast : status = -EPIPE ∨ i = B.num_urbs - 1
  · rw [if_pos hlast] at hG
    refine normal_closes hcommon hrun.completions hreturned hG.1 hlast fun j hj => ?_
    by_cases hji : j = i
    · rw [hji]
      exact taken_self s i
    · exact (taken_of_ne s hji).trans (hG.2 j hj hji)
  · rw [if_neg hlast] at hG
    rw [not_or] at hlast
    by_cases hquiet : (status = 0 ∨ status = - EREMOTEIO) ∧ ¬ len < B.buffer_length i
    · rw [normal_quiet hquiet.1 hlast.2 hquiet.2]
      refine ⟨hcommon, .inl ⟨hrun.action, hrun.to_reap, hrun.to_cancel, hrun.completions, hrun.frees, hrun.full, ?_⟩⟩
      exact (taken_of_ne s (Ne.symm hlast.2)).trans_ne hrun.last
    · obtain ⟨hearlier, hlater⟩ := hG.resolve_left hquiet
      obtain ⟨action, haction, hswitch⟩ := @normal_switch B ((s.taken i).withBytes b) i status len hlast.1 hlast.2 hquiet
      rw [hswitch]
      refine switch_winding hcommon hreturned haction hrun.to_reap hrun.to_cancel hrun.completions hrun.frees
        (fun j hj => ?_) (by omega) fun j hj hij => ?_
      · by_cases hji : j = i
        · rw [hji]
          exact taken_self s i
        · exact (taken_of_ne s hji).trans (hearlier j (by omega))
      · exact (taken_of_ne s hij.ne').symm ▸ hlater j hj hij

/-- An awaited reap changes the counters only. -/
theorem awaitedReap_keeps (c : Bool) (status : ℤ) (io : UrbIo) :
    (awaitedReap c status io).kernel = io.kernel ∧ (awaitedReap c status io).bytes_transferred = io.bytes_transferred ∧
      (awaitedReap c status io).completions = io.completions ∧ (awaitedReap c status io).reap_action = io.reap_action ∧
      (awaitedReap c status io).frees = io.frees ∧ (awaitedReap c status io).misuse = io.misuse := by
  unfold awaitedReap UrbIo.decCancel UrbIo.decReap
  split_ifs <;> exact ⟨rfl, rfl, rfl, rfl, rfl, rfl⟩

/-- A counted URB takes exactly what it is owed off the counters. -/
theorem awaitedReap_exact {c : Bool} {io : UrbIo} (hcounted : (UrbState.done status len).Counted c)
    (hr : (UrbState.done status len).owedReap ≤ io.urbs_to_reap)
    (hc : (UrbState.done status len).owedCancel ≤ io.urbs_to_cancel) (hlt : io.urbs_to_cancel < 2 ^ 32) :
    awaitedReap c status io = { io with
      urbs_to_reap := io.urbs_to_reap - (UrbState.done status len).owedReap
      urbs_to_cancel := io.urbs_to_cancel - (UrbState.done status len).owedCancel } := by
  unfold awaitedReap
  have hcases : status = 0 ∨ status = -ENOENT ∨ c = true ∧ status = -ECONNRESET := by
    rcases hcounted with h | h | ⟨_, h⟩ | ⟨_, h⟩ | ⟨hcont, h | ⟨_, h | h⟩⟩
    · exact absurd h nofun
    · exact absurd h nofun
    · exact .inl (UrbState.done.inj h).1
    · exact .inr (.inl (UrbState.done.inj h).1)
    · exact absurd h nofun
    · exact .inr (.inr ⟨hcont, (UrbState.done.inj h).1⟩)
    · exact .inr (.inl (UrbState.done.inj h).1)
  rcases hcases with rfl | rfl | ⟨rfl, rfl⟩
  · have hpos : io.urbs_to_reap ≠ 0 := by
      have : 1 ≤ io.urbs_to_reap := hr
      omega
    have hne : ¬ ((0 : ℤ) = -ECONNRESET ∧ c = true) := fun h => absurd h.1 (by decide)
    rw [if_neg (by decide), if_neg hne, if_pos rfl]
    exact if_neg hpos
  · have hpos : io.urbs_to_cancel ≠ 0 := by
      have : 1 ≤ io.urbs_to_cancel := hc
      omega
    rw [if_pos rfl]
    exact if_neg hpos
  · have hpos : 1 ≤ io.urbs_to_cancel := hc
    have hdec : (io.urbs_to_cancel + (2 ^ 32 - 1)) % 2 ^ 32 = io.urbs_to_cancel - 1 := by omega
    rw [if_neg (by decide), if_pos ⟨rfl, rfl⟩, hdec]
    rfl

/-- The totals without URB `i`. -/
theorem total_taken {w : UrbState → ℕ} (hw : w .reaped = 0) (hi : i < B.num_urbs) :
    total w (s.taken i).io.kernel (List.range B.num_urbs) + w (s.io.kernel i) =
      total w s.io.kernel (List.range B.num_urbs) := by
  have hupdate := total_update (w := w) (f := s.io.kernel) (u := .reaped) List.nodup_range (List.mem_range.mpr hi)
  rw [hw] at hupdate
  exact hupdate

theorem drain_of_owed (h : ¬ (s.io.urbs_to_reap = 0 ∧ s.io.urbs_to_cancel = 0)) : s.drain = s := if_neg h

theorem drain_of_zero {result : ℤ} (h : s.io.urbs_to_reap = 0 ∧ s.io.urbs_to_cancel = 0)
    (hresult : s.io.reap_action.result = some result) : s.drain = (s.complete result).release := by
  unfold BulkState.drain
  rw [if_pos h, hresult]

/-- A request with the right counters goes on, or completes. -/
theorem drain_staged (h : s.Common B) (haction : s.io.reap_action ≠ .normal) (hresult : s.io.reap_action.result ≠ none)
    (hreap : s.io.urbs_to_reap = total UrbState.owedReap s.io.kernel (List.range B.num_urbs))
    (hcancel : s.io.urbs_to_cancel = total UrbState.owedCancel s.io.kernel (List.range B.num_urbs))
    (hcounted : ∀ j < B.num_urbs, (s.io.kernel j).Counted (B.continuation j)) (hcompletions : s.io.completions = [])
    (hfrees : s.io.frees = 0) (hreturned : s.returned ≠ none) : s.drain.Staged B := by
  by_cases hzero : s.io.urbs_to_reap = 0 ∧ s.io.urbs_to_cancel = 0
  · obtain ⟨result, hsome⟩ := Option.ne_none_iff_exists'.mp hresult
    rw [drain_of_zero hzero hsome]
    refine ⟨⟨h.misuse, h.idle, h.live, h.loop⟩, .inr (.inr ⟨?_, fun j hj => ?_, rfl, hreturned⟩)⟩
    · show (s.io.completions ++ [_]).length = 1
      rw [hcompletions]
      rfl
    · have hjn : j < B.num_urbs := Nat.lt_of_lt_of_le hj h.le
      have hr := total_eq_zero.mp (hreap ▸ hzero.1) j (List.mem_range.mpr hjn)
      have hc := total_eq_zero.mp (hcancel ▸ hzero.2) j (List.mem_range.mpr hjn)
      exact (gone_of_owed_zero (hcounted j hjn) hr hc).resolve_left (h.live j hj)
  · rw [drain_of_owed hzero]
    exact ⟨h, .inr (.inl ⟨haction, hresult, hreap, hcancel, hzero, hcounted, hcompletions, hfrees, hreturned⟩)⟩

/-- The reap of a URB that is owed. -/
theorem reap_winding (h : s.Common B) (hwind : s.Winding B) (hdone : s.io.kernel i = .done status len) :
    ((s.taken i).handleBulkIntrComplete B i status len).Staged B := by
  have hi : s.io.kernel i ≠ .idle := by simp [hdone]
  have hlt : i < B.num_urbs := (h.lt hi).trans_le h.le
  have hhandle := @bulk_handle_awaited B (s.taken i) i status len hwind.frees hwind.action
  obtain ⟨b, hbytes⟩ := countBytes_eq (s.taken i) status len
  have hcommon : ((s.taken i).withBytes b).Common B := (h.setKernel (u := .reaped) hi nofun).withBytes b
  have hreap := total_taken (B := B) (s := s) (w := UrbState.owedReap) rfl hlt
  have hcancel := total_taken (B := B) (s := s) (w := UrbState.owedCancel) rfl hlt
  rw [← hwind.to_reap, hdone] at hreap
  rw [← hwind.to_cancel, hdone] at hcancel
  have hbound : s.io.urbs_to_cancel < 2 ^ 32 := by
    have hle := total_add_le (f := s.io.kernel) (l := List.range B.num_urbs) UrbState.owed_le
    have hn := num_urbs_lt B
    rw [← hwind.to_cancel, List.length_range] at hle
    omega
  have hexact := @awaitedReap_exact status len (B.continuation i) ((s.taken i).withBytes b).io
    (hdone ▸ hwind.counted i hlt) (Nat.le.intro ((Nat.add_comm _ _).trans hreap))
    (Nat.le.intro ((Nat.add_comm _ _).trans hcancel)) hbound
  rw [hhandle, hbytes]
  unfold BulkState.reapAwaited
  rw [hexact]
  refine drain_staged ⟨hcommon.misuse, hcommon.idle, hcommon.live, hcommon.loop⟩ hwind.action hwind.result
    (Nat.sub_eq_of_eq_add hreap.symm) (Nat.sub_eq_of_eq_add hcancel.symm) (fun j hj => ?_) hwind.completions hwind.frees
    hwind.returned
  by_cases hji : j = i
  · rw [hji]
    exact .inr (.inl (taken_self s i))
  · exact (taken_of_ne s hji).symm ▸ hwind.counted j hj

theorem bulk_finish_staged (h : s.Staged B) (hpending : s.io.kernel i = .pending)
    (hG : s.io.reap_action ≠ .normal → status = -ECONNRESET ∨ status = -ENOENT) :
    BulkState.Staged B { s with io := s.io.setKernel i (.done status len) } := by
  have hi : s.io.kernel i ≠ .idle := by simp [hpending]
  have hlt : i < B.num_urbs := (h.1.lt hi).trans_le h.1.le
  refine ⟨h.1.setKernel hi nofun, ?_⟩
  rcases h.2 with hrun | hwind | hfin
  · refine .inl ⟨hrun.action, hrun.to_reap, hrun.to_cancel, hrun.completions, hrun.frees, hrun.full, ?_⟩
    show (s.io.setKernel i (.done status len)).kernel (B.num_urbs - 1) ≠ .reaped
    by_cases hlast : B.num_urbs - 1 = i
    · rw [hlast, UrbIo.setKernel_self]
      exact nofun
    · rw [UrbIo.setKernel_of_ne _ _ hlast]
      exact hrun.last
  · -- the URB was counted as cancelled, and it finishes as cancelled
    have hstatus := hG hwind.action
    have hcont : B.continuation i = true := by
      have hcounted := hwind.counted i hlt
      rw [hpending] at hcounted
      rcases hcounted with h | h | ⟨_, h⟩ | ⟨_, h⟩ | ⟨hcont, -⟩
      · exact absurd h nofun
      · exact absurd h nofun
      · exact absurd h nofun
      · exact absurd h nofun
      · exact hcont
    have hreap := total_update (w := UrbState.owedReap) (f := s.io.kernel) (u := .done status len) List.nodup_range
      (List.mem_range.mpr hlt)
    have hcancel := total_update (w := UrbState.owedCancel) (f := s.io.kernel) (u := .done status len) List.nodup_range
      (List.mem_range.mpr hlt)
    have howed : (UrbState.done status len).owedReap = 0 ∧ (UrbState.done status len).owedCancel = 1 := by
      rcases hstatus with rfl | rfl <;> exact ⟨rfl, rfl⟩
    rw [hpending, howed.1] at hreap
    rw [hpending, howed.2] at hcancel
    refine .inr (.inl ⟨hwind.action, hwind.result, ?_, ?_, hwind.owed, fun j hj => ?_, hwind.completions, hwind.frees,
      hwind.returned⟩)
    · exact hwind.to_reap.trans hreap.symm
    · exact hwind.to_cancel.trans (Nat.add_right_cancel hcancel).symm
    · show ((s.io.setKernel i (.done status len)).kernel j).Counted (B.continuation j)
      by_cases hji : j = i
      · rw [hji, UrbIo.setKernel_self]
        refine .inr (.inr (.inr (.inr ⟨hcont, .inr ⟨len, ?_⟩⟩)))
        rcases hstatus with rfl | rfl
        · exact .inl rfl
        · exact .inr rfl
      · rw [UrbIo.setKernel_of_ne _ _ hji]
        exact hwind.counted j hj
  · rw [hfin.reaped i (h.1.lt hi)] at hpending
    exact absurd hpending nofun

end

theorem bulk_orderly_step (hn : 0 < B.num_urbs) (h : s.Staged B) (hG : s.Orderly B l) (hstep : BulkStep B s l t) :
    t.Staged B := by
  cases hstep with
  | accept hloop hlt => exact bulk_accept_staged h hloop hlt
  | @refuse errno hloop hlt => exact refuse_staged h errno hloop hlt hG.1 hG.2
  | finish hpending => exact bulk_finish_staged h hpending hG
  | @reap i status len hreturned hdone =>
    rcases h.2 with hrun | hwind | hfin
    · exact bulk_reap_running h.1 hrun hreturned hdone (hG hrun.action status len hdone)
    · exact reap_winding h.1 hwind hdone
    · have hi := hfin.reaped i (h.1.lt (by simp [hdone]))
      rw [hdone] at hi
      exact absurd hi nofun
  | cancel hreturned hlisted =>
    exact discard_staged h .cancel (by simp [hreturned]) hG.1 hlisted hn hG.2 nofun nofun
  | timeout hreturned hlisted =>
    exact discard_staged h s.status (by simp [hreturned]) hG.1 hlisted hn hG.2 nofun nofun

theorem bulk_start_staged (hn : 0 < B.num_urbs) : BulkState.start.Staged B :=
  ⟨⟨rfl, fun _ _ => rfl, fun i hi => absurd hi (Nat.not_lt_zero i), hn⟩,
    .inl ⟨rfl, rfl, rfl, rfl, rfl, fun h => absurd rfl h, nofun⟩⟩

end

/-- In an orderly run a request completes exactly once, when its last submitted URB is reaped. -/
theorem bulk_completes_once (B : BulkRequest) (hn : 0 < B.num_urbs) (ls : List BulkLabel) (s : BulkState)
    (hrun : Run (BulkStep B) (BulkState.Orderly B) .start ls s) : s.Sound := by
  have hstaged : s.Staged B :=
    hrun.inv (fun _ _ _ hs hG hstep => bulk_orderly_step hn hs hG hstep) (bulk_start_staged hn)
  exact hstaged.sound hn

/-- Ten bytes fit one URB. -/
def tenBytes : BulkRequest := { length := 10, length_lt := by decide, supports_continuation := true }

theorem bulk_completes_once_canceled : ∃ s, BulkState.Sound s ∧ s.io.completions = [(OPENUSB_IO_CANCELED, 0)] := by
  have hclean : ∀ j < tenBytes.num_urbs, ((BulkState.start.accepted tenBytes).io.kernel j).Clean := by
    intro j hj
    have hj' : j = 0 := Nat.lt_one_iff.mp hj
    subst hj'
    exact .inl rfl
  exact ⟨_, bulk_completes_once tenBytes (by decide) [.accept, .cancel, .reap 0] _
    (.cons trivial (.accept rfl (by decide)) (.cons ⟨rfl, hclean⟩ (.cancel rfl rfl)
      (.cons (fun h => absurd h nofun) (.reap nofun rfl) (.nil _)))), rfl⟩

/-- A protocol error of the only URB, and a second cancel, each lose the completion. -/
theorem bulk_error_lost :
    (∃ s, Run (BulkStep tenBytes) (fun _ _ => True) .start [.accept, .finish 0 (-71) 0, .reap 0] s ∧
      s.io.kernel 0 = .reaped ∧ s.io.completions = [] ∧ ¬ s.Sound) ∧
    ∃ s, Run (BulkStep tenBytes) (fun _ _ => True) .start [.accept, .cancel, .cancel, .reap 0] s ∧
      s.io.kernel 0 = .reaped ∧ s.io.completions = [] ∧ ¬ s.Sound := by
  refine ⟨⟨_, .cons trivial (.accept rfl (by decide)) (.cons trivial (.finish rfl) (.cons trivial (.reap nofun rfl)
      (.nil _))), rfl, rfl, fun h => ?_⟩,
    ⟨_, .cons trivial (.accept rfl (by decide)) (.cons trivial (.cancel rfl rfl) (.cons trivial (.cancel rfl rfl)
      (.cons trivial (.reap nofun rfl) (.nil _)))), rfl, rfl, fun h => ?_⟩⟩
  all_goals
    have honce := h.once nofun fun i hi => by
      have hi' : i = 0 := Nat.lt_one_iff.mp hi
      subst hi'
      rfl
    exact absurd honce nofun

end OpenUsb
