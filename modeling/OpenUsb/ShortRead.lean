import OpenUsb.BulkOnce

/-!
# ShortRead — a read that ends short

URB `k` is the first one to complete short, with status `- EREMOTEIO` and `len` bytes; `usbfs` then refuses further URBs of
the request with `EREMOTEIO` and cancels those it has with `-ECONNRESET`.  If the short URB is finished after the last
submission the reap handler ends the request with its bytes (`Late`); if it is finished before, `handle_partial_submit`
counts it in `urbs_to_reap`, and its reap does not take it off again (`Stuck`).
-/

namespace OpenUsb

section

variable (B : BulkRequest) (k len : ℕ)

/-- The bytes of the first `r` URBs, when URB `k` is the first short one. -/
def bytesOf (r : ℕ) : ℕ := ((List.range r).map fun i => if i = k then len else B.buffer_length i).sum

/-- What the device and `usbfs` do when URB `k` is the first short one.  The URBs up to `k` finish and are reaped in order,
the later ones are cancelled. -/
def BulkState.ShortAt (s : BulkState) : BulkLabel → Prop
  | .accept => s.io.kernel k = .idle ∨ s.io.kernel k = .pending
  | .refuse errno => errno = EREMOTEIO ∧ ∃ status len, s.io.kernel k = .done status len
  | .finish i status l =>
    if i < k then status = 0 ∧ l = B.buffer_length i
    else if i = k then status = - EREMOTEIO ∧ l = len ∧ ∀ j < k, s.io.kernel j ≠ .pending
    else status = -ECONNRESET
  | .reap i => if i ≤ k then ∀ j < i, s.io.kernel j = .reaped else s.io.kernel k = .reaped
  | .cancel | .timeout => False

/-- The statuses of the finished URBs, and the order of the reaps. -/
structure BulkState.Statuses (s : BulkState) : Prop where
  before : ∀ i < k, ∀ status l, s.io.kernel i = .done status l → status = 0 ∧ l = B.buffer_length i
  short : ∀ status l, s.io.kernel k = .done status l → status = - EREMOTEIO ∧ l = len
  after : ∀ i, k < i → ∀ status l, s.io.kernel i = .done status l → status = -ECONNRESET ∨ status = -ENOENT
  filled : s.io.kernel k ≠ .idle → s.io.kernel k ≠ .pending → ∀ j < k, s.io.kernel j ≠ .pending
  order : ∀ i ≤ k, s.io.kernel i = .reaped → ∀ j < i, s.io.kernel j = .reaped
  later : ∀ i, k < i → s.io.kernel i = .reaped → s.io.kernel k = .reaped

/-- No submission has been refused: the bytes of the URBs reaped in order are counted, and from the short one on the
request ends with success. -/
structure BulkState.Late (s : BulkState) : Prop where
  bytes : ∃ r ≤ k + 1, (∀ j < r, s.io.kernel j = .reaped) ∧ (∀ j, r ≤ j → j ≤ k → s.io.kernel j ≠ .reaped) ∧
    s.io.bytes_transferred = bytesOf B k len r
  ending : s.io.kernel k = .reaped → s.io.completions = [(OPENUSB_SUCCESS, bytesOf B k len (k + 1))] ∨
    s.io.completions = [] ∧ s.io.reap_action = .completedEarly
  normal : s.io.kernel k ≠ .reaped → s.io.completions = [] ∧ s.io.reap_action = .normal

/-- A submission has been refused: `urbs_to_reap` counts the short URB, and nothing takes it off. -/
structure BulkState.Stuck (s : BulkState) : Prop where
  action : s.io.reap_action = .submitFailed
  completions : s.io.completions = []
  frees : s.io.frees = 0
  returned : s.returned ≠ none
  settled : ∀ i, s.io.kernel i ≠ .pending
  counted : total UrbState.owedReap s.io.kernel (List.range k) + 1 ≤ s.io.urbs_to_reap

end

section

variable {B : BulkRequest} {k len : ℕ} {s t : BulkState} {l : BulkLabel}

theorem bytesOf_succ (r : ℕ) :
    bytesOf B k len (r + 1) = bytesOf B k len r + if r = k then len else B.buffer_length r := by
  simp [bytesOf, List.range_succ]

theorem buffer_length_eq {i : ℕ} (h : i + 1 < B.num_urbs) : B.buffer_length i = LINUX_MAX_BULK_INTR_XFER := by
  have hne : ¬ (i = B.num_urbs - 1 ∧ B.length % LINUX_MAX_BULK_INTR_XFER > 0) := by
    rintro ⟨hi, -⟩
    omega
  exact if_neg hne

/-- The URBs before the short one are full. -/
theorem bytesOf_le (hk : k < B.num_urbs) {r : ℕ} (hr : r ≤ k) : bytesOf B k len r ≤ r * LINUX_MAX_BULK_INTR_XFER := by
  induction r with
  | zero => exact Nat.le_refl 0
  | succ r ih =>
    have hprev := ih (by omega)
    have hne : r ≠ k := by omega
    rw [bytesOf_succ, if_neg hne, buffer_length_eq (by omega), Nat.succ_mul]
    omega

/-- The bytes fit a 32-bit counter. -/
theorem bytesOf_lt (hk : k < B.num_urbs) (hlen : len < B.buffer_length k) {r : ℕ} (hr : r ≤ k + 1) :
    bytesOf B k len r < 2 ^ 32 := by
  have hroom : k * LINUX_MAX_BULK_INTR_XFER + len < 2 ^ 32 := by
    have hlength := B.length_lt
    unfold BulkRequest.buffer_length at hlen
    unfold BulkRequest.num_urbs at hk
    unfold LINUX_MAX_BULK_INTR_XFER at *
    split_ifs at hk hlen <;> omega
  by_cases hrk : r = k + 1
  · have hprev := @bytesOf_le B k len hk k le_rfl
    rw [hrk, bytesOf_succ, if_pos rfl]
    omega
  · have hrk' : r ≤ k := by omega
    have hprev := @bytesOf_le B k len hk r hrk'
    have hmul := Nat.mul_le_mul_right LINUX_MAX_BULK_INTR_XFER hrk'
    omega

/-! ## The statuses -/

theorem BulkState.Statuses.congr (h : s.Statuses B k len) (hkernel : t.io.kernel = s.io.kernel) : t.Statuses B k len := by
  obtain ⟨h1, h2, h3, h4, h5, h6⟩ := h
  rw [← hkernel] at h1 h2 h3 h4 h5 h6
  exact ⟨h1, h2, h3, h4, h5, h6⟩

/-- Pending URBs are discarded after the short one has finished. -/
theorem BulkState.Statuses.frame {io : UrbIo} (h : s.Statuses B k len) (hframe : io.Frame t.io)
    (hkernel : io.kernel = s.io.kernel) (hidle : s.io.kernel k ≠ .idle) (hpending : s.io.kernel k ≠ .pending) :
    t.Statuses B k len := by
  have hsame : ∀ j ≤ k, t.io.kernel j = s.io.kernel j := by
    intro j hj
    rw [← hkernel]
    refine hframe.kernel_of_ne ?_
    rw [hkernel]
    rcases Nat.lt_or_eq_of_le hj with hlt | rfl
    · exact h.filled hidle hpending j hlt
    · exact hpending
  refine ⟨fun i hi => ?_, ?_, fun i hi status l hdone => ?_, fun _ _ j hj => ?_, fun i hi hreaped j hj => ?_,
    fun i hi hreaped => ?_⟩
  · rw [hsame i hi.le]
    exact h.before i hi
  · rw [hsame k le_rfl]
    exact h.short
  · rcases hframe.kernel i with hi' | ⟨-, hi'⟩
    · rw [hkernel] at hi'
      exact h.after i hi status l (hi' ▸ hdone)
    · rw [hi'] at hdone
      exact .inr (UrbState.done.inj hdone).1.symm
  · rw [hsame j hj.le]
    exact h.filled hidle hpending j hj
  · rw [hsame j (hj.le.trans hi)]
    exact h.order i hi (hsame i hi ▸ hreaped) j hj
  · rw [hsame k le_rfl]
    rcases hframe.kernel i with hi' | ⟨-, hi'⟩
    · rw [hkernel] at hi'
      exact h.later i hi (hi' ▸ hreaped)
    · rw [hi'] at hreaped
      exact absurd hreaped nofun

/-- One URB that has not been reaped moves, as the device and `usbfs` would have it. -/
theorem BulkState.Statuses.move {i : ℕ} {u : UrbState} (h : s.Statuses B k len)
    (hkernel : t.io.kernel = Function.update s.io.kernel i u) (hlive : s.io.kernel i ≠ .reaped)
    (hdone : ∀ status l, u = .done status l →
      if i < k then status = 0 ∧ l = B.buffer_length i
      else if i = k then status = - EREMOTEIO ∧ l = len else status = -ECONNRESET)
    (hpending : u = .pending → s.io.kernel k = .idle ∨ s.io.kernel k = .pending)
    (hfilled : i = k → u ≠ .pending → ∀ j < k, s.io.kernel j ≠ .pending)
    (hreaped : u = .reaped → if i ≤ k then ∀ j < i, s.io.kernel j = .reaped else s.io.kernel k = .reaped) :
    t.Statuses B k len := by
  have hself : t.io.kernel i = u := by rw [hkernel, Function.update_self]
  have hother : ∀ j, j ≠ i → t.io.kernel j = s.io.kernel j := fun j hj => by rw [hkernel, Function.update_of_ne hj]
  refine ⟨fun j hj status l hj' => ?_, fun status l hk' => ?_, fun j hj status l hj' => ?_, fun hidle hpend j hj hj' => ?_,
    fun j hj hj' m hm => ?_, fun j hj hj' => ?_⟩
  · by_cases hji : j = i
    · subst hji
      have hd := hdone status l (hself.symm.trans hj')
      rwa [if_pos hj] at hd
    · exact h.before j hj status l ((hother j hji).symm.trans hj')
  · by_cases hki : k = i
    · subst hki
      have hd := hdone status l (hself.symm.trans hk')
      rwa [if_neg (Nat.lt_irrefl k), if_pos rfl] at hd
    · exact h.short status l ((hother k hki).symm.trans hk')
  · by_cases hji : j = i
    · subst hji
      have hd := hdone status l (hself.symm.trans hj')
      rw [if_neg (by omega), if_neg (by omega)] at hd
      exact .inl hd
    · exact h.after j hj status l ((hother j hji).symm.trans hj')
  · by_cases hki : k = i
    · subst hki
      rw [hother j hj.ne] at hj'
      exact hfilled rfl (hself ▸ hpend) j hj hj'
    · rw [hother k hki] at hidle hpend
      by_cases hji : j = i
      · subst hji
        exact (hpending (hself.symm.trans hj')).elim hidle hpend
      · exact h.filled hidle hpend j hj ((hother j hji).symm.trans hj')
  · have hm' : m ≠ i → s.io.kernel m = .reaped → t.io.kernel m = .reaped := fun hmi hr => (hother m hmi).trans hr
    by_cases hji : j = i
    · subst hji
      have hr := hreaped (hself.symm.trans hj')
      rw [if_pos hj] at hr
      exact hm' hm.ne (hr m hm)
    · have hr := h.order j hj ((hother j hji).symm.trans hj') m hm
      exact hm' (fun hmi => hlive (hmi ▸ hr)) hr
  · have hk' : k ≠ i → s.io.kernel k = .reaped → t.io.kernel k = .reaped := fun hki hr => (hother k hki).trans hr
    by_cases hji : j = i
    · subst hji
      have hr := hreaped (hself.symm.trans hj')
      rw [if_neg (by omega)] at hr
      exact hk' hj.ne hr
    · have hr := h.later j hj ((hother j hji).symm.trans hj')
      exact hk' (fun hki => hlive (hki ▸ hr)) hr

theorem statuses_accept (h : s.Statuses B k len) (hcommon : s.Common B)
    (hG : s.io.kernel k = .idle ∨ s.io.kernel k = .pending) : (s.accepted B).Statuses B k len :=
  h.move (i := s.submitted) (u := .pending) rfl (by simp [hcommon.idle s.submitted le_rfl]) nofun (fun _ => hG)
    (fun _ hne => absurd rfl hne) nofun

theorem statuses_finish {i : ℕ} {status : ℤ} {l : ℕ} (h : s.Statuses B k len) (hpending : s.io.kernel i = .pending)
    (hG : s.ShortAt B k len (.finish i status l)) :
    BulkState.Statuses B k len { s with io := s.io.setKernel i (.done status l) } := by
  refine h.move (i := i) (u := .done status l) rfl (by simp [hpending]) (fun st l' hst => ?_) nofun (fun hik _ => ?_) nofun
  · obtain ⟨rfl, rfl⟩ := UrbState.done.inj hst
    have hG' : if i < k then status = 0 ∧ l = B.buffer_length i
        else if i = k then status = - EREMOTEIO ∧ l = len ∧ ∀ j < k, s.io.kernel j ≠ .pending
        else status = -ECONNRESET := hG
    split_ifs at hG' ⊢
    · exact hG'
    · exact ⟨hG'.1, hG'.2.1⟩
    · exact hG'
  · have hG' : if i < k then status = 0 ∧ l = B.buffer_length i
        else if i = k then status = - EREMOTEIO ∧ l = len ∧ ∀ j < k, s.io.kernel j ≠ .pending
        else status = -ECONNRESET := hG
    rw [if_neg (by omega), if_pos hik] at hG'
    exact hG'.2.2

theorem statuses_taken {i : ℕ} {status : ℤ} {l : ℕ} (h : s.Statuses B k len) (hdone : s.io.kernel i = .done status l)
    (hG : s.ShortAt B k len (.reap i)) : (s.taken i).Statuses B k len := by
  refine h.move (i := i) (u := .reaped) rfl (by simp [hdone]) nofun nofun (fun hik _ => ?_) fun _ => hG
  subst hik
  exact h.filled (by simp [hdone]) (by simp [hdone])

/-! ## No refusal -/

theorem continuation_of_pos (hsup : B.supports_continuation = true) {j : ℕ} (hj : 0 < j) (hlt : j < B.num_urbs) :
    B.continuation j = true := by
  have hn : B.num_urbs > 1 := by omega
  simp [BulkRequest.continuation, hsup, hj, hn]

/-- As long as the short URB is not reaped the request is `NORMAL`. -/
theorem BulkState.Late.running (hlate : s.Late B k len) (h : s.Staged B) (hk : s.io.kernel k ≠ .reaped) : s.Running B := by
  have hmode := hlate.normal hk
  rcases h.2 with hrun | hwind | hfin
  · exact hrun
  · exact absurd hmode.2 hwind.action
  · have hlength := hfin.completions
    rw [hmode.1] at hlength
    exact absurd hlength nofun

/-- Afterwards, as long as a URB is left, the request is winding up. -/
theorem BulkState.Late.winding (hlate : s.Late B k len) (h : s.Staged B) (hk : s.io.kernel k = .reaped) {i : ℕ}
    (hi : s.io.kernel i ≠ .idle) (hne : s.io.kernel i ≠ .reaped) :
    s.Winding B ∧ s.io.completions = [] ∧ s.io.reap_action = .completedEarly := by
  have hmode := hlate.ending hk
  have hopen : s.io.completions = [] ∧ s.io.reap_action = .completedEarly := by
    refine hmode.resolve_left fun hclosed => ?_
    rcases h.2 with hrun | hwind | hfin
    · exact absurd (hclosed.symm.trans hrun.completions) nofun
    · exact absurd (hclosed.symm.trans hwind.completions) nofun
    · exact hne (hfin.reaped i (h.1.lt hi))
  refine ⟨?_, hopen⟩
  rcases h.2 with hrun | hwind | hfin
  · exact absurd (hopen.2.symm.trans hrun.action) nofun
  · exact hwind
  · exact absurd (hfin.reaped i (h.1.lt hi)) hne

/-- The number of reaped URBs, when URB `i` is the next one. -/
theorem BulkState.Late.bytes_next (hlate : s.Late B k len) {i : ℕ} (hi : i ≤ k) (hne : s.io.kernel i ≠ .reaped)
    (hbefore : ∀ j < i, s.io.kernel j = .reaped) : s.io.bytes_transferred = bytesOf B k len i := by
  obtain ⟨r, -, hr, hr', hbytes⟩ := hlate.bytes
  have hri : r = i := by
    rcases Nat.lt_trichotomy r i with hlt | heq | hgt
    · exact absurd (hbefore r hlt) (hr' r le_rfl (hlt.le.trans hi))
    · exact heq
    · exact absurd (hr i hgt) hne
  rw [hbytes, hri]

/-- The short URB is reaped before the request leaves `NORMAL`, so the device then only finishes canceled URBs. -/
theorem short_finish_orderly {i : ℕ} {status : ℤ} {l' : ℕ} (h : s.Staged B) (hstat : s.Statuses B k len)
    (hlate : s.Late B k len) (hG : s.ShortAt B k len (.finish i status l')) (hpending : s.io.kernel i = .pending) :
    s.Orderly B (.finish i status l') := by
  intro haction
  have hkr : s.io.kernel k = .reaped := by
    by_contra hne
    exact haction (hlate.running h hne).action
  have hik : ¬ i ≤ k := by
    intro hik
    have hri : s.io.kernel i = .reaped := by
      rcases Nat.lt_or_eq_of_le hik with hlt | rfl
      · exact hstat.order k le_rfl hkr i hlt
      · exact hkr
    exact absurd (hpending.symm.trans hri) nofun
  have hG' : if i < k then status = 0 ∧ l' = B.buffer_length i
      else if i = k then status = - EREMOTEIO ∧ l' = len ∧ ∀ j < k, s.io.kernel j ≠ .pending
      else status = -ECONNRESET := hG
  rw [if_neg (by omega), if_neg (by omega)] at hG'
  exact .inl hG'

/-- While the request is `NORMAL`, it is one of the full URBs that is reaped, or the short one with the rest canceled. -/
theorem short_reap_orderly {i : ℕ} {status : ℤ} {l' : ℕ} (hsup : B.supports_continuation = true) (hk : k < B.num_urbs)
    (h : s.Staged B) (hstat : s.Statuses B k len) (hlate : s.Late B k len) (hG : s.ShortAt B k len (.reap i))
    (hreturned : s.returned ≠ none) (hdone : s.io.kernel i = .done status l') : s.Orderly B (.reap i) := by
  intro haction st l'' hst
  obtain ⟨rfl, rfl⟩ := UrbState.done.inj (hdone.symm.trans hst)
  have hi : s.io.kernel i ≠ .idle := by simp [hdone]
  have hne : s.io.kernel i ≠ .reaped := by simp [hdone]
  have hG' : if i ≤ k then ∀ j < i, s.io.kernel j = .reaped else s.io.kernel k = .reaped := hG
  have hik : i ≤ k := by
    by_contra hik
    rw [if_neg hik] at hG'
    exact (hlate.winding h hG' hi hne).1.action haction
  rw [if_pos hik] at hG'
  unfold BulkState.ReapOrderly
  rcases Nat.lt_or_eq_of_le hik with hlt | rfl
  · obtain ⟨rfl, rfl⟩ := hstat.before i hlt status l' hdone
    rw [if_neg (by rintro (h | h) <;> [exact absurd h (by decide); omega])]
    exact .inl ⟨.inl rfl, Nat.lt_irrefl _⟩
  · obtain ⟨rfl, rfl⟩ := hstat.short status l' hdone
    by_cases hlast : i = B.num_urbs - 1
    · rw [if_pos (.inr hlast)]
      exact ⟨.inr (.inl rfl), fun j hj hji => hG' j (by omega)⟩
    · rw [if_neg (by rintro (h | h) <;> [exact absurd h (by decide); exact hlast h])]
      refine .inr ⟨hG', fun j hj hij => ?_⟩
      have hrun := hlate.running h hne
      have hjs : j < s.submitted := hrun.full hreturned ▸ hj
      unfold BulkRequest.Awaitable
      rw [if_pos (continuation_of_pos hsup (Nat.zero_lt_of_lt hij) hj)]
      cases hkj : s.io.kernel j with
      | idle => exact absurd hkj (h.1.live j hjs)
      | pending => exact .inl rfl
      | done st l =>
        rcases hstat.after j hij st l hkj with rfl | rfl
        · exact .inr ⟨l, .inl rfl⟩
        · exact .inr ⟨l, .inr rfl⟩
      | reaped => exact absurd (hstat.later j hij hkj) hne

/-- The short read is orderly as long as no submission is refused. -/
theorem short_orderly (hsup : B.supports_continuation = true) (hk : k < B.num_urbs) (h : s.Staged B)
    (hstat : s.Statuses B k len) (hlate : s.Late B k len) (hG : s.ShortAt B k len l) (hstep : BulkStep B s l t)
    (hrefuse : ∀ errno, l ≠ .refuse errno) : s.Orderly B l := by
  cases hstep with
  | accept => trivial
  | @refuse errno => exact absurd rfl (hrefuse errno)
  | finish hpending => exact short_finish_orderly h hstat hlate hG hpending
  | reap hreturned hdone => exact short_reap_orderly hsup hk h hstat hlate hG hreturned hdone
  | cancel => exact hG.elim
  | timeout => exact hG.elim

/-- Nothing is reaped. -/
theorem BulkState.Late.congr (h : s.Late B k len) (hreaped : ∀ j, t.io.kernel j = .reaped ↔ s.io.kernel j = .reaped)
    (hbytes : t.io.bytes_transferred = s.io.bytes_transferred) (hcompletions : t.io.completions = s.io.completions)
    (haction : t.io.reap_action = s.io.reap_action) : t.Late B k len := by
  obtain ⟨r, hrk, hr, hr', hb⟩ := h.bytes
  refine ⟨⟨r, hrk, fun j hj => (hreaped j).mpr (hr j hj), fun j hj hjk hj' => hr' j hj hjk ((hreaped j).mp hj'),
    hbytes.trans hb⟩, ?_, ?_⟩
  · rw [hcompletions, haction, hreaped k]
    exact h.ending
  · rw [hcompletions, haction, Ne, hreaped k]
    exact h.normal

theorem reaped_setKernel {i : ℕ} {u : UrbState} (hi : s.io.kernel i ≠ .reaped) (hu : u ≠ .reaped) (j : ℕ) :
    (s.io.setKernel i u).kernel j = .reaped ↔ s.io.kernel j = .reaped := by
  by_cases hj : j = i
  · subst hj
    rw [UrbIo.setKernel_self]
    exact ⟨fun h => absurd h hu, fun h => absurd h hi⟩
  · rw [UrbIo.setKernel_of_ne _ _ hj]

theorem countBytes_pos {status : ℤ} (h : status = 0 ∨ status = - EREMOTEIO) (l : ℕ) :
    s.countBytes status l = s.withBytes ((s.io.bytes_transferred + l) % 2 ^ 32) := if_pos h

theorem countBytes_neg {status : ℤ} (h : ¬ (status = 0 ∨ status = - EREMOTEIO)) (l : ℕ) : s.countBytes status l = s :=
  if_neg h

section

variable {i : ℕ} {status : ℤ} {l : ℕ}

/-- The reap of a full URB before the short one. -/
theorem late_reap_before (hk : k < B.num_urbs) (hlen : len < B.buffer_length k) (h : s.Staged B)
    (hstat : s.Statuses B k len) (hlate : s.Late B k len) (hdone : s.io.kernel i = .done status l) (hi : i < k)
    (hbefore : ∀ j < i, s.io.kernel j = .reaped) :
    ((s.taken i).handleBulkIntrComplete B i status l).Statuses B k len ∧
      ((s.taken i).handleBulkIntrComplete B i status l).Late B k len := by
  have hne : s.io.kernel i ≠ .reaped := by simp [hdone]
  have hkr : s.io.kernel k ≠ .reaped := fun hkr => hne (hstat.order k le_rfl hkr i hi)
  have hrun := hlate.running h hkr
  have htaken := statuses_taken hstat hdone (by
    show if i ≤ k then ∀ j < i, s.io.kernel j = .reaped else s.io.kernel k = .reaped
    rwa [if_pos hi.le])
  obtain ⟨rfl, rfl⟩ := hstat.before i hi status l hdone
  have hnext : (s.io.bytes_transferred + B.buffer_length i) % 2 ^ 32 = bytesOf B k len (i + 1) := by
    have hsucc := @bytesOf_succ B k len i
    rw [if_neg hi.ne] at hsucc
    rw [hlate.bytes_next hi.le hne hbefore, ← hsucc]
    exact Nat.mod_eq_of_lt (bytesOf_lt hk hlen (by omega))
  rw [@bulk_handle_normal B (s.taken i) i 0 (B.buffer_length i) hrun.frees hrun.action, countBytes_pos (.inl rfl),
    normal_quiet (.inl rfl) (by omega) (Nat.lt_irrefl _)]
  refine ⟨htaken.congr rfl, ⟨i + 1, by omega, fun j hj => ?_, fun j hij hjk => ?_, hnext⟩, fun hk' => ?_, fun _ => ?_⟩
  · by_cases hji : j = i
    · rw [hji]
      exact taken_self s i
    · exact (taken_of_ne s hji).trans (hbefore j (by omega))
  · have hji : j ≠ i := by omega
    show (s.taken i).io.kernel j ≠ .reaped
    rw [taken_of_ne s hji]
    exact fun hj => hne (hstat.order j hjk hj i (by omega))
  · exact absurd ((taken_of_ne s hi.ne').symm.trans hk') hkr
  · exact ⟨hrun.completions, hrun.action⟩

/-- The reap of the short URB. -/
theorem late_reap_short (hk : k < B.num_urbs) (hlen : len < B.buffer_length k) (h : s.Staged B)
    (hstat : s.Statuses B k len) (hlate : s.Late B k len) (hdone : s.io.kernel k = .done status l)
    (hbefore : ∀ j < k, s.io.kernel j = .reaped) :
    ((s.taken k).handleBulkIntrComplete B k status l).Statuses B k len ∧
      ((s.taken k).handleBulkIntrComplete B k status l).Late B k len := by
  have hne : s.io.kernel k ≠ .reaped := by simp [hdone]
  have hrun := hlate.running h hne
  have htaken := statuses_taken hstat hdone (by
    show if k ≤ k then ∀ j < k, s.io.kernel j = .reaped else s.io.kernel k = .reaped
    rwa [if_pos le_rfl])
  obtain ⟨rfl, rfl⟩ := hstat.short status l hdone
  have hnext : (s.io.bytes_transferred + l) % 2 ^ 32 = bytesOf B k l (k + 1) := by
    have hsucc := @bytesOf_succ B k l k
    rw [if_pos rfl] at hsucc
    rw [hlate.bytes_next le_rfl hne hbefore, ← hsucc]
    exact Nat.mod_eq_of_lt (bytesOf_lt hk hlen le_rfl)
  have hall : ∀ j < k + 1, (s.taken k).io.kernel j = .reaped := by
    intro j hj
    by_cases hjk : j = k
    · rw [hjk]
      exact taken_self s k
    · exact (taken_of_ne s hjk).trans (hbefore j (by omega))
  rw [@bulk_handle_normal B (s.taken k) k (- EREMOTEIO) l hrun.frees hrun.action, countBytes_pos (.inr rfl)]
  by_cases hlast : k = B.num_urbs - 1
  · rw [normal_last (.inr rfl) hlast]
    refine ⟨htaken.congr rfl, ⟨k + 1, le_rfl, hall, fun j hj hjk => absurd hjk (by omega), hnext⟩, fun _ => .inl ?_,
      fun hk' => absurd (hall k (Nat.lt_succ_self k)) hk'⟩
    show s.io.completions ++ [(OPENUSB_SUCCESS, (s.io.bytes_transferred + l) % 2 ^ 32)] = _
    rw [hrun.completions, hnext, List.nil_append]
  · rw [normal_short (.inr rfl) hlast hlen]
    have hframe := handlePartialXfer_frame B.layout (k + 1) .completedEarly
      ((s.taken k).withBytes ((s.io.bytes_transferred + l) % 2 ^ 32)).io
    have hall' : ∀ j < k + 1, (handlePartialXfer B.layout (k + 1) .completedEarly
        ((s.taken k).withBytes ((s.io.bytes_transferred + l) % 2 ^ 32)).io).kernel j = .reaped := by
      intro j hj
      have hj' := hall j hj
      exact (hframe.kernel_of_ne (hj'.trans_ne nofun)).trans hj'
    refine ⟨htaken.frame hframe rfl (by simp [taken_self]) (by simp [taken_self]),
      ⟨k + 1, le_rfl, hall', fun j hj hjk => absurd hjk (by omega), hframe.bytes.trans hnext⟩,
      fun _ => .inr ⟨hframe.completions.trans hrun.completions, hframe.action⟩,
      fun hk' => absurd (hall' k (Nat.lt_succ_self k)) hk'⟩

/-- A request that completed early ends with success, or goes on. -/
theorem drain_early (h : s.io.reap_action = .completedEarly) :
    s.drain.io.kernel = s.io.kernel ∧ s.drain.io.bytes_transferred = s.io.bytes_transferred ∧
      (s.drain.io.completions = s.io.completions ++ [(OPENUSB_SUCCESS, s.io.bytes_transferred)] ∨
        s.drain.io.completions = s.io.completions ∧ s.drain.io.reap_action = .completedEarly) := by
  have hresult : s.io.reap_action.result = some OPENUSB_SUCCESS := by rw [h]; rfl
  by_cases hzero : s.io.urbs_to_reap = 0 ∧ s.io.urbs_to_cancel = 0
  · rw [drain_of_zero hzero hresult]
    exact ⟨rfl, rfl, .inl rfl⟩
  · rw [drain_of_owed hzero]
    exact ⟨rfl, rfl, .inr ⟨rfl, h⟩⟩

theorem not_counted {status : ℤ} (h : status = -ECONNRESET ∨ status = -ENOENT) :
    ¬ (status = 0 ∨ status = - EREMOTEIO) := by
  rcases h with rfl | rfl <;> decide

/-- The reap of a URB behind the short one. -/
theorem late_reap_after (h : s.Staged B) (hstat : s.Statuses B k len) (hlate : s.Late B k len)
    (hdone : s.io.kernel i = .done status l) (hi : k < i) (hkr : s.io.kernel k = .reaped) :
    ((s.taken i).handleBulkIntrComplete B i status l).Statuses B k len ∧
      ((s.taken i).handleBulkIntrComplete B i status l).Late B k len := by
  have hne : s.io.kernel i ≠ .reaped := by simp [hdone]
  have hidle : s.io.kernel i ≠ .idle := by simp [hdone]
  obtain ⟨hwind, hnone, haction⟩ := hlate.winding h hkr hidle hne
  have htaken := statuses_taken hstat hdone (by
    show if i ≤ k then ∀ j < i, s.io.kernel j = .reaped else s.io.kernel k = .reaped
    rwa [if_neg (by omega)])
  have hall : ∀ j < k + 1, s.io.kernel j = .reaped := by
    intro j hj
    rcases Nat.lt_or_eq_of_le (Nat.le_of_lt_succ hj) with hlt | rfl
    · exact hstat.order k le_rfl hkr j hlt
    · exact hkr
  have hbytes : s.io.bytes_transferred = bytesOf B k len (k + 1) := by
    obtain ⟨r, hrk, -, hr', hb⟩ := hlate.bytes
    have hr : r = k + 1 := by
      by_contra hne'
      exact hr' r le_rfl (by omega) (hall r (by omega))
    rw [hb, hr]
  rw [@bulk_handle_awaited B (s.taken i) i status l hwind.frees hwind.action,
    countBytes_neg (not_counted (hstat.after i hi status l hdone))]
  unfold BulkState.reapAwaited
  obtain ⟨hkernel, hbytes', hcompletions, haction', -⟩ :=
    awaitedReap_keeps (B.continuation i) status (s.taken i).io
  obtain ⟨hdk, hdb, hdc⟩ := @drain_early
    { s.taken i with io := awaitedReap (B.continuation i) status (s.taken i).io } (haction'.trans haction)
  have hkernel' := hdk.trans hkernel
  have hall' : ∀ j < k + 1, (BulkState.drain { s.taken i with
      io := awaitedReap (B.continuation i) status (s.taken i).io }).io.kernel j = .reaped := by
    intro j hj
    have hji : j ≠ i := by omega
    exact (congrFun hkernel' j).trans ((taken_of_ne s hji).trans (hall j hj))
  have htotal : (awaitedReap (B.continuation i) status (s.taken i).io).bytes_transferred = bytesOf B k len (k + 1) :=
    hbytes'.trans hbytes
  refine ⟨htaken.congr hkernel', ⟨k + 1, le_rfl, hall', fun j hj hjk => absurd hjk (by omega), hdb.trans htotal⟩,
    fun _ => ?_, fun hk' => absurd (hall' k (Nat.lt_succ_self k)) hk'⟩
  rcases hdc with hclosed | ⟨hopen, hearly⟩
  · refine .inl (hclosed.trans ?_)
    show (awaitedReap _ _ _).completions ++ [(OPENUSB_SUCCESS, (awaitedReap _ _ _).bytes_transferred)] = _
    rw [hcompletions, htotal]
    show s.io.completions ++ _ = _
    rw [hnone, List.nil_append]
  · exact .inr ⟨hopen.trans (hcompletions.trans hnone), hearly⟩

end

/-- One step of a short read without a refusal. -/
theorem late_step (hsup : B.supports_continuation = true) (hk : k < B.num_urbs) (hlen : len < B.buffer_length k)
    (h : s.Staged B ∧ s.Statuses B k len ∧ s.Late B k len) (hG : s.ShortAt B k len l) (hstep : BulkStep B s l t)
    (hrefuse : ∀ errno, l ≠ .refuse errno) : t.Staged B ∧ t.Statuses B k len ∧ t.Late B k len := by
  obtain ⟨hstaged, hstat, hlate⟩ := h
  refine ⟨bulk_orderly_step (by omega) hstaged (short_orderly hsup hk hstaged hstat hlate hG hstep hrefuse) hstep, ?_⟩
  cases hstep with
  | accept =>
    have hidle := hstaged.1.idle s.submitted le_rfl
    exact ⟨statuses_accept hstat hstaged.1 hG,
      hlate.congr (reaped_setKernel (hidle.trans_ne nofun) nofun) rfl rfl rfl⟩
  | @refuse errno => exact absurd rfl (hrefuse errno)
  | finish hpending =>
    exact ⟨statuses_finish hstat hpending hG, hlate.congr (reaped_setKernel (hpending.trans_ne nofun) nofun) rfl rfl rfl⟩
  | @reap i status l hreturned hdone =>
    have hG' : if i ≤ k then ∀ j < i, s.io.kernel j = .reaped else s.io.kernel k = .reaped := hG
    rcases Nat.lt_trichotomy i k with hlt | rfl | hgt
    · rw [if_pos hlt.le] at hG'
      exact late_reap_before hk hlen hstaged hstat hlate hdone hlt hG'
    · rw [if_pos le_rfl] at hG'
      exact late_reap_short hk hlen hstaged hstat hlate hdone hG'
    · rw [if_neg (by omega)] at hG'
      exact late_reap_after hstaged hstat hlate hdone hgt hG'
  | cancel => exact hG.elim
  | timeout => exact hG.elim

/-! ## A refusal -/

/-- What `IOCTL_USB_DISCARDURB` refuses with `EINVAL`. -/
def UrbState.refusal (u : UrbState) : ℕ := if u = .pending then 0 else 1

/-- Discarding the URBs of a list counts those that are not pending in `urbs_to_reap`, and leaves none pending. -/
theorem discards_settle {js : List ℕ} {io : UrbIo} (hnodup : js.Nodup) (hjs : ∀ j ∈ js, j < B.num_urbs)
    (hroom : io.urbs_to_reap + js.length < 2 ^ 32) :
    (js.foldl (fun s i => discardUrb B.layout i s) io).urbs_to_reap =
        io.urbs_to_reap + total UrbState.refusal io.kernel js ∧
      ∀ j ∈ js, (js.foldl (fun s i => discardUrb B.layout i s) io).kernel j ≠ .pending := by
  induction js generalizing io with
  | nil => exact ⟨rfl, fun j hj => absurd hj List.not_mem_nil⟩
  | cons j js ih =>
    rw [List.nodup_cons] at hnodup
    rw [List.length_cons] at hroom
    have hone : (discardUrb B.layout j io).urbs_to_reap = io.urbs_to_reap + (io.kernel j).refusal ∧
        (discardUrb B.layout j io).kernel j ≠ .pending ∧
        ∀ m, m ≠ j → (discardUrb B.layout j io).kernel m = io.kernel m := by
      unfold discardUrb UrbState.refusal
      rw [names_self (hjs j List.mem_cons_self)]
      by_cases hpending : io.kernel j = .pending
      · simp only [if_pos hpending]
        refine ⟨rfl, ?_, fun m hm => UrbIo.setKernel_of_ne _ _ hm _⟩
        show (UrbIo.setKernel _ j _).kernel j ≠ .pending
        rw [UrbIo.setKernel_self]
        exact nofun
      · simp only [if_neg hpending]
        have hone : io.urbs_to_reap + 1 < 2 ^ 32 := by omega
        exact ⟨Nat.mod_eq_of_lt hone, hpending, fun _ _ => rfl⟩
    obtain ⟨hreap, hself, hother⟩ := hone
    have hle : (io.kernel j).refusal ≤ 1 := by
      unfold UrbState.refusal
      split_ifs <;> omega
    obtain ⟨htotal, hsettled⟩ := ih hnodup.2 (fun m hm => hjs m (List.mem_cons_of_mem j hm)) (by rw [hreap]; omega)
    have hframe : (discardUrb B.layout j io).Frame (js.foldl (fun s i => discardUrb B.layout i s) (discardUrb B.layout j io)) :=
      foldl_frame (fun s i => discardUrb_frame B.layout i s) js _
    refine ⟨?_, fun m hm => ?_⟩
    · rw [List.foldl_cons, htotal, hreap, total_cons, Nat.add_assoc,
        total_congr fun m hm => congrArg UrbState.refusal (hother m (ne_of_mem_of_not_mem hm hnodup.1))]
    · rcases List.mem_cons.mp hm with rfl | hm'
      · rw [List.foldl_cons, hframe.kernel_of_ne hself]
        exact hself
      · exact hsettled m hm'

/-- A refusal after the short URB has finished. -/
theorem stuck_refuse (hk : k < B.num_urbs) (h : s.Staged B) (hstat : s.Statuses B k len) (hlate : s.Late B k len)
    (errno : ℤ) (hlt : s.submitted < B.num_urbs) {status : ℤ} {l : ℕ} (hdone : s.io.kernel k = .done status l) :
    (s.refused B errno).Common B ∧ (s.refused B errno).Statuses B k len ∧ (s.refused B errno).Stuck k := by
  have hks : k < s.submitted := h.1.lt (by simp [hdone])
  have hrun := hlate.running h (by simp [hdone])
  have hrefused : s.refused B errno =
      { s with io := handlePartialSubmit B.layout s.submitted s.io, returned := some OPENUSB_SUCCESS } := by
    unfold BulkState.refused
    rw [if_neg (by omega), if_neg (by decide)]
  have hframe := handlePartialSubmit_frame B.layout s.submitted s.io
  have hn := num_urbs_lt B
  obtain ⟨htotal, hsettled⟩ := @discards_settle B (List.range s.submitted) { s.io with reap_action := .submitFailed }
    List.nodup_range (fun j hj => (List.mem_range.mp hj).trans hlt) (by
      show s.io.urbs_to_reap + _ < _
      rw [hrun.to_reap, List.length_range]
      omega)
  have hcame : ∀ j < k + 1, s.io.kernel j ≠ .pending := by
    intro j hj
    rcases Nat.lt_or_eq_of_le (Nat.le_of_lt_succ hj) with hjk | rfl
    · exact hstat.filled (by simp [hdone]) (by simp [hdone]) j hjk
    · simp [hdone]
  rw [hrefused]
  refine ⟨common_of_frame hframe rfl h.1.misuse rfl ?_ h.1,
    hstat.frame hframe rfl (by simp [hdone]) (by simp [hdone]), hframe.action, ?_, ?_, nofun, fun j => ?_, ?_⟩
  · rw [if_neg nofun]
    exact hlt.le
  · exact hframe.completions.trans hrun.completions
  · exact hframe.frees.trans hrun.frees
  · by_cases hj : j < s.submitted
    · exact hsettled j (List.mem_range.mpr hj)
    · have hidle := h.1.idle j (Nat.le_of_not_lt hj)
      exact (hframe.kernel_of_ne (hidle.trans_ne nofun)).trans_ne (hidle.trans_ne nofun)
  · -- the URBs up to the short one are all counted in `urbs_to_reap`
    have hcount : k + 1 ≤ total UrbState.refusal s.io.kernel (List.range s.submitted) := by
      have hprefix := total_eq_length (w := UrbState.refusal) (f := s.io.kernel) (l := List.range (k + 1))
        fun j hj => if_neg (hcame j (List.mem_range.mp hj))
      rw [List.length_range] at hprefix
      rw [← hprefix]
      exact total_range_mono hks
    have howed := total_le (w := UrbState.owedReap)
      (f := (handlePartialSubmit B.layout s.submitted s.io).kernel) (l := List.range k)
      fun u => (Nat.le_add_right _ _).trans u.owed_le
    rw [List.length_range] at howed
    refine (Nat.add_le_add_right howed 1).trans (hcount.trans ?_)
    exact (htotal.trans (by rw [hrun.to_reap, Nat.zero_add])).ge

theorem awaitedReap_reap (c : Bool) (status : ℤ) (io : UrbIo) :
    (awaitedReap c status io).urbs_to_reap = if status = 0 then io.urbs_to_reap - 1 else io.urbs_to_reap := by
  unfold awaitedReap
  by_cases hzero : status = 0
  · subst hzero
    have hne : ¬ ((0 : ℤ) = -ECONNRESET ∧ c = true) := fun h => absurd h.1 (by decide)
    rw [if_neg (by decide), if_neg hne, if_pos rfl, if_pos rfl]
    unfold UrbIo.decReap
    split_ifs with h
    · rw [h]
    · rfl
  · rw [if_neg hzero, if_neg hzero]
    unfold UrbIo.decCancel
    split_ifs <;> rfl

/-- The count goes down only with a full URB before the short one. -/
theorem stuck_reap {i : ℕ} {status : ℤ} {l : ℕ} (hcommon : s.Common B) (hstat : s.Statuses B k len) (h : s.Stuck k)
    (hdone : s.io.kernel i = .done status l) (hG : s.ShortAt B k len (.reap i)) :
    ((s.taken i).handleBulkIntrComplete B i status l).Common B ∧
      ((s.taken i).handleBulkIntrComplete B i status l).Statuses B k len ∧
      ((s.taken i).handleBulkIntrComplete B i status l).Stuck k := by
  have hi : s.io.kernel i ≠ .idle := by simp [hdone]
  obtain ⟨b, hbytes⟩ := countBytes_eq (s.taken i) status l
  have hkeeps := awaitedReap_keeps (B.continuation i) status ((s.taken i).withBytes b).io
  have htaken : total UrbState.owedReap (s.taken i).io.kernel (List.range k) + (if status = 0 then 1 else 0) =
      total UrbState.owedReap s.io.kernel (List.range k) := by
    by_cases hik : i < k
    · have hupdate := total_update (w := UrbState.owedReap) (f := s.io.kernel) (u := .reaped) List.nodup_range
        (List.mem_range.mpr hik)
      rw [hdone] at hupdate
      exact hupdate
    · have hstatus : status ≠ 0 := by
        rcases Nat.lt_or_eq_of_le (Nat.le_of_not_lt hik) with hlt | rfl
        · exact fun h => not_counted (hstat.after i hlt status l hdone) (.inl h)
        · rw [(hstat.short status l hdone).1]
          decide
      rw [if_neg hstatus]
      exact total_update_of_notMem fun hmem => hik (List.mem_range.mp hmem)
  have hcount : total UrbState.owedReap (s.taken i).io.kernel (List.range k) + 1 ≤
      (awaitedReap (B.continuation i) status ((s.taken i).withBytes b).io).urbs_to_reap := by
    have hcounted := h.counted
    rw [← htaken] at hcounted
    rw [awaitedReap_reap]
    show _ ≤ if status = 0 then s.io.urbs_to_reap - 1 else s.io.urbs_to_reap
    split_ifs at hcounted ⊢ <;> omega
  have howed : ¬ ((awaitedReap (B.continuation i) status ((s.taken i).withBytes b).io).urbs_to_reap = 0 ∧
      (awaitedReap (B.continuation i) status ((s.taken i).withBytes b).io).urbs_to_cancel = 0) := by
    rintro ⟨hzero, -⟩
    omega
  have haction : (s.taken i).io.reap_action ≠ .normal := h.action.trans_ne nofun
  rw [@bulk_handle_awaited B (s.taken i) i status l h.frees haction, hbytes]
  unfold BulkState.reapAwaited
  rw [@drain_of_owed { (s.taken i).withBytes b with
    io := awaitedReap (B.continuation i) status ((s.taken i).withBytes b).io } howed]
  obtain ⟨hkernel, -, hcompletions, haction', hfrees, hmisuse⟩ := hkeeps
  have hc := hcommon.setKernel (u := .reaped) hi nofun
  refine ⟨⟨hmisuse.trans hc.misuse, fun j hj => (congrFun hkernel j).trans (hc.idle j hj),
    fun j hj => (congrFun hkernel j).trans_ne (hc.live j hj), hc.loop⟩, (statuses_taken hstat hdone hG).congr hkernel, ?_⟩
  refine ⟨haction'.trans h.action, hcompletions.trans h.completions, hfrees.trans h.frees, h.returned, fun j => ?_, ?_⟩
  · refine (congrFun hkernel j).trans_ne ?_
    by_cases hji : j = i
    · rw [hji]
      exact (taken_self s i).trans_ne nofun
    · exact (taken_of_ne s hji).trans_ne (h.settled j)
  · show total UrbState.owedReap (awaitedReap _ _ _).kernel (List.range k) + 1 ≤ _
    rw [hkernel]
    exact hcount

theorem stuck_step (h : s.Common B ∧ s.Statuses B k len ∧ s.Stuck k) (hG : s.ShortAt B k len l)
    (hstep : BulkStep B s l t) : t.Common B ∧ t.Statuses B k len ∧ t.Stuck k := by
  obtain ⟨hcommon, hstat, hstuck⟩ := h
  cases hstep with
  | accept hloop | refuse hloop => exact absurd hloop hstuck.returned
  | @finish i status l hpending => exact absurd hpending (hstuck.settled i)
  | reap hreturned hdone => exact stuck_reap hcommon hstat hstuck hdone hG
  | cancel | timeout => exact hG.elim

/-- In a short read either no submission has been refused, or the request is stuck. -/
theorem short_step (hsup : B.supports_continuation = true) (hk : k < B.num_urbs) (hlen : len < B.buffer_length k)
    (h : (s.Staged B ∧ s.Statuses B k len ∧ s.Late B k len) ∨ s.Common B ∧ s.Statuses B k len ∧ s.Stuck k)
    (hG : s.ShortAt B k len l) (hstep : BulkStep B s l t) :
    (t.Staged B ∧ t.Statuses B k len ∧ t.Late B k len) ∨ t.Common B ∧ t.Statuses B k len ∧ t.Stuck k := by
  rcases h with ⟨hstaged, hstat, hlate⟩ | hstuck
  · by_cases hrefuse : ∃ errno, l = .refuse errno
    · obtain ⟨errno, rfl⟩ := hrefuse
      cases hstep with
      | refuse hloop hlt =>
        obtain ⟨-, status, l, hdone⟩ := hG
        exact .inr (stuck_refuse hk hstaged hstat hlate errno hlt hdone)
    · exact .inl (late_step hsup hk hlen ⟨hstaged, hstat, hlate⟩ hG hstep fun errno h => hrefuse ⟨errno, h⟩)
  · exact .inr (stuck_step hstuck hG hstep)

theorem start_late (hn : 0 < B.num_urbs) :
    BulkState.start.Staged B ∧ BulkState.start.Statuses B k len ∧ BulkState.start.Late B k len :=
  ⟨bulk_start_staged hn, ⟨nofun, nofun, nofun, fun h => absurd rfl h, nofun, nofun⟩,
    ⟨0, Nat.zero_le _, fun j hj => absurd hj (Nat.not_lt_zero j), nofun, rfl⟩, nofun, fun _ => ⟨rfl, rfl⟩⟩

end

/-- A read whose URB `k` completes short ends with success and the bytes of the URBs up to it exactly when no submission is
refused on the way. -/
theorem short_read_iff (B : BulkRequest) (hsup : B.supports_continuation = true) (k len : ℕ) (hk : k < B.num_urbs)
    (hlen : len < B.buffer_length k) (ls : List BulkLabel) (s : BulkState)
    (hrun : Run (BulkStep B) (BulkState.ShortAt B k len) .start ls s) (hreturned : s.returned ≠ none)
    (hall : ∀ i < s.submitted, s.io.kernel i = .reaped) :
    s.io.completions = [(OPENUSB_SUCCESS, bytesOf B k len (k + 1))] ↔ ∀ errno, .refuse errno ∉ ls := by
  have hn : 0 < B.num_urbs := by omega
  constructor
  · intro hsuccess errno hmem
    obtain ⟨ls₁, ls₂, rfl⟩ := List.append_of_mem hmem
    obtain ⟨u, hrun₁, hrun₂⟩ := run_append.mp hrun
    obtain ⟨hG, v, hstep, hrest⟩ := run_cons.mp hrun₂
    have hu := hrun₁.inv (fun _ _ _ hs hG hstep => short_step hsup hk hlen hs hG hstep) (.inl (start_late hn))
    have hv : v.Common B ∧ v.Statuses B k len ∧ v.Stuck k := by
      cases hstep with
      | refuse hloop hlt =>
        obtain ⟨-, status, l, hdone⟩ := hG
        rcases hu with ⟨hstaged, hstat, hlate⟩ | ⟨-, -, hstuck⟩
        · exact stuck_refuse hk hstaged hstat hlate errno hlt hdone
        · exact absurd hloop hstuck.returned
    have hs := hrest.inv (I := fun w => w.Common B ∧ w.Statuses B k len ∧ w.Stuck k)
      (fun _ _ _ hw hG hstep => stuck_step hw hG hstep) hv
    rw [hs.2.2.completions] at hsuccess
    exact absurd hsuccess nofun
  · intro hnone
    have hrefuse : ∀ l ∈ ls, ∀ errno, l ≠ .refuse errno := fun l hl errno h => hnone errno (h ▸ hl)
    obtain ⟨hstaged, hstat, hlate⟩ := (hrun.and_labels hrefuse).inv
      (fun _ _ _ hs hG hstep => late_step hsup hk hlen hs hG.1 hstep hG.2) (start_late hn)
    have hkr : s.io.kernel k = .reaped := by
      by_contra hne
      have hrun := hlate.running hstaged hne
      exact hne (hall k (by rw [hrun.full hreturned]; exact hk))
    refine (hlate.ending hkr).resolve_right fun hopen => ?_
    have honce := (hstaged.sound hn).once hreturned hall
    rw [hopen.1] at honce
    exact absurd honce nofun

/-- 20000 bytes take two URBs. -/
def twoUrbs : BulkRequest := { length := 20000, length_lt := by decide, supports_continuation := true }

theorem short_read_iff_late : ∃ s : BulkState, s.io.completions = [(OPENUSB_SUCCESS, 5)] ∧ s.io.kernel 1 = .reaped := by
  refine ⟨_, (short_read_iff twoUrbs rfl 0 5 (by decide) (by decide)
    [.accept, .accept, .finish 0 (- EREMOTEIO) 5, .finish 1 (-ECONNRESET) 0, .reap 0, .reap 1] _
    (.cons (.inl rfl) (.accept rfl (by decide)) (.cons (.inr rfl) (.accept rfl (by decide))
      (.cons ⟨rfl, rfl, nofun⟩ (.finish rfl) (.cons rfl (.finish rfl) (.cons nofun (.reap nofun rfl)
        (.cons rfl (.reap nofun rfl) (.nil _))))))) nofun fun i hi => ?_).mpr fun errno h => ?_, rfl⟩
  · have hi' : i = 0 ∨ i = 1 := by
      have hlt : i < 2 := hi
      omega
    rcases hi' with rfl | rfl <;> rfl
  · simp at h

/-- The first URB ends the read before the second one is submitted: the read never ends. -/
theorem short_read_stuck : ∃ s, Run (BulkStep twoUrbs) (BulkState.ShortAt twoUrbs 0 5) .start
    [.accept, .finish 0 (- EREMOTEIO) 5, .refuse EREMOTEIO, .reap 0] s ∧
      s.returned = some OPENUSB_SUCCESS ∧ s.submitted = 1 ∧ s.io.kernel 0 = .reaped ∧ s.io.completions = [] :=
  ⟨_, .cons (.inl rfl) (.accept rfl (by decide)) (.cons ⟨rfl, rfl, nofun⟩ (.finish rfl)
    (.cons ⟨rfl, _, _, rfl⟩ (.refuse rfl (by decide)) (.cons nofun (.reap nofun rfl) (.nil _)))), rfl, rfl, rfl, rfl⟩

end OpenUsb
