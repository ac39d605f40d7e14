import OpenUsb.BulkOnce
import OpenUsb.Control
import OpenUsb.Isoc

/-!
# Ownership — no request ends while the kernel has one of its URBs

A request must not be completed, nor its URBs, its private data or its `usbi_io` be released, before each of its submitted
URBs has been reaped.  After a request has left `NORMAL` its counters guard the completion: every reap takes off at most
one, so it is enough that they cover the outstanding URBs when they are set (`UrbIo.Covered`), whatever the statuses.
`usbi_free_io`, which `openusb_close_device` calls for every request of the handle, waits for nothing.
-/

namespace OpenUsb

/-! ## Outstanding URBs and the counters -/

/-- The kernel has the URB. -/
def UrbState.out : UrbState → ℕ
  | .pending | .done _ _ => 1
  | .idle | .reaped => 0

namespace UrbIo

variable (n : ℕ) (io : UrbIo)

def outstanding : ℕ := total UrbState.out io.kernel (List.range n)

def counted : ℕ := io.urbs_to_reap + io.urbs_to_cancel

/-- The counters cover the outstanding URBs; the last URB needs no counter. -/
def Covered : Prop := io.outstanding n ≤ max io.counted 1

/-- Counting `n` more URBs does not overflow. -/
def Room : Prop := io.urbs_to_reap + n < 2 ^ 32 ∧ io.urbs_to_cancel + n < 2 ^ 32

/-- The URBs left when URB `i` is reaped. -/
def left (i : ℕ) : ℕ := (io.setKernel i .reaped).outstanding n

/-- The first `submitted` of `n` URBs have been submitted. -/
structure Placed (submitted : ℕ) (io : UrbIo) : Prop where
  idle : ∀ i, submitted ≤ i → io.kernel i = .idle
  live : ∀ i < submitted, io.kernel i ≠ .idle
  le : submitted ≤ n

/-- The request is not completed; `submitting` says that the submission loop is running. -/
structure Open (submitting : Prop) (io : UrbIo) : Prop where
  completions : io.completions = []
  frees : io.frees = 0
  small : io.urbs_to_cancel < 2 ^ 32
  zero : io.reap_action = .normal → io.urbs_to_reap = 0 ∧ io.urbs_to_cancel = 0
  covered : io.reap_action ≠ .normal → io.Covered n
  normal : submitting → io.reap_action = .normal

/-- A request is open, or all its submitted URBs have been reaped. -/
def Owned (submitted : ℕ) (submitting : Prop) (io : UrbIo) : Prop :=
  io.Placed n submitted ∧ (io.Open n submitting ∨ ¬ submitting ∧ ∀ i < submitted, io.kernel i = .reaped)

end UrbIo

section

variable {n submitted : ℕ} {submitting submitting' : Prop} {io io' : UrbIo} {i : ℕ}

theorem out_le (u : UrbState) : u.out ≤ 1 := by
  cases u <;> simp [UrbState.out]

theorem out_of_frame (h : io.Frame io') (j : ℕ) : (io'.kernel j).out = (io.kernel j).out := by
  rcases h.kernel j with hj | ⟨hj, hj'⟩
  · rw [hj]
  · rw [hj, hj']
    rfl

theorem outstanding_congr (h : ∀ j, (io'.kernel j).out = (io.kernel j).out) : io'.outstanding n = io.outstanding n :=
  total_congr fun j _ => h j

theorem UrbIo.Placed.frame (h : io.Placed n submitted) (hframe : io.Frame io') : io'.Placed n submitted where
  idle j hj := by
    have hidle := h.idle j hj
    exact (hframe.kernel_of_ne (hidle.trans_ne nofun)).trans hidle
  live j hj := by
    rcases hframe.kernel j with hk | ⟨-, hk⟩
    · exact hk.trans_ne (h.live j hj)
    · exact hk.trans_ne nofun
  le := h.le

theorem UrbIo.Placed.congr (h : io.Placed n submitted) (hkernel : io'.kernel = io.kernel) : io'.Placed n submitted where
  idle j hj := (congrFun hkernel j).trans (h.idle j hj)
  live j hj := (congrFun hkernel j).trans_ne (h.live j hj)
  le := h.le

theorem UrbIo.Placed.setKernel {u : UrbState} (h : io.Placed n submitted) (hi : io.kernel i ≠ .idle) (hu : u ≠ .idle) :
    (io.setKernel i u).Placed n submitted where
  idle j hj := by
    have hne : j ≠ i := by
      rintro rfl
      exact hi (h.idle j hj)
    exact (UrbIo.setKernel_of_ne _ _ hne u).trans (h.idle j hj)
  live j hj := by
    by_cases hji : j = i
    · rw [hji, UrbIo.setKernel_self]
      exact hu
    · rw [UrbIo.setKernel_of_ne _ _ hji]
      exact h.live j hj
  le := h.le

theorem UrbIo.Placed.accept (h : io.Placed n submitted) (hlt : submitted < n) :
    (io.setKernel submitted .pending).Placed n (submitted + 1) where
  idle j hj := by
    have hlt' : submitted < j := hj
    exact (UrbIo.setKernel_of_ne _ _ hlt'.ne' _).trans (h.idle j hlt'.le)
  live j hj := by
    by_cases hjs : j = submitted
    · rw [hjs, UrbIo.setKernel_self]
      exact nofun
    · rw [UrbIo.setKernel_of_ne _ _ hjs]
      exact h.live j (by omega)
  le := hlt

theorem UrbIo.Placed.lt (h : io.Placed n submitted) (hi : io.kernel i ≠ .idle) : i < submitted := by
  by_contra hge
  exact hi (h.idle i (Nat.le_of_not_lt hge))

theorem outstanding_le (h : io.Placed n submitted) : io.outstanding n ≤ submitted := by
  have hsub : io.outstanding n = total UrbState.out io.kernel (List.range submitted) := by
    refine total_of_subset List.nodup_range List.nodup_range (fun j hj => ?_) fun j _ hj => ?_
    · exact List.mem_range.mpr ((List.mem_range.mp hj).trans_le h.le)
    · rw [h.idle j (Nat.le_of_not_lt fun hlt => hj (List.mem_range.mpr hlt))]
      rfl
  rw [hsub]
  exact (total_le out_le).trans_eq List.length_range

theorem reaped_of_outstanding (h : io.Placed n submitted) (hzero : io.outstanding n = 0) :
    ∀ j < submitted, io.kernel j = .reaped := by
  intro j hj
  have hout := total_eq_zero.mp hzero j (List.mem_range.mpr (hj.trans_le h.le))
  cases hk : io.kernel j with
  | idle => exact absurd hk (h.live j hj)
  | reaped => rfl
  | pending | done => rw [hk] at hout; exact absurd hout nofun

/-- A URB that the kernel hands back is one less. -/
theorem left_eq {status : ℤ} {len : ℕ} (hi : i < n) (hdone : io.kernel i = .done status len) :
    io.left n i + 1 = io.outstanding n := by
  have hupdate := total_update (w := UrbState.out) (f := io.kernel) (u := .reaped) List.nodup_range (List.mem_range.mpr hi)
  rw [hdone] at hupdate
  exact hupdate

/-! ## What the helpers add to the counters -/

/-- `c` more URBs are counted. -/
structure UrbIo.Adds (c : ℕ) (s t : UrbIo) : Prop where
  counted : t.counted = s.counted + c
  to_reap : t.urbs_to_reap ≤ s.urbs_to_reap + c
  to_cancel : t.urbs_to_cancel ≤ s.urbs_to_cancel + c

theorem incReap_adds (h : io.Room 1) : io.Adds 1 io.incReap := by
  have hmod : io.incReap.urbs_to_reap = io.urbs_to_reap + 1 := Nat.mod_eq_of_lt h.1
  refine ⟨?_, hmod.le, Nat.le_succ _⟩
  unfold UrbIo.counted
  rw [hmod]
  show io.urbs_to_reap + 1 + io.urbs_to_cancel = _
  omega

theorem incCancel_adds (h : io.Room 1) : io.Adds 1 io.incCancel := by
  have hmod : io.incCancel.urbs_to_cancel = io.urbs_to_cancel + 1 := Nat.mod_eq_of_lt h.2
  refine ⟨?_, Nat.le_succ _, hmod.le⟩
  unfold UrbIo.counted
  rw [hmod]
  show io.urbs_to_reap + (io.urbs_to_cancel + 1) = _
  omega

theorem discardUrb_adds (L : UrbLayout) (h : io.Room 1) : io.Adds 1 (discardUrb L i io) := by
  unfold discardUrb
  cases L.names i with
  | none =>
    have hadds := @incReap_adds { io with discards := io.discards ++ [none] } h
    exact ⟨hadds.counted, hadds.to_reap, hadds.to_cancel⟩
  | some j =>
    by_cases hpending : io.kernel j = .pending
    · simp only [if_pos hpending]
      have hadds := @incCancel_adds
        (UrbIo.setKernel { io with discards := io.discards ++ [some j] } j (.done (-ENOENT) 0)) h
      exact ⟨hadds.counted, hadds.to_reap, hadds.to_cancel⟩
    · simp only [if_neg hpending]
      have hadds := @incReap_adds { io with discards := io.discards ++ [some j] } h
      exact ⟨hadds.counted, hadds.to_reap, hadds.to_cancel⟩

theorem partialXferRound_adds (L : UrbLayout) (h : io.Room 1) : io.Adds 1 (partialXferRound L io i) := by
  unfold partialXferRound
  by_cases hcont : L.continuation i = true
  · rw [if_pos hcont]
    exact incCancel_adds h
  · rw [if_neg hcont]
    exact discardUrb_adds L h

theorem foldl_adds {f : UrbIo → ℕ → UrbIo} (hf : ∀ (s : UrbIo) (j : ℕ), s.Room 1 → s.Adds 1 (f s j)) {l : List ℕ}
    {io : UrbIo} (h : io.Room l.length) : io.Adds l.length (l.foldl f io) := by
  induction l generalizing io with
  | nil => exact ⟨rfl, Nat.le_refl _, Nat.le_refl _⟩
  | cons j l ih =>
    obtain ⟨h1, h2⟩ := h
    rw [List.length_cons] at h1 h2
    obtain ⟨hcounted, hreap, hcancel⟩ := hf io j ⟨by omega, by omega⟩
    obtain ⟨hcounted', hreap', hcancel'⟩ := @ih (f io j) ⟨by omega, by omega⟩
    rw [List.foldl_cons, List.length_cons]
    exact ⟨by omega, by omega, by omega⟩

/-- The loop of `discard_urbs` and `handle_partial_submit` counts each URB of its range. -/
theorem discardRange_adds (L : UrbLayout) {m : ℕ} (h : io.Room m) :
    io.Adds m ((List.range m).foldl (fun s i => discardUrb L i s) io) := by
  have hfold := @foldl_adds (fun s i => discardUrb L i s) (fun s j hroom => discardUrb_adds L hroom) (List.range m) io
    (by rw [List.length_range]; exact h)
  rwa [List.length_range] at hfold

/-! ## Requests that stay owned -/

/-- URBs have been counted: the request has left `NORMAL`, and its outstanding URBs are covered. -/
theorem open_counted {c : ℕ} {action : ReapAction} (h : io.Open n submitting) (hne : action ≠ .normal)
    (hframe : UrbIo.Frame { io with reap_action := action } io') (hadds : UrbIo.Adds c { io with reap_action := action } io')
    (hroom : io.urbs_to_cancel + c < 2 ^ 32) (hle : io.outstanding n ≤ max (io.counted + c) 1)
    (hreturned : ¬ submitting') : io'.Open n submitting' where
  completions := hframe.completions.trans h.completions
  frees := hframe.frees.trans h.frees
  small := hadds.to_cancel.trans_lt hroom
  zero hnormal := absurd (hframe.action.symm.trans hnormal) hne
  covered _ := by
    have hout : io'.outstanding n = io.outstanding n := outstanding_congr fun j => out_of_frame hframe j
    unfold UrbIo.Covered
    rw [hout, hadds.counted]
    exact hle
  normal hsub := absurd hsub hreturned

/-- `discard_urbs` counts every URB. -/
theorem discardUrbs_owned {L : UrbLayout} (hL : L.num_urbs = n) {action : ReapAction} (hne : action ≠ .normal)
    (h : io.Owned n submitted submitting) (hreturned : ¬ submitting) (hroom : io.Room n) :
    (discardUrbs L action io).Owned n submitted submitting := by
  subst hL
  have hframe := discardUrbs_frame L action io
  have hplaced : UrbIo.Placed L.num_urbs submitted { io with reap_action := action } := ⟨h.1.idle, h.1.live, h.1.le⟩
  refine ⟨hplaced.frame hframe, ?_⟩
  rcases h.2 with hopen | ⟨-, hall⟩
  · have hadds : UrbIo.Adds L.num_urbs { io with reap_action := action } (discardUrbs L action io) :=
      discardRange_adds L hroom
    refine .inl (open_counted hopen hne hframe hadds hroom.2 ?_ hreturned)
    have hle := outstanding_le h.1
    have hle' := h.1.le
    omega
  · refine .inr ⟨hreturned, fun j hj => ?_⟩
    exact (hframe.kernel_of_ne ((hall j hj).trans_ne nofun)).trans (hall j hj)

/-- `handle_partial_submit` counts every submitted URB. -/
theorem handlePartialSubmit_owned (L : UrbLayout) (h : io.Owned n submitted submitting) (hsub : submitting)
    (hn : n < 2 ^ 32) (hreturned : ¬ submitting') :
    (handlePartialSubmit L submitted io).Owned n submitted submitting' := by
  have hopen := h.2.resolve_right fun hall => hall.1 hsub
  obtain ⟨hr, hc⟩ := hopen.zero (hopen.normal hsub)
  have hframe := handlePartialSubmit_frame L submitted io
  have hplaced : UrbIo.Placed n submitted { io with reap_action := .submitFailed } := ⟨h.1.idle, h.1.live, h.1.le⟩
  have hroom : io.Room submitted := by
    have hle := h.1.le
    exact ⟨by omega, by omega⟩
  have hadds : UrbIo.Adds submitted { io with reap_action := .submitFailed } (handlePartialSubmit L submitted io) :=
    discardRange_adds L hroom
  have hne : ReapAction.submitFailed ≠ .normal := nofun
  refine ⟨hplaced.frame hframe, .inl (open_counted hopen hne hframe hadds hroom.2 ?_ hreturned)⟩
  have hle := outstanding_le h.1
  omega

/-- `handle_partial_xfer` counts the URBs behind URB `i`, when the counters are zero. -/
theorem handlePartialXfer_owned {L : UrbLayout} (hL : L.num_urbs = n) {action : ReapAction} (hne : action ≠ .normal)
    (hplaced : io.Placed n submitted) (hopen : io.Open n submitting) (hr : io.urbs_to_reap = 0) (hc : io.urbs_to_cancel = 0)
    (hn : n < 2 ^ 32) (hle : io.outstanding n ≤ max (n - (i + 1)) 1) (hreturned : ¬ submitting) :
    (handlePartialXfer L (i + 1) action io).Owned n submitted submitting := by
  subst hL
  have hframe := handlePartialXfer_frame L (i + 1) action io
  have hplaced' : UrbIo.Placed L.num_urbs submitted { io with reap_action := action } :=
    ⟨hplaced.idle, hplaced.live, hplaced.le⟩
  have hroom : io.Room (L.num_urbs - (i + 1)) := ⟨by omega, by omega⟩
  have hadds : UrbIo.Adds (L.num_urbs - (i + 1)) { io with reap_action := action }
      (handlePartialXfer L (i + 1) action io) := by
    have hfold := @foldl_adds (partialXferRound L) (fun s j hroom => partialXferRound_adds L hroom)
      (List.range' (i + 1) (L.num_urbs - (i + 1))) { io with reap_action := action }
      (by rw [List.length_range']; exact hroom)
    rwa [List.length_range'] at hfold
  refine ⟨hplaced'.frame hframe, .inl (open_counted hopen hne hframe hadds hroom.2 ?_ hreturned)⟩
  exact hle.trans (max_le_max_right 1 (Nat.le_add_left _ _))

theorem fresh_owned : UrbIo.fresh.Owned n 0 submitting := by
  refine ⟨⟨fun _ _ => rfl, fun j hj => absurd hj (Nat.not_lt_zero j), Nat.zero_le _⟩, .inl ?_⟩
  exact ⟨rfl, rfl, Nat.two_pow_pos 32, fun _ => ⟨rfl, rfl⟩, fun hne => absurd rfl hne, fun _ => rfl⟩

/-- The next URB is accepted. -/
theorem accept_owned (h : io.Owned n submitted submitting) (hsub : submitting) (hlt : submitted < n) :
    (io.setKernel submitted .pending).Owned n (submitted + 1) submitting' := by
  have hopen := h.2.resolve_right fun hall => hall.1 hsub
  have hnormal := hopen.normal hsub
  refine ⟨h.1.accept hlt, .inl ?_⟩
  exact ⟨hopen.completions, hopen.frees, hopen.small, hopen.zero, fun hne => absurd hnormal hne, fun _ => hnormal⟩

/-- The device finishes a URB. -/
theorem finish_owned (h : io.Owned n submitted submitting) (hpending : io.kernel i = .pending) (status : ℤ) (len : ℕ) :
    (io.setKernel i (.done status len)).Owned n submitted submitting := by
  have hlive : io.kernel i ≠ .idle := hpending.trans_ne nofun
  refine ⟨h.1.setKernel hlive nofun, ?_⟩
  rcases h.2 with hopen | ⟨-, hall⟩
  · refine .inl ⟨hopen.completions, hopen.frees, hopen.small, hopen.zero, fun hne => ?_, hopen.normal⟩
    have hout : (io.setKernel i (.done status len)).outstanding n = io.outstanding n := by
      refine outstanding_congr fun j => ?_
      by_cases hj : j = i
      · rw [hj, UrbIo.setKernel_self, hpending]
        rfl
      · rw [UrbIo.setKernel_of_ne _ _ hj]
    unfold UrbIo.Covered
    rw [hout]
    exact hopen.covered hne
  · exact absurd ((hall i (h.1.lt hlive)).symm.trans hpending) nofun

theorem touch_owned (h : io.Owned n submitted submitting) : io.touch.Owned n submitted submitting := by
  refine ⟨⟨h.1.idle, h.1.live, h.1.le⟩, h.2.imp_left fun hopen => ?_⟩
  exact ⟨hopen.completions, hopen.frees, hopen.small, hopen.zero, hopen.covered, hopen.normal⟩

/-- A URB is reaped from an open request only. -/
theorem open_of_done {status : ℤ} {len : ℕ} (h : io.Owned n submitted submitting) (hdone : io.kernel i = .done status len) :
    io.Open n submitting ∧ i < n := by
  have hlt := h.1.lt (hdone.trans_ne nofun)
  refine ⟨h.2.resolve_right fun hall => ?_, hlt.trans_le h.1.le⟩
  exact absurd ((hall.2 i hlt).symm.trans hdone) nofun

/-- A URB of a request that has left `NORMAL` is handled: at most one is taken off the counters. -/
structure UrbIo.Settles (s t : UrbIo) : Prop where
  kernel : t.kernel = s.kernel
  action : t.reap_action = s.reap_action
  completions : t.completions = s.completions
  frees : t.frees = s.frees
  counted : s.counted ≤ t.counted + 1
  small : t.urbs_to_cancel < 2 ^ 32

theorem decCancel_settles (h : io.urbs_to_cancel < 2 ^ 32) : io.Settles io.decCancel := by
  unfold UrbIo.decCancel
  split_ifs
  · exact ⟨rfl, rfl, rfl, rfl, Nat.le_succ _, h⟩
  · refine ⟨rfl, rfl, rfl, rfl, ?_, (Nat.sub_le _ _).trans_lt h⟩
    show io.urbs_to_reap + io.urbs_to_cancel ≤ io.urbs_to_reap + (io.urbs_to_cancel - 1) + 1
    omega

theorem decReap_settles (h : io.urbs_to_cancel < 2 ^ 32) : io.Settles io.decReap := by
  unfold UrbIo.decReap
  split_ifs
  · exact ⟨rfl, rfl, rfl, rfl, Nat.le_succ _, h⟩
  · refine ⟨rfl, rfl, rfl, rfl, ?_, h⟩
    show io.urbs_to_reap + io.urbs_to_cancel ≤ io.urbs_to_reap - 1 + io.urbs_to_cancel + 1
    omega

theorem settles_refl (h : io.urbs_to_cancel < 2 ^ 32) : io.Settles io :=
  ⟨rfl, rfl, rfl, rfl, Nat.le_succ _, h⟩

theorem awaitedReap_settles (c : Bool) (status : ℤ) (h : io.urbs_to_cancel < 2 ^ 32) :
    io.Settles (awaitedReap c status io) := by
  unfold awaitedReap
  split_ifs
  · exact decCancel_settles h
  · -- the decrement that is not guarded: it takes one off, or wraps around
    refine ⟨rfl, rfl, rfl, rfl, ?_, Nat.mod_lt _ (by decide)⟩
    show io.urbs_to_reap + io.urbs_to_cancel ≤ io.urbs_to_reap + (io.urbs_to_cancel + (2 ^ 32 - 1)) % 2 ^ 32 + 1
    omega
  · exact decReap_settles h
  · exact settles_refl h

/-- URB `i` has been reaped from an open request. -/
theorem open_reaped {status : ℤ} {len : ℕ} (h : io.Open n submitting) (hi : i < n) (hdone : io.kernel i = .done status len) :
    (io.setKernel i .reaped).Open n submitting where
  completions := h.completions
  frees := h.frees
  small := h.small
  zero := h.zero
  covered hne := by
    have hleft := left_eq hi hdone
    have hcovered := h.covered hne
    unfold UrbIo.Covered at hcovered ⊢
    show io.left n i ≤ max io.counted 1
    omega
  normal := h.normal

/-- The last counted URB leaves none behind, even when the last URB of all was not counted. -/
theorem reaped_of_settles {status : ℤ} {len : ℕ} (hplaced : io.Placed n submitted) (hcovered : io.Covered n) (hi : i < n)
    (hdone : io.kernel i = .done status len) (h : (io.setKernel i .reaped).Settles io') (hzero : io'.counted = 0) :
    ∀ j < submitted, io'.kernel j = .reaped := by
  have hleft := left_eq hi hdone
  have hcounted : io.counted ≤ io'.counted + 1 := h.counted
  have hnone : (io.setKernel i .reaped).outstanding n = 0 := by
    unfold UrbIo.Covered at hcovered
    show io.left n i = 0
    omega
  rw [h.kernel]
  exact reaped_of_outstanding (hplaced.setKernel (hdone.trans_ne nofun) nofun) hnone

/-- The counters still cover what is left. -/
theorem open_of_settles {status : ℤ} {len : ℕ} (hopen : io.Open n submitting) (hne : io.reap_action ≠ .normal) (hi : i < n)
    (hdone : io.kernel i = .done status len) (h : (io.setKernel i .reaped).Settles io') : io'.Open n submitting where
  completions := h.completions.trans hopen.completions
  frees := h.frees.trans hopen.frees
  small := h.small
  zero hnormal := absurd (h.action.symm.trans hnormal) hne
  covered _ := by
    have hleft := left_eq hi hdone
    have hcovered := hopen.covered hne
    have hcounted : io.counted ≤ io'.counted + 1 := h.counted
    have hout : io'.outstanding n = io.left n i := outstanding_congr fun j => congrArg UrbState.out (congrFun h.kernel j)
    unfold UrbIo.Covered at hcovered ⊢
    omega
  normal hsub := absurd (hopen.normal hsub) hne

end

/-! ## Bulk and interrupt requests -/

/-- A reap that completes a `NORMAL` request leaves no URB with the kernel; one that breaks it off leaves no more URBs than
come behind it, or a single one. -/
structure UrbIo.LeavesFew (n i : ℕ) (closes breaks : Prop) (io : UrbIo) : Prop where
  closes : closes → io.left n i = 0
  breaks : breaks → io.left n i ≤ max (n - (i + 1)) 1

section

variable (B : BulkRequest)

/-- The URB completes a `NORMAL` request at once: a stall, or the last URB without an error. -/
def BulkRequest.Closes (i : ℕ) (status : ℤ) : Prop :=
  status = -EPIPE ∨ (status = 0 ∨ status = - EREMOTEIO) ∧ i = B.num_urbs - 1

/-- The URB makes a `NORMAL` request await the rest: another error, or a short URB. -/
def BulkRequest.Breaks (i : ℕ) (status : ℤ) (len : ℕ) : Prop :=
  ¬ B.Closes i status ∧ ((status = 0 ∨ status = - EREMOTEIO) → len < B.buffer_length i)

/-- A cancel or a sweep does not overflow the counters, and a reap leaves few URBs. -/
def BulkState.Covering (s : BulkState) : BulkLabel → Prop
  | .accept | .refuse _ | .finish _ _ _ => True
  | .cancel | .timeout => s.io.Room B.num_urbs
  | .reap i => s.io.reap_action = .normal → ∀ status len, s.io.kernel i = .done status len →
      s.io.LeavesFew B.num_urbs i (B.Closes i status) (B.Breaks i status len)

def BulkState.Owned (s : BulkState) : Prop := s.io.Owned B.num_urbs s.submitted (s.returned = none)

end

section

variable {B : BulkRequest} {s t : BulkState} {l : BulkLabel} {i : ℕ} {status : ℤ} {len : ℕ}

/-- A request that is completed at once with all its URBs reaped. -/
theorem normal_completes (hplaced : s.io.Placed B.num_urbs s.submitted) (hreturned : s.returned ≠ none)
    (hall : ∀ j < s.submitted, s.io.kernel j = .reaped) (h : B.Closes i status) :
    (s.reapNormal B i status len).Owned B := by
  by_cases hstall : status = -EPIPE
  · have hframe := handlePartialXfer_frame B.layout (i + 1) .stall s.io
    have hplaced' : UrbIo.Placed B.num_urbs s.submitted { s.io with reap_action := .stall } :=
      ⟨hplaced.idle, hplaced.live, hplaced.le⟩
    have hplaced'' := hplaced'.frame hframe
    rw [normal_stall hstall]
    refine ⟨⟨hplaced''.idle, hplaced''.live, hplaced''.le⟩, .inr ⟨hreturned, fun j hj => ?_⟩⟩
    exact (hframe.kernel_of_ne ((hall j hj).trans_ne nofun)).trans (hall j hj)
  · have hlast := h.resolve_left hstall
    rw [normal_last hlast.1 hlast.2]
    exact ⟨⟨hplaced.idle, hplaced.live, hplaced.le⟩, .inr ⟨hreturned, hall⟩⟩

theorem normal_breaks (h : B.Breaks i status len) : ∃ action, action ≠ .normal ∧
    s.reapNormal B i status len = { s with io := handlePartialXfer B.layout (i + 1) action s.io } := by
  by_cases hstatus : status = 0 ∨ status = - EREMOTEIO
  · have hlast : i ≠ B.num_urbs - 1 := fun hlast => h.1 (.inr ⟨hstatus, hlast⟩)
    exact ⟨.completedEarly, nofun, normal_short hstatus hlast (h.2 hstatus)⟩
  · have hstall : status ≠ -EPIPE := fun hstall => h.1 (.inl hstall)
    refine ⟨.unknownFailure, nofun, ?_⟩
    unfold BulkState.reapNormal
    rw [if_neg hstatus, if_neg hstall]

theorem normal_goes_on (hcloses : ¬ B.Closes i status) (hbreaks : ¬ B.Breaks i status len) :
    s.reapNormal B i status len = s := by
  unfold BulkRequest.Breaks at hbreaks
  have hstatus : status = 0 ∨ status = - EREMOTEIO := by
    by_contra hstatus
    exact hbreaks ⟨hcloses, fun h => absurd h hstatus⟩
  have hlast : i ≠ B.num_urbs - 1 := fun hlast => hcloses (.inr ⟨hstatus, hlast⟩)
  exact normal_quiet hstatus hlast fun hshort => hbreaks ⟨hcloses, fun _ => hshort⟩

theorem drain_owned (hplaced : s.io.Placed B.num_urbs s.submitted) (hreturned : s.returned ≠ none)
    (hzero : s.io.counted = 0 → ∀ j < s.submitted, s.io.kernel j = .reaped)
    (hopen : s.io.Open B.num_urbs (s.returned = none)) : s.drain.Owned B := by
  by_cases hcounted : s.io.counted = 0
  · have hall := hzero hcounted
    unfold BulkState.drain
    split_ifs
    · cases s.io.reap_action.result with
      | none => exact ⟨hplaced, .inr ⟨hreturned, hall⟩⟩
      | some result => exact ⟨⟨hplaced.idle, hplaced.live, hplaced.le⟩, .inr ⟨hreturned, hall⟩⟩
    · exact ⟨hplaced, .inr ⟨hreturned, hall⟩⟩
  · rw [drain_of_owed fun hboth => hcounted (Nat.add_eq_zero_iff.mpr hboth)]
    exact ⟨hplaced, .inl hopen⟩

theorem bulk_reap_owned (h : s.Owned B) (hreturned : s.returned ≠ none) (hdone : s.io.kernel i = .done status len)
    (hG : s.Covering B (.reap i)) : ((s.taken i).handleBulkIntrComplete B i status len).Owned B := by
  obtain ⟨hopen, hlt⟩ := open_of_done h hdone
  have hlive : s.io.kernel i ≠ .idle := hdone.trans_ne nofun
  obtain ⟨b, hbytes⟩ := countBytes_eq (s.taken i) status len
  have hplaced : ((s.taken i).withBytes b).io.Placed B.num_urbs s.submitted := by
    have hplaced := h.1.setKernel (u := .reaped) hlive nofun
    exact ⟨hplaced.idle, hplaced.live, hplaced.le⟩
  by_cases haction : s.io.reap_action = .normal
  · have hfew := hG haction status len hdone
    have hreaped := open_reaped hopen hlt hdone
    have hopen' : ((s.taken i).withBytes b).io.Open B.num_urbs (s.returned = none) :=
      ⟨hreaped.completions, hreaped.frees, hreaped.small, hreaped.zero, hreaped.covered, hreaped.normal⟩
    rw [@bulk_handle_normal B (s.taken i) i status len hopen.frees haction, hbytes]
    by_cases hcloses : B.Closes i status
    · exact normal_completes hplaced hreturned (reaped_of_outstanding hplaced (hfew.closes hcloses)) hcloses
    · by_cases hbreaks : B.Breaks i status len
      · obtain ⟨action, hne, hbreak⟩ := @normal_breaks B ((s.taken i).withBytes b) i status len hbreaks
        obtain ⟨hr, hc⟩ := hopen.zero haction
        have hn : B.num_urbs < 2 ^ 32 := (num_urbs_lt B).trans (by decide)
        rw [hbreak]
        exact @handlePartialXfer_owned _ _ _ _ i B.layout rfl action hne hplaced hopen' hr hc hn (hfew.breaks hbreaks)
          hreturned
      · rw [normal_goes_on hcloses hbreaks]
        exact ⟨hplaced, .inl hopen'⟩
  · have hsettle := @awaitedReap_settles ((s.taken i).withBytes b).io (B.continuation i) status hopen.small
    have hsettle' : (s.io.setKernel i .reaped).Settles (awaitedReap (B.continuation i) status ((s.taken i).withBytes b).io) :=
      ⟨hsettle.kernel, hsettle.action, hsettle.completions, hsettle.frees, hsettle.counted, hsettle.small⟩
    rw [@bulk_handle_awaited B (s.taken i) i status len hopen.frees haction, hbytes]
    refine drain_owned ?_ hreturned ?_ ?_
    · exact hplaced.congr hsettle.kernel
    · exact fun hzero => reaped_of_settles h.1 (hopen.covered haction) hlt hdone hsettle' hzero
    · exact open_of_settles hopen haction hlt hdone hsettle'

theorem bulk_step_owned (h : s.Owned B) (hG : s.Covering B l) (hstep : BulkStep B s l t) : t.Owned B := by
  cases hstep with
  | accept hloop hlt => exact accept_owned h hloop hlt
  | @refuse errno hloop hlt =>
    unfold BulkState.refused
    by_cases hzero : s.submitted = 0
    · rw [if_pos hzero]
      refine ⟨h.1, .inr ⟨nofun, fun j hj => ?_⟩⟩
      have hj' : j < s.submitted := hj
      omega
    · rw [if_neg hzero, if_neg (by decide)]
      exact handlePartialSubmit_owned B.layout h hloop ((num_urbs_lt B).trans (by decide)) nofun
  | finish hpending => exact finish_owned h hpending _ _
  | reap hreturned hdone => exact bulk_reap_owned h hreturned hdone hG
  | cancel hreturned =>
    have hloop : s.returned ≠ none := hreturned.trans_ne nofun
    exact @discardUrbs_owned _ _ _ _ B.layout rfl .canceled nofun (touch_owned h) hloop hG
  | timeout hreturned =>
    have hloop : s.returned ≠ none := hreturned.trans_ne nofun
    exact @discardUrbs_owned _ _ _ _ B.layout rfl .timedout nofun (touch_owned h) hloop hG

theorem bulk_start_owned (B : BulkRequest) : BulkState.start.Owned B := fresh_owned

end

/-! ## Isochronous requests -/

section

variable {R : IsocRequest} {s t : IsocState} {l : IsocLabel} {i : ℕ} {status : ℤ} {len : ℕ}

/-- The condition of `BulkState.Covering`, for the branches of `handle_isoc_complete`. -/
def IsocState.Covering (R : IsocRequest) (s : IsocState) : IsocLabel → Prop
  | .accept | .refuse _ | .finish _ _ => True
  | .cancel => s.io.Room R.num_urbs
  | .reap i => s.io.reap_action = .normal → ∀ status len, s.io.kernel i = .done status len →
      s.io.LeavesFew R.num_urbs i (status = 0 ∧ i + 1 = R.num_urbs) (status ≠ 0)

def IsocState.Owned (R : IsocRequest) (s : IsocState) : Prop := s.io.Owned R.num_urbs s.submitted (s.returned = none)

theorem IsocState.Copies.open {n : ℕ} {submitting : Prop} (hc : s.Copies t) (h : s.io.Open n submitting) :
    t.io.Open n submitting where
  completions := hc.completions.trans h.completions
  frees := hc.frees.trans h.frees
  small := hc.to_cancel.trans_lt h.small
  zero hnormal := by
    rw [hc.to_reap, hc.to_cancel]
    exact h.zero (hc.action.symm.trans hnormal)
  covered hne := by
    have hout : t.io.outstanding n = s.io.outstanding n :=
      outstanding_congr fun j => congrArg UrbState.out (congrFun hc.kernel j)
    unfold UrbIo.Covered UrbIo.counted
    rw [hout, hc.to_reap, hc.to_cancel]
    exact h.covered (hc.action ▸ hne)
  normal hsub := hc.action.trans (h.normal hsub)

theorem countDown_settles {io : UrbIo} (status : ℤ) (h : io.urbs_to_cancel < 2 ^ 32) : io.Settles (io.countDown status) := by
  unfold UrbIo.countDown
  split_ifs
  · exact decCancel_settles h
  · exact decReap_settles h
  · exact settles_refl h

/-- The request after a counted URB. -/
theorem isocAwaited_io (status : ℤ) (s : IsocState) : (isocAwaited status s).io =
    if (s.io.countDown status).urbs_to_reap = 0 ∧ (s.io.countDown status).urbs_to_cancel = 0 then
      ((s.io.countDown status).complete
        (if (s.io.countDown status).reap_action = .canceled then OPENUSB_IO_CANCELED else OPENUSB_SYS_FUNC_FAILURE)).free
    else s.io.countDown status := by
  by_cases hzero : (s.io.countDown status).urbs_to_reap = 0 ∧ (s.io.countDown status).urbs_to_cancel = 0
  · rw [if_pos hzero, isocAwaited_ends hzero]
    rfl
  · rw [if_neg hzero, isocAwaited_goes hzero]

theorem isocAwaited_keeps (status : ℤ) (s : IsocState) :
    (isocAwaited status s).submitted = s.submitted ∧ (isocAwaited status s).returned = s.returned := by
  by_cases hzero : (s.io.countDown status).urbs_to_reap = 0 ∧ (s.io.countDown status).urbs_to_cancel = 0
  · rw [isocAwaited_ends hzero]
    exact ⟨rfl, rfl⟩
  · rw [isocAwaited_goes hzero]
    exact ⟨rfl, rfl⟩

/-- The handling of a URB whose reap left the request `NORMAL` and open. -/
theorem isoc_normal_owned (hn : R.num_urbs < 2 ^ 32) (hplaced : s.io.Placed R.num_urbs s.submitted)
    (hopen : s.io.Open R.num_urbs (s.returned = none)) (hreturned : s.returned ≠ none) (haction : s.io.reap_action = .normal)
    (hcloses : status = 0 ∧ i + 1 = R.num_urbs → s.io.outstanding R.num_urbs = 0)
    (hbreaks : status ≠ 0 → s.io.outstanding R.num_urbs ≤ max (R.num_urbs - (i + 1)) 1) :
    (isocHandled R i status s).Owned R := by
  unfold isocHandled
  rw [if_neg (not_not_intro haction)]
  by_cases hstatus : status = 0
  · rw [if_neg (not_not_intro hstatus)]
    by_cases hlast : i + 1 = R.num_urbs
    · rw [if_pos hlast]
      have hall := reaped_of_outstanding hplaced (hcloses ⟨hstatus, hlast⟩)
      exact ⟨⟨hplaced.idle, hplaced.live, hplaced.le⟩, .inr ⟨hreturned, hall⟩⟩
    · rw [if_neg hlast]
      exact ⟨hplaced, .inl hopen⟩
  · obtain ⟨hr, hc⟩ := hopen.zero haction
    rw [if_pos hstatus]
    exact @handlePartialXfer_owned _ _ _ _ i R.toUrbLayout rfl .unknownFailure nofun hplaced hopen hr hc hn
      (hbreaks hstatus) hreturned

/-- The handling of a counted URB. -/
theorem awaited_owned {n submitted : ℕ} {submitting : Prop} {io io₁ : UrbIo} (h : io.Owned n submitted submitting)
    (hreturned : ¬ submitting) (hne : io.reap_action ≠ .normal) (hdone : io.kernel i = .done status len)
    (hsettle : (io.setKernel i .reaped).Settles io₁) (result : ℤ) :
    (if io₁.urbs_to_reap = 0 ∧ io₁.urbs_to_cancel = 0 then (io₁.complete result).free else io₁).Owned n submitted submitting := by
  obtain ⟨hopen, hlt⟩ := open_of_done h hdone
  have hplaced : io₁.Placed n submitted := (h.1.setKernel (hdone.trans_ne nofun) (by simp)).congr hsettle.kernel
  by_cases hzero : io₁.urbs_to_reap = 0 ∧ io₁.urbs_to_cancel = 0
  · rw [if_pos hzero]
    have hall := reaped_of_settles h.1 (hopen.covered hne) hlt hdone hsettle (Nat.add_eq_zero_iff.mpr hzero)
    exact ⟨⟨hplaced.idle, hplaced.live, hplaced.le⟩, .inr ⟨hreturned, hall⟩⟩
  · rw [if_neg hzero]
    exact ⟨hplaced, .inl (open_of_settles hopen hne hlt hdone hsettle)⟩

theorem isoc_reap_owned (h : s.Owned R) (hn : R.num_urbs < 2 ^ 32) (hreturned : s.returned ≠ none)
    (hdone : s.io.kernel i = .done status len) (hG : s.Covering R (.reap i)) :
    (handleIsocComplete R i status { s with io := s.io.setKernel i .reaped }).Owned R := by
  obtain ⟨hopen, hlt⟩ := open_of_done h hdone
  obtain ⟨t, hc, hhandle⟩ := handle_live (R := R) (s := { s with io := s.io.setKernel i .reaped }) i status hopen.frees
  have hplaced : UrbIo.Placed R.num_urbs s.submitted (s.io.setKernel i .reaped) :=
    h.1.setKernel (hdone.trans_ne nofun) (by simp)
  rw [hhandle]
  by_cases haction : s.io.reap_action = .normal
  · have hfew := hG haction status len hdone
    have hout : t.io.outstanding R.num_urbs = s.io.left R.num_urbs i :=
      outstanding_congr fun j => congrArg UrbState.out (congrFun hc.kernel j)
    have hsub : t.submitted = s.submitted := hc.submitted
    have hret : t.returned = s.returned := hc.returned
    refine isoc_normal_owned hn ?_ ?_ (hret.trans_ne hreturned) (hc.action.trans haction) ?_ ?_
    · rw [hsub]
      exact hplaced.congr hc.kernel
    · rw [hret]
      exact hc.open (open_reaped hopen hlt hdone)
    · exact fun hcloses => hout.trans (hfew.closes hcloses)
    · exact fun hstatus => hout.trans_le (hfew.breaks hstatus)
  · have hsettle := @countDown_settles t.io status (hc.to_cancel.trans_lt hopen.small)
    have hcounted : (s.io.setKernel i .reaped).counted = t.io.counted := by
      unfold UrbIo.counted
      rw [hc.to_reap, hc.to_cancel]
    have hsettle' : (s.io.setKernel i .reaped).Settles (t.io.countDown status) :=
      ⟨hsettle.kernel.trans hc.kernel, hsettle.action.trans hc.action, hsettle.completions.trans hc.completions,
        hsettle.frees.trans hc.frees, hcounted.trans_le hsettle.counted, hsettle.small⟩
    obtain ⟨hsub, hret⟩ := isocAwaited_keeps status t
    unfold isocHandled IsocState.Owned
    rw [if_pos (hc.action.trans_ne haction), hsub, hret, isocAwaited_io, hc.submitted, hc.returned]
    exact awaited_owned h hreturned haction hdone hsettle' _

theorem isoc_step_owned (hn : R.num_urbs < 2 ^ 32) (h : s.Owned R) (hG : s.Covering R l) (hstep : IsocStep R s l t) :
    t.Owned R := by
  cases hstep with
  | accept hloop hlt => exact accept_owned h hloop hlt
  | @refuse errno hloop hlt =>
    unfold IsocState.refused
    by_cases hzero : s.submitted = 0
    · rw [if_pos hzero]
      refine ⟨h.1, .inr ⟨nofun, fun j hj => ?_⟩⟩
      have hj' : j < s.submitted := hj
      omega
    · rw [if_neg hzero]
      exact handlePartialSubmit_owned R.toUrbLayout h hloop hn nofun
  | finish hpending => exact finish_owned h hpending _ _
  | reap hreturned hdone => exact isoc_reap_owned h hn hreturned hdone hG
  | cancel hreturned =>
    have hloop : s.returned ≠ none := hreturned.trans_ne nofun
    exact @discardUrbs_owned _ _ _ _ R.toUrbLayout rfl .canceled nofun h hloop hG

theorem isoc_start_owned (R : IsocRequest) (payload : ℕ → List UInt8) : (IsocState.start payload).Owned R :=
  fresh_owned

end

/-! ## The life of a request -/

/-- What the library sees of a kind of request: its states and steps, its URBs, whether its submission has returned, and
`linux_io_cancel`. -/
structure RequestKind where
  State : Type
  Label : Type
  Step : State → Label → State → Prop
  start : State
  io : State → UrbIo
  submitted : State → ℕ
  Returned : State → Prop
  InProgress : State → Prop
  cancel : State → State

/-- A request on Linux; a control request is in the hands of the kernel. -/
inductive IoRequest where
  | ctrl (length : ℕ) (payload : List UInt8)
  | bulk (B : BulkRequest)
  | isoc (R : IsocRequest) (num_urbs_lt : R.num_urbs < 2 ^ 32) (payload : ℕ → List UInt8)

def IoRequest.kind : IoRequest → RequestKind
  | .ctrl length payload =>
    { State := CtrlState, Label := CtrlLabel, Step := CtrlStep length, start := .submitted payload, io := CtrlState.io
      submitted := fun _ => 1, Returned := fun _ => True, InProgress := fun s => s.status = .inProgress
      cancel := CtrlState.cancel }
  | .bulk B =>
    { State := BulkState, Label := BulkLabel, Step := BulkStep B, start := .start, io := BulkState.io
      submitted := BulkState.submitted, Returned := fun s => s.returned ≠ none
      InProgress := fun s => s.status = .inProgress, cancel := BulkState.cancel B }
  | .isoc R _ payload =>
    { State := IsocState, Label := IsocLabel, Step := IsocStep R, start := .start payload, io := IsocState.io
      submitted := IsocState.submitted, Returned := fun s => s.returned ≠ none
      InProgress := fun s => s.io.completions = []
      cancel := fun s => { s with io := discardUrbs R.toUrbLayout .canceled s.io } }

/-- `freed` is set by `usbi_free_io`. -/
structure Life (K : RequestKind) where
  state : K.State
  freed : Bool := false

inductive LifeLabel (K : RequestKind) where
  | work (l : K.Label)
  | free (async : Bool)

/-- A step of the request, or `usbi_free_io`, which the frontend may call at any time once the request is submitted: it
cancels an asynchronous request in progress, and releases it. -/
inductive LifeStep (K : RequestKind) : Life K → LifeLabel K → Life K → Prop where
  | work {s t : K.State} {l : K.Label} (h : K.Step s l t) : LifeStep K ⟨s, false⟩ (.work l) ⟨t, false⟩
  | cancel {s : K.State} (h : K.Returned s) (hprogress : K.InProgress s) :
      LifeStep K ⟨s, false⟩ (.free true) ⟨K.cancel s, true⟩
  | release {s : K.State} {async : Bool} (h : K.Returned s) (hidle : async = true → ¬ K.InProgress s) :
      LifeStep K ⟨s, false⟩ (.free async) ⟨s, true⟩

/-- All URBs of the request that the kernel has accepted have been reaped. -/
def RequestKind.Reaped (K : RequestKind) (s : K.State) : Prop := ∀ i < K.submitted s, (K.io s).kernel i = .reaped

/-- A request is completed, its URBs are released and it is freed only when all its URBs have been reaped. -/
def Life.Held {K : RequestKind} (s : Life K) : Prop :=
  (K.io s.state).completions ≠ [] ∨ (K.io s.state).frees ≠ 0 ∨ s.freed = true → K.Reaped s.state

/-- The conditions above for the steps of the request; it is freed only after it is completed or its URBs are released,
or when the kernel has accepted no URB. -/
def IoRequest.Covering : (q : IoRequest) → Life q.kind → LifeLabel q.kind → Prop
  | .ctrl _ _, _, .work _ => True
  | .bulk B, s, .work l => BulkState.Covering B s.state l
  | .isoc R _ _, s, .work l => IsocState.Covering R s.state l
  | q, s, .free _ =>
    (q.kind.io s.state).completions ≠ [] ∨ (q.kind.io s.state).frees ≠ 0 ∨ q.kind.submitted s.state = 0

def IoRequest.Owned : (q : IoRequest) → q.kind.State → Prop
  | .ctrl _ _, s => CtrlState.Staged s
  | .bulk B, s => BulkState.Owned B s
  | .isoc R _ _, s => IsocState.Owned R s

section

variable {q : IoRequest} {s t : q.kind.State} {l : q.kind.Label}

theorem owned_start (q : IoRequest) : q.Owned q.kind.start := by
  cases q with
  | ctrl length payload => exact .inl (submitted_waiting payload)
  | bulk B => exact bulk_start_owned B
  | isoc R _ payload => exact isoc_start_owned R payload

theorem owned_step (h : q.Owned s) (hG : q.Covering ⟨s, false⟩ (.work l)) (hstep : q.kind.Step s l t) : q.Owned t := by
  cases q with
  | ctrl length payload => exact ctrlStep_staged h hstep
  | bulk B => exact bulk_step_owned h hG hstep
  | isoc R num_urbs_lt payload => exact isoc_step_owned num_urbs_lt h hG hstep

/-- The control request has one URB. -/
theorem ctrl_reaped {io : UrbIo} (h : io.kernel 0 = .reaped) : ∀ i < 1, io.kernel i = .reaped := by
  intro i hi
  rw [Nat.lt_one_iff.mp hi]
  exact h

/-- A request that has been completed or released has no URB with the kernel. -/
theorem reaped_of_owned (h : q.Owned s) (hover : (q.kind.io s).completions ≠ [] ∨ (q.kind.io s).frees ≠ 0) :
    q.kind.Reaped s := by
  cases q with
  | ctrl length payload =>
    rcases h with hwait | ⟨status, hdone | hlost⟩
    · exact absurd hover (not_or.mpr ⟨not_not_intro hwait.completions, not_not_intro hwait.frees⟩)
    · exact ctrl_reaped hdone.kernel
    · exact ctrl_reaped hlost.kernel
  | bulk B | isoc R num_urbs_lt payload =>
    rcases h.2 with hopen | ⟨-, hall⟩
    · exact absurd hover (not_or.mpr ⟨not_not_intro hopen.completions, not_not_intro hopen.frees⟩)
    · exact hall

/-- A cancel does not bring a URB back to the kernel. -/
theorem reaped_cancel (h : q.kind.Reaped s) : q.kind.Reaped (q.kind.cancel s) := by
  have hkeep : ∀ (L : UrbLayout) (io : UrbIo) (i : ℕ), io.kernel i = .reaped →
      (discardUrbs L .canceled io).kernel i = .reaped :=
    fun L io i hi => ((discardUrbs_frame L .canceled io).kernel_of_ne (hi.trans_ne nofun)).trans hi
  cases q with
  | ctrl length payload => exact fun i hi => hkeep _ _ i (h i hi)
  | bulk B => exact fun i hi => hkeep _ _ i (h i hi)
  | isoc R num_urbs_lt payload => exact fun i hi => hkeep _ _ i (h i hi)

/-- A freed request has no URB with the kernel, any other request is owned. -/
def Life.Guarded (s : Life q.kind) : Prop := if s.freed = true then q.kind.Reaped s.state else q.Owned s.state

theorem reaped_of_free {async : Bool} (h : q.Owned s) (hG : q.Covering ⟨s, false⟩ (.free async)) : q.kind.Reaped s := by
  have hcases : (q.kind.io s).completions ≠ [] ∨ (q.kind.io s).frees ≠ 0 ∨ q.kind.submitted s = 0 := by
    cases q <;> exact hG
  rw [← or_assoc] at hcases
  rcases hcases with hover | hnone
  · exact reaped_of_owned h hover
  · intro i hi
    rw [hnone] at hi
    exact absurd hi (Nat.not_lt_zero i)

theorem life_step {s t : Life q.kind} {l : LifeLabel q.kind} (h : s.Guarded) (hG : q.Covering s l)
    (hstep : LifeStep q.kind s l t) : t.Guarded := by
  cases hstep with
  | work hstep => exact owned_step h hG hstep
  | cancel => exact reaped_cancel (reaped_of_free h hG)
  | release => exact reaped_of_free h hG

theorem Life.Guarded.held {s : Life q.kind} (h : s.Guarded) : s.Held := by
  intro hover
  unfold Life.Guarded at h
  by_cases hfreed : s.freed = true
  · rwa [if_pos hfreed] at h
  · rw [if_neg hfreed] at h
    rw [← or_assoc] at hover
    exact reaped_of_owned h (hover.resolve_right hfreed)

end

/-- Under the condition no request is completed or released while the kernel has one of its URBs. -/
theorem requests_held (q : IoRequest) (ls : List (LifeLabel q.kind)) (s : Life q.kind)
    (hrun : Run (LifeStep q.kind) q.Covering ⟨q.kind.start, false⟩ ls s) : s.Held := by
  have hguarded : s.Guarded := hrun.inv (fun _ _ _ hs hG hstep => life_step hs hG hstep) (owned_start q)
  exact hguarded.held

/-- Two URBs of 16 KiB. -/
def twoBulkUrbs : BulkRequest where
  length := 32768
  length_lt := by decide
  supports_continuation := false

/-- A request of two URBs that completes and is freed; the second URB is with the device while the first is reaped. -/
theorem requests_held_two : ∃ s : Life (IoRequest.isoc twoIsocUrbs (by decide) fun _ => []).kind, s.Held ∧ s.freed = true := by
  have hrun : ∃ t, Run (LifeStep (IoRequest.isoc twoIsocUrbs (by decide) fun _ => []).kind) (IoRequest.Covering _)
      ⟨IsocState.start fun _ => [], false⟩ [.work .accept, .work (.finish 0 0), .work .accept, .work (.reap 0),
        .work (.finish 1 0), .work (.reap 1), .free false] ⟨t, true⟩ := by
    refine ⟨_, .cons trivial (.work (.accept rfl (by decide))) (.cons trivial (.work (.finish rfl))
      (.cons trivial (.work (.accept rfl (by decide))) (.cons ?_ (.work (.reap nofun rfl)) (.cons trivial
        (.work (.finish rfl)) (.cons ?_ (.work (.reap nofun rfl)) (.cons (.inl nofun) (.release nofun nofun) (.nil _)))))))⟩
    · intro _ status len hdone
      obtain ⟨rfl, -⟩ := UrbState.done.inj hdone
      exact ⟨fun h => absurd h.2 (by decide), fun h => absurd rfl h⟩
    · intro _ status len hdone
      obtain ⟨rfl, -⟩ := UrbState.done.inj hdone
      exact ⟨fun _ => rfl, fun h => absurd rfl h⟩
  obtain ⟨t, hrun⟩ := hrun
  exact ⟨⟨t, true⟩, requests_held _ _ _ hrun, rfl⟩

/-- A stall completes the request and releases its URBs while the next URB is with the kernel; so does a close. -/
theorem stall_releases_pending :
    (∃ s, Run (LifeStep (IoRequest.bulk twoBulkUrbs).kind) (fun _ _ => True) ⟨BulkState.start, false⟩
      [.work .accept, .work .accept, .work (.finish 0 (-EPIPE) 0), .work (.reap 0)] s ∧ ¬ s.Held) ∧
    ∃ s, Run (LifeStep (IoRequest.bulk twoBulkUrbs).kind) (fun _ _ => True) ⟨BulkState.start, false⟩
      [.work .accept, .work .accept, .free true] s ∧ ¬ s.Held := by
  refine ⟨⟨⟨_, false⟩, .cons trivial (.work (.accept rfl (by decide))) (.cons trivial (.work (.accept rfl (by decide)))
    (.cons trivial (.work (.finish rfl)) (.cons trivial (.work (.reap nofun rfl)) (.nil _)))), fun h => ?_⟩,
    ⟨⟨_, true⟩, .cons trivial (.work (.accept rfl (by decide))) (.cons trivial (.work (.accept rfl (by decide)))
      (.cons trivial (.cancel nofun rfl) (.nil _))), fun h => ?_⟩⟩
  · exact absurd (h (.inl nofun) 1 (by decide)) (by decide)
  · exact absurd (h (.inr (.inr rfl)) 1 (by decide)) (by decide)

end OpenUsb
