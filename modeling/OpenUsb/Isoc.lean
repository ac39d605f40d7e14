import OpenUsb.Claim
import OpenUsb.Urbs
import OpenUsb.Lib.Runs

/-!
# Isoc — isochronous requests on Linux

`linux_submit_isoc` hands the URBs of `iso_urbs` to the kernel one by one; the poll thread passes each reaped URB to
`handle_isoc_complete`.  Submission, reaps and cancels exclude each other by `hdev->lock`; between them the device
finishes URBs.  The model starts when the URBs are allocated and filled.

A run is sound when it never discards anything but URBs of the table, completes the request once and frees the table once
(`IsocState.Sound`).  `isoc_sound` says for which runs this holds.
-/

namespace OpenUsb

/-- `struct usbk_iso_packet_desc` of a reaped URB. -/
structure IsoFrame where
  status : ℤ
  actual_length : ℕ
  deriving DecidableEq, Repr

/-- A request split into URBs; `frames i` and `buffer i` are what URB `i` brings back. -/
structure IsocRequest extends UrbLayout where
  toHost : Bool
  frames : ℕ → List IsoFrame
  buffer : ℕ → List UInt8

/-- `submitted` counts the accepted URBs, and `returned` is the result of `linux_submit_isoc` once it has returned;
`isoc_results` are status and bytes for each packet of the request. -/
structure IsocState where
  io : UrbIo
  submitted : ℕ := 0
  returned : Option ℤ := none
  isoc_packet_offset : ℕ := 0
  isoc_results : ℕ → ℤ × ℕ := fun _ => (0, 0)
  payload : ℕ → List UInt8

section

variable (R : IsocRequest)

/-- One round of the copying of results: the frame's status if it is an error, its length and its bytes. -/
def copyFrame (f : IsoFrame) (urbBuffer : List UInt8) (s : IsocState) : IsocState :=
  let k := s.isoc_packet_offset
  { s with
    io := s.io.addBytes f.actual_length
    isoc_packet_offset := k + 1
    isoc_results := Function.update s.isoc_results k
      (if f.status ≠ 0 then translateErrno (-f.status) else (s.isoc_results k).1, f.actual_length)
    payload :=
      if R.toHost then
        Function.update s.payload k (urbBuffer.take f.actual_length ++ (s.payload k).drop f.actual_length)
      else s.payload }

/-- The copying loop; `urb_buffer` moves on by the actual length. -/
def copyFrames : List IsoFrame → List UInt8 → IsocState → IsocState
  | [], _, s => s
  | f :: fs, urbBuffer, s =>
    copyFrames fs (if R.toHost then urbBuffer.drop f.actual_length else urbBuffer) (copyFrame R f urbBuffer s)

/-- `usbi_io_complete` of an isochronous request: status and bytes go to `isoc_results[0]`, too. -/
def IsocState.complete (status : ℤ) (s : IsocState) : IsocState :=
  { s with
    io := s.io.complete status
    isoc_results := Function.update s.isoc_results 0 (status, s.io.bytes_transferred) }

/-- `free_isoc_urbs`. -/
def IsocState.free (s : IsocState) : IsocState := { s with io := s.io.free }

/-- The counters after a URB of a request that is not `NORMAL` any more. -/
def UrbIo.countDown (status : ℤ) (io : UrbIo) : UrbIo :=
  if status = -ENOENT then io.decCancel else if status = 0 then io.decReap else io

/-- The branch of `handle_isoc_complete` for such a request. -/
def isocAwaited (status : ℤ) (s : IsocState) : IsocState :=
  let s := { s with io := s.io.countDown status }
  if s.io.urbs_to_reap = 0 ∧ s.io.urbs_to_cancel = 0 then
    (s.complete (if s.io.reap_action = .canceled then OPENUSB_IO_CANCELED else OPENUSB_SYS_FUNC_FAILURE)).free
  else s

/-- `handle_isoc_complete` of URB `i` of the table, after the results have been copied. -/
def isocHandled (i : ℕ) (status : ℤ) (s : IsocState) : IsocState :=
  if s.io.reap_action ≠ .normal then isocAwaited status s
  else if status ≠ 0 then { s with io := handlePartialXfer R.toUrbLayout (i + 1) .unknownFailure s.io }
  else if i + 1 = R.num_urbs then s.free.complete OPENUSB_SUCCESS
  else s

/-- `handle_isoc_complete`; once the table is freed it reads freed memory. -/
def handleIsocComplete (i : ℕ) (status : ℤ) (s : IsocState) : IsocState :=
  if s.io.frees ≠ 0 then { s with io := { s.io with misuse := true } }
  else isocHandled R i status (if status = 0 then copyFrames R (R.frames i) (R.buffer i) s else s)

end

/-- The next URB is accepted or refused, the device finishes a URB, a URB is reaped, the request is cancelled. -/
inductive IsocLabel where
  | accept
  | refuse (errno : ℤ)
  | finish (i : ℕ) (status : ℤ)
  | reap (i : ℕ)
  | cancel
  deriving DecidableEq, Repr

section

variable (R : IsocRequest)

/-- A submission loop that ends without an error, or goes on. -/
def IsocState.accepted (s : IsocState) : IsocState :=
  { s with
    io := s.io.setKernel s.submitted .pending
    submitted := s.submitted + 1
    returned := if s.submitted + 1 = R.num_urbs then some OPENUSB_SUCCESS else none }

/-- The error branch of the submission loop. -/
def IsocState.refused (errno : ℤ) (s : IsocState) : IsocState :=
  if s.submitted = 0 then { s with returned := some (translateErrno errno) }
  else { s with io := handlePartialSubmit R.toUrbLayout s.submitted s.io, returned := some OPENUSB_SUCCESS }

inductive IsocStep : IsocState → IsocLabel → IsocState → Prop where
  | accept {s : IsocState} (h : s.returned = none) (hlt : s.submitted < R.num_urbs) : IsocStep s .accept (s.accepted R)
  | refuse {s : IsocState} {errno : ℤ} (h : s.returned = none) (hlt : s.submitted < R.num_urbs) :
      IsocStep s (.refuse errno) (s.refused R errno)
  | finish {s : IsocState} {i : ℕ} {status : ℤ} (h : s.io.kernel i = .pending) :
      IsocStep s (.finish i status) { s with io := s.io.setKernel i (.done status 0) }
  | reap {s : IsocState} {i : ℕ} {status : ℤ} {len : ℕ} (h : s.returned ≠ none) (hdone : s.io.kernel i = .done status len) :
      IsocStep s (.reap i) (handleIsocComplete R i status { s with io := s.io.setKernel i .reaped })
  | cancel {s : IsocState} (h : s.returned = some OPENUSB_SUCCESS) (hlisted : s.io.completions = []) :
      IsocStep s .cancel { s with io := discardUrbs R.toUrbLayout .canceled s.io }

/-- Every discard names a URB of the table, freed memory is not used, and when all submitted URBs have been reaped the
request has completed once and its table has been freed once. -/
structure IsocState.Sound (s : IsocState) : Prop where
  named : ∀ d ∈ s.io.discards, ∃ i < R.num_urbs, d = some i
  unmisused : s.io.misuse = false
  once : s.returned ≠ none → (∀ i < s.submitted, s.io.kernel i = .reaped) →
    s.io.completions.length = 1 ∧ s.io.frees = 1

/-- The URBs before the table's last one that have not been reaped. -/
def IsocState.earlier (s : IsocState) : Finset ℕ :=
  (Finset.range (R.num_urbs - 1)).filter fun j => s.io.kernel j ≠ .reaped

/-- The step is no refusal and no cancel, and a reap keeps the order that the handler relies on: as long as the last URB
is not reaped the others come with status 0; the last one comes after all others, or with an error before just one. -/
def IsocState.Orderly (s : IsocState) : IsocLabel → Prop
  | .accept | .finish _ _ => True
  | .refuse _ | .cancel => False
  | .reap i => ∀ status len, s.io.kernel i = .done status len → s.io.kernel (R.num_urbs - 1) ≠ .reaped →
      if i + 1 = R.num_urbs then (s.earlier R).card = (if status = 0 then 0 else 1) else status = 0

end

/-! ## The three stages of an orderly run -/

section

variable {R : IsocRequest} {s t : IsocState} {l : IsocLabel}

/-- What holds throughout: nothing is discarded or awaited, and the URBs not submitted are idle. -/
structure IsocState.Calm (R : IsocRequest) (s : IsocState) : Prop where
  discards : s.io.discards = []
  misuse : s.io.misuse = false
  to_reap : s.io.urbs_to_reap = 0
  to_cancel : s.io.urbs_to_cancel = 0
  idle : ∀ i, s.submitted ≤ i → s.io.kernel i = .idle
  loop : if s.returned = none then s.submitted < R.num_urbs else s.submitted = R.num_urbs

/-- The last URB is still to come. -/
structure IsocState.Running (R : IsocRequest) (s : IsocState) : Prop where
  action : s.io.reap_action = .normal
  completions : s.io.completions = []
  frees : s.io.frees = 0
  last : s.io.kernel (R.num_urbs - 1) ≠ .reaped

/-- The last URB had an error, and one URB is left. -/
structure IsocState.Awaiting (R : IsocRequest) (s : IsocState) : Prop where
  action : s.io.reap_action = .unknownFailure
  completions : s.io.completions = []
  frees : s.io.frees = 0
  last : s.io.kernel (R.num_urbs - 1) = .reaped
  returned : s.returned ≠ none
  one : (s.earlier R).card = 1

structure IsocState.Finished (R : IsocRequest) (s : IsocState) : Prop where
  completions : s.io.completions.length = 1
  frees : s.io.frees = 1
  reaped : ∀ i < R.num_urbs, s.io.kernel i = .reaped
  returned : s.returned ≠ none

/-- A run is in one of three stages: the last URB is still to come, it came with an error, or the request is completed. -/
def IsocState.Staged (R : IsocRequest) (s : IsocState) : Prop :=
  s.Calm R ∧ (s.Running R ∨ s.Awaiting R ∨ s.Finished R)

theorem mem_earlier {j : ℕ} : j ∈ s.earlier R ↔ j < R.num_urbs - 1 ∧ s.io.kernel j ≠ .reaped := by
  simp [IsocState.earlier]

theorem IsocState.Staged.sound (hn : 0 < R.num_urbs) (h : s.Staged R) : s.Sound R where
  named := by
    rw [h.1.discards]
    simp
  unmisused := h.1.misuse
  once hreturned hall := by
    have hsub : s.submitted = R.num_urbs := by
      have hloop := h.1.loop
      rwa [if_neg hreturned] at hloop
    rw [hsub] at hall
    rcases h.2 with hrun | hwait | hfin
    · exact absurd (hall _ (by omega)) hrun.last
    · obtain ⟨j, hj⟩ := Finset.card_pos.mp (hwait.one ▸ Nat.one_pos)
      rw [mem_earlier] at hj
      exact absurd (hall j (by omega)) hj.2
    · exact ⟨hfin.completions, hfin.frees⟩

/-! ## The handler, branch by branch -/

/-- What every branch leaves as it is. -/
structure IsocState.Keeps (s t : IsocState) : Prop where
  submitted : t.submitted = s.submitted
  returned : t.returned = s.returned
  kernel : t.io.kernel = s.io.kernel
  discards : t.io.discards = s.io.discards
  misuse : t.io.misuse = s.io.misuse
  to_reap : t.io.urbs_to_reap = s.io.urbs_to_reap
  to_cancel : t.io.urbs_to_cancel = s.io.urbs_to_cancel

/-- What the copying of results leaves as it is. -/
structure IsocState.Copies (s t : IsocState) : Prop extends s.Keeps t where
  action : t.io.reap_action = s.io.reap_action
  completions : t.io.completions = s.io.completions
  frees : t.io.frees = s.io.frees

theorem copies_refl (s : IsocState) : s.Copies s := ⟨⟨rfl, rfl, rfl, rfl, rfl, rfl, rfl⟩, rfl, rfl, rfl⟩

theorem copyFrames_copies (fs : List IsoFrame) (urbBuffer : List UInt8) (s : IsocState) :
    s.Copies (copyFrames R fs urbBuffer s) := by
  induction fs generalizing urbBuffer s with
  | nil => exact copies_refl s
  | cons f fs ih =>
    have h := ih (if R.toHost then urbBuffer.drop f.actual_length else urbBuffer) (copyFrame R f urbBuffer s)
    exact ⟨⟨h.submitted, h.returned, h.kernel, h.discards, h.misuse, h.to_reap, h.to_cancel⟩, h.action, h.completions,
      h.frees⟩

theorem handle_live (i : ℕ) (status : ℤ) (hfrees : s.io.frees = 0) :
    ∃ t, s.Copies t ∧ handleIsocComplete R i status s = isocHandled R i status t := by
  unfold handleIsocComplete
  rw [if_neg (not_not_intro hfrees)]
  refine ⟨_, ?_, rfl⟩
  by_cases hstatus : status = 0
  · rw [if_pos hstatus]
    exact copyFrames_copies (R.frames i) (R.buffer i) s
  · rw [if_neg hstatus]
    exact copies_refl s

theorem countDown_zero {io : UrbIo} (hreap : io.urbs_to_reap = 0) (hcancel : io.urbs_to_cancel = 0) (status : ℤ) :
    io.countDown status = io := by
  rw [UrbIo.countDown, UrbIo.decCancel, UrbIo.decReap, if_pos hcancel, if_pos hreap]
  split_ifs <;> rfl

/-- Nothing is left to await. -/
theorem isocAwaited_ends {status : ℤ}
    (h : (s.io.countDown status).urbs_to_reap = 0 ∧ (s.io.countDown status).urbs_to_cancel = 0) :
    isocAwaited status s = (IsocState.complete
      (if (s.io.countDown status).reap_action = .canceled then OPENUSB_IO_CANCELED else OPENUSB_SYS_FUNC_FAILURE)
      { s with io := s.io.countDown status }).free := if_pos h

theorem isocAwaited_goes {status : ℤ}
    (h : ¬ ((s.io.countDown status).urbs_to_reap = 0 ∧ (s.io.countDown status).urbs_to_cancel = 0)) :
    isocAwaited status s = { s with io := s.io.countDown status } := if_neg h

theorem isocAwaited_zero (hreap : s.io.urbs_to_reap = 0) (hcancel : s.io.urbs_to_cancel = 0) (status : ℤ) :
    isocAwaited status s =
      (s.complete (if s.io.reap_action = .canceled then OPENUSB_IO_CANCELED else OPENUSB_SYS_FUNC_FAILURE)).free := by
  have hsame := countDown_zero hreap hcancel status
  rw [isocAwaited_ends (by rw [hsame]; exact ⟨hreap, hcancel⟩), hsame]

/-- The request is completed and its table freed. -/
def IsocState.Closes (s t : IsocState) : Prop :=
  s.Keeps t ∧ t.io.completions.length = s.io.completions.length + 1 ∧ t.io.frees = s.io.frees + 1

/-- A request with nothing left to await is completed by the next URB. -/
theorem handled_awaited {i : ℕ} {status : ℤ} (haction : s.io.reap_action ≠ .normal) (hreap : s.io.urbs_to_reap = 0)
    (hcancel : s.io.urbs_to_cancel = 0) : s.Closes (isocHandled R i status s) := by
  unfold isocHandled
  rw [if_pos haction, isocAwaited_zero hreap hcancel]
  exact ⟨⟨rfl, rfl, rfl, rfl, rfl, rfl, rfl⟩, List.length_append, rfl⟩

theorem handled_last {i : ℕ} (haction : s.io.reap_action = .normal) (hlast : i + 1 = R.num_urbs) :
    s.Closes (isocHandled R i 0 s) := by
  unfold isocHandled
  rw [if_neg (not_not_intro haction), if_neg (not_not_intro rfl), if_pos hlast]
  exact ⟨⟨rfl, rfl, rfl, rfl, rfl, rfl, rfl⟩, List.length_append, rfl⟩

theorem handlePartialXfer_end (L : UrbLayout) (action : ReapAction) (io : UrbIo) :
    handlePartialXfer L L.num_urbs action io = { io with reap_action := action } := by
  unfold handlePartialXfer
  rw [Nat.sub_self]
  rfl

/-- An error of the last URB: there is nothing to cancel. -/
theorem handled_last_error {i : ℕ} {status : ℤ} (haction : s.io.reap_action = .normal) (hlast : i + 1 = R.num_urbs)
    (hstatus : status ≠ 0) :
    isocHandled R i status s = { s with io := { s.io with reap_action := .unknownFailure } } := by
  unfold isocHandled
  rw [if_neg (not_not_intro haction), if_pos hstatus, hlast, handlePartialXfer_end]

theorem handled_earlier {i : ℕ} (haction : s.io.reap_action = .normal) (hlast : i + 1 ≠ R.num_urbs) :
    isocHandled R i 0 s = s := by
  unfold isocHandled
  rw [if_neg (not_not_intro haction), if_neg (not_not_intro rfl), if_neg hlast]

/-! ## One orderly step -/

theorem IsocState.Calm.keeps (h : s.Calm R) (hk : s.Keeps t) : t.Calm R where
  discards := hk.discards.trans h.discards
  misuse := hk.misuse.trans h.misuse
  to_reap := hk.to_reap.trans h.to_reap
  to_cancel := hk.to_cancel.trans h.to_cancel
  idle i hi := by
    rw [hk.kernel]
    exact h.idle i (hk.submitted ▸ hi)
  loop := by
    rw [hk.returned, hk.submitted]
    exact h.loop

/-- A submitted URB changes its place. -/
theorem IsocState.Calm.setKernel {i : ℕ} (h : s.Calm R) (hi : s.io.kernel i ≠ .idle) (u : UrbState) :
    IsocState.Calm R { s with io := s.io.setKernel i u } where
  discards := h.discards
  misuse := h.misuse
  to_reap := h.to_reap
  to_cancel := h.to_cancel
  idle j hj := by
    have hne : j ≠ i := by
      rintro rfl
      exact hi (h.idle j hj)
    exact (UrbIo.setKernel_of_ne _ _ hne u).trans (h.idle j hj)
  loop := h.loop

theorem IsocState.Calm.lt {i : ℕ} (h : s.Calm R) (hi : s.io.kernel i ≠ .idle) : i < R.num_urbs := by
  have hlt : i < s.submitted := by
    by_contra hge
    exact hi (h.idle i (Nat.le_of_not_lt hge))
  have hloop := h.loop
  split_ifs at hloop <;> omega

theorem all_reaped (hlast : s.io.kernel (R.num_urbs - 1) = .reaped) (hnone : (s.earlier R).card = 0) :
    ∀ j < R.num_urbs, s.io.kernel j = .reaped := by
  intro j hj
  by_cases hj' : j = R.num_urbs - 1
  · rw [hj']
    exact hlast
  · by_contra hne
    have hmem : j ∈ s.earlier R := mem_earlier.mpr ⟨by omega, hne⟩
    rw [Finset.card_eq_zero.mp hnone] at hmem
    exact absurd hmem (Finset.notMem_empty j)

theorem earlier_congr (h : t.io.kernel = s.io.kernel) : t.earlier R = s.earlier R := by
  unfold IsocState.earlier
  rw [h]

/-- The reap of an earlier URB. -/
theorem earlier_reaped {i : ℕ} (hi : i < R.num_urbs) (hlast : i + 1 ≠ R.num_urbs) (hne : s.io.kernel i ≠ .reaped) :
    (IsocState.earlier R { s with io := s.io.setKernel i .reaped }).card + 1 = (s.earlier R).card := by
  have herase : IsocState.earlier R { s with io := s.io.setKernel i .reaped } = (s.earlier R).erase i := by
    ext j
    rw [Finset.mem_erase, mem_earlier, mem_earlier]
    by_cases hj : j = i
    · simp [hj, UrbIo.setKernel]
    · simp [hj, UrbIo.setKernel]
  rw [herase]
  exact Finset.card_erase_add_one (mem_earlier.mpr ⟨by omega, hne⟩)

/-- A URB that is not reaped moves, and is still not reaped. -/
theorem earlier_moved {i : ℕ} {u : UrbState} (h : s.io.kernel i ≠ .reaped) (hu : u ≠ .reaped) :
    IsocState.earlier R { s with io := s.io.setKernel i u } = s.earlier R := by
  ext j
  rw [mem_earlier, mem_earlier]
  by_cases hj : j = i
  · simp [hj, UrbIo.setKernel, h, hu]
  · simp [UrbIo.setKernel, Function.update_of_ne hj]

theorem earlier_last {i : ℕ} (hlast : i + 1 = R.num_urbs) :
    IsocState.earlier R { s with io := s.io.setKernel i .reaped } = s.earlier R := by
  ext j
  rw [mem_earlier, mem_earlier]
  refine and_congr_right fun hj => ?_
  have hne : j ≠ i := by omega
  simp [UrbIo.setKernel, Function.update_of_ne hne]

/-- The request closes with all URBs reaped. -/
theorem finished_of_closes {s₁ : IsocState} (hclose : s₁.Closes t) (hnone : s₁.io.completions = []) (hfrees : s₁.io.frees = 0)
    (hreturned : s₁.returned ≠ none) (hlast : s₁.io.kernel (R.num_urbs - 1) = .reaped) (hall : (s₁.earlier R).card = 0) :
    t.Finished R where
  completions := by rw [hclose.2.1, hnone, List.length_nil]
  frees := by rw [hclose.2.2, hfrees]
  reaped := by
    intro j hj
    rw [hclose.1.kernel]
    exact all_reaped hlast hall j hj
  returned := by
    rw [hclose.1.returned]
    exact hreturned

theorem IsocState.Calm.copies (h : s.Calm R) (hc : s.Copies t) : t.Calm R := h.keeps hc.toKeeps

theorem IsocState.Closes.of_copies {s₁ : IsocState} (hc : s.Copies s₁) (h : s₁.Closes t) : s.Closes t := by
  obtain ⟨hk, hcompletions, hfrees⟩ := h
  refine ⟨⟨?_, ?_, ?_, ?_, ?_, ?_, ?_⟩, ?_, ?_⟩
  · exact hk.submitted.trans hc.submitted
  · exact hk.returned.trans hc.returned
  · exact hk.kernel.trans hc.kernel
  · exact hk.discards.trans hc.discards
  · exact hk.misuse.trans hc.misuse
  · exact hk.to_reap.trans hc.to_reap
  · exact hk.to_cancel.trans hc.to_cancel
  · rw [hcompletions, hc.completions]
  · rw [hfrees, hc.frees]

/-- A reap while the last URB is still to come. -/
theorem isoc_reap_running {i : ℕ} {status : ℤ} {len : ℕ} (hcalm : s.Calm R) (hrun : s.Running R) (hreturned : s.returned ≠ none)
    (hdone : s.io.kernel i = .done status len)
    (hG : if i + 1 = R.num_urbs then (s.earlier R).card = (if status = 0 then 0 else 1) else status = 0) :
    (handleIsocComplete R i status { s with io := s.io.setKernel i .reaped }).Staged R := by
  have hi : s.io.kernel i ≠ .idle := by simp [hdone]
  have hcalm' := hcalm.setKernel hi .reaped
  obtain ⟨t, hc, hhandle⟩ := handle_live (R := R) (s := { s with io := s.io.setKernel i .reaped }) i status hrun.frees
  have haction : t.io.reap_action = .normal := hc.action.trans hrun.action
  rw [hhandle]
  by_cases hlast : i + 1 = R.num_urbs
  · rw [if_pos hlast] at hG
    have hkernel : (s.io.setKernel i .reaped).kernel (R.num_urbs - 1) = .reaped := by
      rw [show R.num_urbs - 1 = i by omega, UrbIo.setKernel_self]
    by_cases hstatus : status = 0
    · subst hstatus
      have hclose := (handled_last haction hlast).of_copies hc
      refine ⟨hcalm'.keeps hclose.1, .inr (.inr ?_)⟩
      refine finished_of_closes hclose hrun.completions hrun.frees hreturned hkernel ?_
      rwa [earlier_last hlast]
    · rw [handled_last_error haction hlast hstatus]
      have ht := hcalm'.copies hc
      refine ⟨⟨ht.discards, ht.misuse, ht.to_reap, ht.to_cancel, ht.idle, ht.loop⟩, .inr (.inl ?_)⟩
      rw [if_neg hstatus] at hG
      refine ⟨rfl, hc.completions.trans hrun.completions, hc.frees.trans hrun.frees, ?_, ?_, ?_⟩
      · exact (congrFun hc.kernel _).trans hkernel
      · exact hc.returned ▸ hreturned
      · rw [← hG, ← earlier_last (s := s) hlast]
        exact congrArg Finset.card (earlier_congr hc.kernel)
  · rw [if_neg hlast] at hG
    subst hG
    rw [handled_earlier haction hlast]
    refine ⟨hcalm'.copies hc, .inl ⟨haction, hc.completions.trans hrun.completions, hc.frees.trans hrun.frees, ?_⟩⟩
    have hlt := hcalm.lt hi
    have hother : R.num_urbs - 1 ≠ i := by omega
    rw [hc.kernel, UrbIo.setKernel_of_ne _ _ hother]
    exact hrun.last

/-- The reap of the one URB that is left after an error of the last one. -/
theorem reap_awaiting {i : ℕ} {status : ℤ} {len : ℕ} (hcalm : s.Calm R) (hwait : s.Awaiting R)
    (hdone : s.io.kernel i = .done status len) :
    (handleIsocComplete R i status { s with io := s.io.setKernel i .reaped }).Staged R := by
  have hi : s.io.kernel i ≠ .idle := by simp [hdone]
  have hlt := hcalm.lt hi
  have hlast : i + 1 ≠ R.num_urbs := by
    intro h
    have hkernel := hwait.last
    rw [show R.num_urbs - 1 = i by omega, hdone] at hkernel
    exact absurd hkernel (by simp)
  obtain ⟨t, hc, hhandle⟩ := handle_live (R := R) (s := { s with io := s.io.setKernel i .reaped }) i status hwait.frees
  rw [hhandle]
  have haction : t.io.reap_action ≠ .normal := by
    rw [hc.action.trans hwait.action]
    simp
  have hclose := (@handled_awaited R t i status haction (hc.to_reap.trans hcalm.to_reap)
    (hc.to_cancel.trans hcalm.to_cancel)).of_copies hc
  refine ⟨(hcalm.setKernel hi .reaped).keeps hclose.1, .inr (.inr ?_)⟩
  have hother : R.num_urbs - 1 ≠ i := by omega
  have hne : s.io.kernel i ≠ .reaped := by simp [hdone]
  have hcard := earlier_reaped hlt hlast hne
  rw [hwait.one] at hcard
  refine finished_of_closes hclose hwait.completions hwait.frees hwait.returned ?_ (by omega)
  exact (UrbIo.setKernel_of_ne _ _ hother _).trans hwait.last

theorem isoc_finish_staged {i : ℕ} {status : ℤ} (h : s.Staged R) (hpending : s.io.kernel i = .pending) :
    IsocState.Staged R { s with io := s.io.setKernel i (.done status 0) } := by
  have hi : s.io.kernel i ≠ .idle := by simp [hpending]
  have hmoved : (s.io.setKernel i (.done status 0)).kernel (R.num_urbs - 1) = .reaped ↔
      s.io.kernel (R.num_urbs - 1) = .reaped := by
    by_cases hlast : R.num_urbs - 1 = i
    · rw [hlast, UrbIo.setKernel_self, hpending]
      simp
    · rw [UrbIo.setKernel_of_ne _ _ hlast]
  refine ⟨h.1.setKernel hi _, ?_⟩
  rcases h.2 with hrun | hwait | hfin
  · exact .inl ⟨hrun.action, hrun.completions, hrun.frees, fun hlast => hrun.last (hmoved.mp hlast)⟩
  · refine .inr (.inl ⟨hwait.action, hwait.completions, hwait.frees, hmoved.mpr hwait.last, hwait.returned, ?_⟩)
    rw [earlier_moved (by simp [hpending]) (by simp)]
    exact hwait.one
  · rw [hfin.reaped i (h.1.lt hi)] at hpending
    exact absurd hpending (by simp)

theorem isoc_accept_staged (h : s.Staged R) (hloop : s.returned = none) (hlt : s.submitted < R.num_urbs) :
    (s.accepted R).Staged R := by
  have hcalm := h.1
  refine ⟨⟨hcalm.discards, hcalm.misuse, hcalm.to_reap, hcalm.to_cancel, ?_, ?_⟩, .inl ?_⟩
  · intro i hi
    have hlt' : s.submitted < i := hi
    exact (UrbIo.setKernel_of_ne _ _ hlt'.ne' _).trans (hcalm.idle i hlt'.le)
  · show if (if s.submitted + 1 = R.num_urbs then some OPENUSB_SUCCESS else none) = none then
      s.submitted + 1 < R.num_urbs else s.submitted + 1 = R.num_urbs
    by_cases hend : s.submitted + 1 = R.num_urbs
    · rw [if_pos hend, if_neg (by simp)]
      exact hend
    · rw [if_neg hend, if_pos rfl]
      omega
  · rcases h.2 with hrun | hwait | hfin
    · refine ⟨hrun.action, hrun.completions, hrun.frees, ?_⟩
      show (s.io.setKernel s.submitted .pending).kernel (R.num_urbs - 1) ≠ .reaped
      by_cases hlast : R.num_urbs - 1 = s.submitted
      · rw [hlast, UrbIo.setKernel_self]
        simp
      · rw [UrbIo.setKernel_of_ne _ _ hlast]
        exact hrun.last
    · exact absurd hloop hwait.returned
    · exact absurd hloop hfin.returned

theorem isoc_orderly_step (h : s.Staged R) (hG : s.Orderly R l) (hstep : IsocStep R s l t) : t.Staged R := by
  cases hstep with
  | accept hloop hlt => exact isoc_accept_staged h hloop hlt
  | refuse => exact hG.elim
  | finish hpending => exact isoc_finish_staged h hpending
  | @reap i status len hreturned hdone =>
    rcases h.2 with hrun | hwait | hfin
    · exact isoc_reap_running h.1 hrun hreturned hdone (hG status len hdone hrun.last)
    · exact reap_awaiting h.1 hwait hdone
    · have hi := hfin.reaped i (h.1.lt (by simp [hdone]))
      rw [hdone] at hi
      exact absurd hi (by simp)
  | cancel => exact hG.elim

/-- The split request, before its first URB is submitted. -/
def IsocState.start (payload : ℕ → List UInt8) : IsocState := { io := .fresh, payload := payload }

theorem isoc_start_staged (hn : 0 < R.num_urbs) (payload : ℕ → List UInt8) : (IsocState.start payload).Staged R :=
  ⟨⟨rfl, rfl, rfl, rfl, fun _ _ => rfl, hn⟩, .inl ⟨rfl, rfl, rfl, by simp [IsocState.start, UrbIo.fresh]⟩⟩

end

/-- Orderly runs are sound in every state they reach. -/
theorem isoc_sound (R : IsocRequest) (hn : 0 < R.num_urbs) (payload : ℕ → List UInt8) (ls : List IsocLabel)
    (s : IsocState) (hrun : Run (IsocStep R) (IsocState.Orderly R) (.start payload) ls s) : s.Sound R := by
  have hstaged : s.Staged R :=
    hrun.inv (fun _ _ _ hs hG hstep => isoc_orderly_step hs hG hstep) (isoc_start_staged hn payload)
  exact hstaged.sound hn

/-- Two URBs of one frame each; `&urbs[0]` is the table. -/
def twoIsocUrbs : IsocRequest where
  num_urbs := 2
  names := fun _ => none
  continuation := fun _ => false
  toHost := true
  frames := fun i => if i = 0 then [⟨0, 2⟩] else [⟨0, 1⟩]
  buffer := fun i => if i = 0 then [5, 7] else [9]

/-- The second URB is accepted while the device works on the first. -/
theorem isoc_sound_two : ∃ s, IsocState.Sound twoIsocUrbs s ∧ s.io.completions = [(OPENUSB_SUCCESS, 3)] ∧ s.io.frees = 1 ∧
    s.payload 0 = [5, 7] ∧ s.payload 1 = [9] :=
  ⟨_, isoc_sound twoIsocUrbs (by decide) (fun _ => []) [.accept, .finish 0 0, .accept, .reap 0, .finish 1 0, .reap 1] _
    (.cons trivial (.accept rfl (by decide)) (.cons trivial (.finish rfl) (.cons trivial (.accept rfl (by decide))
      (.cons (fun status len hdone _ => by cases hdone; decide) (.reap (by decide) rfl) (.cons trivial (.finish rfl)
        (.cons (fun status len hdone _ => by cases hdone; decide) (.reap (by decide) rfl) (.nil _))))))),
    rfl, rfl, rfl, rfl⟩

/-- One URB with one frame. -/
def oneUrb : IsocRequest where
  num_urbs := 1
  names := fun _ => none
  continuation := fun _ => false
  toHost := true
  frames := fun _ => [⟨0, 2⟩]
  buffer := fun _ => [5, 7]

/-- A cancel names the table instead of the URB, and an error of the only URB loses the completion. -/
theorem isoc_cancel_names_table :
    (∃ s, Run (IsocStep oneUrb) (fun _ _ => True) (.start fun _ => []) [.accept, .cancel] s ∧
      s.io.discards = [none] ∧ ¬ s.Sound oneUrb) ∧
    ∃ s, Run (IsocStep oneUrb) (fun _ _ => True) (.start fun _ => []) [.accept, .finish 0 (-18), .reap 0] s ∧
      s.io.kernel 0 = .reaped ∧ s.io.completions = [] ∧ ¬ s.Sound oneUrb := by
  refine ⟨⟨_, .cons trivial (.accept rfl (by decide)) (.cons trivial (.cancel rfl rfl) (.nil _)), rfl, fun h => ?_⟩,
    ⟨_, .cons trivial (.accept rfl (by decide)) (.cons trivial (.finish rfl) (.cons trivial (.reap (by decide) rfl)
      (.nil _))), rfl, rfl, fun h => ?_⟩⟩
  · obtain ⟨i, -, hi⟩ := h.named none (List.mem_singleton_self none)
    exact absurd hi nofun
  · have honce := (h.once nofun fun i hi => ?_).1
    · exact absurd honce nofun
    · have hi' : i = 0 := Nat.lt_one_iff.mp hi
      subst hi'
      rfl

end OpenUsb
