import OpenUsb.Descr

/-!
# Urbs — the URBs of a request and the helpers that discard them

A transfer request is split into `num_urbs` URBs, which the kernel hands back one by one.  `usbi_io_private` keeps the
counters `urbs_to_reap` and `urbs_to_cancel` of URBs still awaited once the request has left the `NORMAL` reap action.

The helpers `discard_urbs`, `handle_partial_submit` and `handle_partial_xfer` pass the addresses `&io->priv->urbs[i]` to
`IOCTL_USB_DISCARDURB`.  `UrbLayout` says which URBs these addresses are: for bulk and interrupt requests the request's
own, in order.  For isochronous requests the member of the union is `iso_urbs`, a table of pointers, and `&urbs[i]` lies
in or behind that table.
-/

namespace OpenUsb

def ENOENT : ℤ := 2
def EPIPE : ℤ := 32
def ECONNRESET : ℤ := 104
def EREMOTEIO : ℤ := 121

/-- Where a URB is, with the status and the actual length of one that waits to be reaped. -/
inductive UrbState where
  | idle
  | pending
  | done (status : ℤ) (actual_length : ℕ)
  | reaped
  deriving DecidableEq, Repr

/-- `openusb_transfer_type_t`. -/
inductive TransferType where
  | all
  | control
  | interrupt
  | bulk
  | isochronous
  | last
  deriving DecidableEq, Repr

/-- `linux_reap_action_t`. -/
inductive ReapAction where
  | normal
  | canceled
  | submitFailed
  | completedEarly
  | timedout
  | stall
  | unknownFailure
  deriving DecidableEq, Repr

/-- `enum usbi_io_status`. -/
inductive IoStatus where
  | initial
  | inProgress
  | cancel
  | completed
  | completedFail
  | timeout
  deriving DecidableEq, Repr

/-- The addresses `&io->priv->urbs[i]`: `names i` is the URB of the request at that address, if there is one, and
`continuation i` is the flag `USBK_URB_BULK_CONTINUATION` as read there. -/
structure UrbLayout where
  num_urbs : ℕ
  names : ℕ → Option ℕ
  continuation : ℕ → Bool

/-- A request's URBs, the counters of its `usbi_io_private`, and what has been done with it: `completions` are the calls
of `usbi_io_complete` (status and bytes), `frees` counts the releases of the URB memory, `discards` are the URBs named by
each `IOCTL_USB_DISCARDURB`, and `misuse` is set when that memory is used after its release. -/
structure UrbIo where
  kernel : ℕ → UrbState
  urbs_to_reap : ℕ := 0
  urbs_to_cancel : ℕ := 0
  bytes_transferred : ℕ := 0
  reap_action : ReapAction := .normal
  completions : List (ℤ × ℕ) := []
  frees : ℕ := 0
  discards : List (Option ℕ) := []
  misuse : Bool := false

namespace UrbIo

variable (s : UrbIo) (i : ℕ)

/-- No URB has been submitted. -/
def fresh : UrbIo := { kernel := fun _ => .idle }

def setKernel (u : UrbState) : UrbIo := { s with kernel := Function.update s.kernel i u }

@[simp] theorem setKernel_self (u : UrbState) : (s.setKernel i u).kernel i = u := Function.update_self ..

theorem setKernel_of_ne {j : ℕ} (h : j ≠ i) (u : UrbState) : (s.setKernel i u).kernel j = s.kernel j :=
  Function.update_of_ne h ..

/-- `urbs_to_reap++`, of an `uint32_t`. -/
def incReap : UrbIo := { s with urbs_to_reap := (s.urbs_to_reap + 1) % 2 ^ 32 }

def incCancel : UrbIo := { s with urbs_to_cancel := (s.urbs_to_cancel + 1) % 2 ^ 32 }

/-- `urbs_to_reap--` unless it is zero. -/
def decReap : UrbIo := if s.urbs_to_reap = 0 then s else { s with urbs_to_reap := s.urbs_to_reap - 1 }

def decCancel : UrbIo := if s.urbs_to_cancel = 0 then s else { s with urbs_to_cancel := s.urbs_to_cancel - 1 }

def addBytes (len : ℕ) : UrbIo := { s with bytes_transferred := (s.bytes_transferred + len) % 2 ^ 32 }

/-- `usbi_io_complete(io, status, transferred_bytes)`. -/
def completeWith (status : ℤ) (transferred_bytes : ℕ) : UrbIo :=
  { s with completions := s.completions ++ [(status, transferred_bytes)] }

/-- `usbi_io_complete(io, status, io->priv->bytes_transferred)`. -/
def complete (status : ℤ) : UrbIo := s.completeWith status s.bytes_transferred

def free : UrbIo := { s with frees := s.frees + 1 }

/-- The addresses of the URBs are used. -/
def touch : UrbIo := { s with misuse := s.misuse || s.frees != 0 }

end UrbIo

section

variable (L : UrbLayout)

/-- `IOCTL_USB_DISCARDURB` of `&io->priv->urbs[i]`, and the counting of its result: a pending URB is discarded and will be
reaped with `-ENOENT`, anything else is `EINVAL`. -/
def discardUrb (i : ℕ) (s : UrbIo) : UrbIo :=
  let s := { s with discards := s.discards ++ [L.names i] }
  match L.names i with
  | none => s.incReap
  | some j => if s.kernel j = .pending then (s.setKernel j (.done (-ENOENT) 0)).incCancel else s.incReap

/-- `discard_urbs`. -/
def discardUrbs (action : ReapAction) (s : UrbIo) : UrbIo :=
  (List.range L.num_urbs).foldl (fun s i => discardUrb L i s) { s with reap_action := action }

/-- `handle_partial_submit`. -/
def handlePartialSubmit (idx : ℕ) (s : UrbIo) : UrbIo :=
  (List.range idx).foldl (fun s i => discardUrb L i s) { s with reap_action := .submitFailed }

/-- One round of `handle_partial_xfer`. -/
def partialXferRound (s : UrbIo) (i : ℕ) : UrbIo :=
  if L.continuation i then s.incCancel else discardUrb L i s

/-- `handle_partial_xfer`. -/
def handlePartialXfer (idx : ℕ) (action : ReapAction) (s : UrbIo) : UrbIo :=
  (List.range' idx (L.num_urbs - idx)).foldl (partialXferRound L) { s with reap_action := action }

/-! ## What the helpers leave alone -/

/-- Only the counters, the log of discards and the places of pending URBs have changed. -/
structure UrbIo.Frame (s t : UrbIo) : Prop where
  action : t.reap_action = s.reap_action
  bytes : t.bytes_transferred = s.bytes_transferred
  completions : t.completions = s.completions
  frees : t.frees = s.frees
  misuse : t.misuse = s.misuse
  kernel : ∀ j, t.kernel j = s.kernel j ∨ s.kernel j = .pending ∧ t.kernel j = .done (-ENOENT) 0

variable {s t u : UrbIo}

theorem UrbIo.Frame.refl (s : UrbIo) : s.Frame s := ⟨rfl, rfl, rfl, rfl, rfl, fun _ => .inl rfl⟩

theorem UrbIo.Frame.trans (h : s.Frame t) (h' : t.Frame u) : s.Frame u where
  action := h'.action.trans h.action
  bytes := h'.bytes.trans h.bytes
  completions := h'.completions.trans h.completions
  frees := h'.frees.trans h.frees
  misuse := h'.misuse.trans h.misuse
  kernel j := by
    rcases h'.kernel j with hj' | ⟨hj', hd'⟩
    · rw [hj']
      exact h.kernel j
    · rcases h.kernel j with hj | ⟨hj, hd⟩
      · exact .inr ⟨hj ▸ hj', hd'⟩
      · rw [hd] at hj'
        exact absurd hj' (by simp)

theorem foldl_frame {f : UrbIo → ℕ → UrbIo} (hf : ∀ (s : UrbIo) (i : ℕ), s.Frame (f s i)) (l : List ℕ) (s : UrbIo) :
    s.Frame (l.foldl f s) := by
  induction l generalizing s with
  | nil => exact .refl s
  | cons i l ih => exact (hf s i).trans (ih (f s i))

theorem discardUrb_frame (i : ℕ) (s : UrbIo) : s.Frame (discardUrb L i s) := by
  unfold discardUrb
  cases L.names i with
  | none => exact ⟨rfl, rfl, rfl, rfl, rfl, fun _ => .inl rfl⟩
  | some j =>
    by_cases hpending : s.kernel j = .pending
    · simp only [if_pos hpending]
      refine ⟨rfl, rfl, rfl, rfl, rfl, fun k => ?_⟩
      by_cases hk : k = j
      · exact .inr ⟨hk ▸ hpending, hk ▸ UrbIo.setKernel_self ..⟩
      · exact .inl (UrbIo.setKernel_of_ne _ _ hk _)
    · simp only [if_neg hpending]
      exact ⟨rfl, rfl, rfl, rfl, rfl, fun _ => .inl rfl⟩

theorem discardUrbs_frame (action : ReapAction) (s : UrbIo) :
    UrbIo.Frame { s with reap_action := action } (discardUrbs L action s) :=
  foldl_frame (fun s i => discardUrb_frame L i s) _ _

theorem handlePartialSubmit_frame (idx : ℕ) (s : UrbIo) :
    UrbIo.Frame { s with reap_action := .submitFailed } (handlePartialSubmit L idx s) :=
  foldl_frame (fun s i => discardUrb_frame L i s) _ _

theorem handlePartialXfer_frame (idx : ℕ) (action : ReapAction) (s : UrbIo) :
    UrbIo.Frame { s with reap_action := action } (handlePartialXfer L idx action s) := by
  refine foldl_frame (fun s i => ?_) _ _
  unfold partialXferRound
  by_cases hcont : L.continuation i = true
  · rw [if_pos hcont]
    exact ⟨rfl, rfl, rfl, rfl, rfl, fun _ => .inl rfl⟩
  · rw [if_neg hcont]
    exact discardUrb_frame L i s

/-- What is not pending stays where it is. -/
theorem UrbIo.Frame.kernel_of_ne {j : ℕ} (h : s.Frame t) (hj : s.kernel j ≠ .pending) : t.kernel j = s.kernel j := by
  rcases h.kernel j with hk | ⟨hk, -⟩
  · exact hk
  · exact absurd hk hj

end

end OpenUsb
