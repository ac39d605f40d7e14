import OpenUsb.Urbs
import OpenUsb.Lib.Runs

/-!
# Control — control requests on Linux

A control request has one URB.  Once it is submitted, `openusb_abort` may cancel it and the poll thread's `io_timeout` may
sweep it, as long as it is on the handle's list of requests; `io_complete` handles the URB when it is reaped, and releases
it.  `usbi_io_complete` takes the request off the list.
-/

namespace OpenUsb

/-- `urb_data` is the URB's buffer behind the setup packet.  The last three fields record the run: a cancel or a sweep has
discarded the URBs, and the status of the URB when it was reaped. -/
structure CtrlState where
  io : UrbIo
  status : IoStatus
  listed : Bool
  payload : List UInt8
  urb_data : List UInt8
  canceled : Bool := false
  timedout : Bool := false
  reaped : Option ℤ := none

def ctrlLayout : UrbLayout where
  num_urbs := 1
  names := fun i => if i = 0 then some 0 else none
  continuation := fun _ => false

namespace CtrlState

/-- `linux_submit_ctrl` has submitted the URB. -/
def submitted (payload : List UInt8) : CtrlState where
  io := UrbIo.fresh.setKernel 0 .pending
  status := .inProgress
  listed := true
  payload := payload
  urb_data := []

variable (s : CtrlState)

/-- `usbi_io_complete`. -/
def complete (status : ℤ) (len : ℕ) : CtrlState :=
  { s with io := s.io.completeWith status len, status := .completed, listed := false }

/-- `memcpy` of the data stage back to the caller. -/
def copyBack (length : ℕ) : CtrlState := { s with payload := s.urb_data.take length ++ s.payload.drop length }

/-- `linux_io_cancel`. -/
def cancel : CtrlState :=
  { s with status := .cancel, io := discardUrbs ctrlLayout .canceled s.io.touch, canceled := true }

/-- `io_timeout` reaches an expired request. -/
def timeout : CtrlState := { s with io := discardUrbs ctrlLayout .timedout s.io.touch, timedout := true }

def reportSuccess (length : ℕ) (status : ℤ) (len : ℕ) : CtrlState :=
  if status = 0 then (s.copyBack length).complete OPENUSB_SUCCESS len else s

def reportDiscarded (status : ℤ) (len : ℕ) : CtrlState :=
  if status = -ENOENT then
    match s.io.reap_action with
    | .canceled => s.complete OPENUSB_IO_CANCELED len
    | .timedout => s.complete OPENUSB_IO_TIMEOUT len
    | _ => s.complete OPENUSB_SYS_FUNC_FAILURE len
  else s

/-- `free(urb->buffer)` and `free(io->priv->urbs)`. -/
def release : CtrlState := { s with io := s.io.free }

/-- The branch of `io_complete` for control requests; `length` is that of the request. -/
def ioComplete (length : ℕ) (status : ℤ) (len : ℕ) : CtrlState :=
  ((s.reportSuccess length status len).reportDiscarded status len).release

end CtrlState

inductive CtrlLabel where
  | cancel
  | timeout
  | finish (status : ℤ) (len : ℕ) (data : List UInt8)
  | reap
  deriving DecidableEq, Repr

/-- The steps of a control request of the given length. -/
inductive CtrlStep (length : ℕ) : CtrlState → CtrlLabel → CtrlState → Prop where
  | cancel {s : CtrlState} (h : s.listed = true) : CtrlStep length s .cancel s.cancel
  | timeout {s : CtrlState} (h : s.listed = true) (hstatus : s.status = .inProgress) : CtrlStep length s .timeout s.timeout
  | finish {s : CtrlState} {status : ℤ} {len : ℕ} {data : List UInt8} (h : s.io.kernel 0 = .pending) :
      CtrlStep length s (.finish status len data) { s with io := s.io.setKernel 0 (.done status len), urb_data := data }
  | reap {s : CtrlState} {status : ℤ} {len : ℕ} (h : s.io.kernel 0 = .done status len) :
      CtrlStep length s .reap
        (CtrlState.ioComplete { s with io := s.io.setKernel 0 .reaped, reaped := some status } length status len)

/-- A result that fits the URB's status and what was done before. -/
structure CtrlState.Fits (s : CtrlState) (status result : ℤ) : Prop where
  success : result = OPENUSB_SUCCESS ↔ status = 0
  canceled : result = OPENUSB_IO_CANCELED → status = -ENOENT ∧ s.canceled = true
  timedout : result = OPENUSB_IO_TIMEOUT → status = -ENOENT ∧ s.timedout = true
  error : status ≠ 0 → result < 0

/-- After the reap the request has completed once, with a result that fits, and the released URB
has not been used. -/
structure CtrlState.Correct (s : CtrlState) (status : ℤ) : Prop where
  once : ∃ result len, s.io.completions = [(result, len)] ∧ s.Fits status result
  unmisused : s.io.misuse = false

section

variable {length : ℕ} {s t : CtrlState} {l : CtrlLabel} {status : ℤ}

/-! ## Before and after the reap -/

/-- The reap action is that of the last cancel or sweep. -/
structure CtrlState.Waiting (s : CtrlState) : Prop where
  reaped : s.reaped = none
  kernel : s.io.kernel 0 ≠ .reaped
  completions : s.io.completions = []
  frees : s.io.frees = 0
  misuse : s.io.misuse = false
  canceled : s.io.reap_action = .canceled → s.canceled = true
  timedout : s.io.reap_action = .timedout → s.timedout = true

/-- Reaped with status 0 or `-ENOENT`. -/
structure CtrlState.Over (s : CtrlState) (status : ℤ) : Prop where
  reaped : s.reaped = some status
  handled : status = 0 ∨ status = -ENOENT
  kernel : s.io.kernel 0 = .reaped
  listed : s.listed = false
  correct : s.Correct status

/-- Reaped with another status. -/
structure CtrlState.Lost (s : CtrlState) (status : ℤ) : Prop where
  reaped : s.reaped = some status
  other : ¬ (status = 0 ∨ status = -ENOENT)
  kernel : s.io.kernel 0 = .reaped
  completions : s.io.completions = []

def CtrlState.Staged (s : CtrlState) : Prop := s.Waiting ∨ ∃ status, s.Over status ∨ s.Lost status

theorem CtrlState.Waiting.discard (h : s.Waiting) {action : ReapAction} (canceled timedout : Bool) (status : IoStatus)
    (hcanceled : action = .canceled → canceled = true) (htimedout : action = .timedout → timedout = true) :
    CtrlState.Waiting { s with
      io := discardUrbs ctrlLayout action s.io.touch, status := status, canceled := canceled, timedout := timedout } := by
  have hframe := discardUrbs_frame ctrlLayout action s.io.touch
  refine ⟨h.reaped, ?_, hframe.completions.trans h.completions, hframe.frees.trans h.frees, ?_, ?_, ?_⟩
  · rcases hframe.kernel 0 with hk | ⟨-, hk⟩
    · exact hk ▸ h.kernel
    · simp [hk]
  · show (discardUrbs ctrlLayout action s.io.touch).misuse = false
    rw [hframe.misuse]
    simp [UrbIo.touch, h.misuse, h.frees]
  · exact fun haction => hcanceled (hframe.action.symm.trans haction)
  · exact fun haction => htimedout (hframe.action.symm.trans haction)

theorem CtrlState.Lost.discard (h : s.Lost status) (action : ReapAction) (canceled timedout : Bool) (iostatus : IoStatus) :
    CtrlState.Lost { s with
      io := discardUrbs ctrlLayout action s.io.touch, status := iostatus, canceled := canceled, timedout := timedout }
      status := by
  have hframe := discardUrbs_frame ctrlLayout action s.io.touch
  refine ⟨h.reaped, h.other, ?_, hframe.completions.trans h.completions⟩
  have hne : s.io.kernel 0 ≠ .pending := by simp [h.kernel]
  exact (hframe.kernel_of_ne hne).trans h.kernel

/-- The result that a reap reports for the two statuses it handles. -/
theorem ioComplete_handled (h : status = 0 ∨ status = -ENOENT) (len : ℕ) : ∃ result,
    (s.ioComplete length status len).io.completions = s.io.completions ++ [(result, len)] ∧
      (s.ioComplete length status len).listed = false ∧
      (status = 0 ∧ result = OPENUSB_SUCCESS ∨
        status = -ENOENT ∧ (result = OPENUSB_IO_CANCELED ∧ s.io.reap_action = .canceled ∨
          result = OPENUSB_IO_TIMEOUT ∧ s.io.reap_action = .timedout ∨ result = OPENUSB_SYS_FUNC_FAILURE)) := by
  unfold CtrlState.ioComplete CtrlState.reportSuccess CtrlState.reportDiscarded
  have hne : ¬ (0 : ℤ) = -ENOENT := by decide
  rcases h with rfl | rfl
  · rw [if_pos rfl, if_neg hne]
    exact ⟨_, rfl, rfl, .inl ⟨rfl, rfl⟩⟩
  · rw [if_neg (Ne.symm hne), if_pos rfl]
    cases haction : s.io.reap_action with
    | canceled => exact ⟨_, rfl, rfl, .inr ⟨rfl, .inl ⟨rfl, rfl⟩⟩⟩
    | timedout => exact ⟨_, rfl, rfl, .inr ⟨rfl, .inr (.inl ⟨rfl, rfl⟩)⟩⟩
    | normal | submitFailed | completedEarly | stall | unknownFailure =>
      exact ⟨_, rfl, rfl, .inr ⟨rfl, .inr (.inr rfl)⟩⟩

/-- Any other status is passed over. -/
theorem ioComplete_other (h : ¬ (status = 0 ∨ status = -ENOENT)) (len : ℕ) :
    s.ioComplete length status len = s.release := by
  rw [not_or] at h
  unfold CtrlState.ioComplete CtrlState.reportSuccess CtrlState.reportDiscarded
  rw [if_neg h.1, if_neg h.2]

theorem ioComplete_keeps (len : ℕ) :
    (s.ioComplete length status len).io.kernel = s.io.kernel ∧
      (s.ioComplete length status len).io.misuse = s.io.misuse ∧
      (s.ioComplete length status len).canceled = s.canceled ∧
      (s.ioComplete length status len).timedout = s.timedout ∧
      (s.ioComplete length status len).reaped = s.reaped := by
  unfold CtrlState.ioComplete CtrlState.reportSuccess CtrlState.reportDiscarded
  by_cases hzero : status = 0
  · subst hzero
    have hne : ¬ (0 : ℤ) = -ENOENT := by decide
    rw [if_pos rfl, if_neg hne]
    exact ⟨rfl, rfl, rfl, rfl, rfl⟩
  · rw [if_neg hzero]
    by_cases hnoent : status = -ENOENT
    · rw [if_pos hnoent]
      cases s.io.reap_action <;> exact ⟨rfl, rfl, rfl, rfl, rfl⟩
    · rw [if_neg hnoent]
      exact ⟨rfl, rfl, rfl, rfl, rfl⟩

/-- The results that `ioComplete` reports fit. -/
theorem fits_of_handled {result : ℤ} (hcanceled : s.io.reap_action = .canceled → s.canceled = true)
    (htimedout : s.io.reap_action = .timedout → s.timedout = true)
    (h : status = 0 ∧ result = OPENUSB_SUCCESS ∨
      status = -ENOENT ∧ (result = OPENUSB_IO_CANCELED ∧ s.io.reap_action = .canceled ∨
        result = OPENUSB_IO_TIMEOUT ∧ s.io.reap_action = .timedout ∨ result = OPENUSB_SYS_FUNC_FAILURE)) :
    s.Fits status result := by
  rcases h with ⟨rfl, rfl⟩ | ⟨rfl, ⟨rfl, haction⟩ | ⟨rfl, haction⟩ | rfl⟩
  · exact ⟨by decide, fun h => absurd h (by decide), fun h => absurd h (by decide), fun h => absurd rfl h⟩
  · exact ⟨by decide, fun _ => ⟨rfl, hcanceled haction⟩, fun h => absurd h (by decide), fun _ => by decide⟩
  · exact ⟨by decide, fun h => absurd h (by decide), fun _ => ⟨rfl, htimedout haction⟩, fun _ => by decide⟩
  · exact ⟨by decide, fun h => absurd h (by decide), fun h => absurd h (by decide), fun _ => by decide⟩

theorem reap_over (h : s.Waiting) (hhandled : status = 0 ∨ status = -ENOENT) (len : ℕ) :
    (CtrlState.ioComplete { s with io := s.io.setKernel 0 .reaped, reaped := some status } length status len).Over
      status := by
  obtain ⟨result, hcompletions, hlisted, hresult⟩ :=
    @ioComplete_handled length { s with io := s.io.setKernel 0 .reaped, reaped := some status } status hhandled len
  obtain ⟨hkernel, hmisuse, hcanceled, htimedout, hreaped⟩ :=
    @ioComplete_keeps length { s with io := s.io.setKernel 0 .reaped, reaped := some status } status len
  have hfits : s.Fits status result := fits_of_handled h.canceled h.timedout hresult
  refine ⟨hreaped, hhandled, ?_, hlisted, ⟨result, len, ?_, ?_⟩, hmisuse.trans h.misuse⟩
  · rw [hkernel]
    exact UrbIo.setKernel_self ..
  · rw [hcompletions]
    show s.io.completions ++ _ = _
    rw [h.completions, List.nil_append]
  · exact ⟨hfits.success, fun h => ⟨(hfits.canceled h).1, hcanceled.trans (hfits.canceled h).2⟩,
      fun h => ⟨(hfits.timedout h).1, htimedout.trans (hfits.timedout h).2⟩, hfits.error⟩

theorem reap_lost (h : s.Waiting) (hother : ¬ (status = 0 ∨ status = -ENOENT)) (len : ℕ) :
    (CtrlState.ioComplete { s with io := s.io.setKernel 0 .reaped, reaped := some status } length status len).Lost
      status := by
  rw [ioComplete_other hother]
  exact ⟨rfl, hother, UrbIo.setKernel_self s.io 0 .reaped, h.completions⟩

theorem finish_waiting (h : s.Waiting) (status : ℤ) (len : ℕ) (data : List UInt8) :
    CtrlState.Waiting { s with io := s.io.setKernel 0 (.done status len), urb_data := data } := by
  refine ⟨h.reaped, ?_, h.completions, h.frees, h.misuse, h.canceled, h.timedout⟩
  show (s.io.setKernel 0 (.done status len)).kernel 0 ≠ .reaped
  rw [UrbIo.setKernel_self]
  simp

theorem ctrlStep_staged (h : s.Staged) (hstep : CtrlStep length s l t) : t.Staged := by
  rcases h with hwait | ⟨status, hover | hlost⟩
  · cases hstep with
    | cancel => exact .inl (hwait.discard true s.timedout .cancel (fun _ => rfl) nofun)
    | timeout => exact .inl (hwait.discard s.canceled true s.status nofun fun _ => rfl)
    | finish => exact .inl (finish_waiting hwait _ _ _)
    | @reap status len hdone =>
      by_cases hhandled : status = 0 ∨ status = -ENOENT
      · exact .inr ⟨status, .inl (reap_over hwait hhandled len)⟩
      · exact .inr ⟨status, .inr (reap_lost hwait hhandled len)⟩
  · -- the request is off the list and its URB is reaped: nothing is left to do
    cases hstep with
    | cancel hlisted | timeout hlisted =>
      rw [hover.listed] at hlisted
      exact absurd hlisted (by simp)
    | finish hpending | reap hpending =>
      rw [hover.kernel] at hpending
      exact absurd hpending (by simp)
  · cases hstep with
    | cancel => exact .inr ⟨status, .inr (hlost.discard .canceled true s.timedout .cancel)⟩
    | timeout => exact .inr ⟨status, .inr (hlost.discard .timedout s.canceled true s.status)⟩
    | finish hpending | reap hpending =>
      rw [hlost.kernel] at hpending
      exact absurd hpending (by simp)

theorem submitted_waiting (payload : List UInt8) : (CtrlState.submitted payload).Waiting :=
  ⟨rfl, nofun, rfl, rfl, rfl, nofun, nofun⟩

end

/-- After the reap a control request is completed as it should be exactly for the statuses 0 and `-ENOENT`. -/
theorem control_completion_iff (length : ℕ) (payload : List UInt8) (ls : List CtrlLabel) (s : CtrlState)
    (hrun : Run (CtrlStep length) (fun _ _ => True) (.submitted payload) ls s) (status : ℤ)
    (hreaped : s.reaped = some status) : s.Correct status ↔ status = 0 ∨ status = -ENOENT := by
  have hstaged : s.Staged :=
    hrun.inv (fun _ _ _ hs _ hstep => ctrlStep_staged hs hstep) (.inl (submitted_waiting payload))
  rcases hstaged with hwait | ⟨st, hover | hlost⟩
  · rw [hwait.reaped] at hreaped
    exact absurd hreaped (by simp)
  · rw [hover.reaped, Option.some.injEq] at hreaped
    subst hreaped
    exact ⟨fun _ => hover.handled, fun _ => hover.correct⟩
  · rw [hlost.reaped, Option.some.injEq] at hreaped
    subst hreaped
    refine ⟨fun hcorrect => ?_, fun hhandled => absurd hhandled hlost.other⟩
    obtain ⟨result, len, hcompletions, -⟩ := hcorrect.once
    rw [hlost.completions] at hcompletions
    exact absurd hcompletions (by simp)

theorem control_completion_iff_canceled : ∃ s, CtrlState.Correct s (-ENOENT) ∧ s.io.completions = [(OPENUSB_IO_CANCELED, 0)] :=
  ⟨_, (control_completion_iff 2 [] [.cancel, .reap] _ (.cons trivial (.cancel rfl) (.cons trivial (.reap rfl) (.nil _)))
    (-ENOENT) rfl).mpr (.inr rfl), rfl⟩

/-- A stall is reaped and never reported; the next sweep still discards the released URB. -/
theorem control_stall_lost : ∃ s, Run (CtrlStep 2) (fun _ _ => True) (.submitted [])
    [.finish (-EPIPE) 0 [], .reap, .timeout] s ∧
      s.reaped = some (-EPIPE) ∧ s.io.completions = [] ∧ s.io.misuse = true ∧ ¬ s.Correct (-EPIPE) := by
  refine ⟨_, .cons trivial (.finish rfl) (.cons trivial (.reap rfl) (.cons trivial (.timeout rfl rfl) (.nil _))), rfl, rfl,
    rfl, fun h => ?_⟩
  exact absurd h.unmisused (by decide)

end OpenUsb
