import OpenUsb.Claim
import OpenUsb.Urbs
import OpenUsb.Lib.Runs

/-!
# Bulk — bulk and interrupt requests on Linux

`linux_submit_bulk_intr` splits the payload into URBs of 16 KiB and submits them in order; the poll thread passes each
reaped URB to `handle_bulk_intr_complete`.  Submission, reaps, cancels and timeout sweeps exclude each other by
`hdev->lock`; between them the device finishes URBs.
-/

namespace OpenUsb

def LINUX_MAX_BULK_INTR_XFER : ℕ := 16384

/-- A request by its length; `supports_continuation` is `supports_flag_bulk_continuation`. -/
structure BulkRequest where
  length : ℕ
  length_lt : length < 2 ^ 32
  supports_continuation : Bool

namespace BulkRequest

variable (B : BulkRequest) (i : ℕ)

def num_urbs : ℕ :=
  B.length / LINUX_MAX_BULK_INTR_XFER + if B.length % LINUX_MAX_BULK_INTR_XFER > 0 then 1 else 0

/-- The last URB may be shorter. -/
def buffer_length : ℕ :=
  if i = B.num_urbs - 1 ∧ B.length % LINUX_MAX_BULK_INTR_XFER > 0 then B.length % LINUX_MAX_BULK_INTR_XFER
  else LINUX_MAX_BULK_INTR_XFER

/-- `USBK_URB_BULK_CONTINUATION` in the flags of a submitted URB. -/
def continuation : Bool := decide (B.num_urbs > 1) && B.supports_continuation && decide (i > 0)

/-- `io->priv->urbs` is the array of the request's URBs. -/
def layout : UrbLayout where
  num_urbs := B.num_urbs
  names := fun i => if i < B.num_urbs then some i else none
  continuation := B.continuation

end BulkRequest

/-- `submitted` counts the accepted URBs, and `returned` is the result of `linux_submit_bulk_intr`; `listed` says that the
request is on `hdev->io_head`. -/
structure BulkState where
  io : UrbIo
  status : IoStatus := .inProgress
  listed : Bool := true
  submitted : ℕ := 0
  returned : Option ℤ := none

/-- The URBs are allocated, and none is submitted. -/
def BulkState.start : BulkState := { io := .fresh }

/-- What `urb_submit` returns for a URB that the kernel refuses: the result of `ioctl`. -/
def urbSubmitRefused : ℤ := -1

/-- The status reported for a reap action when the last awaited URB is handled; a stall has been reported before. -/
def ReapAction.result : ReapAction → Option ℤ
  | .stall => none
  | .canceled => some OPENUSB_IO_CANCELED
  | .completedEarly => some OPENUSB_SUCCESS
  | .timedout => some OPENUSB_IO_TIMEOUT
  | .normal | .submitFailed | .unknownFailure => some OPENUSB_SYS_FUNC_FAILURE

/-- The counting of a URB reaped after the request has left `NORMAL`; the decrement for a URB that usbfs has canceled is
not guarded. -/
def awaitedReap (continuation : Bool) (status : ℤ) (io : UrbIo) : UrbIo :=
  if status = -ENOENT then io.decCancel
  else if status = -ECONNRESET ∧ continuation = true then
    { io with urbs_to_cancel := (io.urbs_to_cancel + (2 ^ 32 - 1)) % 2 ^ 32 }
  else if status = 0 then io.decReap
  else io

namespace BulkState

variable (B : BulkRequest) (s : BulkState)

/-- `usbi_io_complete`. -/
def complete (status : ℤ) : BulkState := { s with io := s.io.complete status, status := .completed, listed := false }

def release : BulkState := { s with io := s.io.free }

/-- The kernel hands URB `i` back. -/
def taken (i : ℕ) : BulkState := { s with io := s.io.setKernel i .reaped }

/-- A submission loop that ends without an error, or goes on. -/
def accepted : BulkState :=
  { s with
    io := s.io.setKernel s.submitted .pending
    submitted := s.submitted + 1
    returned := if s.submitted + 1 = B.num_urbs then some OPENUSB_SUCCESS else none }

/-- The error branch of the submission loop. -/
def refused (errno : ℤ) : BulkState :=
  if s.submitted = 0 then { s with status := .completedFail, returned := some (translateErrno errno) }
  else if urbSubmitRefused = - EREMOTEIO then
    { s with io := { s.io with reap_action := .completedEarly }, returned := some OPENUSB_SUCCESS }
  else { s with io := handlePartialSubmit B.layout s.submitted s.io, returned := some OPENUSB_SUCCESS }

/-- `linux_io_cancel`. -/
def cancel : BulkState := { s with status := .cancel, io := discardUrbs B.layout .canceled s.io.touch }

/-- `io_timeout` reaches an expired request. -/
def timeout : BulkState := { s with io := discardUrbs B.layout .timedout s.io.touch }

/-- Once nothing is awaited the request is completed, unless a stall has been reported already. -/
def drain : BulkState :=
  if s.io.urbs_to_reap = 0 ∧ s.io.urbs_to_cancel = 0 then
    match s.io.reap_action.result with
    | some result => (s.complete result).release
    | none => s
  else s

/-- The branch of `handle_bulk_intr_complete` for a request that has left `NORMAL`. -/
def reapAwaited (i : ℕ) (status : ℤ) : BulkState :=
  drain { s with io := awaitedReap (B.continuation i) status s.io }

/-- The branch for a request that is `NORMAL`. -/
def reapNormal (i : ℕ) (status : ℤ) (len : ℕ) : BulkState :=
  if status = 0 ∨ status = - EREMOTEIO then
    if i = B.num_urbs - 1 then (s.complete OPENUSB_SUCCESS).release
    else if len < B.buffer_length i then { s with io := handlePartialXfer B.layout (i + 1) .completedEarly s.io }
    else s
  else if status = -EPIPE then
    ({ s with io := handlePartialXfer B.layout (i + 1) .stall s.io }.release).complete OPENUSB_IO_STALL
  else { s with io := handlePartialXfer B.layout (i + 1) .unknownFailure s.io }

/-- `io->priv->bytes_transferred` counts successful and short URBs. -/
def countBytes (status : ℤ) (len : ℕ) : BulkState :=
  if status = 0 ∨ status = - EREMOTEIO then { s with io := s.io.addBytes len } else s

/-- `handle_bulk_intr_complete` of URB `i`; once the URBs are freed it reads freed memory. -/
def handleBulkIntrComplete (i : ℕ) (status : ℤ) (len : ℕ) : BulkState :=
  if s.io.frees ≠ 0 then { s with io := s.io.touch }
  else if s.io.reap_action ≠ .normal then (s.countBytes status len).reapAwaited B i status
  else (s.countBytes status len).reapNormal B i status len

end BulkState

/-- The next URB is accepted or refused, the device finishes a URB, a URB is reaped, the request is cancelled or swept. -/
inductive BulkLabel where
  | accept
  | refuse (errno : ℤ)
  | finish (i : ℕ) (status : ℤ) (len : ℕ)
  | reap (i : ℕ)
  | cancel
  | timeout
  deriving DecidableEq, Repr

/-- The steps of a request. -/
inductive BulkStep (B : BulkRequest) : BulkState → BulkLabel → BulkState → Prop where
  | accept {s : BulkState} (h : s.returned = none) (hlt : s.submitted < B.num_urbs) : BulkStep B s .accept (s.accepted B)
  | refuse {s : BulkState} {errno : ℤ} (h : s.returned = none) (hlt : s.submitted < B.num_urbs) :
      BulkStep B s (.refuse errno) (s.refused B errno)
  | finish {s : BulkState} {i : ℕ} {status : ℤ} {len : ℕ} (h : s.io.kernel i = .pending) :
      BulkStep B s (.finish i status len) { s with io := s.io.setKernel i (.done status len) }
  | reap {s : BulkState} {i : ℕ} {status : ℤ} {len : ℕ} (h : s.returned ≠ none) (hdone : s.io.kernel i = .done status len) :
      BulkStep B s (.reap i) ((s.taken i).handleBulkIntrComplete B i status len)
  | cancel {s : BulkState} (h : s.returned = some OPENUSB_SUCCESS) (hlisted : s.listed = true) :
      BulkStep B s .cancel (s.cancel B)
  | timeout {s : BulkState} (h : s.returned = some OPENUSB_SUCCESS) (hlisted : s.listed = true)
      (hstatus : s.status = .inProgress) : BulkStep B s .timeout (s.timeout B)

end OpenUsb
