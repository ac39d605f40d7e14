import OpenUsb.Urbs
import OpenUsb.Lib.Runs

/-!
# MultiRequest — the worker of a multi-request and the calls that stop it

`process_multi_request` holds the lock of its request except around `openusb_xfer_aio`, around `openusb_abort` and in its
condition wait, so what it does between two of these places is a step.  `usbi_add_or_stop` is one critical section.  The
request is on the list of its device handle.

* `stop_heard`: when a stop is not lost.
-/

namespace OpenUsb

/-! ## The worker -/

/-- The values of `flag`, in their order. -/
inductive MreqFlag where
  | noNewBuf
  | newBuf
  | stopped
  deriving DecidableEq, Repr

inductive MultiType where
  | bulk
  | interrupt
  | isochronous
  | other
  deriving DecidableEq, Repr

/-- Where the worker is: before it looks up the device handle, before it takes the lock for a round, in `openusb_xfer_aio`
for buffer `i` of `reqNum`, in the wait, woken from it, in `openusb_abort` for `pos` with the cursor `tmp` behind it, at a
cursor that is no longer on the list, ended with a return code and the request kept, or ended with the request freed. -/
inductive WorkerPc where
  | started
  | loop
  | submitting (i reqNum : ℕ)
  | asleep
  | woken
  | aborting (pos : ℕ) (tmp : Option ℕ)
  | crashed
  | returned (ret : ℤ)
  | freed
  deriving DecidableEq, Repr

/-- What the allocations for one buffer give: all of them, or none of the transfer itself when `args` is on the list
already, or none of `args`, or none of the request. -/
inductive BufferAlloc where
  | ok
  | noTransfer
  | noArgs
  | noReq
  deriving DecidableEq, Repr

/-- `reqHead` are the indices of the requests on `req_head`.  `stopDone`: an `openusb_stop` has returned 0. -/
structure MultiRequest where
  type : MultiType
  flag : MreqFlag
  rp : ℕ
  reqHead : List ℕ
  pc : WorkerPc
  stopDone : Bool
  deriving DecidableEq, Repr

/-- The entry behind `pos` on a list. -/
def nextEntry : List ℕ → ℕ → Option ℕ
  | [], _ => none
  | p :: ps, pos => if p = pos then ps.head? else nextEntry ps pos

namespace MultiRequest

variable (m : MultiRequest)

/-- The loop over the buffers at buffer `i`: it is submitted, or the round ends and the worker waits. -/
def atBuffer (i reqNum : ℕ) (alloc : BufferAlloc) : MultiRequest :=
  if i < reqNum then
    match alloc with
    | .ok => { m with reqHead := m.reqHead ++ [i], pc := .submitting i reqNum }
    | .noTransfer => { m with reqHead := m.reqHead ++ [i], pc := .returned OPENUSB_NO_RESOURCES }
    | .noArgs => { m with pc := .returned OPENUSB_NO_RESOURCES }
    | .noReq => { m with pc := .returned OPENUSB_NO_RESOURCES }
  else { m with flag := .noNewBuf, pc := .asleep }

/-- The start of a round, with the number of buffers of the request. -/
def beginRound (numBufs : ℕ) (alloc : BufferAlloc) : MultiRequest :=
  m.atBuffer 0 (if m.type = .other then 0 else numBufs) alloc

/-- `openusb_xfer_aio` has returned for buffer `i`; only for interrupt transfers the code is looked at. -/
def afterSubmit (i reqNum : ℕ) (ret : ℤ) (alloc : BufferAlloc) : MultiRequest :=
  if m.type = .interrupt ∧ ret ≠ 0 then { m with pc := .returned ret }
  else MultiRequest.atBuffer { m with rp := m.rp + 1 } (i + 1) reqNum alloc

/-- `list_for_each_entry_safe` over `req_head` comes to `pos`: the end of the list, the next abort, or a request that its
callback has taken off the list and freed. -/
def abortAt (pos : Option ℕ) : MultiRequest :=
  match pos with
  | none => { m with pc := .freed }
  | some pos => { m with pc := if pos ∈ m.reqHead then .aborting pos (nextEntry m.reqHead pos) else .crashed }

/-- The worker has the lock again after the wait. -/
def wake : MultiRequest :=
  match m.flag with
  | .noNewBuf => { m with pc := .asleep }
  | .newBuf => { m with pc := .loop }
  | .stopped => m.abortAt m.reqHead.head?

/-- The critical section of `usbi_add_or_stop`: the signal, and then the flag. -/
def addOrStop (flag : MreqFlag) : MultiRequest :=
  { m with pc := if m.pc = .asleep then .woken else m.pc, flag := flag }

/-- `openusb_stop`. -/
def openusbStop : MultiRequest := { m.addOrStop .stopped with stopDone := true }

/-- `openusb_add`. -/
def openusbAdd : MultiRequest := m.addOrStop .newBuf

/-- `openusb_start` has created the worker. -/
def start (type : MultiType) : MultiRequest := ⟨type, .noNewBuf, 0, [], .started, false⟩

end MultiRequest

/-- The steps of the worker, a spurious wake-up, the callback of a request that is done, and the calls of other threads. -/
inductive MultiLabel where
  | lookup (found : Bool)
  | beginRound (numBufs : ℕ) (alloc : BufferAlloc)
  | afterSubmit (ret : ℤ) (alloc : BufferAlloc)
  | spurious
  | wake
  | abort
  | done (idx : ℕ)
  | stop
  | add
  deriving DecidableEq, Repr

inductive MultiStep : MultiRequest → MultiLabel → MultiRequest → Prop where
  | lookup {m : MultiRequest} {found : Bool} (hpc : m.pc = .started) :
      MultiStep m (.lookup found) { m with pc := if found then .loop else .returned OPENUSB_BADARG }
  | beginRound {m : MultiRequest} {numBufs : ℕ} {alloc : BufferAlloc} (hpc : m.pc = .loop) :
      MultiStep m (.beginRound numBufs alloc) (m.beginRound numBufs alloc)
  | afterSubmit {m : MultiRequest} {i reqNum : ℕ} {ret : ℤ} {alloc : BufferAlloc} (hpc : m.pc = .submitting i reqNum) :
      MultiStep m (.afterSubmit ret alloc) (m.afterSubmit i reqNum ret alloc)
  | spurious {m : MultiRequest} (hpc : m.pc = .asleep) : MultiStep m .spurious { m with pc := .woken }
  | wake {m : MultiRequest} (hpc : m.pc = .woken) : MultiStep m .wake m.wake
  | abort {m : MultiRequest} {pos : ℕ} {tmp : Option ℕ} (hpc : m.pc = .aborting pos tmp) :
      MultiStep m .abort (m.abortAt tmp)
  | done {m : MultiRequest} {idx : ℕ} (h : idx ∈ m.reqHead) :
      MultiStep m (.done idx) { m with reqHead := m.reqHead.erase idx }
  | stop {m : MultiRequest} : MultiStep m .stop m.openusbStop
  | add {m : MultiRequest} : MultiStep m .add m.openusbAdd

/-! ## Stops -/

section

variable {m m' : MultiRequest} {l : MultiLabel}

/-- The worker is in a round, or before its first one: it clears the flag before it looks at it. -/
def WorkerPc.inRound : WorkerPc → Bool
  | .started => true
  | .loop => true
  | .submitting _ _ => true
  | _ => false

def WorkerPc.ended : WorkerPc → Bool
  | .returned _ => true
  | .freed => true
  | _ => false

/-- No stop comes while the worker is in a round, and after a stop no buffers are added. -/
def StopHeard (m : MultiRequest) (l : MultiLabel) : Prop :=
  (l = .stop → m.pc.inRound = false) ∧ (l = .add → m.stopDone = false)

/-- After a stop the flag stays until the worker has ended, and the worker does not sleep. -/
def MultiRequest.StopKept (m : MultiRequest) : Prop :=
  m.stopDone = true → m.pc.ended = true ∨ (m.flag = .stopped ∧ m.pc ≠ .asleep)

/-- The worker has been woken, or is past its wait. -/
def WorkerPc.pastWait : WorkerPc → Bool
  | .woken => true
  | .aborting _ _ => true
  | .crashed => true
  | _ => false

/-- After a stop the worker is past its rounds. -/
def MultiRequest.Heard (m : MultiRequest) : Prop :=
  m.stopDone = true → m.pc.ended = true ∨ (m.flag = .stopped ∧ m.pc.pastWait = true)

theorem MultiRequest.Heard.not_inRound (h : m.Heard) (hpc : m.pc.inRound = true) : m.stopDone = false := by
  by_contra hstop
  rcases h (by simpa using hstop) with hended | ⟨-, hpast⟩
  · cases hm : m.pc <;> rw [hm] at hpc hended <;> simp [WorkerPc.inRound, WorkerPc.ended] at hpc hended
  · cases hm : m.pc <;> rw [hm] at hpc hpast <;> simp [WorkerPc.inRound, WorkerPc.pastWait] at hpc hpast

theorem MultiRequest.Heard.not_asleep (h : m.Heard) (hpc : m.pc = .asleep) : m.stopDone = false := by
  by_contra hstop
  rcases h (by simpa using hstop) with hended | ⟨-, hpast⟩
  · rw [hpc] at hended
    exact absurd hended nofun
  · rw [hpc] at hpast
    exact absurd hpast nofun

theorem MultiRequest.heard_of_not_stopped (h : m.stopDone = false) : m.Heard := by
  intro hstop
  exact absurd (h.symm.trans hstop) nofun

@[simp] theorem atBuffer_stopDone {i reqNum : ℕ} {alloc : BufferAlloc} :
    (m.atBuffer i reqNum alloc).stopDone = m.stopDone := by
  unfold MultiRequest.atBuffer
  split_ifs
  · cases alloc <;> rfl
  · rfl

@[simp] theorem afterSubmit_stopDone {i reqNum : ℕ} {ret : ℤ} {alloc : BufferAlloc} :
    (m.afterSubmit i reqNum ret alloc).stopDone = m.stopDone := by
  unfold MultiRequest.afterSubmit
  split_ifs
  · rfl
  · exact atBuffer_stopDone

@[simp] theorem abortAt_stopDone {pos : Option ℕ} : (m.abortAt pos).stopDone = m.stopDone := by
  cases pos <;> rfl

/-- The worker aborts what it has submitted, or is done. -/
theorem MultiRequest.heard_abortAt {pos : Option ℕ} (hflag : m.flag = .stopped) : (m.abortAt pos).Heard := by
  intro _
  unfold MultiRequest.abortAt
  cases pos with
  | none => exact .inl rfl
  | some pos =>
    refine .inr ⟨hflag, ?_⟩
    by_cases hpos : pos ∈ m.reqHead
    · simp only [if_pos hpos, WorkerPc.pastWait]
    · simp only [if_neg hpos, WorkerPc.pastWait]

/-- In a round nobody has stopped the request, so every step of the round keeps it so. -/
theorem MultiRequest.Heard.round (h : m.Heard) (hpc : m.pc.inRound = true) (hsame : m'.stopDone = m.stopDone) :
    m'.Heard :=
  MultiRequest.heard_of_not_stopped (hsame.trans (h.not_inRound hpc))

theorem MultiRequest.Heard.wake (h : m.Heard) (hpc : m.pc = .woken) : m.wake.Heard := by
  unfold MultiRequest.wake
  have hflag : m.stopDone = true → m.flag = .stopped := by
    intro hstop
    rcases h hstop with hended | ⟨hflag, -⟩
    · rw [hpc] at hended
      exact absurd hended nofun
    · exact hflag
  split
  next hf => exact fun hstop => absurd (hf.symm.trans (hflag hstop)) nofun
  next hf => exact fun hstop => absurd (hf.symm.trans (hflag hstop)) nofun
  next hf => exact MultiRequest.heard_abortAt hf

theorem MultiRequest.heard_stop (hpc : m.pc.inRound = false) : m.openusbStop.Heard := by
  intro _
  show (if m.pc = .asleep then WorkerPc.woken else m.pc).ended = true ∨ (MreqFlag.stopped = .stopped ∧
    (if m.pc = .asleep then WorkerPc.woken else m.pc).pastWait = true)
  cases hm : m.pc with
  | started =>
    rw [hm] at hpc
    exact absurd hpc nofun
  | loop =>
    rw [hm] at hpc
    exact absurd hpc nofun
  | submitting i reqNum =>
    rw [hm] at hpc
    exact absurd hpc nofun
  | asleep => exact .inr ⟨rfl, rfl⟩
  | woken => exact .inr ⟨rfl, rfl⟩
  | aborting pos tmp => exact .inr ⟨rfl, rfl⟩
  | crashed => exact .inr ⟨rfl, rfl⟩
  | returned ret => exact .inl rfl
  | freed => exact .inl rfl

theorem MultiRequest.Heard.step (h : m.Heard) (hheard : StopHeard m l) (hstep : MultiStep m l m') : m'.Heard := by
  cases hstep with
  | lookup hpc => exact h.round (by rw [hpc]; rfl) rfl
  | beginRound hpc => exact h.round (by rw [hpc]; rfl) atBuffer_stopDone
  | afterSubmit hpc => exact h.round (by rw [hpc]; rfl) afterSubmit_stopDone
  | spurious hpc => exact MultiRequest.heard_of_not_stopped (h.not_asleep hpc)
  | wake hpc => exact h.wake hpc
  | abort hpc =>
    intro hstop
    have hflag : m.flag = .stopped := by
      rw [abortAt_stopDone] at hstop
      rcases h hstop with hended | ⟨hflag, -⟩
      · rw [hpc] at hended
        exact absurd hended nofun
      · exact hflag
    exact MultiRequest.heard_abortAt hflag hstop
  | done => exact h
  | stop => exact MultiRequest.heard_stop (hheard.1 rfl)
  | add => exact MultiRequest.heard_of_not_stopped (hheard.2 rfl)

/-- When every stop comes outside of the worker's rounds, no stop is lost. -/
theorem stop_heard {type : MultiType} {ls : List MultiLabel} (h : Run MultiStep StopHeard (.start type) ls m) :
    m.StopKept := by
  have hheard : m.Heard := h.inv (fun _ _ _ hm hheard hstep => hm.step hheard hstep) nofun
  intro hstop
  rcases hheard hstop with hended | ⟨hflag, hpast⟩
  · exact .inl hended
  · refine .inr ⟨hflag, fun hpc => ?_⟩
    rw [hpc] at hpast
    exact absurd hpast nofun

/-- One buffer is submitted; the stop finds the worker asleep, and it aborts the buffer. -/
theorem stop_heard_asleep : ∃ m : MultiRequest, m.stopDone = true ∧ m.pc = .aborting 0 none ∧ m.StopKept := by
  have hrun : Run MultiStep StopHeard (.start .bulk)
      [.lookup true, .beginRound 1 .ok, .afterSubmit 0 .ok, .stop, .wake] _ :=
    .cons ⟨nofun, nofun⟩ (.lookup rfl) (.cons ⟨nofun, nofun⟩ (.beginRound rfl)
      (.cons ⟨nofun, nofun⟩ (.afterSubmit rfl) (.cons ⟨fun _ => rfl, nofun⟩ .stop
      (.cons ⟨nofun, nofun⟩ (.wake rfl) (.nil _)))))
  exact ⟨_, rfl, rfl, stop_heard hrun⟩

/-- The stop comes while the worker is in `openusb_xfer_aio`: it clears the flag afterwards, and sleeps. -/
theorem stop_lost : ∃ ls m, Run MultiStep (fun _ _ => True) (.start .bulk) ls m ∧ ¬ m.StopKept := by
  have hrun : Run MultiStep (fun _ _ => True) (.start .bulk)
      [.lookup true, .beginRound 1 .ok, .stop, .afterSubmit 0 .ok] _ :=
    .cons trivial (.lookup rfl) (.cons trivial (.beginRound rfl) (.cons trivial .stop
      (.cons trivial (.afterSubmit rfl) (.nil _))))
  refine ⟨_, _, hrun, fun hkept => ?_⟩
  rcases hkept rfl with hended | ⟨-, hpc⟩
  · exact absurd hended nofun
  · exact hpc rfl

end

end OpenUsb
