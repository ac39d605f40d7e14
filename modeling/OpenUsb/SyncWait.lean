import OpenUsb.Descr
import OpenUsb.Lib.Runs

/-!
# SyncWait — a synchronous transfer over an asynchronous backend

`usbi_io_sync` submits the request, waits in `simple_io_wait` and then frees the `usbi_io` with its private data and the
`simple_io`.  The poll thread reaps the request's URBs, holding `hdev->lock`; one of its handlers calls
`usbi_io_complete`, whose internal callback wakes the waiting thread.  The steps of the two threads are their critical
sections, from the moment the request has been submitted; `pthread_cond_wait` may return for no reason.

`usbi_free_io` takes `hdev->lock` before it frees anything, so the poll thread holds it off while it is in a handler.
-/

namespace OpenUsb

/-! ## The two threads -/

/-- Where the waiting thread is; the numbers are the status that `simple_io_wait` returned. -/
inductive WaiterPc where
  | test
  | asleep
  | woken
  | freeing (st : ℤ)
  | locked (st : ℤ)
  | unlinked (st : ℤ)
  | privFreed (st : ℤ)
  | ioFreed (st : ℤ)
  | returned (st : ℤ)
  deriving DecidableEq, Repr

/-- Where the poll thread is; from `marking` to `calling` it is inside `usbi_io_complete`, with the status passed to it,
and `handled` is back in the handler. -/
inductive PollPc where
  | idle
  | handling
  | marking (st : ℤ)
  | typing (st : ℤ)
  | waking (st : ℤ)
  | calling (st : ℤ)
  | handled
  deriving DecidableEq, Repr

/-- `completed` and `status` are the fields of the `simple_io`; `listed` says that the `usbi_io` is on `hdev->io_head`.
`passed` is the status of the last call of `usbi_io_complete`, and `misuse` is set when the poll thread uses an object
that is not live. -/
structure SyncState where
  completed : Bool
  status : ℤ
  listed : Bool
  privLive : Bool
  ioLive : Bool
  simpleLive : Bool
  waiter : WaiterPc
  poll : PollPc
  passed : Option ℤ
  misuse : Bool
  deriving DecidableEq, Repr

/-- The request has just been submitted. -/
def SyncState.submitted : SyncState where
  completed := false
  status := 0
  listed := true
  privLive := true
  ioLive := true
  simpleLive := true
  waiter := .test
  poll := .idle
  passed := none
  misuse := false

namespace SyncState

variable (s : SyncState)

/-- The poll thread uses the `usbi_io`. -/
def useIo : SyncState := { s with misuse := s.misuse || !s.ioLive }

/-- The poll thread uses the private data of the `usbi_io`. -/
def usePriv : SyncState := { s with misuse := s.misuse || !s.ioLive || !s.privLive }

/-- The poll thread uses the `simple_io` that the `usbi_io` points to. -/
def useSimple : SyncState := { s with misuse := s.misuse || !s.ioLive || !s.simpleLive }

end SyncState

/-- The waiting thread holds `io->lock`. -/
def WaiterPc.holdsIo : WaiterPc → Bool
  | .locked _ | .unlinked _ => true
  | _ => false

/-- The waiting thread after the wake-up of a signal. -/
def WaiterPc.signalled : WaiterPc → WaiterPc
  | .asleep => .woken
  | pc => pc

inductive SyncLabel where
  | test
  | wake
  | spurious
  | lockIo
  | unlink
  | freePriv
  | freeIo
  | freeSimple
  | reap
  | scan
  | complete (st : ℤ)
  | mark
  | type
  | broadcast
  | callback
  | leave (touches : Bool)
  deriving DecidableEq, Repr

/-- The steps of `usbi_io_sync` after the submission and of the poll thread. -/
inductive SyncStep : SyncState → SyncLabel → SyncState → Prop where
  /-- `simple_io_wait` finds the request completed, or waits. -/
  | test {s : SyncState} (h : s.waiter = .test) :
      SyncStep s .test { s with waiter := if s.completed then .freeing s.status else .asleep }
  /-- The wait returns after a signal; `completed` is not tested again. -/
  | wake {s : SyncState} (h : s.waiter = .woken) : SyncStep s .wake { s with waiter := .freeing s.status }
  | spurious {s : SyncState} (h : s.waiter = .asleep) : SyncStep s .spurious { s with waiter := .freeing s.status }
  | lockIo {s : SyncState} {st : ℤ} (h : s.waiter = .freeing st) : SyncStep s .lockIo { s with waiter := .locked st }
  /-- `usbi_free_io` gets `hdev->lock` and takes the `usbi_io` off the list. -/
  | unlink {s : SyncState} {st : ℤ} (h : s.waiter = .locked st) (hpoll : s.poll = .idle) :
      SyncStep s .unlink { s with waiter := .unlinked st, listed := false }
  | freePriv {s : SyncState} {st : ℤ} (h : s.waiter = .unlinked st) :
      SyncStep s .freePriv { s with waiter := .privFreed st, privLive := false }
  | freeIo {s : SyncState} {st : ℤ} (h : s.waiter = .privFreed st) :
      SyncStep s .freeIo { s with waiter := .ioFreed st, ioLive := false }
  | freeSimple {s : SyncState} {st : ℤ} (h : s.waiter = .ioFreed st) :
      SyncStep s .freeSimple { s with waiter := .returned st, simpleLive := false }
  /-- The poll thread takes `hdev->lock` and reaps a URB of the request. -/
  | reap {s : SyncState} (h : s.poll = .idle) : SyncStep s .reap { s.usePriv with poll := .handling }
  /-- The poll thread looks through `hdev->io_head` for timeouts, under `hdev->lock`. -/
  | scan {s : SyncState} (h : s.poll = .idle) : SyncStep s .scan (if s.listed then s.usePriv else s)
  | complete {s : SyncState} {st : ℤ} (h : s.poll = .handling) :
      SyncStep s (.complete st) { s with poll := .marking st, passed := some st }
  | mark {s : SyncState} {st : ℤ} (h : s.poll = .marking st) (hlock : s.waiter.holdsIo = false) :
      SyncStep s .mark { s.useIo with poll := .typing st }
  | type {s : SyncState} {st : ℤ} (h : s.poll = .typing st) (hlock : s.waiter.holdsIo = false) :
      SyncStep s .type { s.useIo with poll := .waking st, listed := false }
  | broadcast {s : SyncState} {st : ℤ} (h : s.poll = .waking st) (hlock : s.waiter.holdsIo = false) :
      SyncStep s .broadcast { s.useIo with poll := .calling st }
  /-- `async_callback` and `simple_io_complete`. -/
  | callback {s : SyncState} {st : ℤ} (h : s.poll = .calling st) : SyncStep s .callback
      { s.useSimple with poll := .handled, completed := true, status := st, waiter := s.waiter.signalled }
  /-- The handler ends and `hdev->lock` is released; `touches` says that it has used the request once more. -/
  | leave {s : SyncState} {touches : Bool} (h : s.poll = .handled ∨ s.poll = .handling) :
      SyncStep s (.leave touches) { (if touches then s.usePriv else s) with poll := .idle }

/-! ## The interleavings -/

/-- What `simple_io_wait` returned, once it has. -/
def WaiterPc.result : WaiterPc → Option ℤ
  | .freeing st | .locked st | .unlinked st | .privFreed st | .ioFreed st | .returned st => some st
  | _ => none

/-- `usbi_free_io` has taken the `usbi_io` off the list. -/
def WaiterPc.gone : WaiterPc → Bool
  | .unlinked _ | .privFreed _ | .ioFreed _ | .returned _ => true
  | _ => false

/-- The status that `usbi_io_complete` is about to hand to the callback. -/
def PollPc.pending : PollPc → Option ℤ
  | .marking st | .typing st | .waking st | .calling st => some st
  | _ => none

/-- `usbi_io_sync` returns only what was passed to `usbi_io_complete`, and the poll thread has used nothing freed. -/
structure SyncState.Safe (s : SyncState) : Prop where
  returns : ∀ st, s.waiter = .returned st → s.passed = some st
  clean : s.misuse = false

/-- The wait does not return for no reason before the completion, and no URB is reaped after the one that completed the
request. -/
def Orderly (s : SyncState) : SyncLabel → Prop
  | .spurious => s.completed = true
  | .reap => s.passed = none
  | _ => True

/-- The invariant of the two threads. -/
structure SyncInv (s : SyncState) : Prop where
  clean : s.misuse = false
  waited : ∀ st, s.waiter.result = some st → s.completed = true ∧ s.passed = some st
  woken : s.waiter = .woken → s.completed = true
  completed : s.completed = true → s.passed = some s.status ∧ s.poll.pending = none
  pending : ∀ st, s.poll.pending = some st → s.passed = some st
  called : s.passed ≠ none → s.poll ≠ .handling
  held : s.poll ≠ .idle → s.waiter.gone = false
  live : s.waiter.gone = false → s.privLive = true ∧ s.ioLive = true ∧ s.simpleLive = true
  listed : s.listed = true → s.waiter.gone = false

namespace SyncInv

variable {s : SyncState} {w : WaiterPc}

theorem submitted : SyncInv .submitted where
  clean := rfl
  waited := nofun
  woken := nofun
  completed := nofun
  pending := nofun
  called := fun h => absurd rfl h
  held := fun h => absurd rfl h
  live := fun _ => ⟨rfl, rfl, rfl⟩
  listed := fun _ => rfl

/-- Nothing is freed before the request has been completed. -/
theorem gone_false (hi : SyncInv s) (h : s.passed = none) : s.waiter.gone = false := by
  have hresult : s.waiter.gone = true → ∃ st, s.waiter.result = some st := by
    cases s.waiter <;> simp [WaiterPc.gone, WaiterPc.result]
  by_contra hgone
  obtain ⟨st, hst⟩ := hresult (by simpa using hgone)
  rw [(hi.waited st hst).2] at h
  cases h

theorem not_completed (hi : SyncInv s) (h : s.passed = none) : s.completed ≠ true := by
  intro hc
  rw [(hi.completed hc).1] at h
  cases h

/-- A step of the waiting thread up to `usbi_free_io`. -/
theorem moveWaiter (hi : SyncInv s) (hwaited : ∀ st, w.result = some st → s.completed = true ∧ s.passed = some st)
    (hwoken : w = .woken → s.completed = true) (hgone : w.gone = s.waiter.gone) : SyncInv { s with waiter := w } :=
  { hi with
    waited := hwaited
    woken := hwoken
    held := fun h => hgone.trans (hi.held h)
    live := fun h => hi.live (hgone.symm.trans h)
    listed := fun h => hgone.trans (hi.listed h) }

/-- A step of the waiting thread that frees something. -/
theorem free (hi : SyncInv s) (hold : s.waiter.gone = true) (hnew : w.gone = true) (hresult : w.result = s.waiter.result)
    (a b c : Bool) : SyncInv { s with waiter := w, privLive := a, ioLive := b, simpleLive := c } :=
  { hi with
    waited := fun st h => hi.waited st (hresult ▸ h)
    woken := fun h => by
      change w = .woken at h
      rw [h] at hnew
      cases hnew
    held := fun h => absurd (hi.held h) (by simp [hold])
    live := fun h => by
      change w.gone = false at h
      rw [hnew] at h
      cases h
    listed := fun h => absurd (hi.listed h) (by simp [hold]) }

/-- As long as nothing is freed the poll thread uses what is live. -/
theorem usePriv (hi : SyncInv s) (h : s.waiter.gone = false) : s.usePriv = s := by
  obtain ⟨hpriv, hio, -⟩ := hi.live h
  have hsame : (s.misuse || !s.ioLive || !s.privLive) = s.misuse := by rw [hpriv, hio]; simp
  rw [SyncState.usePriv, hsame]

theorem useIo (hi : SyncInv s) (h : s.waiter.gone = false) : s.useIo = s := by
  obtain ⟨-, hio, -⟩ := hi.live h
  have hsame : (s.misuse || !s.ioLive) = s.misuse := by rw [hio]; simp
  rw [SyncState.useIo, hsame]

theorem useSimple (hi : SyncInv s) (h : s.waiter.gone = false) : s.useSimple = s := by
  obtain ⟨-, hio, hsimple⟩ := hi.live h
  have hsame : (s.misuse || !s.ioLive || !s.simpleLive) = s.misuse := by rw [hio, hsimple]; simp
  rw [SyncState.useSimple, hsame]

/-- A step of the poll thread inside `usbi_io_complete`. -/
theorem movePoll (hi : SyncInv s) (pc : PollPc) (hold : s.poll ≠ .idle) (hnew : pc.pending = s.poll.pending)
    (hhandling : pc ≠ .handling) : SyncInv { s with poll := pc } :=
  { hi with
    completed := fun h => ⟨(hi.completed h).1, hnew.trans (hi.completed h).2⟩
    pending := fun st h => hi.pending st (hnew ▸ h)
    called := fun _ => hhandling
    held := fun _ => hi.held hold }

/-- `usbi_io_complete` gets the status of the request. -/
theorem complete {st : ℤ} (hi : SyncInv s) (h : s.poll = .handling) :
    SyncInv { s with poll := .marking st, passed := some st } := by
  have hnone : s.passed = none := by
    by_contra hp
    exact hi.called hp h
  have hc := hi.not_completed hnone
  have hgone := hi.gone_false hnone
  exact { hi with
    waited := fun st' hst => absurd (hi.waited st' hst).1 hc
    completed := fun h => absurd h hc
    pending := fun st' hst => hst
    called := nofun
    held := fun _ => hgone }

/-- The internal callback completes the wait, and wakes the waiting thread. -/
theorem callback {st : ℤ} (hi : SyncInv s) (h : s.poll = .calling st) :
    SyncInv { s with poll := .handled, completed := true, status := st, waiter := s.waiter.signalled } := by
  have hne : s.poll ≠ .idle := by rw [h]; exact nofun
  have hpassed : s.passed = some st := hi.pending st (by rw [h]; rfl)
  have hresult : s.waiter.signalled.result = s.waiter.result := by
    cases s.waiter <;> rfl
  have hgone : s.waiter.signalled.gone = s.waiter.gone := by
    cases s.waiter <;> rfl
  exact { hi with
    waited := fun st' hst => ⟨rfl, (hi.waited st' (hresult ▸ hst)).2⟩
    woken := fun _ => rfl
    completed := fun _ => ⟨hpassed, rfl⟩
    pending := nofun
    called := nofun
    held := fun _ => hgone.trans (hi.held hne)
    live := fun hg => hi.live (hgone.symm.trans hg)
    listed := fun hl => hgone.trans (hi.listed hl) }

theorem step {s' : SyncState} {l : SyncLabel} (hi : SyncInv s) (horder : Orderly s l) (hstep : SyncStep s l s') :
    SyncInv s' := by
  cases hstep with
  | test h =>
    refine hi.moveWaiter (fun st hst => ?_) (fun hw => ?_) (by rw [h]; split <;> rfl)
    · by_cases hc : s.completed = true
      · rw [if_pos hc] at hst
        rw [← Option.some_inj.mp hst]
        exact ⟨hc, (hi.completed hc).1⟩
      · rw [if_neg hc] at hst
        cases hst
    · split at hw <;> cases hw
  | wake h =>
    refine hi.moveWaiter (fun st hst => ?_) nofun (by rw [h]; rfl)
    have hc := hi.woken h
    rw [← Option.some_inj.mp hst]
    exact ⟨hc, (hi.completed hc).1⟩
  | spurious h =>
    refine hi.moveWaiter (fun st hst => ?_) nofun (by rw [h]; rfl)
    rw [← Option.some_inj.mp hst]
    exact ⟨horder, (hi.completed horder).1⟩
  | lockIo h => exact hi.moveWaiter (fun st' hst => hi.waited st' (by rw [h]; exact hst)) nofun (by rw [h]; rfl)
  | @unlink st h hpoll =>
    exact { hi with
      waited := fun st' hst => hi.waited st' (by rw [h]; exact hst)
      woken := nofun
      held := fun hne => absurd hpoll hne
      live := nofun
      listed := nofun }
  | freePriv h => exact hi.free (by rw [h]; rfl) rfl (by rw [h]; rfl) false s.ioLive s.simpleLive
  | freeIo h => exact hi.free (by rw [h]; rfl) rfl (by rw [h]; rfl) s.privLive false s.simpleLive
  | freeSimple h => exact hi.free (by rw [h]; rfl) rfl (by rw [h]; rfl) s.privLive s.ioLive false
  | reap h =>
    have hgone := hi.gone_false horder
    rw [hi.usePriv hgone]
    exact { hi with
      completed := fun hc => absurd hc (hi.not_completed horder)
      pending := nofun
      called := fun hp => absurd horder hp
      held := fun _ => hgone }
  | scan h =>
    split
    next hl =>
      rw [hi.usePriv (hi.listed hl)]
      exact hi
    next => exact hi
  | complete h => exact hi.complete h
  | @mark st h hlock =>
    have hne : s.poll ≠ .idle := by rw [h]; exact nofun
    rw [hi.useIo (hi.held hne)]
    exact hi.movePoll (.typing st) hne (by rw [h]; rfl) nofun
  | @type st h hlock =>
    have hne : s.poll ≠ .idle := by rw [h]; exact nofun
    rw [hi.useIo (hi.held hne)]
    exact { hi.movePoll (.waking st) hne (by rw [h]; rfl) nofun with listed := nofun }
  | @broadcast st h hlock =>
    have hne : s.poll ≠ .idle := by rw [h]; exact nofun
    rw [hi.useIo (hi.held hne)]
    exact hi.movePoll (.calling st) hne (by rw [h]; rfl) nofun
  | @callback st h =>
    have hne : s.poll ≠ .idle := by rw [h]; exact nofun
    rw [hi.useSimple (hi.held hne)]
    exact hi.callback h
  | @leave touches h =>
    have hne : s.poll ≠ .idle := by rcases h with h | h <;> rw [h] <;> exact nofun
    have huse : (if touches then s.usePriv else s) = s := by
      split
      · exact hi.usePriv (hi.held hne)
      · rfl
    have hpending : s.poll.pending = none := by rcases h with h | h <;> rw [h] <;> rfl
    rw [huse]
    exact hi.movePoll .idle hne hpending.symm nofun

theorem safe (hi : SyncInv s) : s.Safe where
  returns st h := (hi.waited st (by rw [h]; rfl)).2
  clean := hi.clean

end SyncInv

/-- In an orderly run `usbi_io_sync` returns the status of the completion, after it, and the poll thread uses nothing that
has been freed. -/
theorem sync_wait_safe (ls : List SyncLabel) (s : SyncState) (hrun : Run SyncStep Orderly .submitted ls s) : s.Safe := by
  refine SyncInv.safe ?_
  refine hrun.inv (fun s l t hs hG hstep => ?_) SyncInv.submitted
  exact hs.step hG hstep

/-- A reap completes the request, and the waiting thread then finds it completed. -/
theorem sync_wait_safe_success :
    SyncState.Safe ⟨true, 0, false, false, false, false, .returned 0, .idle, some 0, false⟩ :=
  sync_wait_safe [.reap, .complete 0, .mark, .type, .broadcast, .callback, .leave true, .test, .lockIo, .unlink,
      .freePriv, .freeIo, .freeSimple] ⟨true, 0, false, false, false, false, .returned 0, .idle, some 0, false⟩
    (.cons rfl (.reap rfl) (.cons trivial (.complete rfl) (.cons trivial (.mark rfl rfl) (.cons trivial (.type rfl rfl)
      (.cons trivial (.broadcast rfl rfl) (.cons trivial (.callback rfl) (.cons trivial (.leave (Or.inl rfl))
        (.cons trivial (.test rfl) (.cons trivial (.lockIo rfl) (.cons trivial (.unlink rfl rfl)
          (.cons trivial (.freePriv rfl) (.cons trivial (.freeIo rfl) (.cons trivial (.freeSimple rfl) (.nil _))))))))))))))

/-- A wait that returns for no reason makes `usbi_io_sync` return success before the completion, and the poll thread then
reaps a URB of a request that is gone. -/
theorem spurious_wait_unsafe : ∃ s, Run SyncStep (fun _ _ => True) .submitted
    [.test, .spurious, .lockIo, .unlink, .freePriv, .freeIo, .freeSimple, .reap] s ∧
      s.waiter = .returned 0 ∧ s.passed = none ∧ s.misuse = true := by
  refine ⟨_, .cons trivial (.test rfl) (.cons trivial (.spurious rfl) (.cons trivial (.lockIo rfl)
    (.cons trivial (.unlink rfl rfl) (.cons trivial (.freePriv rfl) (.cons trivial (.freeIo rfl)
      (.cons trivial (.freeSimple rfl) (.cons trivial (.reap rfl) (.nil _)))))))), rfl, rfl, rfl⟩

end OpenUsb
