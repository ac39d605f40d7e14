import OpenUsb.CompleteQueue

/-!
# Delivery — by which channel a completed request is reported

A request submitted with `openusb_xfer_aio` completes through `usbi_io_complete` when its backend works asynchronously
and at the end of the thread `io_submit` when the backend only has synchronous transfers.  `io_submit` calls the request's
callback or else queues the request; `usbi_io_complete` queues it and then calls the callback, if there is one.
-/

namespace OpenUsb

/-- `io_pattern`. -/
inductive IoPattern where
  | async
  | sync
  | both
  deriving DecidableEq, Repr

/-- A request on its way: `due` is between the queueing and the callback of `usbi_io_complete`. -/
inductive Phase where
  | fresh
  | submitted
  | due
  | done
  deriving DecidableEq, Repr

/-- The queue with its waits, and for each request its phase, the invocations of its callback and how often a wait or a
poll returned it. -/
structure DeliveryState where
  base : QueueState
  phase : ℕ → Phase
  calls : ℕ → ℕ
  returned : ℕ → ℕ

inductive DeliveryLabel where
  | submit (r : ℕ)
  | ioComplete (r : ℕ) (woken : Option ℕ)
  | callback (r : ℕ)
  | ioSubmit (r : ℕ) (woken : Option ℕ)
  | wait (t : ℕ) (handles : List ℕ)
  | pass (t : ℕ)
  | spurious (t : ℕ)
  | poll (handles : List ℕ)
  deriving DecidableEq, Repr

/-- The request that a pass of a wait returns. -/
def Pass.request : Pass → Option ℕ
  | .found r _ => some r
  | _ => none

namespace DeliveryState

variable (s : DeliveryState)

def setPhase (r : ℕ) (p : Phase) : DeliveryState := { s with phase := Function.update s.phase r p }

/-- The request's callback is called. -/
def call (r : ℕ) : DeliveryState := { s with calls := Function.update s.calls r (s.calls r + 1) }

/-- A wait or a poll returns a request, or none. -/
def hand (found : Option ℕ) : DeliveryState :=
  match found with
  | some r => { s with returned := Function.update s.returned r (s.returned r + 1) }
  | none => s

/-- Nothing has been submitted. -/
def start : DeliveryState :=
  { base := .start, phase := fun _ => .fresh, calls := fun _ => 0, returned := fun _ => 0 }

end DeliveryState

section

variable (cb : ℕ → Bool) (pattern : ℕ → IoPattern)

/-- The steps of submissions, completions, waits and polls; `cb r` says that the request has a callback and `pattern r` is
the pattern of its backend. -/
inductive DeliveryStep : DeliveryState → DeliveryLabel → DeliveryState → Prop where
  | submit {s : DeliveryState} {r : ℕ} (h : s.phase r = .fresh) : DeliveryStep s (.submit r) (s.setPhase r .submitted)
  | ioComplete {s : DeliveryState} {r : ℕ} {woken : Option ℕ} {base : QueueState} (hpattern : pattern r ≠ .sync)
      (h : s.phase r = .submitted) (hbase : QueueStep s.base (.complete r woken) base) :
      DeliveryStep s (.ioComplete r woken)
        { s.setPhase r (if cb r then .due else .done) with base := base }
  | callback {s : DeliveryState} {r : ℕ} (h : s.phase r = .due) :
      DeliveryStep s (.callback r) ((s.setPhase r .done).call r)
  | ioSubmitCallback {s : DeliveryState} {r : ℕ} (hpattern : pattern r = .sync) (hcb : cb r = true)
      (h : s.phase r = .submitted) : DeliveryStep s (.ioSubmit r none) ((s.setPhase r .done).call r)
  | ioSubmitQueue {s : DeliveryState} {r : ℕ} {woken : Option ℕ} {base : QueueState} (hpattern : pattern r = .sync)
      (hcb : cb r = false) (h : s.phase r = .submitted) (hbase : QueueStep s.base (.complete r woken) base) :
      DeliveryStep s (.ioSubmit r woken) { s.setPhase r .done with base := base }
  | wait {s : DeliveryState} {t : ℕ} {handles : List ℕ} {base : QueueState} (hcb : ∀ r ∈ handles, cb r = false)
      (hbase : QueueStep s.base (.wait t handles) base) : DeliveryStep s (.wait t handles) { s with base := base }
  | waitRefused {s : DeliveryState} {t : ℕ} {handles : List ℕ} (hcb : ∃ r ∈ handles, cb r = true) :
      DeliveryStep s (.wait t handles) s
  | pass {s : DeliveryState} {t : ℕ} {handles : List ℕ} (h : s.base.waiters t = some ⟨handles, false⟩) :
      DeliveryStep s (.pass t) { s.hand (openusbWaitPass handles s.base.queue).request with
        base := s.base.afterPass t handles (openusbWaitPass handles s.base.queue) }
  | spurious {s : DeliveryState} {t : ℕ} {base : QueueState} (hbase : QueueStep s.base (.spurious t) base) :
      DeliveryStep s (.spurious t) { s with base := base }
  | poll {s : DeliveryState} {handles : List ℕ} : DeliveryStep s (.poll handles)
      { s.hand (openusbPoll handles s.base.queue).1 with
        base := { s.base with queue := (openusbPoll handles s.base.queue).2 } }

/-- A completed request with a callback is reported by one invocation of it and by nothing else; one without a callback
is returned at most once, and by nothing else. -/
structure DeliveryState.Once (s : DeliveryState) : Prop where
  called : ∀ r, cb r = true → s.calls r = (if s.phase r = .done then 1 else 0) ∧ r ∉ s.base.queue.list ∧ s.returned r = 0
  retrieved : ∀ r, cb r = false → s.returned r ≤ 1 ∧ s.calls r = 0

/-- No request with a callback completes through `usbi_io_complete`. -/
def PlainCompletion : DeliveryLabel → Prop
  | .ioComplete r _ => cb r = false
  | _ => True

/-- One request's account: its callback's invocations, its returns and its entries in the queue. -/
def Tally (c : Bool) (p : Phase) (calls returned entries : ℕ) : Prop :=
  if c then calls = (if p = .done then 1 else 0) ∧ entries = 0 ∧ returned = 0
  else calls = 0 ∧ returned + entries = if p = .done then 1 else 0

/-- The accounts of all requests are in order. -/
def DeliveryState.Balanced (s : DeliveryState) : Prop :=
  ∀ r, Tally (cb r) (s.phase r) (s.calls r) (s.returned r) (s.base.queue.list.count r)

end

section

variable {cb : ℕ → Bool} {pattern : ℕ → IoPattern} {s s' : DeliveryState} {l : DeliveryLabel} {r : ℕ}

theorem tally_true {p : Phase} {calls returned entries : ℕ} : Tally true p calls returned entries ↔
    calls = (if p = .done then 1 else 0) ∧ entries = 0 ∧ returned = 0 := Iff.rfl

theorem tally_false {p : Phase} {calls returned entries : ℕ} : Tally false p calls returned entries ↔
    calls = 0 ∧ returned + entries = if p = .done then 1 else 0 := Iff.rfl

theorem DeliveryState.Balanced.once (h : s.Balanced cb) : s.Once cb where
  called r hcb := by
    have hr := h r
    rw [hcb, tally_true] at hr
    exact ⟨hr.1, List.count_eq_zero.mp hr.2.1, hr.2.2⟩
  retrieved r hcb := by
    have hr := h r
    rw [hcb, tally_false] at hr
    refine ⟨?_, hr.1⟩
    have hsum := hr.2
    split at hsum <;> omega

/-- A step that concerns one request keeps the accounts of the others. -/
theorem balanced_of (h : s.Balanced cb) (r : ℕ)
    (hother : ∀ r', r' ≠ r → s'.phase r' = s.phase r' ∧ s'.calls r' = s.calls r' ∧ s'.returned r' = s.returned r' ∧
      s'.base.queue.list.count r' = s.base.queue.list.count r')
    (hr : Tally (cb r) (s'.phase r) (s'.calls r) (s'.returned r) (s'.base.queue.list.count r)) : s'.Balanced cb := by
  intro r'
  by_cases heq : r' = r
  · rw [heq]
    exact hr
  · obtain ⟨h1, h2, h3, h4⟩ := hother r' heq
    rw [h1, h2, h3, h4]
    exact h r'

/-- A completion appends its request. -/
theorem complete_list {b b' : QueueState} {woken : Option ℕ} (h : QueueStep b (.complete r woken) b') :
    b'.queue.list = b.queue.list ++ [r] := by
  cases h with
  | complete hsig =>
    show ((_ : QueueState).queue.add r).list = _
    rw [signals_queue hsig]
    rfl

/-- An append counts for its own request only. -/
theorem count_append_one {list : List ℕ} (r' : ℕ) : (list ++ [r]).count r' = list.count r' + if r = r' then 1 else 0 := by
  rw [List.count_append, List.count_singleton, beq_eq_decide]
  simp

/-- The steps that touch neither list nor accounts. -/
theorem balanced_base (h : s.Balanced cb) {base : QueueState} (hlist : base.queue.list = s.base.queue.list) :
    DeliveryState.Balanced cb { s with base := base } := by
  intro r
  show Tally (cb r) (s.phase r) (s.calls r) (s.returned r) (base.queue.list.count r)
  rw [hlist]
  exact h r

/-- What a wait or a poll takes off the list it returns. -/
theorem balanced_take (h : s.Balanced cb) {handles : List ℕ} {base : QueueState}
    (hlist : base.queue.list = match s.base.queue.find handles with
      | some r => s.base.queue.list.erase r
      | none => s.base.queue.list) :
    DeliveryState.Balanced cb { s.hand (s.base.queue.find handles) with base := base } := by
  cases hfind : s.base.queue.find handles with
  | none =>
    rw [hfind] at hlist
    exact balanced_base h hlist
  | some r =>
    rw [hfind] at hlist
    have hmem := (CompleteQueue.find_mem hfind).1
    have hpos := List.count_pos_iff.mpr hmem
    refine balanced_of h r (fun r' hne => ⟨rfl, rfl, Function.update_of_ne hne _ _, ?_⟩) ?_
    · show base.queue.list.count r' = _
      rw [hlist, List.count_erase_of_ne hne]
    · show Tally (cb r) (s.phase r) (s.calls r) (Function.update s.returned r (s.returned r + 1) r)
        (base.queue.list.count r)
      have hr := h r
      rw [hlist, List.count_erase_self, Function.update_self]
      cases hcb : cb r with
      | true =>
        rw [hcb, tally_true] at hr
        omega
      | false =>
        rw [hcb, tally_false] at hr
        rw [tally_false]
        exact ⟨hr.1, by rw [← hr.2]; omega⟩

theorem afterPass_list {b : QueueState} {t : ℕ} {handles : List ℕ} (hcount : b.queue.count ≠ 0) :
    (b.afterPass t handles (openusbWaitPass handles b.queue)).queue.list = match b.queue.find handles with
      | some r => b.queue.list.erase r
      | none => b.queue.list := by
  rw [openusbWaitPass, if_neg hcount]
  cases b.queue.find handles <;> rfl

theorem waitPass_request {q : CompleteQueue} {handles : List ℕ} (hcount : q.count ≠ 0) :
    (openusbWaitPass handles q).request = q.find handles := by
  rw [openusbWaitPass, if_neg hcount]
  cases q.find handles <;> rfl

/-- The end of a request: its account moves on by one entry or one invocation. -/
theorem balanced_finish (h : s.Balanced cb) (hphase : s.phase r = .submitted) {base : QueueState} (hcb : cb r = false)
    (hlist : base.queue.list = s.base.queue.list ++ [r]) :
    DeliveryState.Balanced cb { s.setPhase r .done with base := base } := by
  refine balanced_of h r (fun r' hne => ⟨Function.update_of_ne hne _ _, rfl, rfl, ?_⟩) ?_
  · show base.queue.list.count r' = _
    rw [hlist, count_append_one, if_neg (Ne.symm hne), Nat.add_zero]
  · show Tally (cb r) (Function.update s.phase r .done r) (s.calls r) (s.returned r) (base.queue.list.count r)
    have hr := h r
    rw [hcb, hphase, tally_false, if_neg (by decide)] at hr
    rw [hlist, count_append_one, if_pos rfl, Function.update_self, hcb, tally_false, if_pos rfl]
    omega

theorem balanced_call (h : s.Balanced cb) (hphase : s.phase r ≠ .done) (hcb : cb r = true) :
    DeliveryState.Balanced cb ((s.setPhase r .done).call r) := by
  refine balanced_of h r (fun r' hne => ⟨Function.update_of_ne hne _ _, Function.update_of_ne hne _ _, rfl, rfl⟩) ?_
  show Tally (cb r) (Function.update s.phase r .done r) (Function.update s.calls r (s.calls r + 1) r) (s.returned r)
    (s.base.queue.list.count r)
  have hr := h r
  rw [hcb, tally_true, if_neg hphase] at hr
  rw [Function.update_self, Function.update_self, hcb, tally_true, if_pos rfl]
  omega

/-- A step that completes no request with a callback through `usbi_io_complete` keeps the accounts. -/
theorem deliveryStep_balanced (h : s.Balanced cb) (hdue : ∀ r, s.phase r ≠ .due)
    (hstep : DeliveryStep cb pattern s l s') (hplain : PlainCompletion cb l) :
    s'.Balanced cb ∧ ∀ r, s'.phase r ≠ .due := by
  have hset : ∀ (r : ℕ) (p : Phase), p ≠ .due → ∀ r', Function.update s.phase r p r' ≠ .due := by
    intro r p hp r'
    by_cases heq : r' = r
    · rw [heq, Function.update_self]
      exact hp
    · rw [Function.update_of_ne heq]
      exact hdue r'
  cases hstep with
  | @submit r hphase =>
    refine ⟨balanced_of h r (fun r' hne => ⟨Function.update_of_ne hne _ _, rfl, rfl, rfl⟩) ?_, hset r _ (by decide)⟩
    show Tally (cb r) (Function.update s.phase r .submitted r) (s.calls r) (s.returned r) (s.base.queue.list.count r)
    have hr := h r
    rw [hphase] at hr
    rwa [Function.update_self]
  | @ioComplete r woken base hpattern hphase hbase =>
    rw [show cb r = false from hplain, if_neg (by decide)]
    exact ⟨balanced_finish h hphase hplain (complete_list hbase), hset r _ (by decide)⟩
  | callback hphase => exact absurd hphase (hdue _)
  | @ioSubmitCallback r hpattern hcb hphase =>
    exact ⟨balanced_call h (by rw [hphase]; decide) hcb, hset r _ (by decide)⟩
  | @ioSubmitQueue r woken base hpattern hcb hphase hbase =>
    exact ⟨balanced_finish h hphase hcb (complete_list hbase), hset r _ (by decide)⟩
  | wait hcb hbase =>
    cases hbase
    exact ⟨balanced_base h rfl, hdue⟩
  | waitRefused hcb => exact ⟨h, hdue⟩
  | @pass t handles hw =>
    by_cases hcount : s.base.queue.count = 0
    · rw [openusbWaitPass, if_pos hcount]
      exact ⟨balanced_base h rfl, hdue⟩
    · rw [waitPass_request hcount]
      refine ⟨balanced_take h (afterPass_list hcount), fun r => ?_⟩
      cases s.base.queue.find handles <;> exact hdue r
  | spurious hbase =>
    cases hbase
    exact ⟨balanced_base h rfl, hdue⟩
  | @poll handles =>
    have hpoll : openusbPoll handles s.base.queue = (s.base.queue.find handles, match s.base.queue.find handles with
        | some r => s.base.queue.remove r
        | none => s.base.queue) := by
      rw [openusbPoll]
      cases s.base.queue.find handles <;> rfl
    rw [hpoll]
    refine ⟨balanced_take h ?_, fun r => ?_⟩
    · cases s.base.queue.find handles <;> rfl
    · cases s.base.queue.find handles <;> exact hdue r

/-- A completion of a request with a callback through `usbi_io_complete` leaves it on the queue. -/
theorem ioComplete_queues (hstep : DeliveryStep cb pattern s l s') (hplain : ¬ PlainCompletion cb l) : ¬ s'.Once cb := by
  intro honce
  cases hstep with
  | @ioComplete r woken base hpattern hphase hbase =>
    have hcb : cb r = true := by simpa [PlainCompletion] using hplain
    have hmem : r ∈ base.queue.list := by
      rw [complete_list hbase]
      exact List.mem_append_right _ (List.mem_singleton_self r)
    exact (honce.called r hcb).2.1 hmem
  | submit | callback | ioSubmitCallback | ioSubmitQueue | wait | waitRefused | pass | spurious | poll =>
    exact hplain trivial

/-- In a run in which no request with a callback completes through `usbi_io_complete` every request is reported once, by
its own channel; and the first such completion breaks this. -/
theorem delivered_once (cb : ℕ → Bool) (pattern : ℕ → IoPattern) (ls : List DeliveryLabel) (s : DeliveryState)
    (hrun : Run (DeliveryStep cb pattern) (fun _ l => PlainCompletion cb l) .start ls s) :
    s.Once cb ∧ ∀ l s', DeliveryStep cb pattern s l s' → (PlainCompletion cb l ↔ s'.Once cb) := by
  have hstart : DeliveryState.start.Balanced cb := by
    intro r
    show Tally (cb r) .fresh 0 0 0
    cases cb r with
    | true => exact ⟨rfl, rfl, rfl⟩
    | false => exact ⟨rfl, rfl⟩
  have hinv : s.Balanced cb ∧ ∀ r, s.phase r ≠ .due := by
    refine hrun.inv (I := fun s => s.Balanced cb ∧ ∀ r, s.phase r ≠ .due) (fun s l t hs hG hstep => ?_)
      ⟨hstart, fun _ => nofun⟩
    exact deliveryStep_balanced hs.1 hs.2 hstep hG
  refine ⟨hinv.1.once, fun l s' hstep => ⟨fun hplain => ?_, fun honce => ?_⟩⟩
  · exact (deliveryStep_balanced hinv.1 hinv.2 hstep hplain).1.once
  · by_contra hplain
    exact ioComplete_queues hstep hplain honce

/-- Request 7 has no callback and an asynchronous backend: a wait sleeps for it, is woken by its completion and returns it.
Request 9 has a callback and a synchronous backend, whose thread calls it. -/
theorem delivered_once_both : ∃ s, Run (DeliveryStep (· = 9) fun r => if r = 9 then .sync else .async)
      (fun _ l => PlainCompletion (· = 9) l) .start
      [.submit 7, .submit 9, .wait 1 [7], .pass 1, .ioComplete 7 (some 1), .ioSubmit 9 none, .pass 1] s ∧
    s.returned 7 = 1 ∧ s.calls 9 = 1 ∧ s.phase 7 = .done ∧ s.phase 9 = .done ∧ s.Once (· = 9) := by
  have hrun : Run (DeliveryStep (· = 9) fun r => if r = 9 then .sync else .async) (fun _ l => PlainCompletion (· = 9) l)
      .start [.submit 7, .submit 9, .wait 1 [7], .pass 1, .ioComplete 7 (some 1), .ioSubmit 9 none, .pass 1] _ :=
    .cons trivial (.submit rfl) (.cons trivial (.submit rfl) (.cons trivial (.wait (by decide) (.wait rfl (by decide)))
      (.cons trivial (.pass rfl) (.cons rfl (.ioComplete (by decide) rfl (.complete (.wakes rfl)))
      (.cons trivial (.ioSubmitCallback rfl rfl rfl) (.cons trivial (.pass rfl) (.nil _)))))))
  exact ⟨_, hrun, rfl, rfl, rfl, rfl, (delivered_once _ _ _ _ hrun).1⟩

/-- Request 7 has a callback: it is queued all the same, a poll returns it, and the callback is called as well. -/
theorem callback_delivered_twice : ∃ s, Run (DeliveryStep (fun _ => true) fun _ => .async) (fun _ _ => True) .start
    [.submit 7, .ioComplete 7 none, .poll [7], .callback 7] s ∧ s.calls 7 = 1 ∧ s.returned 7 = 1 := by
  refine ⟨_, .cons trivial (.submit rfl) (.cons trivial (.ioComplete (by decide) rfl
    (.complete (.nobody fun _ _ => start_sleeps))) (.cons trivial .poll (.cons trivial (.callback rfl) (.nil _)))), ?_, ?_⟩
  · rfl
  · rfl

end

end OpenUsb
