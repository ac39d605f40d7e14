import OpenUsb.MultiRequest
import OpenUsb.Lib.LinkedList

/-!
# MultiOwner — who owns the buffer requests of a multi-request

`MultiOwner` is the state of `MultiRequest` with what has become of the request and the `args` of each buffer.  No other
thread adds buffers (`openusb_add` is called by nobody), so a buffer has one request.  `openusb_xfer_aio` is two places:
the backend takes the request, which may then complete at any time, and the call returns to the worker.

`multi_req_callback` does not take the lock of the multi-request.  So the `list_add` of the worker and the `list_del` of a
callback have a beginning and an end, and other steps come in between.  Two of them that write the same links at the same
time leave `req_head` in any state; so does a `list_del` next to the head of a multi-request that is freed, and a callback
that reads a freed multi-request does anything to its records.

* `torn_add`: what such a race does to the links.
* `multi_owned_iff`: when every buffer request has one owner until it completes.
-/

namespace OpenUsb

/-! ## A race on the links -/

section

variable {P : Type} [DecidableEq P] {m : Links P} {head e z null : P} {xs : List P}

/-- The assignments of `list_add` to the new entry. -/
def Links.linkEntry (m : Links P) (entry head : P) : Links P where
  next := Function.update m.next entry head
  prev := Function.update m.prev entry (m.prev head)

/-- Its assignments to the neighbours of the new entry. -/
def Links.linkNeighbours (m : Links P) (entry head : P) : Links P where
  next := Function.update m.next (m.prev head) entry
  prev := Function.update m.prev head entry

theorem Links.listAdd_eq (m : Links P) (he : e ≠ head) : m.listAdd e head = (m.linkEntry e head).linkNeighbours e head := by
  unfold Links.listAdd Links.linkEntry Links.linkNeighbours
  simp only [Function.update_of_ne he.symm]

/-- A `list_del` of the last entry while an entry is added: the new entry points back to the deleted one, and when it is
deleted itself the list still leads to it. -/
theorem torn_add (h : Linked m head (xs ++ [z])) (he : e ∉ head :: (xs ++ [z])) (hnull : null ∉ head :: (xs ++ [z])) :
    let m' := ((m.linkEntry e head).listDel null z).linkNeighbours e head
    m'.prev e = z ∧ ∃ p ∈ head :: xs, (m'.listDel null e).next p = e := by
  have hlast : Linked m head (xs ++ z :: []) := h
  obtain ⟨us, p, n, zs, hus, hzs, -, hpz, hzn, -⟩ := hlast.split
  obtain ⟨rfl, -⟩ : head = n ∧ [] = zs := List.cons.inj hzs
  have hp : p ∈ head :: xs := hus ▸ List.mem_append_right us List.mem_cons_self
  have hz : z ∉ head :: xs := fun hmem => (List.nodup_append.mp (List.cons_append ▸ h.nodup)).2.2 z hmem z (by simp) rfl
  have hhz : head ≠ z := fun heq => hz (heq ▸ List.mem_cons_self)
  have hpz' : p ≠ z := fun heq => hz (heq ▸ hp)
  rw [← List.cons_append, List.mem_append, not_or, List.mem_singleton] at he hnull
  have hhe : e ≠ head := fun heq => he.1 (heq ▸ List.mem_cons_self)
  have hpe : p ≠ e := fun heq => he.1 (heq ▸ hp)
  have hpn : p ≠ null := fun heq => hnull.1 (heq ▸ hp)
  have hhn : head ≠ null := fun heq => hnull.1 (heq ▸ List.mem_cons_self)
  -- the callback joins `p` to the head
  have hdel : (m.linkEntry e head).listDel null z =
      { next := Function.update (Function.update (m.linkEntry e head).next p head) z null
        prev := Function.update (Function.update (m.linkEntry e head).prev head p) z null } := by
    have hprev : (m.linkEntry e head).prev z = p := (Function.update_of_ne (Ne.symm he.2) _ _).trans hpz.2
    have hnext : (m.linkEntry e head).next z = head := (Function.update_of_ne (Ne.symm he.2) _ _).trans hzn.1
    rw [Links.listDel, hprev, hnext, if_neg (by rintro (heq | heq) <;> contradiction)]
  -- and the worker goes on from there
  have hprev : (((m.linkEntry e head).listDel null z).linkNeighbours e head).prev e = z := by
    rw [hdel]
    simp [Links.linkNeighbours, Links.linkEntry, Function.update_apply, hhe, he.2, hzn.2]
  have hnext : (((m.linkEntry e head).listDel null z).linkNeighbours e head).next e = head := by
    rw [hdel]
    simp [Links.linkNeighbours, Links.linkEntry, hhz, hpe.symm, he.2]
  have hkept : (((m.linkEntry e head).listDel null z).linkNeighbours e head).next p = e := by
    rw [hdel]
    simp [Links.linkNeighbours, hhz]
  refine ⟨hprev, p, hp, ?_⟩
  rw [Links.listDel, hprev, hnext, if_neg (by rintro (heq | heq) <;> first | exact hnull.2 heq.symm | contradiction)]
  simp only [Function.update_of_ne hpe, Function.update_of_ne hpz', hkept]

end

/-! ## The requests of the buffers -/

/-- Where `multi_req_callback` is for a request: not called yet, in `list_del`, behind it, or over. -/
inductive CallbackStage where
  | waiting
  | unlinking
  | unlinked
  | done
  deriving DecidableEq, Repr

/-- The request of one buffer: its record is allocated, the backend has taken it, where its callback is, how often the
record and its `args` were freed, and how often its index was reported to the user. -/
structure BufferRecord where
  allocated : Bool := false
  accepted : Bool := false
  stage : CallbackStage := .waiting
  reqFrees : ℕ := 0
  argsFrees : ℕ := 0
  reports : ℕ := 0
  deriving DecidableEq, Repr

/-- The allocations for a buffer; the isochronous branch frees the record where there is no transfer. -/
def BufferRecord.ofAlloc (type : MultiType) (alloc : BufferAlloc) : BufferRecord :=
  match alloc with
  | .ok => { allocated := true }
  | .noTransfer => { allocated := true, reqFrees := if type = .isochronous then 1 else 0 }
  | .noArgs => { allocated := true }
  | .noReq => {}

/-- The record and the `args` are freed. -/
def BufferRecord.free (b : BufferRecord) : BufferRecord :=
  { b with reqFrees := b.reqFrees + 1, argsFrees := b.argsFrees + 1 }

/-- `multi_req_callback` after `list_del`, with the allocation of the result: it returns early without one. -/
def BufferRecord.complete (hasCb alloc : Bool) (b : BufferRecord) : BufferRecord :=
  if alloc then { b.free with stage := .done, reports := b.reports + if hasCb then 1 else 0 }
  else { b with stage := .done }

/-- The request is submitted, and its callback has not taken it off the list. -/
def BufferRecord.Outstanding (b : BufferRecord) : Prop := b.accepted = true ∧ (b.stage = .waiting ∨ b.stage = .unlinking)

/-- The record and its `args` are freed once, when the callback has run, and the index is reported at most once. -/
structure BufferRecord.FreedOnce (b : BufferRecord) : Prop where
  req : b.reqFrees = if b.stage = .done then 1 else 0
  args : b.argsFrees = if b.stage = .done then 1 else 0
  reported : b.reports ≤ if b.stage = .done then 1 else 0

/-- A multi-request, whether the user gave a callback, the buffer for which the worker is in `list_add`, and the requests
of the buffers. -/
structure MultiOwner where
  req : MultiRequest
  hasCb : Bool
  linking : Option ℕ
  buffers : ℕ → BufferRecord

namespace MultiOwner

variable (s : MultiOwner)

def start (type : MultiType) (hasCb : Bool) : MultiOwner := ⟨.start type, hasCb, none, fun _ => {}⟩

/-- Whether the loop over the buffers calls `list_add` at buffer `i`. -/
def Adds (i reqNum : ℕ) (alloc : BufferAlloc) : Prop := i < reqNum ∧ (alloc = .ok ∨ alloc = .noTransfer)

instance (i reqNum : ℕ) (alloc : BufferAlloc) : Decidable (Adds i reqNum alloc) :=
  inferInstanceAs (Decidable (_ ∧ _))

/-- The loop over the buffers at buffer `i`, up to the beginning of `list_add`. -/
def atBuffer (i reqNum : ℕ) (alloc : BufferAlloc) : MultiOwner :=
  { s with
    req := s.req.atBuffer i reqNum alloc
    linking := if Adds i reqNum alloc then some i else none
    buffers := if i < reqNum then Function.update s.buffers i (.ofAlloc s.req.type alloc) else s.buffers }

/-- The number of buffers that a round goes through. -/
def bufferCount (numBufs : ℕ) : ℕ := if s.req.type = .other then 0 else numBufs

def beginRound (numBufs : ℕ) (alloc : BufferAlloc) : MultiOwner := s.atBuffer 0 (s.bufferCount numBufs) alloc

/-- The backend takes the request of buffer `i`. -/
def accept (i : ℕ) : MultiOwner :=
  { s with buffers := Function.update s.buffers i { s.buffers i with accepted := true } }

/-- `openusb_xfer_aio` has returned for buffer `i`. -/
def afterSubmit (i reqNum : ℕ) (ret : ℤ) (alloc : BufferAlloc) : MultiOwner :=
  if s.req.type = .interrupt ∧ ret ≠ 0 then { s with req := { s.req with pc := .returned ret } }
  else MultiOwner.atBuffer { s with req := { s.req with rp := s.req.rp + 1 } } (i + 1) reqNum alloc

/-- `openusb_abort` has returned for buffer `pos`: the worker frees its request and goes on to `tmp`. -/
def afterAbort (pos : ℕ) (tmp : Option ℕ) : MultiOwner :=
  { s with req := s.req.abortAt tmp, buffers := Function.update s.buffers pos (s.buffers pos).free }

/-- What is at `req_head` after a race. -/
def withHead (l : List ℕ) : MultiOwner := { s with req := { s.req with reqHead := l } }

/-- `multi_req_callback` for buffer `idx` comes to a stage. -/
def setStage (idx : ℕ) (stage : CallbackStage) : MultiOwner :=
  { s with buffers := Function.update s.buffers idx { s.buffers idx with stage := stage } }

/-- The callback is over, and leaves the record so. -/
def setBuffer (idx : ℕ) (b : BufferRecord) : MultiOwner := { s with buffers := Function.update s.buffers idx b }

/-- `list_add` of the worker while a callback is in `list_del` for the last entry. -/
def AddRaces (i reqNum : ℕ) (alloc : BufferAlloc) : Prop :=
  Adds i reqNum alloc ∧ ∃ j, s.req.reqHead.getLast? = some j ∧ (s.buffers j).stage = .unlinking

/-- `list_del` of a callback while the worker is in `list_add`, or another callback in `list_del`, for a neighbour. -/
def DelRaces (idx : ℕ) : Prop :=
  ∃ j, (s.linking = some j ∨ (s.buffers j).stage = .unlinking) ∧
    (nextEntry s.req.reqHead idx = some j ∨ nextEntry s.req.reqHead j = some idx)

/-- The worker goes through the list while a callback is in `list_del`. -/
def WalkRaces : Prop := s.req.flag = .stopped ∧ ∃ j ∈ s.req.reqHead, (s.buffers j).stage = .unlinking

end MultiOwner

/-- Where the worker comes to when it goes through the list. -/
def WorkerPc.walks : WorkerPc → Bool
  | .aborting _ _ => true
  | .crashed => true
  | .freed => true
  | _ => false

/-- The steps of the worker, the backend that takes a request, the callback of a request that is done, and a stop. -/
inductive OwnerLabel where
  | lookup (found : Bool)
  | beginRound (numBufs : ℕ) (alloc : BufferAlloc)
  | linked
  | accept
  | afterSubmit (ret : ℤ) (alloc : BufferAlloc)
  | spurious
  | wake
  | abort
  | unlink (idx : ℕ)
  | unlinked (idx : ℕ)
  | callback (idx : ℕ) (alloc : Bool)
  | stop
  deriving DecidableEq, Repr

/-- The backend takes a request at most once; the call succeeds just when it has taken it; a request that it has taken
completes at most once.  `l`, `pc` and `b` are the list, the place and the record where there is no race, and anything
where there is one. -/
inductive OwnerStep : MultiOwner → OwnerLabel → MultiOwner → Prop where
  | lookup {s : MultiOwner} {found : Bool} (hpc : s.req.pc = .started) :
      OwnerStep s (.lookup found)
        { s with req := { s.req with pc := if found then .loop else .returned OPENUSB_BADARG } }
  | beginRound {s : MultiOwner} {numBufs : ℕ} {alloc : BufferAlloc} {l : List ℕ} (hpc : s.req.pc = .loop)
      (hl : ¬ s.AddRaces 0 (s.bufferCount numBufs) alloc → l = (s.beginRound numBufs alloc).req.reqHead) :
      OwnerStep s (.beginRound numBufs alloc) ((s.beginRound numBufs alloc).withHead l)
  | linked {s : MultiOwner} {i : ℕ} (hlink : s.linking = some i) : OwnerStep s .linked { s with linking := none }
  | accept {s : MultiOwner} {i reqNum : ℕ} (hpc : s.req.pc = .submitting i reqNum) (hlink : s.linking = none)
      (hacc : (s.buffers i).accepted = false) : OwnerStep s .accept (s.accept i)
  | afterSubmit {s : MultiOwner} {i reqNum : ℕ} {ret : ℤ} {alloc : BufferAlloc} {l : List ℕ}
      (hpc : s.req.pc = .submitting i reqNum) (hlink : s.linking = none) (hret : ret = 0 ↔ (s.buffers i).accepted = true)
      (hl : (s.req.type = .interrupt ∧ ret ≠ 0) ∨ ¬ s.AddRaces (i + 1) reqNum alloc →
        l = (s.afterSubmit i reqNum ret alloc).req.reqHead) :
      OwnerStep s (.afterSubmit ret alloc) ((s.afterSubmit i reqNum ret alloc).withHead l)
  | spurious {s : MultiOwner} (hpc : s.req.pc = .asleep) :
      OwnerStep s .spurious { s with req := { s.req with pc := .woken } }
  | wake {s : MultiOwner} {pc : WorkerPc} (hpc : s.req.pc = .woken)
      (hwalk : pc = s.req.wake.pc ∨ s.WalkRaces ∧ pc.walks = true) :
      OwnerStep s .wake { s with req := { s.req with pc := pc } }
  | abort {s : MultiOwner} {pos : ℕ} {tmp : Option ℕ} (hpc : s.req.pc = .aborting pos tmp) :
      OwnerStep s .abort (s.afterAbort pos tmp)
  | unlink {s : MultiOwner} {idx : ℕ} {l : List ℕ} (hacc : (s.buffers idx).accepted = true)
      (hstage : (s.buffers idx).stage = .waiting) (hl : ¬ s.DelRaces idx → l = s.req.reqHead) :
      OwnerStep s (.unlink idx) ((s.setStage idx .unlinking).withHead l)
  | unlinked {s : MultiOwner} {idx : ℕ} {l : List ℕ} (hstage : (s.buffers idx).stage = .unlinking)
      (hl : s.req.pc ≠ .freed → l = s.req.reqHead.erase idx) :
      OwnerStep s (.unlinked idx) ((s.setStage idx .unlinked).withHead l)
  | callback {s : MultiOwner} {idx : ℕ} {alloc : Bool} {b : BufferRecord} (hstage : (s.buffers idx).stage = .unlinked)
      (hb : s.req.pc ≠ .freed → b = (s.buffers idx).complete s.hasCb alloc) :
      OwnerStep s (.callback idx alloc) (s.setBuffer idx b)
  | stop {s : MultiOwner} (hlink : s.linking = none) : OwnerStep s .stop { s with req := s.req.openusbStop }

namespace MultiOwner

variable (s : MultiOwner)

/-- The worker is in `openusb_xfer_aio` for buffer `i`, and the backend has not taken the request yet. -/
def InSubmission (i : ℕ) : Prop := (∃ reqNum, s.req.pc = .submitting i reqNum) ∧ (s.buffers i).accepted = false

/-- Every buffer request has one owner, the list or its callback: `req_head` holds those that are submitted and not taken
off by their callback, which frees them once, and reports them at most once. -/
structure Owned : Prop where
  listed : ∀ i, i ∈ s.req.reqHead ↔ s.InSubmission i ∨ (s.buffers i).Outstanding
  nodup : s.req.reqHead.Nodup
  owner : ∀ i, (s.buffers i).allocated = true →
    i ∈ s.req.reqHead ∨ (s.buffers i).stage = .unlinked ∨ (s.buffers i).stage = .done
  freed : ∀ i, (s.buffers i).FreedOnce

/-- Whether the worker leaves the allocations for buffer `i` as the loop expects them. -/
def AllocKept (i reqNum : ℕ) (alloc : BufferAlloc) : Prop := i < reqNum → alloc = .ok ∨ alloc = .noReq

/-- Every submission succeeds, no record is left half-allocated, the worker never comes back from `openusb_abort`, the
callback gets its result, no two of them write the same links at once, and none works with a freed multi-request. -/
def Undisturbed : OwnerLabel → Prop
  | .beginRound numBufs alloc =>
    AllocKept 0 (s.bufferCount numBufs) alloc ∧ ¬ s.AddRaces 0 (s.bufferCount numBufs) alloc
  | .afterSubmit ret alloc => ret = 0 ∧ ∀ i reqNum, s.req.pc = .submitting i reqNum →
    AllocKept (i + 1) reqNum alloc ∧ ¬ s.AddRaces (i + 1) reqNum alloc
  | .abort => False
  | .unlink idx => ¬ s.DelRaces idx
  | .unlinked _ => s.req.pc ≠ .freed
  | .callback _ alloc => alloc = true ∧ s.req.pc ≠ .freed
  | _ => True

end MultiOwner

/-! ## Steps -/

section

variable {s s' : MultiOwner} {i reqNum : ℕ} {alloc : BufferAlloc} {ret : ℤ}

namespace MultiOwner

/-- Buffer `j` is still to come. -/
def Untouched (s : MultiOwner) (j : ℕ) : Prop :=
  match s.req.pc with
  | .started => True
  | .loop => True
  | .submitting i _ => i < j
  | _ => False

theorem Untouched.inRound {j : ℕ} (h : s.Untouched j) : s.req.pc.inRound = true := by
  unfold Untouched at h
  cases hpc : s.req.pc <;> rw [hpc] at h <;> first | rfl | exact absurd h id

/-- The requests have one owner, callbacks run only for what the backend took, no buffers were added, and those to come
are untouched. -/
structure Inv (s : MultiOwner) : Prop where
  owned : s.Owned
  taken : ∀ i, (s.buffers i).stage ≠ .waiting → (s.buffers i).accepted = true
  flag : s.req.flag ≠ .newBuf
  fresh : ∀ j, s.Untouched j → s.buffers j = {}

/-- The state as the loop over the buffers comes to `i`: nothing is in submission, and the buffers from `i` on are
untouched. -/
structure Settled (s : MultiOwner) (i : ℕ) : Prop where
  listed : ∀ j, j ∈ s.req.reqHead ↔ (s.buffers j).Outstanding
  nodup : s.req.reqHead.Nodup
  owner : ∀ j, (s.buffers j).allocated = true →
    j ∈ s.req.reqHead ∨ (s.buffers j).stage = .unlinked ∨ (s.buffers j).stage = .done
  freed : ∀ j, (s.buffers j).FreedOnce
  taken : ∀ j, (s.buffers j).stage ≠ .waiting → (s.buffers j).accepted = true
  flag : s.req.flag ≠ .newBuf
  fresh : ∀ j, i ≤ j → s.buffers j = {}

theorem atBuffer_other {j k : ℕ} (hj : j ≠ k) : (s.atBuffer k reqNum alloc).buffers j = s.buffers j := by
  show (if k < reqNum then Function.update s.buffers k (.ofAlloc s.req.type alloc) else s.buffers) j = s.buffers j
  by_cases hlt : k < reqNum
  · rw [if_pos hlt, Function.update_of_ne hj]
  · rw [if_neg hlt]

/-- After the wait only the place of the worker changes. -/
theorem wake_eq : s.req.wake = { s.req with pc := s.req.wake.pc } := by
  unfold MultiRequest.wake MultiRequest.abortAt
  split
  · rfl
  · rfl
  · split <;> rfl

theorem Settled.unlisted (h : s.Settled i) {j : ℕ} (hj : i ≤ j) : j ∉ s.req.reqHead := by
  intro hmem
  have hacc := ((h.listed j).mp hmem).1
  rw [h.fresh j hj] at hacc
  exact absurd hacc nofun

/-- Where the worker is not in `openusb_xfer_aio`, and nothing else has changed. -/
theorem Inv.of_pc (hi : s.Inv) {m : MultiRequest} (hhead : m.reqHead = s.req.reqHead) (hflag : m.flag ≠ .newBuf)
    (hsub : ∀ j, (∃ n, m.pc = .submitting j n) ↔ ∃ n, s.req.pc = .submitting j n)
    (hfresh : ∀ j, Untouched { s with req := m } j → s.Untouched j) : Inv { s with req := m } := by
  refine ⟨⟨fun j => ?_, ?_, ?_, hi.owned.freed⟩, hi.taken, hflag,
    fun j hj => hi.fresh j (hfresh j hj)⟩
  · show j ∈ m.reqHead ↔ ((∃ n, m.pc = .submitting j n) ∧ (s.buffers j).accepted = false) ∨ _
    rw [hhead, hsub j]
    exact hi.owned.listed j
  · show m.reqHead.Nodup
    rw [hhead]
    exact hi.owned.nodup
  · show ∀ i, (s.buffers i).allocated = true → i ∈ m.reqHead ∨ _
    rw [hhead]
    exact hi.owned.owner

/-- A settled state, with the worker anywhere but in `openusb_xfer_aio` or before a round. -/
theorem Settled.inv (h : s.Settled i) {m : MultiRequest} {link : Option ℕ} (hhead : m.reqHead = s.req.reqHead)
    (hflag : m.flag ≠ .newBuf) (hsub : ∀ j n, m.pc ≠ .submitting j n) (hfresh : ∀ j, ¬ Untouched { s with req := m } j) :
    Inv { s with req := m, linking := link } := by
  refine ⟨⟨fun j => ?_, ?_, ?_, h.freed⟩, h.taken, hflag,
    fun j hj => absurd hj (hfresh j)⟩
  · show j ∈ m.reqHead ↔ ((∃ n, m.pc = .submitting j n) ∧ (s.buffers j).accepted = false) ∨ _
    rw [hhead, h.listed j, or_iff_right]
    rintro ⟨⟨n, hpc⟩, -⟩
    exact hsub j n hpc
  · show m.reqHead.Nodup
    rw [hhead]
    exact h.nodup
  · show ∀ i, (s.buffers i).allocated = true → i ∈ m.reqHead ∨ _
    rw [hhead]
    exact h.owner

/-- The loop over the buffers takes the next one, or ends the round. -/
theorem Settled.atBuffer (h : s.Settled i) (halloc : AllocKept i reqNum alloc) : (s.atBuffer i reqNum alloc).Inv := by
  unfold MultiOwner.atBuffer MultiRequest.atBuffer
  by_cases hlt : i < reqNum
  · simp only [if_pos hlt]
    rcases halloc hlt with rfl | rfl
    · have hself : Function.update s.buffers i (.ofAlloc s.req.type .ok) i = { allocated := true } := by
        rw [Function.update_self]
        rfl
      have hold : s.buffers i = {} := h.fresh i le_rfl
      have hnot : i ∉ s.req.reqHead := h.unlisted le_rfl
      refine ⟨⟨fun j => ?_, ?_, ?_, ?_⟩, ?_, h.flag, fun j (hj : i < j) => ?_⟩
      · simp only [InSubmission, List.mem_append, List.mem_singleton, WorkerPc.submitting.injEq]
        by_cases hj : j = i
        · subst hj
          rw [hself]
          exact iff_of_true (.inr rfl) (.inl ⟨⟨reqNum, rfl, rfl⟩, rfl⟩)
        · rw [Function.update_of_ne hj, or_iff_left hj, h.listed j, or_iff_right]
          rintro ⟨⟨n, hij, -⟩, -⟩
          exact hj hij.symm
      · simp only [List.nodup_append]
        refine ⟨h.nodup, by simp, ?_⟩
        rintro _ hmem _ hlast rfl
        exact hnot (List.mem_singleton.mp hlast ▸ hmem)
      · refine (Function.forall_update_iff s.buffers fun j r =>
          r.allocated = true → j ∈ s.req.reqHead ++ [i] ∨ r.stage = .unlinked ∨ r.stage = .done).mpr
          ⟨fun _ => .inl (by simp), fun j hj => ?_⟩
        rw [List.mem_append, List.mem_singleton, or_iff_left hj]
        exact h.owner j
      · exact (Function.forall_update_iff s.buffers fun _ r => r.FreedOnce).mpr
          ⟨⟨rfl, rfl, le_rfl⟩, fun j _ => h.freed j⟩
      · exact (Function.forall_update_iff s.buffers fun _ r => r.stage ≠ .waiting → r.accepted = true).mpr
          ⟨fun hstage => absurd rfl hstage, fun j _ => h.taken j⟩
      · simp only [Function.update_of_ne hj.ne']
        exact h.fresh j hj.le
    · have hsame : Function.update s.buffers i (.ofAlloc s.req.type .noReq) = s.buffers := by
        rw [Function.update_eq_self_iff, h.fresh i le_rfl]
        rfl
      rw [hsame]
      exact h.inv rfl h.flag (fun _ _ hpc => WorkerPc.noConfusion hpc) fun _ => id
  · simp only [if_neg hlt]
    exact h.inv rfl (fun hflag => MreqFlag.noConfusion hflag) (fun _ _ hpc => WorkerPc.noConfusion hpc) fun _ => id

/-- Where the allocations leave something half-made, the loop breaks the ownership. -/
theorem Settled.allocKept (h : s.Settled i) (howned : (s.atBuffer i reqNum alloc).Owned) : AllocKept i reqNum alloc := by
  intro hlt
  unfold MultiOwner.atBuffer MultiRequest.atBuffer at howned
  simp only [if_pos hlt] at howned
  cases alloc with
  | ok => exact .inl rfl
  | noReq => exact .inr rfl
  | noTransfer =>
    have hmem := (howned.listed i).mp (by simp)
    simp [InSubmission, BufferRecord.Outstanding, BufferRecord.ofAlloc] at hmem
  | noArgs =>
    have hmem := howned.owner i (by simp [BufferRecord.ofAlloc])
    simp [BufferRecord.ofAlloc, h.unlisted le_rfl] at hmem

theorem Inv.settled_loop (hi : s.Inv) (hpc : s.req.pc = .loop) : s.Settled 0 := by
  have hfresh : ∀ j, s.buffers j = {} := by
    intro j
    refine hi.fresh j ?_
    unfold Untouched
    rw [hpc]
    trivial
  refine ⟨fun j => ?_, hi.owned.nodup, hi.owned.owner, hi.owned.freed, hi.taken, hi.flag, fun j _ => hfresh j⟩
  rw [hi.owned.listed j, or_iff_right]
  rintro ⟨⟨n, hsub⟩, -⟩
  rw [hpc] at hsub
  exact absurd hsub nofun

/-- The backend has taken the request of buffer `i`, and the call is over. -/
theorem Inv.settled_submit (hi : s.Inv) (hpc : s.req.pc = .submitting i reqNum) (hacc : (s.buffers i).accepted = true) :
    Settled { s with req := { s.req with rp := s.req.rp + 1 } } (i + 1) := by
  refine ⟨fun j => ?_, hi.owned.nodup, hi.owned.owner, hi.owned.freed, hi.taken, hi.flag, fun j hj => ?_⟩
  · refine (hi.owned.listed j).trans (or_iff_right ?_)
    rintro ⟨⟨n, hsub⟩, hnot⟩
    rw [hpc, WorkerPc.submitting.injEq] at hsub
    rw [← hsub.1, hacc] at hnot
    exact absurd hnot nofun
  · refine hi.fresh j ?_
    unfold Untouched
    rw [hpc]
    exact hj

theorem Inv.start (type : MultiType) (hasCb : Bool) : (start type hasCb).Inv := by
  refine ⟨⟨fun i => ?_, List.nodup_nil, nofun, fun _ => ⟨rfl, rfl, le_rfl⟩⟩, fun _ h => absurd rfl h, nofun,
    fun _ _ => rfl⟩
  constructor
  · exact nofun
  · rintro (⟨⟨n, hpc⟩, -⟩ | ⟨hacc, -⟩)
    · exact absurd hpc nofun
    · exact absurd hacc nofun

/-- One buffer changes: only what is said of it has to be shown again. -/
theorem Inv.update (hi : s.Inv) {m : MultiRequest} {b : BufferRecord} (hpc : m.pc = s.req.pc)
    (hflag : m.flag = s.req.flag) (hnodup : m.reqHead.Nodup) (hother : ∀ j, j ≠ i → (j ∈ m.reqHead ↔ j ∈ s.req.reqHead))
    (hlisted : i ∈ m.reqHead ↔ b.Outstanding) (hacc : b.accepted = true)
    (howner : i ∈ m.reqHead ∨ b.stage = .unlinked ∨ b.stage = .done) (hfreed : b.FreedOnce) (htouched : ¬ s.Untouched i) :
    Inv { s with req := m, buffers := Function.update s.buffers i b } := by
  have hsame : ∀ j, Untouched { s with req := m, buffers := Function.update s.buffers i b } j ↔ s.Untouched j := by
    intro j
    unfold Untouched
    rw [hpc]
  refine ⟨⟨fun j => ?_, hnodup, ?_, ?_⟩, ?_, hflag ▸ hi.flag, fun j hj => ?_⟩
  · by_cases hji : j = i
    · subst hji
      simp only [InSubmission, Function.update_self]
      rw [hlisted, or_iff_right]
      rintro ⟨-, hnot⟩
      exact absurd (hacc.symm.trans hnot) nofun
    · simp only [InSubmission, Function.update_of_ne hji, hpc]
      rw [hother j hji]
      exact hi.owned.listed j
  · refine (Function.forall_update_iff s.buffers fun j r =>
      r.allocated = true → j ∈ m.reqHead ∨ r.stage = .unlinked ∨ r.stage = .done).mpr ⟨fun _ => howner, fun j hji => ?_⟩
    rw [hother j hji]
    exact hi.owned.owner j
  · exact (Function.forall_update_iff s.buffers fun _ r => r.FreedOnce).mpr ⟨hfreed, fun j _ => hi.owned.freed j⟩
  · exact (Function.forall_update_iff s.buffers fun _ r => r.stage ≠ .waiting → r.accepted = true).mpr
      ⟨fun _ => hacc, fun j _ => hi.taken j⟩
  · rw [hsame] at hj
    by_cases hji : j = i
    · exact absurd (hji ▸ hj) htouched
    · simp only [Function.update_of_ne hji]
      exact hi.fresh j hj

theorem Inv.touched (hi : s.Inv) (hacc : (s.buffers i).accepted = true) : ¬ s.Untouched i := by
  intro hun
  rw [hi.fresh i hun] at hacc
  exact absurd hacc nofun

theorem Inv.waiting (hi : s.Inv) (hacc : (s.buffers i).accepted = false) : (s.buffers i).stage = .waiting := by
  by_contra hstage
  rw [hi.taken i hstage] at hacc
  exact absurd hacc nofun

/-- The backend takes a request of the list, which stays there. -/
theorem Inv.accept (hi : s.Inv) (hpc : s.req.pc = .submitting i reqNum) (hacc : (s.buffers i).accepted = false) :
    (s.accept i).Inv := by
  have hmem : i ∈ s.req.reqHead := (hi.owned.listed i).mpr (.inl ⟨⟨reqNum, hpc⟩, hacc⟩)
  have hfreed := hi.owned.freed i
  refine hi.update rfl rfl hi.owned.nodup (fun j _ => Iff.rfl) (iff_of_true hmem ⟨rfl, .inl (hi.waiting hacc)⟩) rfl
    (.inl hmem) ⟨hfreed.req, hfreed.args, hfreed.reported⟩ ?_
  unfold Untouched
  rw [hpc]
  exact lt_irrefl i

/-- What the backend has taken is on the list until its callback has taken it off. -/
theorem Inv.mem (hi : s.Inv) (h : (s.buffers i).Outstanding) : i ∈ s.req.reqHead := (hi.owned.listed i).mpr (.inr h)

/-- What is freed is freed by a callback that is over. -/
theorem Inv.notFreed (hi : s.Inv) (hstage : (s.buffers i).stage ≠ .done) :
    (s.buffers i).reqFrees = 0 ∧ (s.buffers i).argsFrees = 0 ∧ (s.buffers i).reports = 0 := by
  obtain ⟨hreq, hargs, hreports⟩ := hi.owned.freed i
  rw [if_neg hstage] at hreq hargs hreports
  exact ⟨hreq, hargs, Nat.le_zero.mp hreports⟩

/-- A callback begins to take its request off the list. -/
theorem Inv.unlink (hi : s.Inv) (hacc : (s.buffers i).accepted = true) (hstage : (s.buffers i).stage = .waiting) :
    (s.setStage i .unlinking).Inv := by
  have hmem := hi.mem ⟨hacc, .inl hstage⟩
  obtain ⟨hreq, hargs, hreports⟩ := hi.notFreed (i := i) (by rw [hstage]; exact nofun)
  exact hi.update rfl rfl hi.owned.nodup (fun j _ => Iff.rfl) (iff_of_true hmem ⟨hacc, .inr rfl⟩) hacc (.inl hmem)
    ⟨hreq, hargs, hreports.le⟩ (hi.touched hacc)

/-- A callback has taken its request off the list. -/
theorem Inv.unlinked (hi : s.Inv) (hstage : (s.buffers i).stage = .unlinking) :
    ((s.setStage i .unlinked).withHead (s.req.reqHead.erase i)).Inv := by
  have hne : (s.buffers i).stage ≠ .waiting := by
    rw [hstage]
    exact nofun
  have hacc := hi.taken i hne
  have hunlisted : i ∉ s.req.reqHead.erase i := fun hmem => ((List.Nodup.mem_erase_iff hi.owned.nodup).mp hmem).1 rfl
  obtain ⟨hreq, hargs, hreports⟩ := hi.notFreed (i := i) (by rw [hstage]; exact nofun)
  refine hi.update rfl rfl (hi.owned.nodup.erase i) (fun j hj => List.mem_erase_of_ne hj)
    (iff_of_false hunlisted ?_) hacc (.inr (.inl rfl)) ⟨hreq, hargs, hreports.le⟩ (hi.touched hacc)
  rintro ⟨-, hcase | hcase⟩
  · exact absurd hcase nofun
  · exact absurd hcase nofun

/-- The callback frees its request. -/
theorem Inv.callback (hi : s.Inv) (hstage : (s.buffers i).stage = .unlinked) :
    (s.setBuffer i ((s.buffers i).complete s.hasCb true)).Inv := by
  have hne : (s.buffers i).stage ≠ .waiting := by
    rw [hstage]
    exact nofun
  have hacc := hi.taken i hne
  have hunlisted : i ∉ s.req.reqHead := by
    intro hmem
    rcases (hi.owned.listed i).mp hmem with ⟨-, hnot⟩ | ⟨-, hcase | hcase⟩
    · exact absurd (hacc.symm.trans hnot) nofun
    · exact hne hcase
    · exact absurd (hstage.symm.trans hcase) nofun
  obtain ⟨hreq, hargs, hreports⟩ := hi.notFreed (i := i) (by rw [hstage]; exact nofun)
  refine hi.update rfl rfl hi.owned.nodup (fun j _ => Iff.rfl) (iff_of_false hunlisted ?_) hacc (.inr (.inr rfl))
    ⟨?_, ?_, ?_⟩ (hi.touched hacc)
  · rintro ⟨-, hcase | hcase⟩
    · exact absurd hcase nofun
    · exact absurd hcase nofun
  · show (s.buffers i).reqFrees + 1 = 1
    rw [hreq]
  · show (s.buffers i).argsFrees + 1 = 1
    rw [hargs]
  · show (s.buffers i).reports + (if s.hasCb then 1 else 0) ≤ 1
    rw [hreports]
    split_ifs
    · exact le_rfl
    · exact Nat.zero_le 1

/-- The worker goes to a place outside of its rounds. -/
theorem Inv.leave (hi : s.Inv) {pc : WorkerPc} (hnone : ∀ j n, s.req.pc ≠ .submitting j n) (hpc : pc.inRound = false) :
    Inv { s with req := { s.req with pc := pc } } := by
  refine hi.of_pc rfl hi.flag (fun j => ?_) fun j hj => ?_
  · refine iff_of_false ?_ fun ⟨n, h⟩ => hnone j n h
    rintro ⟨n, h⟩
    have h : pc = .submitting j n := h
    rw [h] at hpc
    exact absurd hpc nofun
  · rw [show pc.inRound = true from hj.inRound] at hpc
    exact absurd hpc nofun

/-- The worker acts on its flag; no buffers were added. -/
theorem Inv.wake (hi : s.Inv) (hpc : s.req.pc = .woken) : Inv { s with req := s.req.wake } := by
  have hnone : ∀ j n, s.req.pc ≠ .submitting j n := by
    rw [hpc]
    exact nofun
  unfold MultiRequest.wake
  split
  next => exact hi.leave hnone rfl
  next hflag => exact absurd hflag hi.flag
  next =>
    unfold MultiRequest.abortAt
    cases s.req.reqHead.head? with
    | none => exact hi.leave hnone rfl
    | some pos =>
      refine hi.leave hnone ?_
      split_ifs
      · rfl
      · rfl

/-- A stop moves no worker but a sleeping one. -/
theorem Inv.openusbStop (hi : s.Inv) : Inv { s with req := s.req.openusbStop } := by
  by_cases hpc : s.req.pc = .asleep
  · refine hi.of_pc rfl nofun (fun j => ?_) fun j hj => ?_
    · simp [MultiRequest.openusbStop, MultiRequest.addOrStop, hpc]
    · simp [Untouched, MultiRequest.openusbStop, MultiRequest.addOrStop, hpc] at hj
  · have hsame : s.req.openusbStop.pc = s.req.pc := if_neg hpc
    refine hi.of_pc rfl nofun (fun j => ?_) fun j hj => ?_
    · rw [hsame]
    · unfold Untouched at hj ⊢
      rwa [hsame] at hj

theorem Inv.lookup (hi : s.Inv) {found : Bool} (hpc : s.req.pc = .started) :
    Inv { s with req := { s.req with pc := if found then .loop else .returned OPENUSB_BADARG } } := by
  have hnone : ∀ j n, s.req.pc ≠ .submitting j n := by
    rw [hpc]
    exact nofun
  cases found with
  | false => exact hi.leave hnone rfl
  | true =>
    refine hi.of_pc rfl hi.flag (fun j => iff_of_false nofun fun ⟨n, h⟩ => hnone j n h) fun j _ => ?_
    unfold Untouched
    rw [hpc]
    trivial

theorem Inv.afterSubmit (hi : s.Inv) (hpc : s.req.pc = .submitting i reqNum) (hacc : (s.buffers i).accepted = true)
    (halloc : AllocKept (i + 1) reqNum alloc) : (s.afterSubmit i reqNum 0 alloc).Inv := by
  unfold MultiOwner.afterSubmit
  rw [if_neg (fun h => h.2 rfl)]
  exact (hi.settled_submit hpc hacc).atBuffer halloc

/-- The worker goes through the list, from wherever it has read. -/
theorem Inv.walk (hi : s.Inv) (hpc : s.req.pc = .woken) {pc : WorkerPc} (hwalk : pc = s.req.wake.pc ∨ pc.walks = true) :
    Inv { s with req := { s.req with pc := pc } } := by
  rcases hwalk with rfl | hwalks
  · have hwake := hi.wake hpc
    rwa [wake_eq] at hwake
  · refine hi.leave ?_ ?_
    · rw [hpc]
      exact nofun
    · cases pc <;> first | rfl | exact absurd hwalks nofun

theorem Inv.step {l : OwnerLabel} (hi : s.Inv) (hl : s.Undisturbed l) (hstep : OwnerStep s l s') : s'.Inv := by
  cases hstep with
  | lookup hpc => exact hi.lookup hpc
  | beginRound hpc hhead =>
    obtain rfl := hhead hl.2
    exact (hi.settled_loop hpc).atBuffer hl.1
  | linked => exact ⟨⟨hi.owned.listed, hi.owned.nodup, hi.owned.owner, hi.owned.freed⟩, hi.taken, hi.flag, hi.fresh⟩
  | accept hpc hlink hacc => exact hi.accept hpc hacc
  | afterSubmit hpc hlink hret hhead =>
    obtain ⟨rfl, hround⟩ := hl
    obtain ⟨halloc, hrace⟩ := hround _ _ hpc
    obtain rfl := hhead (.inr hrace)
    exact hi.afterSubmit hpc (hret.mp rfl) halloc
  | spurious hpc =>
    refine hi.leave ?_ rfl
    rw [hpc]
    exact nofun
  | wake hpc hwalk => exact hi.walk hpc (hwalk.imp_right And.right)
  | abort hpc => exact absurd hl id
  | unlink hacc hstage hhead =>
    obtain rfl := hhead hl
    exact hi.unlink hacc hstage
  | unlinked hstage hhead =>
    obtain rfl := hhead hl
    exact hi.unlinked hstage
  | @callback idx alloc b hstage hb =>
    obtain ⟨rfl, hpc⟩ : alloc = true ∧ s.req.pc ≠ .freed := hl
    obtain rfl := hb hpc
    exact hi.callback hstage
  | stop => exact hi.openusbStop

/-! ## The steps are those of the multi-request -/

/-- What a step is for the multi-request itself. -/
def toMulti : OwnerLabel → Option MultiLabel
  | .lookup found => some (.lookup found)
  | .beginRound numBufs alloc => some (.beginRound numBufs alloc)
  | .linked => none
  | .accept => none
  | .afterSubmit ret alloc => some (.afterSubmit ret alloc)
  | .spurious => some .spurious
  | .wake => some .wake
  | .abort => some .abort
  | .unlink _ => none
  | .unlinked idx => some (.done idx)
  | .callback _ _ => none
  | .stop => some .stop

theorem afterSubmit_req : (s.afterSubmit i reqNum ret alloc).req = s.req.afterSubmit i reqNum ret alloc := by
  unfold MultiOwner.afterSubmit MultiRequest.afterSubmit
  split_ifs
  · rfl
  · rfl

/-- While nothing disturbs the requests, and the worker does not go through the list in a race, the steps are steps of the
multi-request. -/
theorem Inv.multiStep {l : OwnerLabel} (hi : s.Inv) (hl : s.Undisturbed l) (hwalks : ¬ s.WalkRaces)
    (hstep : OwnerStep s l s') :
    (toMulti l = none ∧ s'.req = s.req) ∨ ∃ l', toMulti l = some l' ∧ MultiStep s.req l' s'.req := by
  cases hstep with
  | lookup hpc => exact .inr ⟨_, rfl, .lookup hpc⟩
  | beginRound hpc hhead =>
    obtain rfl := hhead hl.2
    exact .inr ⟨_, rfl, .beginRound hpc⟩
  | linked => exact .inl ⟨rfl, rfl⟩
  | accept => exact .inl ⟨rfl, rfl⟩
  | @afterSubmit i reqNum ret alloc head hpc hlink hret hhead =>
    obtain rfl := hhead (.inr (hl.2 _ _ hpc).2)
    refine .inr ⟨_, rfl, ?_⟩
    show MultiStep s.req _ (s.afterSubmit i reqNum ret alloc).req
    rw [afterSubmit_req]
    exact .afterSubmit hpc
  | spurious hpc => exact .inr ⟨_, rfl, .spurious hpc⟩
  | wake hpc hwalk =>
    obtain rfl := hwalk.resolve_right fun h => hwalks h.1
    refine .inr ⟨_, rfl, ?_⟩
    rw [← wake_eq]
    exact .wake hpc
  | abort hpc => exact absurd hl id
  | unlink hacc hstage hhead =>
    obtain rfl := hhead hl
    exact .inl ⟨rfl, rfl⟩
  | unlinked hstage hhead =>
    obtain rfl := hhead hl
    refine .inr ⟨_, rfl, .done (hi.mem ⟨hi.taken _ ?_, .inr hstage⟩)⟩
    rw [hstage]
    exact nofun
  | callback => exact .inl ⟨rfl, rfl⟩
  | stop => exact .inr ⟨_, rfl, .stop⟩

/-! ## When there is one owner -/

/-- The loop over the buffers goes on past a listed request that the backend has not taken. -/
theorem not_owned_atBuffer {k : ℕ} (hmem : i ∈ s.req.reqHead) (hacc : (s.buffers i).accepted = false) (hk : i ≠ k) :
    ¬ (s.atBuffer k reqNum alloc).Owned := by
  intro howned
  have hmem' : i ∈ (s.req.atBuffer k reqNum alloc).reqHead := by
    unfold MultiRequest.atBuffer
    split_ifs
    · cases alloc <;> simp [hmem]
    · exact hmem
  have hacc' : ((s.atBuffer k reqNum alloc).buffers i).accepted = false := by
    rw [atBuffer_other hk]
    exact hacc
  rcases (howned.listed i).mp hmem' with ⟨⟨n, hpc⟩, -⟩ | ⟨htaken, -⟩
  · have hpc : (s.req.atBuffer k reqNum alloc).pc = .submitting i n := hpc
    unfold MultiRequest.atBuffer at hpc
    split_ifs at hpc
    · cases alloc with
      | ok =>
        simp only [WorkerPc.submitting.injEq] at hpc
        exact hk hpc.1.symm
      | noTransfer => exact absurd hpc nofun
      | noArgs => exact absurd hpc nofun
      | noReq => exact absurd hpc nofun
  · exact absurd (hacc'.symm.trans htaken) nofun

/-- A submission that fails leaves its request on the list. -/
theorem Inv.submit_succeeds (hi : s.Inv) (hpc : s.req.pc = .submitting i reqNum)
    (hret : ret = 0 ↔ (s.buffers i).accepted = true) (howned : (s.afterSubmit i reqNum ret alloc).Owned) : ret = 0 := by
  by_contra hne
  have hacc : (s.buffers i).accepted = false := by simpa using fun h => hne (hret.mpr h)
  have hmem : i ∈ s.req.reqHead := (hi.owned.listed i).mpr (.inl ⟨⟨reqNum, hpc⟩, hacc⟩)
  unfold MultiOwner.afterSubmit at howned
  split_ifs at howned
  · rcases (howned.listed i).mp hmem with ⟨⟨n, hsub⟩, -⟩ | ⟨hsub, -⟩
    · exact absurd hsub nofun
    · exact absurd (hacc.symm.trans hsub) nofun
  · exact not_owned_atBuffer (s := { s with req := { s.req with rp := s.req.rp + 1 } }) hmem hacc (by omega) howned

/-- After a race of `list_add` the entry that is being deleted may be missing. -/
theorem Settled.raced (h : s.Settled i) (hrace : s.AddRaces i reqNum alloc) :
    ¬ ((s.atBuffer i reqNum alloc).withHead []).Owned := by
  intro howned
  obtain ⟨-, j, hlast, hstage⟩ := hrace
  have hout := (h.listed j).mp (List.mem_of_getLast? hlast)
  have hne : j ≠ i := by
    rintro rfl
    rw [h.fresh j le_rfl] at hstage
    exact absurd hstage nofun
  have hmem : j ∈ ([] : List ℕ) := by
    refine (howned.listed j).mpr (.inr ?_)
    show ((s.atBuffer i reqNum alloc).buffers j).Outstanding
    rw [atBuffer_other hne]
    exact hout
  exact absurd hmem nofun

/-- Where a step of the worker, of the backend or of another thread keeps the ownership. -/
theorem Inv.keeps_iff {l : OwnerLabel} (hi : s.Inv) (hstep : OwnerStep s l s') :
    (∀ s', OwnerStep s l s' → s'.Owned) ↔ s.Undisturbed l := by
  refine ⟨fun hkeeps => ?_, fun hl s'' hstep' => (hi.step hl hstep').owned⟩
  have howned := hkeeps s' hstep
  cases hstep with
  | lookup => trivial
  | beginRound hpc hhead =>
    have hsettled := hi.settled_loop hpc
    have hrace := fun h => hsettled.raced h (hkeeps _ (.beginRound hpc fun hno => absurd h hno))
    obtain rfl := hhead hrace
    exact ⟨hsettled.allocKept howned, hrace⟩
  | linked => trivial
  | accept => trivial
  | @afterSubmit i reqNum ret alloc head hpc hlink hret hhead =>
    have hone : (s.afterSubmit i reqNum ret alloc).Owned := hkeeps _ (.afterSubmit hpc hlink hret fun _ => rfl)
    obtain rfl := hi.submit_succeeds hpc hret hone
    have hsettled := hi.settled_submit hpc (hret.mp rfl)
    have hnext : s.afterSubmit i reqNum 0 alloc =
        MultiOwner.atBuffer { s with req := { s.req with rp := s.req.rp + 1 } } (i + 1) reqNum alloc := by
      unfold MultiOwner.afterSubmit
      rw [if_neg (fun h => h.2 rfl)]
    refine ⟨rfl, fun i' reqNum' hpc' => ?_⟩
    rw [hpc, WorkerPc.submitting.injEq] at hpc'
    obtain ⟨rfl, rfl⟩ := hpc'
    refine ⟨hsettled.allocKept (hnext ▸ hone), fun hrace => ?_⟩
    have hlost := hkeeps _ (.afterSubmit (l := []) hpc hlink hret fun hno => ?_)
    · rw [hnext] at hlost
      exact hsettled.raced hrace hlost
    · rcases hno with ⟨-, hne⟩ | hno
      · exact absurd rfl hne
      · exact absurd hrace hno
  | spurious => trivial
  | wake => trivial
  | @abort pos tmp hpc =>
    have hbefore := (hi.owned.freed pos).req
    have hafter := (howned.freed pos).req
    simp only [MultiOwner.afterAbort, Function.update_self, BufferRecord.free] at hafter
    rw [hbefore] at hafter
    omega
  | @unlink idx head hacc hstage hhead =>
    intro hrace
    have hlost := hkeeps _ (.unlink (l := []) hacc hstage fun hno => absurd hrace hno)
    have hmem : idx ∈ ([] : List ℕ) := by
      refine (hlost.listed idx).mpr (.inr ?_)
      show (Function.update s.buffers idx _ idx).Outstanding
      rw [Function.update_self]
      exact ⟨hacc, .inr rfl⟩
    exact absurd hmem nofun
  | @unlinked idx head hstage hhead =>
    intro hpc
    have hkept := hkeeps _ (.unlinked (l := [idx]) hstage fun hne => absurd hpc hne)
    rcases (hkept.listed idx).mp List.mem_cons_self with ⟨⟨n, hsub⟩, -⟩ | hout
    · exact absurd (hpc.symm.trans hsub) nofun
    · have hout : (Function.update s.buffers idx { s.buffers idx with stage := .unlinked } idx).Outstanding := hout
      rw [Function.update_self] at hout
      rcases hout with ⟨-, hcase | hcase⟩
      · exact absurd hcase nofun
      · exact absurd hcase nofun
  | @callback idx alloc b hstage hb =>
    have hpc : s.req.pc ≠ .freed := by
      intro hpc
      have hany := hkeeps _ (@OwnerStep.callback s idx alloc { reqFrees := 2 } hstage fun hne => absurd hpc hne)
      have hreq := (hany.freed idx).req
      simp [setBuffer] at hreq
    refine ⟨?_, hpc⟩
    obtain rfl := hb hpc
    cases alloc with
    | true => rfl
    | false =>
      obtain ⟨hbefore, -, -⟩ := hi.notFreed (i := idx) (by rw [hstage]; exact nofun)
      have hafter := (howned.freed idx).req
      simp [setBuffer, BufferRecord.complete, hbefore] at hafter
  | stop => trivial

/-- In every interleaving of the worker, the backend, the callbacks and a stop each buffer request has one owner in every
state, if and only if nothing disturbs it: every submission succeeds, no allocation fails half-way, the worker does not
come back from an abort, no two of the threads write the same links of the list at once, and no callback is still at work
when the multi-request is freed. -/
theorem multi_owned_iff {type : MultiType} {hasCb : Bool} {ls : List OwnerLabel} :
    Run OwnerStep (fun s l => ∀ s', OwnerStep s l s' → s'.Owned) (MultiOwner.start type hasCb) ls s ↔
      Run OwnerStep Undisturbed (MultiOwner.start type hasCb) ls s := by
  apply run_iff (I := MultiOwner.Inv)
  · intro s l t hi hstep
    exact hi.keeps_iff hstep
  · intro s l t hi hl hstep
    exact hi.step hl hstep
  · exact Inv.start type hasCb

/-- The stop comes while a buffer is outstanding: its request is freed before its callback has run, and again by it. -/
theorem stop_frees_twice : ∃ s t, Run OwnerStep (fun _ _ => True) (MultiOwner.start .bulk true)
      [.lookup true, .beginRound 1 .ok, .linked, .accept, .afterSubmit 0 .ok, .stop, .wake, .abort] s ∧ ¬ s.Owned ∧
    (s.buffers 0).stage = .waiting ∧ (s.buffers 0).reqFrees = 1 ∧
    Run OwnerStep (fun _ _ => True) s [.unlink 0, .unlinked 0, .callback 0 true] t ∧ (t.buffers 0).reqFrees = 2 := by
  have hrun : Run OwnerStep (fun _ _ => True) (MultiOwner.start .bulk true)
      [.lookup true, .beginRound 1 .ok, .linked, .accept, .afterSubmit 0 .ok, .stop, .wake, .abort] _ :=
    .cons trivial (.lookup rfl) (.cons trivial (.beginRound rfl fun _ => rfl) (.cons trivial (.linked rfl)
      (.cons trivial (.accept rfl rfl rfl) (.cons trivial (.afterSubmit rfl rfl (by decide) fun _ => rfl)
      (.cons trivial (.stop rfl) (.cons trivial (.wake rfl (.inl rfl)) (.cons trivial (.abort rfl) (.nil _))))))))
  refine ⟨_, _, hrun, fun howned => ?_, rfl, rfl, .cons trivial (.unlink rfl rfl fun _ => rfl)
    (.cons trivial (.unlinked rfl fun _ => rfl) (.cons trivial (.callback rfl fun _ => rfl) (.nil _))), rfl⟩
  exact absurd (howned.freed 0).req (by decide)

end MultiOwner

end

end OpenUsb
