import OpenUsb.Lib.LinkedList
import OpenUsb.Lib.Runs
import Mathlib.Logic.Function.Basic
import Mathlib.Data.List.Basic

/-!
# EventQueue — the queue of device events and the thread that hands them to the callbacks

`event_callbacks` and `callback_queue_full` are only used under `event_callbacks.lock`, so the critical sections of the
producers and of `process_event_callbacks` are steps.  The event thread gives the lock back while a callback runs, with the
next entry in `listh`, and in `pthread_cond_wait`; between its test of the counter and the wait it holds the lock, while
`usbi_fini_common` works without it.

* `events_in_order`: what the thread has taken off the queue and what is still on it is what was put on it, in order.
-/

namespace OpenUsb

/-! ## The queue -/

inductive EventType where
  | attach
  | remove
  | suspend
  | resume
  | hcAttach
  | hcRemove
  | coldplugCompleted
  deriving DecidableEq, Repr

/-- A `struct eventcallback` without its pointers; library handles are numbers. -/
structure Event where
  devid : ℕ
  type : EventType
  handle : ℕ
  deriving DecidableEq, Repr

/-- The head of `event_callbacks`, and the entries by their addresses. -/
inductive EventNode where
  | null
  | head
  | cell (cb : ℕ)
  deriving DecidableEq, Repr

/-- Where the event thread is: before it takes the lock for the next round, before the wait with the lock still held, in the
wait, woken from it, in the callback of `cb` with the next entry in `listh`, ended, or fallen over a NULL pointer. -/
inductive EventPc where
  | entry
  | waiting
  | asleep
  | woken
  | calling (cb : ℕ) (listh : EventNode)
  | exited
  | crashed
  deriving DecidableEq, Repr

/-- Where `usbi_fini_common` is: not called, after it has set `event_callback_exit`, in `pthread_join`, or past it. -/
inductive FiniPc where
  | idle
  | flagged
  | joining
  | joined
  deriving DecidableEq, Repr

/-- `registered` tells for which handles and types an event callback is set.  `inserted` are the events put on the queue, and
`handed` those taken off it, each with whether there was a callback to call. -/
structure EventThread where
  links : Links EventNode
  event : ℕ → Event
  inUse : ℕ → Bool
  callbackQueueFull : ℤ
  eventCallbackExit : Bool
  registered : ℕ → EventType → Bool
  pc : EventPc
  fini : FiniPc
  inserted : List Event
  handed : List (Event × Bool)

namespace EventThread

variable (s : EventThread)

/-- `pthread_cond_signal` on `event_callback_cond`, where only the event thread waits. -/
def signal : EventThread := { s with pc := if s.pc = .asleep then .woken else s.pc }

/-- `usbi_add_event_callback`, with the entry that `calloc` gave. -/
def add (cb : Option ℕ) (e : Event) : EventThread :=
  match cb with
  | none => s
  | some cb => EventThread.signal { s with
      links := (s.links.listInit (.cell cb)).listAdd (.cell cb) .head
      event := Function.update s.event cb e
      inUse := Function.update s.inUse cb true
      callbackQueueFull := s.callbackQueueFull + 1
      inserted := s.inserted ++ [e] }

/-- The inner loop of `process_event_callbacks` at its test: it ends at the head, and otherwise takes the entry off. -/
def takeNext (listh : EventNode) : EventThread :=
  match listh with
  | .head => { s with pc := .entry }
  | .null => { s with pc := .crashed }
  | .cell cb => { s with
      links := s.links.listDel .null (.cell cb)
      handed := s.handed ++ [(s.event cb, s.registered (s.event cb).handle (s.event cb).type)]
      pc := .calling cb (s.links.next (.cell cb)) }

/-- The test of `callback_queue_full`. -/
def testFull : EventThread :=
  if s.callbackQueueFull = 0 then { s with pc := .waiting } else s.takeNext (s.links.next .head)

/-- After a wake-up `event_callback_exit` is tested first. -/
def wake : EventThread :=
  if s.eventCallbackExit = true then { s with eventCallbackExit := false, pc := .exited } else s.testFull

/-- The callback of `cb` has returned. -/
def back (cb : ℕ) (listh : EventNode) : EventThread :=
  EventThread.takeNext { s with
    inUse := Function.update s.inUse cb false
    callbackQueueFull := s.callbackQueueFull - 1 } listh

/-- The part of `usbi_init_common` that starts the thread; it leaves `callback_queue_full` as it is. -/
def initCommon : EventThread := { s with
  links := s.links.listInit .head
  eventCallbackExit := false
  pc := .entry
  fini := .idle }

end EventThread

inductive EventLabel where
  | add (cb : Option ℕ) (e : Event)
  | setCallback (handle : ℕ) (type : EventType) (func : Bool)
  | pass
  | sleep
  | spurious
  | wake
  | back
  | setExit
  | signal
  | join
  | restart
  deriving DecidableEq, Repr

/-- The steps of the producers, of the event thread, and of `usbi_fini_common` and `usbi_init_common`. -/
inductive EventStep : EventThread → EventLabel → EventThread → Prop where
  | add {s : EventThread} {cb : Option ℕ} {e : Event} (hlock : s.pc ≠ .waiting) (hcb : ∀ a ∈ cb, s.inUse a = false) :
      EventStep s (.add cb e) (s.add cb e)
  | setCallback {s : EventThread} {h : ℕ} {type : EventType} {func : Bool} :
      EventStep s (.setCallback h type func)
        { s with registered := Function.update s.registered h (Function.update (s.registered h) type func) }
  | pass {s : EventThread} (h : s.pc = .entry) : EventStep s .pass s.testFull
  | sleep {s : EventThread} (h : s.pc = .waiting) : EventStep s .sleep { s with pc := .asleep }
  | spurious {s : EventThread} (h : s.pc = .asleep) : EventStep s .spurious { s with pc := .woken }
  | wake {s : EventThread} (h : s.pc = .woken) : EventStep s .wake s.wake
  | back {s : EventThread} {cb : ℕ} {listh : EventNode} (h : s.pc = .calling cb listh) : EventStep s .back (s.back cb listh)
  | setExit {s : EventThread} (h : s.fini = .idle) :
      EventStep s .setExit { s with eventCallbackExit := true, fini := .flagged }
  | signal {s : EventThread} (h : s.fini = .flagged) : EventStep s .signal { s.signal with fini := .joining }
  | join {s : EventThread} (h : s.fini = .joining) (hexit : s.pc = .exited) : EventStep s .join { s with fini := .joined }
  | restart {s : EventThread} (h : s.fini = .joined) : EventStep s .restart s.initCommon

/-- After the first `usbi_init_common`. -/
def EventThread.start : EventThread where
  links := Links.listInit ⟨fun _ => .null, fun _ => .null⟩ .head
  event _ := ⟨0, .attach, 0⟩
  inUse _ := false
  callbackQueueFull := 0
  eventCallbackExit := false
  registered _ _ := false
  pc := .entry
  fini := .idle
  inserted := []
  handed := []

/-! ## What is on the queue -/

/-- The entries `q` are on the queue, and in use. -/
structure EventThread.Stored (s : EventThread) (q : List ℕ) : Prop where
  linked : Linked s.links .head (q.map .cell)
  inUse : ∀ a ∈ q, s.inUse a = true

/-- What `listh` may be: the head, or the first entry of the queue. -/
def IsNext (q : List ℕ) (listh : EventNode) : Prop := listh = .head ∨ ∃ a r, q = a :: r ∧ listh = .cell a

/-- The entry whose callback runs is in use but not on the queue. -/
structure EventThread.Queued (s : EventThread) (q : List ℕ) : Prop extends s.Stored q where
  calling : ∀ cb listh, s.pc = .calling cb listh → s.inUse cb = true ∧ cb ∉ q ∧ IsNext q listh
  alive : s.pc ≠ .crashed

section

variable {s s' : EventThread} {q : List ℕ} {cb : ℕ} {e : Event} {listh : EventNode}

theorem isNext_headD : IsNext q ((q.map EventNode.cell).headD .head) := by
  cases q with
  | nil => exact .inl rfl
  | cons a r => exact .inr ⟨a, r, rfl, rfl⟩

theorem queued_start : EventThread.start.Queued [] where
  linked := linked_init
  inUse _ ha := absurd ha List.not_mem_nil
  calling := nofun
  alive := nofun

/-- A step that only moves the thread to a place outside of the callbacks. -/
theorem EventThread.Queued.move (h : s.Queued q) (hlinks : s'.links = s.links) (hinUse : s'.inUse = s.inUse)
    (hcalling : ∀ cb listh, s'.pc ≠ .calling cb listh) (halive : s'.pc ≠ .crashed) : s'.Queued q where
  linked := hlinks ▸ h.linked
  inUse := hinUse ▸ h.inUse
  calling cb listh hpc := absurd hpc (hcalling cb listh)
  alive := halive

theorem EventThread.Queued.signal (h : s.Queued q) : s.signal.Queued q := by
  unfold EventThread.signal
  split_ifs with hpc
  · exact h.move rfl rfl nofun nofun
  · exact h

theorem EventThread.Stored.fresh (h : s.Stored q) (hcb : s.inUse cb = false) : cb ∉ q := by
  intro hmem
  rw [h.inUse cb hmem] at hcb
  exact absurd hcb (by decide)

theorem EventThread.Queued.add (h : s.Queued q) (hcb : s.inUse cb = false) : (s.add (some cb) e).Queued (q ++ [cb]) := by
  have hnot : ∀ a, s.inUse a = true → a ≠ cb := by
    rintro a ha rfl
    rw [ha] at hcb
    exact absurd hcb (by decide)
  have hcbq := h.fresh hcb
  apply EventThread.Queued.signal
  refine ⟨⟨?_, ?_⟩, ?_, h.alive⟩
  · rw [List.map_append]
    show Linked ((s.links.listInit (.cell cb)).listAdd (.cell cb) .head) _ _
    rw [Links.listInit_listAdd _ (by simp)]
    apply h.linked.add
    intro hmem
    rcases List.mem_cons.mp hmem with heq | hmem
    · exact absurd heq nofun
    · obtain ⟨a, ha, heq⟩ := List.mem_map.mp hmem
      rw [EventNode.cell.injEq] at heq
      exact hcbq (heq ▸ ha)
  · intro a ha
    show Function.update s.inUse cb true a = true
    rcases List.mem_append.mp ha with ha | ha
    · rw [Function.update_of_ne (hnot a (h.inUse a ha))]
      exact h.inUse a ha
    · rw [List.mem_singleton.mp ha, Function.update_self]
  · intro c listh hpc
    obtain ⟨hc, hcq, hlisth⟩ := h.calling c listh hpc
    refine ⟨?_, ?_, ?_⟩
    · show Function.update s.inUse cb true c = true
      rw [Function.update_of_ne (hnot c hc)]
      exact hc
    · intro hmem
      rcases List.mem_append.mp hmem with hmem | hmem
      · exact hcq hmem
      · exact hnot c hc (List.mem_singleton.mp hmem)
    · rcases hlisth with hhead | ⟨a, r, hq, ha⟩
      · exact .inl hhead
      · exact .inr ⟨a, r ++ [cb], by rw [hq, List.cons_append], ha⟩

/-- The inner loop either ends, or takes the first entry off and calls its callback. -/
theorem EventThread.Stored.takeNext (h : s.Stored q) (hnext : IsNext q listh) :
    (s.takeNext listh = { s with pc := .entry } ∧ (s.takeNext listh).Queued q) ∨
    ∃ a r n, q = a :: r ∧ (s.takeNext listh).Queued r ∧ s.takeNext listh = { s with
      links := s.links.listDel .null (.cell a)
      handed := s.handed ++ [(s.event a, s.registered (s.event a).handle (s.event a).type)]
      pc := .calling a n } := by
  rcases hnext with rfl | ⟨a, r, rfl, rfl⟩
  · exact .inl ⟨rfl, ⟨h.linked, h.inUse⟩, nofun, nofun⟩
  · have hnodup : a ∉ r := by
      intro hmem
      exact (List.nodup_cons.mp (List.nodup_cons.mp h.linked.nodup).2).1 (List.mem_map_of_mem hmem)
    refine .inr ⟨a, r, _, rfl, ?_, rfl⟩
    refine ⟨⟨?_, fun b hb => h.inUse b (List.mem_cons_of_mem _ hb)⟩, ?_, nofun⟩
    · exact @Linked.del _ _ s.links .head .null (.cell a) [] (r.map .cell) h.linked (by simp)
    · intro cb listh hpc
      obtain ⟨rfl, rfl⟩ := EventPc.calling.inj hpc
      refine ⟨h.inUse a List.mem_cons_self, hnodup, ?_⟩
      rw [h.linked.next_first]
      exact isNext_headD

/-- Returning from the callback. -/
theorem EventThread.Queued.free (h : s.Queued q) (hpc : s.pc = .calling cb listh) :
    EventThread.Stored { s with
      inUse := Function.update s.inUse cb false
      callbackQueueFull := s.callbackQueueFull - 1 } q := by
  refine ⟨h.linked, fun a ha => ?_⟩
  have hacb : a ≠ cb := fun heq => (h.calling cb listh hpc).2.1 (heq ▸ ha)
  show Function.update s.inUse cb false a = true
  rw [Function.update_of_ne hacb]
  exact h.inUse a ha

/-! ## The order of the events -/

/-- 1 while an event is being processed. -/
def EventThread.busy (s : EventThread) : ℤ :=
  match s.pc with
  | .calling _ _ => 1
  | _ => 0

theorem EventThread.busy_calling (h : s.pc = .calling cb listh) : s.busy = 1 := by
  rw [EventThread.busy, h]

theorem EventThread.busy_of_ne (h : ∀ cb listh, s.pc ≠ .calling cb listh) : s.busy = 0 := by
  unfold EventThread.busy
  split
  · exact absurd ‹_› (h _ _)
  · rfl

/-- No shutdown is requested. -/
def NoShutdown (_ : EventThread) : EventLabel → Prop
  | .setExit | .signal | .join | .restart => False
  | _ => True

/-- The events of the entries `q` are those inserted and not yet handed over. -/
structure EventThread.InOrder (s : EventThread) (q : List ℕ) : Prop extends s.Queued q where
  order : s.inserted = s.handed.map Prod.fst ++ q.map s.event
  count : s.callbackQueueFull = q.length + s.busy
  asleep : s.pc = .waiting ∨ s.pc = .asleep → q = []
  noExit : s.eventCallbackExit = false ∧ s.pc ≠ .exited

theorem inOrder_start : EventThread.start.InOrder [] where
  toQueued := queued_start
  order := rfl
  count := rfl
  asleep _ := rfl
  noExit := ⟨rfl, nofun⟩

/-- With the lock taken and no event in process. -/
theorem EventThread.Stored.inOrder_takeNext (h : s.Stored q) (hnext : IsNext q listh)
    (horder : s.inserted = s.handed.map Prod.fst ++ q.map s.event) (hcount : s.callbackQueueFull = q.length)
    (hexit : s.eventCallbackExit = false) : ∃ q', (s.takeNext listh).InOrder q' := by
  rcases h.takeNext hnext with ⟨heq, hq⟩ | ⟨a, r, n, rfl, hq, heq⟩
  · refine ⟨q, ⟨hq, ?_, ?_, ?_, ?_⟩⟩ <;> rw [heq]
    · exact horder
    · rw [EventThread.busy_of_ne (by simp), Int.add_zero]
      exact hcount
    · exact nofun
    · exact ⟨hexit, nofun⟩
  · refine ⟨r, ⟨hq, ?_, ?_, ?_, ?_⟩⟩ <;> rw [heq]
    · rw [horder]
      simp
    · rw [EventThread.busy_calling rfl]
      simpa using hcount
    · exact nofun
    · exact ⟨hexit, nofun⟩

theorem EventThread.InOrder.testFull (h : s.InOrder q) (hidle : ∀ cb listh, s.pc ≠ .calling cb listh) :
    ∃ q', s.testFull.InOrder q' := by
  have hcount : s.callbackQueueFull = q.length := by
    rw [h.count, EventThread.busy_of_ne hidle, Int.add_zero]
  unfold EventThread.testFull
  split_ifs with hfull
  · have hnil : q = [] := List.length_eq_zero_iff.mp (by omega)
    refine ⟨q, ⟨h.toQueued.move rfl rfl nofun nofun, h.order, ?_, fun _ => hnil, ⟨h.noExit.1, nofun⟩⟩⟩
    rw [EventThread.busy_of_ne (by simp), Int.add_zero]
    exact hcount
  · rw [h.linked.next_head]
    exact h.toStored.inOrder_takeNext isNext_headD h.order hcount h.noExit.1

/-- The thread goes to another place outside of the callbacks, with the queue as it is. -/
theorem EventThread.InOrder.move {pc : EventPc} (h : s.InOrder q) (hidle : ∀ cb listh, s.pc ≠ .calling cb listh)
    (hidle' : ∀ cb listh, pc ≠ .calling cb listh) (halive : pc ≠ .crashed ∧ pc ≠ .exited)
    (hasleep : pc = .waiting ∨ pc = .asleep → q = []) : EventThread.InOrder { s with pc := pc } q where
  toQueued := h.toQueued.move rfl rfl hidle' halive.1
  order := h.order
  count := by
    rw [EventThread.busy_of_ne hidle', Int.add_zero]
    exact h.count.trans (by rw [EventThread.busy_of_ne hidle, Int.add_zero])
  asleep := hasleep
  noExit := ⟨h.noExit.1, halive.2⟩

theorem EventThread.InOrder.add (h : s.InOrder q) (hlock : s.pc ≠ .waiting) (hcb : s.inUse cb = false) :
    (s.add (some cb) e).InOrder (q ++ [cb]) := by
  have hqueued := h.toQueued.add (e := e) hcb
  have hmap : q.map (Function.update s.event cb e) = q.map s.event := by
    apply List.map_congr_left
    intro a ha
    have hacb : a ≠ cb := fun heq => h.fresh hcb (heq ▸ ha)
    exact Function.update_of_ne hacb ..
  have horder : s.inserted ++ [e] = s.handed.map Prod.fst ++ (q ++ [cb]).map (Function.update s.event cb e) := by
    rw [List.map_append, hmap, List.map_singleton, Function.update_self, ← List.append_assoc, h.order]
  have hcount : s.callbackQueueFull + 1 = (q ++ [cb]).length + s.busy := by
    have := h.count
    rw [List.length_append, List.length_singleton]
    omega
  unfold EventThread.add EventThread.signal at hqueued ⊢
  dsimp only at hqueued ⊢
  by_cases hpc : s.pc = .asleep
  · rw [if_pos hpc] at hqueued ⊢
    refine ⟨hqueued, horder, ?_, nofun, ⟨h.noExit.1, nofun⟩⟩
    rw [EventThread.busy_of_ne (by rw [hpc]; nofun)] at hcount
    rw [EventThread.busy_of_ne (by simp)]
    exact hcount
  · rw [if_neg hpc] at hqueued ⊢
    refine ⟨hqueued, horder, hcount, ?_, h.noExit⟩
    rintro (hwait | hsleep)
    · exact absurd hwait hlock
    · exact absurd hsleep hpc

theorem EventThread.InOrder.step {l : EventLabel} (h : s.InOrder q) (hl : NoShutdown s l) (hstep : EventStep s l s') :
    ∃ q', s'.InOrder q' := by
  cases hstep with
  | @add cb e hlock hcb =>
    cases cb with
    | none => exact ⟨q, h⟩
    | some cb => exact ⟨q ++ [cb], h.add hlock (hcb cb rfl)⟩
  | setCallback => exact ⟨q, ⟨⟨⟨h.linked, h.inUse⟩, h.calling, h.alive⟩, h.order, h.count, h.asleep, h.noExit⟩⟩
  | pass hpc => exact h.testFull (by rw [hpc]; nofun)
  | sleep hpc => exact ⟨q, h.move (by rw [hpc]; nofun) nofun ⟨nofun, nofun⟩ fun _ => h.asleep (.inl hpc)⟩
  | spurious hpc => exact ⟨q, h.move (by rw [hpc]; nofun) nofun ⟨nofun, nofun⟩ nofun⟩
  | wake hpc =>
    unfold EventThread.wake
    rw [if_neg (by rw [h.noExit.1]; decide)]
    exact h.testFull (by rw [hpc]; nofun)
  | back hpc =>
    refine EventThread.Stored.inOrder_takeNext (h.toQueued.free hpc) (h.calling _ _ hpc).2.2 h.order ?_ h.noExit.1
    show s.callbackQueueFull - 1 = q.length
    rw [h.count, EventThread.busy_calling hpc]
    omega
  | setExit | signal | join | restart => exact absurd hl id

/-- Whatever the producers do and whenever, the events taken off the queue for their callbacks are the first of those put on
it, in their order and each once, the rest is on the queue, the counter counts the queue and the event in process, the
thread waits only when the queue is empty, and it finds no NULL pointer. -/
theorem events_in_order {ls : List EventLabel} (h : Run EventStep NoShutdown .start ls s) :
    s.handed.map Prod.fst <+: s.inserted ∧
    ∃ q : List ℕ, Linked s.links .head (q.map .cell) ∧ s.inserted = s.handed.map Prod.fst ++ q.map s.event ∧
      s.callbackQueueFull = q.length + s.busy ∧ (s.pc = .waiting ∨ s.pc = .asleep → q = []) ∧
      s.pc ≠ .crashed := by
  obtain ⟨q, hq⟩ : ∃ q, s.InOrder q := by
    apply Run.inv (I := fun s => ∃ q, s.InOrder q) _ h ⟨[], inOrder_start⟩
    rintro t l u ⟨q, hq⟩ hl hstep
    exact hq.step hl hstep
  exact ⟨⟨_, hq.order.symm⟩, q, hq.linked, hq.order, hq.count, hq.asleep, hq.alive⟩

/-- The second event comes while the callback of the first one runs. -/
def attachRemove : EventThread :=
  (((((EventThread.start.add (some 0) ⟨5, .attach, 1⟩).testFull).add (some 1) ⟨5, .remove, 1⟩).back 0 .head).testFull)

theorem events_in_order_attachRemove : attachRemove.handed.map Prod.fst = [⟨5, .attach, 1⟩, ⟨5, .remove, 1⟩] ∧
    attachRemove.handed.map Prod.fst <+: attachRemove.inserted := by
  have hrun : Run EventStep NoShutdown .start
      [.add (some 0) ⟨5, .attach, 1⟩, .pass, .add (some 1) ⟨5, .remove, 1⟩, .back, .pass] attachRemove := by
    refine .cons trivial (.add nofun fun _ _ => rfl) (.cons trivial (.pass rfl) ?_)
    refine .cons trivial (.add nofun ?_) (.cons trivial (.back rfl) (.cons trivial (.pass rfl) (.nil _)))
    rintro _ ⟨⟩
    rfl
  exact ⟨rfl, (events_in_order hrun).1⟩

end

end OpenUsb
