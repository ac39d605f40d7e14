import OpenUsb.Descr
import OpenUsb.Lib.Runs
import Mathlib.Logic.Function.Basic
import Mathlib.Data.List.Basic

/-!
# CompleteQueue — the queue of completed requests and its consumers

`complete_list`, `complete_count` and `complete_cv` are only used under `complete_lock`, so each of their critical
sections is one step: a completion that queues a request and signals, a poll, and the passes of a wait.  A wait that
finds `complete_count` at 0 sleeps; a signal wakes one sleeping wait, and waits may wake up for no reason.

Requests are named by numbers, and so are the threads inside `openusb_wait`.
-/

namespace OpenUsb

/-! ## The critical sections -/

/-- `complete_list`, oldest entry first, and `complete_count`. -/
structure CompleteQueue where
  list : List ℕ
  count : ℤ
  deriving DecidableEq, Repr

namespace CompleteQueue

variable (q : CompleteQueue)

/-- `list_add`, and the increment after it. -/
def add (r : ℕ) : CompleteQueue := { list := q.list ++ [r], count := q.count + 1 }

/-- The first entry whose request is among the handles. -/
def find (handles : List ℕ) : Option ℕ := q.list.find? (· ∈ handles)

/-- `list_del` of the entry found, and the decrement with it. -/
def remove (r : ℕ) : CompleteQueue := { list := q.list.erase r, count := q.count - 1 }

end CompleteQueue

/-- The critical section of `openusb_poll`: what it stores in `*handle`. -/
def openusbPoll (handles : List ℕ) (q : CompleteQueue) : Option ℕ × CompleteQueue :=
  match q.find handles with
  | some r => (some r, q.remove r)
  | none => (none, q)

/-- How a pass of `openusb_wait` ends. -/
inductive Pass where
  | sleep
  | found (r : ℕ) (q : CompleteQueue)
  | again (q : CompleteQueue)
  deriving DecidableEq, Repr

/-- A pass of `openusb_wait`, from the label `waiting` or from a wake-up: the test of `complete_count`, and the search
if it is not 0. -/
def openusbWaitPass (handles : List ℕ) (q : CompleteQueue) : Pass :=
  if q.count = 0 then .sleep
  else match q.find handles with
    | some r => .found r (q.remove r)
    | none => .again { q with count := q.count - 1 }

/-! ## The interleavings -/

/-- A thread inside `openusb_wait`: its handles, and whether it sleeps in `pthread_cond_wait` with no wake-up pending. -/
structure Waiter where
  handles : List ℕ
  asleep : Bool
  deriving DecidableEq, Repr

structure QueueState where
  queue : CompleteQueue
  waiters : ℕ → Option Waiter

/-- A step under `complete_lock`; `complete` says which wait the signal wakes. -/
inductive QueueLabel where
  | complete (r : ℕ) (woken : Option ℕ)
  | poll (handles : List ℕ)
  | wait (t : ℕ) (handles : List ℕ)
  | pass (t : ℕ)
  | spurious (t : ℕ)
  deriving DecidableEq, Repr

namespace QueueState

variable (s : QueueState)

/-- Thread `t` sleeps in a wait for `handles`. -/
def Sleeps (t : ℕ) (handles : List ℕ) : Prop := s.waiters t = some ⟨handles, true⟩

def setWaiter (t : ℕ) (w : Option Waiter) : QueueState := { s with waiters := Function.update s.waiters t w }

/-- `pthread_cond_signal`: one of the sleeping waits gets its wake-up, if there is any. -/
inductive Signals : Option ℕ → QueueState → Prop where
  | wakes {t : ℕ} {handles : List ℕ} (h : s.Sleeps t handles) : Signals (some t) (s.setWaiter t (some ⟨handles, false⟩))
  | nobody (h : ∀ t handles, ¬ s.Sleeps t handles) : Signals none s

/-- The thread after a pass. -/
def afterPass (t : ℕ) (handles : List ℕ) : Pass → QueueState
  | .sleep => s.setWaiter t (some ⟨handles, true⟩)
  | .found _ q => { s.setWaiter t none with queue := q }
  | .again q => { s with queue := q }

end QueueState

/-- The steps of completions, polls and waits. -/
inductive QueueStep : QueueState → QueueLabel → QueueState → Prop where
  | complete {s s' : QueueState} {r : ℕ} {woken : Option ℕ} (h : s.Signals woken s') :
      QueueStep s (.complete r woken) { s' with queue := s'.queue.add r }
  | poll {s : QueueState} {handles : List ℕ} :
      QueueStep s (.poll handles) { s with queue := (openusbPoll handles s.queue).2 }
  | wait {s : QueueState} {t : ℕ} {handles : List ℕ} (hidle : s.waiters t = none) (hne : handles ≠ []) :
      QueueStep s (.wait t handles) (s.setWaiter t (some ⟨handles, false⟩))
  | pass {s : QueueState} {t : ℕ} {handles : List ℕ} (h : s.waiters t = some ⟨handles, false⟩) :
      QueueStep s (.pass t) (s.afterPass t handles (openusbWaitPass handles s.queue))
  | spurious {s : QueueState} {t : ℕ} {handles : List ℕ} (h : s.Sleeps t handles) :
      QueueStep s (.spurious t) (s.setWaiter t (some ⟨handles, false⟩))

/-- Nothing is queued and nobody waits. -/
def QueueState.start : QueueState := { queue := ⟨[], 0⟩, waiters := fun _ => none }

/-! ## The counter and the sleeping waits -/

/-- The counter is the length of the list, a wait for a queued request returns one in its next pass, and no wait sleeps
without a wake-up while a request of its own is queued. -/
structure QueueState.Sound (s : QueueState) : Prop where
  count : s.queue.count = s.queue.list.length
  returns : ∀ t handles r, s.waiters t = some ⟨handles, false⟩ → r ∈ handles → r ∈ s.queue.list →
    ∃ r' q, openusbWaitPass handles s.queue = .found r' q ∧ r' ∈ handles
  awake : ∀ t handles r, s.Sleeps t handles → r ∈ handles → r ∉ s.queue.list

namespace CompleteQueue

variable {q : CompleteQueue} {handles : List ℕ} {r : ℕ}

theorem find_mem (h : q.find handles = some r) : r ∈ q.list ∧ r ∈ handles := by
  rw [find] at h
  have hr := List.find?_some h
  exact ⟨List.mem_of_find?_eq_some h, by simpa using hr⟩

theorem find_none : q.find handles = none ↔ ∀ r ∈ q.list, r ∉ handles := by
  simp [find]

end CompleteQueue

section

variable {s s' : QueueState} {l : QueueLabel} {t : ℕ} {handles : List ℕ}

/-- Nobody sleeps at the start. -/
theorem start_sleeps : ¬ QueueState.start.Sleeps t handles := by
  intro h
  cases h

theorem signals_queue {woken : Option ℕ} (h : s.Signals woken s') : s'.queue = s.queue := by
  cases h <;> rfl

end

end OpenUsb
