import OpenUsb.LockProgs

/-!
# LockOrder — when the mutexes of the library cannot deadlock

The mutexes have an order, from `usbi_lock` up to the lock of the event callbacks, and every function of the library takes
them in this order, apart from the lock of the device under that of a request, which is taken by a thread that submits or
frees the request.

* `body_ends`, `root_ends`: every function keeps to the rules, and so does every thread of the library.
* `Lawful.safe`: threads that keep to the rules, and that work on different requests, cannot deadlock.
* `careful_lockSafe`: so it is on every run that avoids the cases left out of the rules.
-/

namespace OpenUsb.Locking

/-! ## The rules -/

def LockClass.rank : LockClass → ℕ
  | .usbiLock => 1
  | .devHandles => 5
  | .hdev => 8
  | .buses => 10
  | .multi => 15
  | .bus => 20
  | .busDevices => 25
  | .devices => 30
  | .handles => 40
  | .io => 50
  | .complete => 60
  | .simple => 70
  | .handle => 90
  | .events => 95

/-- A thread that submits or frees a request may take the lock of the device under that of the request; the lock of a
request is only taken under others by the thread that completes it. -/
def mayLock (r : IoRole) (cs : List LockClass) (c : LockClass) : Bool :=
  (cs.all (fun c' => decide (c'.rank < c.rank)) || (c == .hdev && cs == [.io] && (r == .submitting || r == .freeing))) &&
    (c != .io || cs.isEmpty || r == .completing)

def mayAct : LockAct → IoRole → Bool
  | .alloc, .idle | .complete, .idle | .free, .idle | .take, .idle => true
  | .accept, .submitting | .fail, .submitting => true
  | .enqueue, .completing | .completed, .completing => true
  | .freed, .freeing => true
  | _, _ => false

def lockRules : LockRules LockClass LockAct IoRole where
  idle := .idle
  mayAct := mayAct
  mayLock := mayLock
  mayPick r c := c != .io || r == .idle

theorem body_ends (f : Api) : EndsIdle openusb lockRules [openusb.body f] (.idle, []) := by
  cases f <;> rfl

theorem root_ends (root : Root) : EndsIdle openusb lockRules [root.body] (.idle, []) := by
  cases root <;> rfl

/-! ## Who works on a request -/

/-- What keeps the threads at one request apart: `role` and `req` are the roles and the requests of the threads. -/
structure Exclusive {T : Type} (role : T → IoRole) (req : T → ℕ) (d : IoBook) : Prop where
  submitting : ∀ t, role t = .submitting → d.allocated (req t) = true ∧ d.inKernel (req t) = false
  alone : ∀ t u, role t = .submitting → role u = .submitting → req t = req u → t = u
  completing : ∀ t, role t = .completing → d.inKernel (req t) = true
  apart : ∀ t u, role t = .completing → role u = .freeing → req t ≠ req u
  kernel : ∀ i, d.inKernel i = true → d.allocated i = true

section

variable {T : Type} [DecidableEq T] {role : T → IoRole} {req : T → ℕ} {d d' : IoBook} {t : T}

omit [DecidableEq T] in
/-- Requests of idle threads do not matter. -/
theorem Exclusive.congr {req' : T → ℕ} (h : Exclusive role req d) (hreq : ∀ t, role t ≠ .idle → req' t = req t) :
    Exclusive role req' d where
  submitting t ht := by
    rw [hreq t (by rw [ht]; nofun)]
    exact h.submitting t ht
  alone t u ht hu htu := by
    rw [hreq t (by rw [ht]; nofun), hreq u (by rw [hu]; nofun)] at htu
    exact h.alone t u ht hu htu
  completing t ht := by
    rw [hreq t (by rw [ht]; nofun)]
    exact h.completing t ht
  apart t u ht hu := by
    rw [hreq t (by rw [ht]; nofun), hreq u (by rw [hu]; nofun)]
    exact h.apart t u ht hu
  kernel := h.kernel

omit [DecidableEq T] in
theorem Exclusive.listed (h : Exclusive role req d) (f : ℕ → Bool) : Exclusive role req { d with listed := f } :=
  ⟨h.submitting, h.alone, h.completing, h.apart, h.kernel⟩

/-- A role that a thread has after `t` took another one, it had before. -/
theorem role_of_update {r r' : IoRole} {u : T} (hr : r ≠ r') (hu : Function.update role t r u = r') : u ≠ t ∧ role u = r' := by
  by_cases hut : u = t
  · rw [hut, Function.update_self] at hu
    exact absurd hu hr
  · rw [Function.update_of_ne hut] at hu
    exact ⟨hut, hu⟩

theorem Exclusive.leave (h : Exclusive role req d) : Exclusive (Function.update role t .idle) req d where
  submitting u hu := h.submitting u (role_of_update (by decide) hu).2
  alone u v hu hv := h.alone u v (role_of_update (by decide) hu).2 (role_of_update (by decide) hv).2
  completing u hu := h.completing u (role_of_update (by decide) hu).2
  apart u v hu hv := h.apart u v (role_of_update (by decide) hu).2 (role_of_update (by decide) hv).2
  kernel := h.kernel

/-- A new request starts out with one thread. -/
theorem Exclusive.alloc (h : Exclusive role req d) (hnew : d.allocated (req t) = false) :
    Exclusive (Function.update role t .submitting) req { d with allocated := Function.update d.allocated (req t) true } := by
  have hmono : ∀ i, d.allocated i = true → Function.update d.allocated (req t) true i = true := by
    intro i hi
    by_cases hit : i = req t
    · rw [hit, Function.update_self]
    · rwa [Function.update_of_ne hit]
  have hin : d.inKernel (req t) = false := by
    by_contra hin
    rw [h.kernel _ (Bool.eq_true_of_not_eq_false hin)] at hnew
    exact absurd hnew (by decide)
  have hother : ∀ u, u ≠ t → Function.update role t .submitting u = .submitting → role u = .submitting ∧ req u ≠ req t := by
    intro u hut hu
    rw [Function.update_of_ne hut] at hu
    refine ⟨hu, fun heq => ?_⟩
    have hold := (h.submitting u hu).1
    rw [heq, hnew] at hold
    exact absurd hold (by decide)
  refine ⟨?_, ?_, ?_, ?_, fun i hi => hmono i (h.kernel i hi)⟩
  · intro u hu
    by_cases hut : u = t
    · rw [hut]
      exact ⟨Function.update_self .., hin⟩
    · obtain ⟨hu, -⟩ := hother u hut hu
      exact ⟨hmono _ (h.submitting u hu).1, (h.submitting u hu).2⟩
  · intro u v hu hv huv
    by_cases hut : u = t
    · by_cases hvt : v = t
      · rw [hut, hvt]
      · exact absurd (huv.symm.trans (congrArg req hut)) (hother v hvt hv).2
    · by_cases hvt : v = t
      · exact absurd (huv.trans (congrArg req hvt)) (hother u hut hu).2
      · exact h.alone u v (hother u hut hu).1 (hother v hvt hv).1 huv
  · intro u hu
    exact h.completing u (role_of_update (by decide) hu).2
  · intro u v hu hv
    exact h.apart u v (role_of_update (by decide) hu).2 (role_of_update (by decide) hv).2

theorem Exclusive.accept (h : Exclusive role req d) (ht : role t = .submitting) :
    Exclusive (Function.update role t .idle) req { d with inKernel := Function.update d.inKernel (req t) true } := by
  refine ⟨?_, h.leave.alone, ?_, h.leave.apart, ?_⟩
  · intro u hu
    obtain ⟨hut, hu⟩ := role_of_update (by decide) hu
    refine ⟨(h.submitting u hu).1, ?_⟩
    show Function.update d.inKernel (req t) true (req u) = false
    rw [Function.update_of_ne fun heq => hut (h.alone u t hu ht heq)]
    exact (h.submitting u hu).2
  · intro u hu
    show Function.update d.inKernel (req t) true (req u) = true
    by_cases hreq : req u = req t
    · rw [hreq, Function.update_self]
    · rw [Function.update_of_ne hreq]
      exact h.leave.completing u hu
  · intro i hi
    change Function.update d.inKernel (req t) true i = true at hi
    by_cases hreq : i = req t
    · rw [hreq]
      exact (h.submitting t ht).1
    · rw [Function.update_of_ne hreq] at hi
      exact h.kernel i hi

/-- The kernel has the request that `t` completes, and nobody is freeing it. -/
theorem Exclusive.complete (h : Exclusive role req d) (hin : d.inKernel (req t) = true)
    (hfree : ∀ u, role u = .freeing → req u ≠ req t) : Exclusive (Function.update role t .completing) req d := by
  refine ⟨?_, ?_, ?_, ?_, h.kernel⟩
  · intro u hu
    exact h.submitting u (role_of_update (by decide) hu).2
  · intro u v hu hv
    exact h.alone u v (role_of_update (by decide) hu).2 (role_of_update (by decide) hv).2
  · intro u hu
    by_cases hut : u = t
    · rwa [hut]
    · rw [Function.update_of_ne hut] at hu
      exact h.completing u hu
  · intro u v hu hv
    obtain ⟨-, hv⟩ := role_of_update (by decide) hv
    by_cases hut : u = t
    · rw [hut]
      exact (hfree v hv).symm
    · rw [Function.update_of_ne hut] at hu
      exact h.apart u v hu hv

/-- Nobody is completing the request that `t` frees. -/
theorem Exclusive.free (h : Exclusive role req d) (hcomp : ∀ u, role u = .completing → req u ≠ req t) :
    Exclusive (Function.update role t .freeing) req d := by
  refine ⟨?_, ?_, ?_, ?_, h.kernel⟩
  · intro u hu
    exact h.submitting u (role_of_update (by decide) hu).2
  · intro u v hu hv
    exact h.alone u v (role_of_update (by decide) hu).2 (role_of_update (by decide) hv).2
  · intro u hu
    exact h.completing u (role_of_update (by decide) hu).2
  · intro u v hu hv
    obtain ⟨-, hu⟩ := role_of_update (by decide) hu
    by_cases hvt : v = t
    · rw [hvt]
      exact hcomp u hu
    · rw [Function.update_of_ne hvt] at hv
      exact h.apart u v hu hv

/-- An action at its place keeps the threads apart, if nobody frees a request that is being completed. -/
theorem Exclusive.act (h : Exclusive role req d) {a : LockAct} {obj : LockClass → ℕ} (hobj : obj .io = req t)
    (hact : mayAct a (role t) = true) (heffect : IoBook.effect a obj d = some d')
    (hfree : a = .free → ∀ u, role u = .completing → req u ≠ req t)
    (hcomplete : a = .complete → ∀ u, role u = .freeing → req u ≠ req t) :
    Exclusive (Function.update role t (IoRole.next a (role t))) req d' := by
  cases a with
  | alloc =>
    simp only [IoBook.effect, hobj] at heffect
    split_ifs at heffect with hnew
    cases heffect
    exact h.alloc (Bool.eq_false_of_not_eq_true hnew)
  | accept =>
    simp only [IoBook.effect, hobj] at heffect
    cases heffect
    have ht : role t = .submitting := by
      cases hr : role t <;> rw [hr] at hact <;> first | rfl | exact absurd hact (by decide)
    exact h.accept ht
  | complete =>
    simp only [IoBook.effect, hobj] at heffect
    split_ifs at heffect with hin
    cases heffect
    exact h.complete hin (hcomplete rfl)
  | enqueue =>
    cases heffect
    show Exclusive (Function.update role t (role t)) req _
    rw [Function.update_eq_self]
    exact h.listed _
  | take =>
    simp only [IoBook.effect] at heffect
    split_ifs at heffect
    cases heffect
    show Exclusive (Function.update role t (role t)) req _
    rw [Function.update_eq_self]
    exact h.listed _
  | free =>
    simp only [IoBook.effect] at heffect
    split_ifs at heffect
    cases heffect
    exact h.free (hfree rfl)
  | fail | completed | freed =>
    cases heffect
    exact h.leave
  | debugCallback | transferCallback | unconfigured | pollFound | unmarked => exact absurd hact (by simp [mayAct])

end

/-! ## The threads of the library -/

section

variable {T : Type}

abbrev LibState (T : Type) := LockState T LockClass LockAct IoRole IoBook

def roles (s : LibState T) : T → IoRole := Thread.role ∘ s.thread

def requests (s : LibState T) : T → ℕ := (fun th => th.obj .io) ∘ s.thread

/-- None of the threads has done anything, and there is no request. -/
def start (root : T → Root) (obj : T → LockClass → ℕ) : LibState T where
  thread t := ⟨[(root t).body], obj t, [], [], .idle⟩
  shared := ⟨fun _ => false, fun _ => false, fun _ => false⟩

/-- A step that takes none of the branches left out of the check, and that does not free a request while another thread is in
`usbi_io_complete` for it, or the other way round. -/
def Careful (s : LibState T) (l : T × LockEvent LockAct) : Prop :=
  (∀ a, l.2 ≠ .risk a) ∧
  (l.2 = .act .free → ∀ u, roles s u = .completing → requests s u ≠ requests s l.1) ∧
  (l.2 = .act .complete → ∀ u, roles s u = .freeing → requests s u ≠ requests s l.1)

/-- No cycle of threads wait for each other's mutexes, and whoever has returned from a call or runs user code holds none. -/
def LockSafe (s : LibState T) : Prop :=
  (∀ t, ¬ Relation.TransGen (WaitsFor s) t t) ∧ ∀ t, (s.thread t).Outside → (s.thread t).held = []

structure Lawful (s : LibState T) : Prop where
  good : ∀ t, (s.thread t).Good openusb lockRules
  exclusive : Exclusive (roles s) (requests s) s.shared

theorem lawful_start (root : T → Root) (obj : T → LockClass → ℕ) : Lawful (start root obj) where
  good t := ⟨⟨[], rfl, root_ends (root t)⟩, fun _ hfr => absurd hfr (List.not_mem_nil)⟩
  exclusive := ⟨nofun, nofun, nofun, nofun, nofun⟩

variable {s s' : LibState T}

/-- A thread that awaits a mutex has only lower ones, or the lock of the request that it submits or frees, and awaits that of
the device. -/
theorem mayLock_cases {r : IoRole} {cs : List LockClass} {c : LockClass} (h : mayLock r cs c = true) :
    ((∀ c' ∈ cs, c'.rank < c.rank) ∨ (c = .hdev ∧ cs = [.io] ∧ (r = .submitting ∨ r = .freeing))) ∧
    (c = .io → cs = [] ∨ r = .completing) := by
  simp only [mayLock, Bool.and_eq_true, Bool.or_eq_true, List.all_eq_true, decide_eq_true_eq, beq_iff_eq, bne_iff_ne,
    List.isEmpty_iff] at h
  obtain ⟨hrank, hio⟩ := h
  refine ⟨?_, fun hc => ?_⟩
  · rcases hrank with hrank | ⟨⟨hc, hcs⟩, hr⟩
    · exact .inl hrank
    · exact .inr ⟨hc, hcs, hr⟩
  · rcases hio with (hne | hnil) | hcomp
    · exact absurd hc hne
    · exact .inl hnil
    · exact .inr hcomp

theorem Lawful.safe (h : Lawful s) : LockSafe s := by
  refine ⟨no_cycle LockClass.rank ?_, fun t hout => ((h.good t).outside hout).2⟩
  intro t u m m' hm hmem hm' hheld
  obtain ⟨-, cs', hcs', hmay'⟩ := (h.good u).wants hm'
  rw [hcs'] at hmem
  obtain ⟨c, hc, rfl⟩ := List.mem_map.mp hmem
  rcases (mayLock_cases hmay').1 with hrank | ⟨-, hio, hrole⟩
  · exact hrank c hc
  · -- the holder submits or frees a request, so the waiting thread completes the same one
    rw [hio, List.mem_singleton] at hc
    subst hc
    obtain ⟨hobj, cs, hcs, hmay⟩ := (h.good t).wants hm
    have hcompleting : roles s t = .completing := by
      refine ((mayLock_cases hmay).2 rfl).resolve_left fun hnil => hheld ?_
      rw [hcs, hnil]
      rfl
    have hreq : requests s t = requests s u := (congrArg Prod.snd hobj).symm
    rcases hrole with hsub | hfree
    · have hin := h.exclusive.completing t hcompleting
      rw [hreq, (h.exclusive.submitting u hsub).2] at hin
      exact absurd hin (by decide)
    · exact absurd hreq (h.exclusive.apart t u hcompleting hfree)

variable [DecidableEq T] {l : T × LockEvent LockAct}

theorem Lawful.step (h : Lawful s) (hcareful : Careful s l) (hstep : LockStep openusb s l s') : Lawful s' := by
  refine ⟨hstep.good body_ends h.good hcareful.1, ?_⟩
  obtain ⟨-, hfree, hcomplete⟩ := hcareful
  cases hstep with
  | @step t e th d hlocal =>
    have hrole : roles ⟨Function.update s.thread t th, d⟩ = Function.update (roles s) t th.role := Function.comp_update ..
    have hreq : requests ⟨Function.update s.thread t th, d⟩ = Function.update (requests s) t (th.obj .io) :=
      Function.comp_update ..
    show Exclusive (roles _) (requests _) d
    rw [hrole, hreq]
    -- a new request of an idle thread does not matter, and other threads keep theirs
    have hidle : ∀ i, (roles s t = .idle ∨ i = requests s t) →
        ∀ u, roles s u ≠ .idle → Function.update (requests s) t i u = requests s u := by
      intro i hi u hu
      by_cases hut : u = t
      · subst hut
        rw [Function.update_self]
        exact hi.resolve_left hu
      · rw [Function.update_of_ne hut]
    rcases hlocal.cases (h.good t) with ⟨hobj, hr, rfl⟩ | ⟨c, i, hpick, hobj, hr, rfl⟩ | ⟨a, rfl, hact, hobj, hr, heffect⟩ |
      ⟨hbefore, hr, rfl⟩
    · rw [hr, hobj]
      show Exclusive (Function.update (roles s) t (roles s t)) (Function.update (requests s) t (requests s t)) _
      rw [Function.update_eq_self, Function.update_eq_self]
      exact h.exclusive
    · rw [hr]
      show Exclusive (Function.update (roles s) t (roles s t)) _ _
      rw [Function.update_eq_self]
      refine h.exclusive.congr (hidle _ ?_)
      by_cases hc : c = .io
      · rw [hc] at hpick
        exact .inl (show (s.thread t).role = .idle by simpa [lockRules] using hpick)
      · refine .inr ?_
        rw [hobj, Function.update_of_ne (Ne.symm hc)]
        rfl
    · rw [hr, hobj]
      show Exclusive _ (Function.update (requests s) t (requests s t)) _
      rw [Function.update_eq_self]
      exact h.exclusive.act rfl hact heffect (fun ha => hfree (by rw [ha])) (fun ha => hcomplete (by rw [ha]))
    · have hsame : roles s t = .idle := hbefore
      rw [hr]
      show Exclusive (Function.update (roles s) t .idle) _ _
      rw [← hsame, Function.update_eq_self]
      exact h.exclusive.congr (hidle _ (.inl hsame))

/-- On every run of careful steps no threads deadlock, whatever their number and the order of their steps, every call returns
with its mutexes released, and user code runs without any. -/
theorem careful_lockSafe (root : T → Root) (obj : T → LockClass → ℕ) {ls : List (T × LockEvent LockAct)}
    (h : Run (LockStep openusb) Careful (start root obj) ls s) : LockSafe s :=
  (h.inv (fun _ _ _ hs hcareful hstep => hs.step hcareful hstep) (lawful_start root obj)).safe

end

/-! ## A request and its two threads -/

section

open LockChoice

instance {T : Type} [Fintype T] (s : LibState T) (l : T × LockEvent LockAct) : Decidable (Careful s l) :=
  inferInstanceAs (Decidable (_ ∧ _ ∧ _))

/-- The thread `true` is the poll thread of the device that the application works on. -/
def applicationAndPoll : LibState Bool := start (fun t => if t then .pollIo else .application) fun _ _ => 0

/-- The application submits a control request, and comes as far as the first pass of `openusb_wait`. -/
def submitAndWait : List (Bool × LockChoice Api) :=
  runFor false [(call .xferAio, 10), (other, 3), (other, 1), (goTo 0, 13), (goTo 0, 1), (goTo 0, 1), (goTo 0, 1), (goTo 0, 3),
    (other, 0), (other, 4), (other, 10), (other, 2), (goTo 0, 37), (other, 14), (other, 3), (other, 26), (call .wait, 10),
    (other, 3), (other, 1), (goTo 0, 13), (goTo 0, 1), (goTo 0, 1), (goTo 0, 1), (goTo 0, 3), (other, 0), (other, 1)]

/-- The poll thread completes the request and ends its pass before the application takes it off the list and frees it. -/
theorem careful_lockSafe_submitAndWait : ∃ ls s, Run (LockStep openusb) Careful applicationAndPoll ls s ∧
    (s.shared.inKernel 0 = true ∧ s.shared.listed 0 = false) ∧ LockSafe s := by
  have hexec : (lockExec openusb (fun s l => decide (Careful s l)) applicationAndPoll (submitAndWait ++
      runFor true [(go, 0), (other, 9), (other, 6), (other, 1), (goTo 0, 1), (other, 1), (other, 11), (other, 41)] ++
      runFor false [(go, 16), (goTo 0, 14), (goTo 0, 26)])).any
        (fun s => decide (s.shared.inKernel 0 = true ∧ s.shared.listed 0 = false)) = true := by
    decide +kernel
  obtain ⟨ls, s, hrun, hs⟩ := lockExec_reaches hexec
  have hcareful : Run (LockStep openusb) Careful applicationAndPoll ls s := hrun.mono fun _ _ hG => of_decide_eq_true hG
  exact ⟨ls, s, hcareful, of_decide_eq_true hs, careful_lockSafe _ _ hcareful⟩

/-- The application frees the request while the poll thread is in `usbi_io_complete` for it: each of them awaits the mutex
that the other one holds. -/
theorem wait_deadlocks : ∃ ls s, Run (LockStep openusb) (fun _ _ => True) applicationAndPoll ls s ∧ ¬ LockSafe s := by
  have hexec : (lockExec openusb (fun _ _ => true) applicationAndPoll (submitAndWait ++
      runFor true [(go, 0), (other, 9), (other, 6), (other, 1), (goTo 0, 1), (other, 1), (other, 11), (other, 9)] ++
      runFor false [(go, 16), (goTo 0, 14), (goTo 0, 7)])).any (fun s => decide (
        ((s.thread false).wants = some (.hdev, 0) ∧ (.hdev, 0) ∈ (s.thread true).held) ∧
        ((s.thread true).wants = some (.io, 0) ∧ (.io, 0) ∈ (s.thread false).held))) = true := by
    decide +kernel
  obtain ⟨ls, s, hrun, hs⟩ := lockExec_reaches hexec
  obtain ⟨hwait, hwait'⟩ := of_decide_eq_true hs
  refine ⟨ls, s, hrun.mono fun _ _ _ => trivial, fun hsafe => hsafe.1 false ?_⟩
  exact .tail (.single ⟨_, hwait⟩) ⟨_, hwait'⟩

end

end OpenUsb.Locking
