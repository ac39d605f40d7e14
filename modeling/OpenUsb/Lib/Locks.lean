import Mathlib.Logic.Function.Basic
import Mathlib.Logic.Relation
import Mathlib.Data.List.Basic
import Mathlib.Data.Fintype.Basic
import OpenUsb.Lib.Runs

/-!
# Locks — threads that take and release mutexes

A `LockProg` is what a function does to mutexes, with its branches and loops left open.  Mutexes fall into classes `C`, and
a thread works on one object of each class at a time; its role says which of the system's own phases it is in.  User code,
such as a callback, makes any number of calls of the system's functions.

* `LockProg.check` follows a program through the classes it holds and its role.
* `LocalStep.good`: what the check says of a thread's remaining program stays true, step by step.
* `no_cycle`: if every awaited mutex has a lower rank than the one its holder awaits, no cycle of threads wait for each
  other.
-/

namespace OpenUsb

/-- `pick` goes over to another object of a class, `user` runs user code, and `risk a p q` runs `p` if `a` is the case, `q`
otherwise; the check of `risk` leaves `p` out. -/
inductive LockProg (C A : Type) where
  | skip
  | act (a : A)
  | lock (c : C)
  | unlock (c : C)
  | pick (c : C)
  | user
  | seq (p q : LockProg C A)
  | alt (p q : LockProg C A)
  | risk (a : A) (p q : LockProg C A)
  | loop (p : LockProg C A)

namespace LockProg

variable {C A : Type}

def block : List (LockProg C A) → LockProg C A
  | [] => skip
  | p :: ps => seq p (block ps)

def anyOf : List (LockProg C A) → LockProg C A
  | [] => skip
  | [p] => p
  | p :: ps => alt p (anyOf ps)

/-- The rest of a function that may return before. -/
def optional (p : LockProg C A) : LockProg C A := alt skip p

/-- `pthread_cond_wait`. -/
def wait (c : C) : LockProg C A := seq (unlock c) (lock c)

end LockProg

/-- The functions `F` that user code may call, what an action does to the caller's role, and what it does to the shared
data, if it is possible there; it may use the objects that the caller works on. -/
structure LockSystem (C A R D F : Type) where
  body : F → LockProg C A
  next : A → R → R
  effect : A → (C → ℕ) → D → Option D

/-- The stack of a thread: what is left of the current call, with its objects, and of the user code below it. -/
structure Thread (C A R : Type) where
  todo : List (LockProg C A)
  obj : C → ℕ
  callers : List (List (LockProg C A) × (C → ℕ))
  held : List (C × ℕ)
  role : R

inductive LockEvent (A : Type) where
  | silent
  | act (a : A)
  | risk (a : A)
  deriving DecidableEq

instance {A : Type} (e : LockEvent A) : Decidable (∀ a, e ≠ .risk a) :=
  match e with
  | .silent => isTrue nofun
  | .act _ => isTrue nofun
  | .risk a => isFalse fun h => h a rfl

/-- One step of a thread; `free` are the mutexes that no thread holds. -/
inductive LocalStep {C A R D F : Type} [DecidableEq C] (L : LockSystem C A R D F) (free : C × ℕ → Prop) :
    Thread C A R → D → LockEvent A → Thread C A R → D → Prop where
  | skip {k obj fr held r d} : LocalStep L free ⟨.skip :: k, obj, fr, held, r⟩ d .silent ⟨k, obj, fr, held, r⟩ d
  | act {a k obj fr held r d d'} (h : L.effect a obj d = some d') :
      LocalStep L free ⟨.act a :: k, obj, fr, held, r⟩ d (.act a) ⟨k, obj, fr, held, L.next a r⟩ d'
  | lock {c k obj fr held r d} (h : free (c, obj c)) :
      LocalStep L free ⟨.lock c :: k, obj, fr, held, r⟩ d .silent ⟨k, obj, fr, (c, obj c) :: held, r⟩ d
  | unlock {c k obj fr held r d} :
      LocalStep L free ⟨.unlock c :: k, obj, fr, held, r⟩ d .silent ⟨k, obj, fr, held.erase (c, obj c), r⟩ d
  | pick {c k obj fr held r d} (i : ℕ) :
      LocalStep L free ⟨.pick c :: k, obj, fr, held, r⟩ d .silent ⟨k, Function.update obj c i, fr, held, r⟩ d
  | call {k obj fr held r d} (f : F) (obj' : C → ℕ) :
      LocalStep L free ⟨.user :: k, obj, fr, held, r⟩ d .silent ⟨[L.body f], obj', (.user :: k, obj) :: fr, held, r⟩ d
  | back {k obj fr held r d} : LocalStep L free ⟨.user :: k, obj, fr, held, r⟩ d .silent ⟨k, obj, fr, held, r⟩ d
  | ret {k obj obj' fr held r d} :
      LocalStep L free ⟨[], obj', (k, obj) :: fr, held, r⟩ d .silent ⟨k, obj, fr, held, r⟩ d
  | seq {p q k obj fr held r d} :
      LocalStep L free ⟨.seq p q :: k, obj, fr, held, r⟩ d .silent ⟨p :: q :: k, obj, fr, held, r⟩ d
  | left {p q k obj fr held r d} :
      LocalStep L free ⟨.alt p q :: k, obj, fr, held, r⟩ d .silent ⟨p :: k, obj, fr, held, r⟩ d
  | right {p q k obj fr held r d} :
      LocalStep L free ⟨.alt p q :: k, obj, fr, held, r⟩ d .silent ⟨q :: k, obj, fr, held, r⟩ d
  | taken {a p q k obj fr held r d} :
      LocalStep L free ⟨.risk a p q :: k, obj, fr, held, r⟩ d (.risk a) ⟨p :: k, obj, fr, held, r⟩ d
  | passed {a p q k obj fr held r d} :
      LocalStep L free ⟨.risk a p q :: k, obj, fr, held, r⟩ d .silent ⟨q :: k, obj, fr, held, r⟩ d
  | again {p k obj fr held r d} :
      LocalStep L free ⟨.loop p :: k, obj, fr, held, r⟩ d .silent ⟨p :: .loop p :: k, obj, fr, held, r⟩ d
  | done {p k obj fr held r d} :
      LocalStep L free ⟨.loop p :: k, obj, fr, held, r⟩ d .silent ⟨k, obj, fr, held, r⟩ d

namespace Thread

variable {C A R : Type} (th : Thread C A R)

/-- The mutex that the thread takes next. -/
def wants : Option (C × ℕ) :=
  match th.todo with
  | .lock c :: _ => some (c, th.obj c)
  | _ => none

/-- The thread has returned from a call, or runs user code. -/
def Outside : Prop := th.todo = [] ∨ ∃ k, th.todo = .user :: k

end Thread

/-! ## The check -/

/-- What a program may do in each role, with classes of mutexes held: run an action, take a mutex, go over to another
object; user code runs in the role `idle`. -/
structure LockRules (C A R : Type) where
  idle : R
  mayAct : A → R → Bool
  mayLock : R → List C → C → Bool
  mayPick : R → C → Bool

theorem obj_injective {C : Type} (obj : C → ℕ) : Function.Injective fun c => (c, obj c) := fun _ _ h => congrArg Prod.fst h

/-- The common value, if both are defined and equal. -/
def agree {α : Type} [DecidableEq α] : Option α → Option α → Option α
  | some x, some y => if x = y then some x else none
  | _, _ => none

theorem agree_eq_some {α : Type} [DecidableEq α] {x y : Option α} {z : α} (h : agree x y = some z) : x = some z ∧ y = some z := by
  cases x with
  | none => exact absurd h nofun
  | some a =>
    cases y with
    | none => exact absurd h nofun
    | some b =>
      unfold agree at h
      dsimp only at h
      split_ifs at h with hab
      rw [← hab]
      exact ⟨h, h⟩

section

variable {C A R D F : Type} [DecidableEq C] [DecidableEq R] (L : LockSystem C A R D F) (rules : LockRules C A R)

/-- The role and the held classes behind a program, if it keeps to the rules. -/
def LockProg.check : LockProg C A → R × List C → Option (R × List C)
  | .skip, x => some x
  | .act a, x => if rules.mayAct a x.1 = true then some (L.next a x.1, x.2) else none
  | .lock c, x => if rules.mayLock x.1 x.2 c = true then some (x.1, c :: x.2) else none
  | .unlock c, x => if c ∈ x.2 then some (x.1, x.2.erase c) else none
  | .pick c, x => if c ∉ x.2 ∧ rules.mayPick x.1 c = true then some x else none
  | .user, x => if x = (rules.idle, []) then some x else none
  | .seq p q, x => (p.check x).bind q.check
  | .alt p q, x => agree (p.check x) (q.check x)
  | .risk _ _ q, x => q.check x
  | .loop p, x => agree (p.check x) (some x)

def checkAll : List (LockProg C A) → R × List C → Option (R × List C)
  | [], x => some x
  | p :: k, x => (p.check L rules x).bind (checkAll k)

/-- The rest of a call starts with the role and the held classes, and ends idle and with nothing held. -/
def EndsIdle (k : List (LockProg C A)) (x : R × List C) : Prop := checkAll L rules k x = some (rules.idle, [])

/-- A thread whose program passes the check from where it stands; the user code below holds nothing. -/
structure Thread.Good (th : Thread C A R) : Prop where
  here : ∃ cs, th.held = cs.map (fun c => (c, th.obj c)) ∧ EndsIdle L rules th.todo (th.role, cs)
  below : ∀ fr ∈ th.callers, EndsIdle L rules fr.1 (rules.idle, [])

end

section

variable {C A R D F : Type} [DecidableEq C] [DecidableEq R] {L : LockSystem C A R D F} {rules : LockRules C A R}
  {p q : LockProg C A} {k : List (LockProg C A)} {x : R × List C} {a : A} {c : C}

attribute [local simp] LockProg.check

theorem endsIdle_nil : EndsIdle L rules [] x ↔ x = (rules.idle, []) := by
  simp [EndsIdle, checkAll]

theorem endsIdle_cons : EndsIdle L rules (p :: k) x ↔ ∃ y, p.check L rules x = some y ∧ EndsIdle L rules k y :=
  Option.bind_eq_some_iff

@[simp] theorem endsIdle_skip : EndsIdle L rules (.skip :: k) x ↔ EndsIdle L rules k x := by
  simp [endsIdle_cons]

@[simp] theorem endsIdle_act : EndsIdle L rules (.act a :: k) x ↔
    rules.mayAct a x.1 = true ∧ EndsIdle L rules k (L.next a x.1, x.2) := by
  simp [endsIdle_cons]

@[simp] theorem endsIdle_lock : EndsIdle L rules (.lock c :: k) x ↔
    rules.mayLock x.1 x.2 c = true ∧ EndsIdle L rules k (x.1, c :: x.2) := by
  simp [endsIdle_cons]

@[simp] theorem endsIdle_unlock : EndsIdle L rules (.unlock c :: k) x ↔ c ∈ x.2 ∧ EndsIdle L rules k (x.1, x.2.erase c) := by
  simp [endsIdle_cons]

@[simp] theorem endsIdle_pick : EndsIdle L rules (.pick c :: k) x ↔
    (c ∉ x.2 ∧ rules.mayPick x.1 c = true) ∧ EndsIdle L rules k x := by
  rw [endsIdle_cons]
  simp only [LockProg.check]
  split_ifs with h <;> simp [h]

@[simp] theorem endsIdle_user : EndsIdle L rules (.user :: k) x ↔ x = (rules.idle, []) ∧ EndsIdle L rules k x := by
  rw [endsIdle_cons]
  simp only [LockProg.check]
  split_ifs with h <;> simp [h]

@[simp] theorem endsIdle_seq : EndsIdle L rules (.seq p q :: k) x ↔ EndsIdle L rules (p :: q :: k) x := by
  simp only [endsIdle_cons, LockProg.check, Option.bind_eq_some_iff]
  constructor
  · rintro ⟨y, ⟨z, hp, hq⟩, hk⟩
    exact ⟨z, hp, y, hq, hk⟩
  · rintro ⟨z, hp, y, hq, hk⟩
    exact ⟨y, ⟨z, hp, hq⟩, hk⟩

@[simp] theorem endsIdle_risk : EndsIdle L rules (.risk a p q :: k) x ↔ EndsIdle L rules (q :: k) x := by
  simp [endsIdle_cons]

theorem endsIdle_alt (h : EndsIdle L rules (.alt p q :: k) x) : EndsIdle L rules (p :: k) x ∧ EndsIdle L rules (q :: k) x := by
  obtain ⟨y, hy, hk⟩ := endsIdle_cons.mp h
  obtain ⟨hp, hq⟩ := agree_eq_some hy
  exact ⟨endsIdle_cons.mpr ⟨y, hp, hk⟩, endsIdle_cons.mpr ⟨y, hq, hk⟩⟩

theorem endsIdle_loop (h : EndsIdle L rules (.loop p :: k) x) : EndsIdle L rules (p :: .loop p :: k) x ∧ EndsIdle L rules k x := by
  obtain ⟨y, hy, hk⟩ := endsIdle_cons.mp h
  obtain ⟨hp, hx⟩ := agree_eq_some hy
  rw [Option.some.injEq] at hx
  subst hx
  exact ⟨endsIdle_cons.mpr ⟨x, hp, h⟩, hk⟩

/-! ## What a step keeps -/

variable {free : C × ℕ → Prop} {th th' : Thread C A R} {d d' : D} {e : LockEvent A}

theorem Thread.Good.outside (h : th.Good L rules) (hout : th.Outside) : th.role = rules.idle ∧ th.held = [] := by
  obtain ⟨cs, hheld, hends⟩ := h.here
  have hidle : (th.role, cs) = (rules.idle, []) := by
    rcases hout with hnil | ⟨k, huser⟩
    · rwa [hnil, endsIdle_nil] at hends
    · rw [huser, endsIdle_user] at hends
      exact hends.1
  obtain ⟨hrole, hcs⟩ := Prod.mk.inj hidle
  refine ⟨hrole, ?_⟩
  rw [hheld, hcs]
  rfl

/-- Steps that avoid the risks stay within the rules. -/
theorem LocalStep.good (hbody : ∀ f, EndsIdle L rules [L.body f] (rules.idle, [])) (h : th.Good L rules)
    (hstep : LocalStep L free th d e th' d') (hrisk : ∀ a, e ≠ .risk a) : th'.Good L rules := by
  obtain ⟨⟨cs, hheld, hends⟩, hbelow⟩ := h
  cases hstep with
  | skip => exact ⟨⟨cs, hheld, endsIdle_skip.mp hends⟩, hbelow⟩
  | act => exact ⟨⟨cs, hheld, (endsIdle_act.mp hends).2⟩, hbelow⟩
  | lock => exact ⟨⟨_ :: cs, congrArg _ hheld, (endsIdle_lock.mp hends).2⟩, hbelow⟩
  | @unlock c _ obj =>
    refine ⟨⟨cs.erase c, ?_, (endsIdle_unlock.mp hends).2⟩, hbelow⟩
    rw [List.map_erase (obj_injective obj)]
    exact congrArg (List.erase · (c, obj c)) hheld
  | @pick c _ obj _ _ _ _ i =>
    obtain ⟨⟨hc, -⟩, hk⟩ := endsIdle_pick.mp hends
    refine ⟨⟨cs, hheld.trans (List.map_congr_left fun b hb => ?_), hk⟩, hbelow⟩
    exact congrArg (b, ·) (Function.update_of_ne (ne_of_mem_of_not_mem hb hc) i obj).symm
  | @call k obj fr held r _ f obj' =>
    obtain ⟨hx, hk⟩ := endsIdle_user.mp hends
    obtain ⟨hr, hcs⟩ := Prod.mk.inj hx
    dsimp only at hr hcs
    subst hr hcs
    refine ⟨⟨[], hheld, hbody f⟩, fun fr hfr => ?_⟩
    rcases List.mem_cons.mp hfr with rfl | hfr
    · exact endsIdle_user.mpr ⟨rfl, hk⟩
    · exact hbelow fr hfr
  | back => exact ⟨⟨cs, hheld, (endsIdle_user.mp hends).2⟩, hbelow⟩
  | ret =>
    obtain ⟨hr, hcs⟩ := Prod.mk.inj (endsIdle_nil.mp hends)
    dsimp only at hr hcs
    subst hr hcs
    exact ⟨⟨[], hheld, hbelow _ List.mem_cons_self⟩, fun fr hfr => hbelow fr (List.mem_cons_of_mem _ hfr)⟩
  | seq => exact ⟨⟨cs, hheld, endsIdle_seq.mp hends⟩, hbelow⟩
  | left => exact ⟨⟨cs, hheld, (endsIdle_alt hends).1⟩, hbelow⟩
  | right => exact ⟨⟨cs, hheld, (endsIdle_alt hends).2⟩, hbelow⟩
  | taken => exact absurd rfl (hrisk _)
  | passed => exact ⟨⟨cs, hheld, endsIdle_risk.mp hends⟩, hbelow⟩
  | again => exact ⟨⟨cs, hheld, (endsIdle_loop hends).1⟩, hbelow⟩
  | done => exact ⟨⟨cs, hheld, (endsIdle_loop hends).2⟩, hbelow⟩

/-- What a step does to the thread's objects, its role and the shared data. -/
theorem LocalStep.cases (h : th.Good L rules) (hstep : LocalStep L free th d e th' d') :
    (th'.obj = th.obj ∧ th'.role = th.role ∧ d' = d) ∨
    (∃ c i, rules.mayPick th.role c = true ∧ th'.obj = Function.update th.obj c i ∧ th'.role = th.role ∧ d' = d) ∨
    (∃ a, e = .act a ∧ rules.mayAct a th.role = true ∧ th'.obj = th.obj ∧ th'.role = L.next a th.role ∧
      L.effect a th.obj d = some d') ∨
    (th.role = rules.idle ∧ th'.role = rules.idle ∧ d' = d) := by
  obtain ⟨cs, -, hends⟩ := h.here
  cases hstep with
  | @act a _ _ _ _ _ _ _ heffect =>
    exact .inr (.inr (.inl ⟨a, rfl, (endsIdle_act.mp hends).1, rfl, rfl, heffect⟩))
  | @pick c _ _ _ _ _ _ i => exact .inr (.inl ⟨c, i, (endsIdle_pick.mp hends).1.2, rfl, rfl, rfl⟩)
  | call =>
    have hrole := (h.outside (.inr ⟨_, rfl⟩)).1
    exact .inr (.inr (.inr ⟨hrole, hrole, rfl⟩))
  | ret =>
    have hrole := (h.outside (.inl rfl)).1
    exact .inr (.inr (.inr ⟨hrole, hrole, rfl⟩))
  | skip | lock | unlock | back | seq | left | right | taken | passed | again | done => exact .inl ⟨rfl, rfl, rfl⟩

/-- A mutex that the rules let the thread take. -/
theorem Thread.Good.wants (h : th.Good L rules) {m : C × ℕ} (hm : th.wants = some m) :
    m = (m.1, th.obj m.1) ∧ ∃ cs, th.held = cs.map (fun c => (c, th.obj c)) ∧ rules.mayLock th.role cs m.1 = true := by
  obtain ⟨cs, hheld, hends⟩ := h.here
  unfold Thread.wants at hm
  split at hm
  · rename_i c k htodo
    rw [Option.some.injEq] at hm
    subst hm
    rw [htodo, endsIdle_lock] at hends
    exact ⟨rfl, cs, hheld, hends.1⟩
  · exact absurd hm nofun

end

/-! ## All threads -/

structure LockState (T C A R D : Type) where
  thread : T → Thread C A R
  shared : D

section

variable {T C A R D F : Type} {s : LockState T C A R D}

/-- Thread `t` waits for a mutex that thread `u` holds. -/
def WaitsFor (s : LockState T C A R D) (t u : T) : Prop := ∃ m, (s.thread t).wants = some m ∧ m ∈ (s.thread u).held

/-- Ranks that rise from an awaited mutex to the one its holder awaits leave no cycle; threads that hold nothing are not
awaited by others. -/
theorem no_cycle (rank : C → ℕ) (h : ∀ t u m m', (s.thread t).wants = some m → m ∈ (s.thread u).held →
      (s.thread u).wants = some m' → (s.thread t).held ≠ [] → rank m.1 < rank m'.1) (t : T) :
    ¬ Relation.TransGen (WaitsFor s) t t := by
  intro hcycle
  have hheld : ∀ {b c : T}, Relation.TransGen (WaitsFor s) b c → (s.thread c).held ≠ [] := by
    intro b c hbc
    obtain ⟨_, -, m, -, hm⟩ := Relation.TransGen.tail'_iff.mp hbc
    exact List.ne_nil_of_mem hm
  have hrise : ∀ u, Relation.TransGen (WaitsFor s) t u → ∀ m m', (s.thread t).wants = some m →
      (s.thread u).wants = some m' → rank m.1 < rank m'.1 := by
    intro u hu
    induction hu with
    | single hwait =>
      intro m m' hm hm'
      obtain ⟨m₁, hm₁, hmem⟩ := hwait
      rw [hm, Option.some.injEq] at hm₁
      subst hm₁
      exact h _ _ _ _ hm hmem hm' (hheld hcycle)
    | tail hb hwait ih =>
      intro m m' hm hm'
      obtain ⟨m₁, hm₁, hmem⟩ := hwait
      exact Nat.lt_trans (ih m m₁ hm hm₁) (h _ _ _ _ hm₁ hmem hm' (hheld hb))
  obtain ⟨_, ⟨m, hm, -⟩, -⟩ := Relation.TransGen.head'_iff.mp hcycle
  exact absurd (hrise t hcycle m m hm hm) (Nat.lt_irrefl _)

end

section

variable {T C A R D F : Type} [DecidableEq T] [DecidableEq C]

/-- Some thread takes a step. -/
inductive LockStep (L : LockSystem C A R D F) : LockState T C A R D → T × LockEvent A → LockState T C A R D → Prop where
  | step {s : LockState T C A R D} {t : T} {e : LockEvent A} {th : Thread C A R} {d : D}
      (h : LocalStep L (fun m => ∀ u, m ∉ (s.thread u).held) (s.thread t) s.shared e th d) :
      LockStep L s (t, e) ⟨Function.update s.thread t th, d⟩

/-- Every thread keeps to the rules, as long as no risk is taken. -/
theorem LockStep.good [DecidableEq R] {L : LockSystem C A R D F} {rules : LockRules C A R} {s s' : LockState T C A R D}
    {l : T × LockEvent A} (hbody : ∀ f, EndsIdle L rules [L.body f] (rules.idle, [])) (h : ∀ t, (s.thread t).Good L rules)
    (hstep : LockStep L s l s') (hrisk : ∀ a, l.2 ≠ .risk a) (t : T) : (s'.thread t).Good L rules := by
  cases hstep with
  | @step u e th d hlocal =>
    show ((Function.update s.thread u th) t).Good L rules
    by_cases ht : t = u
    · rw [ht, Function.update_self]
      exact hlocal.good hbody (h u) hrisk
    · rw [Function.update_of_ne ht]
      exact h t

end

/-! ## Computed runs -/

/-- What a thread does next where its program leaves it open: the second branch instead of the first, another pass of a loop,
the branch of a risk (`other`), the object to go over to, or the function that user code calls. -/
inductive LockChoice (F : Type) where
  | go
  | other
  | goTo (i : ℕ)
  | call (f : F)

section

variable {T C A R D F : Type} [DecidableEq T] [Fintype T] [DecidableEq C] (L : LockSystem C A R D F)

def localExec (free : C × ℕ → Bool) (th : Thread C A R) (d : D) : LockChoice F → Option (LockEvent A × Thread C A R × D)
  | .go =>
    match th.todo with
    | .skip :: k => some (.silent, ⟨k, th.obj, th.callers, th.held, th.role⟩, d)
    | .act a :: k => (L.effect a th.obj d).map fun d' => (.act a, ⟨k, th.obj, th.callers, th.held, L.next a th.role⟩, d')
    | .lock c :: k =>
      if free (c, th.obj c) = true then some (.silent, ⟨k, th.obj, th.callers, (c, th.obj c) :: th.held, th.role⟩, d) else none
    | .unlock c :: k => some (.silent, ⟨k, th.obj, th.callers, th.held.erase (c, th.obj c), th.role⟩, d)
    | .pick _ :: _ => none
    | .user :: k => some (.silent, ⟨k, th.obj, th.callers, th.held, th.role⟩, d)
    | .seq p q :: k => some (.silent, ⟨p :: q :: k, th.obj, th.callers, th.held, th.role⟩, d)
    | .alt p _ :: k => some (.silent, ⟨p :: k, th.obj, th.callers, th.held, th.role⟩, d)
    | .risk _ _ q :: k => some (.silent, ⟨q :: k, th.obj, th.callers, th.held, th.role⟩, d)
    | .loop _ :: k => some (.silent, ⟨k, th.obj, th.callers, th.held, th.role⟩, d)
    | [] =>
      match th.callers with
      | fr :: frs => some (.silent, ⟨fr.1, fr.2, frs, th.held, th.role⟩, d)
      | [] => none
  | .other =>
    match th.todo with
    | .alt _ q :: k => some (.silent, ⟨q :: k, th.obj, th.callers, th.held, th.role⟩, d)
    | .risk a p _ :: k => some (.risk a, ⟨p :: k, th.obj, th.callers, th.held, th.role⟩, d)
    | .loop p :: k => some (.silent, ⟨p :: .loop p :: k, th.obj, th.callers, th.held, th.role⟩, d)
    | _ => none
  | .goTo i =>
    match th.todo with
    | .pick c :: k => some (.silent, ⟨k, Function.update th.obj c i, th.callers, th.held, th.role⟩, d)
    | _ => none
  | .call f =>
    match th.todo with
    | .user :: k => some (.silent, ⟨[L.body f], th.obj, (.user :: k, th.obj) :: th.callers, th.held, th.role⟩, d)
    | _ => none

/-- A thread makes its choices, and after each of them as many steps as given. -/
def runFor (t : T) (chs : List (LockChoice F × ℕ)) : List (T × LockChoice F) :=
  chs.flatMap fun x => (t, x.1) :: List.replicate x.2 (t, .go)

/-- The state after the choices, if each is possible and its step passes the test `G`. -/
def lockExec (G : LockState T C A R D → T × LockEvent A → Bool) (s : LockState T C A R D) :
    List (T × LockChoice F) → Option (LockState T C A R D)
  | [] => some s
  | (t, ch) :: chs =>
    (localExec L (fun m => decide (∀ u, m ∉ (s.thread u).held)) (s.thread t) s.shared ch).bind fun x =>
      if G s (t, x.1) = true then lockExec G ⟨Function.update s.thread t x.2.1, x.2.2⟩ chs else none

variable {L} {G : LockState T C A R D → T × LockEvent A → Bool} {s s' : LockState T C A R D}

theorem localExec_step {free : C × ℕ → Bool} {th : Thread C A R} {d : D} {ch : LockChoice F} {x : LockEvent A × Thread C A R × D}
    (h : localExec L free th d ch = some x) : LocalStep L (fun m => free m = true) th d x.1 x.2.1 x.2.2 := by
  obtain ⟨todo, obj, callers, held, role⟩ := th
  cases ch with
  | go =>
    simp only [localExec] at h
    split at h
    · cases h; exact .skip
    · obtain ⟨d', hd, rfl⟩ := Option.map_eq_some_iff.mp h
      exact .act hd
    · split_ifs at h with hfree
      cases h
      exact .lock hfree
    · cases h; exact .unlock
    · cases h
    · cases h; exact .back
    · cases h; exact .seq
    · cases h; exact .left
    · cases h; exact .passed
    · cases h; exact .done
    · split at h
      · cases h; exact .ret
      · cases h
  | other =>
    simp only [localExec] at h
    split at h
    · cases h; exact .right
    · cases h; exact .taken
    · cases h; exact .again
    · cases h
  | goTo i =>
    simp only [localExec] at h
    split at h
    · cases h; exact .pick i
    · cases h
  | call f =>
    simp only [localExec] at h
    split at h
    · cases h; exact .call f _
    · cases h

theorem lockExec_run {chs : List (T × LockChoice F)} (h : lockExec L G s chs = some s') :
    ∃ ls, Run (LockStep L) (fun s l => G s l = true) s ls s' := by
  induction chs generalizing s with
  | nil =>
    cases h
    exact ⟨[], .nil _⟩
  | cons c chs ih =>
    obtain ⟨t, ch⟩ := c
    obtain ⟨x, hx, hrest⟩ := Option.bind_eq_some_iff.mp h
    split_ifs at hrest with hG
    obtain ⟨ls, hls⟩ := ih hrest
    have hlocal : LocalStep L (fun m => ∀ u, m ∉ (s.thread u).held) (s.thread t) s.shared x.1 x.2.1 x.2.2 := by
      simpa only [decide_eq_true_eq] using localExec_step hx
    exact ⟨(t, x.1) :: ls, .cons hG (.step hlocal) hls⟩

theorem lockExec_reaches {chs : List (T × LockChoice F)} {P : LockState T C A R D → Bool}
    (h : (lockExec L G s chs).any P = true) : ∃ ls s', Run (LockStep L) (fun s l => G s l = true) s ls s' ∧ P s' = true := by
  obtain ⟨s', hs', hP⟩ := (Option.any_eq_true _ _).mp h
  obtain ⟨ls, hls⟩ := lockExec_run hs'
  exact ⟨ls, s', hls, hP⟩

end

end OpenUsb
