import Mathlib

/-!
# EventProg — loop programs with an event log

A `Prog ε α` is a deterministic program that logs events of type `ε` and may return a value of type `α`.  It is
run with a bound `n` on the rounds of its loops; `mono` says that a larger bound only extends the log, and changes
nothing once the program has returned.  So a program that never returns still has a log, the union of its logs.

* `Returns p a`: `p` returns `a`, for some bound.
* `Logs p e`: `p` logs `e`, whether it returns or not.
* `Emits P p`: every event that `p` logs satisfies `P`.
* `Ends P Q p`: `p` returns, and `Q` relates what it returns to whether all its events satisfy `P`.
* `Decides p Q`: `p` returns whether `Q` holds.

The rules below give `Returns` and `Logs` of a compound program from those of its parts; no proof about a program
needs the bound.
-/

namespace OpenUsb

/-- One round of a loop: go round again with a new state, or leave with a result. -/
inductive Round (σ α : Type) where
  | again (s : σ)
  | leave (a : α)

/-- A program that logs events; `run n` is its log and its result when every loop runs at most `n` rounds. -/
@[ext] structure Prog (ε α : Type) where
  run : ℕ → List ε × Option α
  mono : ∀ n, (run n).1 <+: (run (n + 1)).1 ∧ ∀ a, (run n).2 = some a → run (n + 1) = run n

namespace Prog

variable {ε α β σ : Type}

/-! ## Running longer -/

theorem run_le (p : Prog ε α) {n m : ℕ} (h : n ≤ m) : (p.run n).1 <+: (p.run m).1 := by
  induction h with
  | refl => exact List.prefix_rfl
  | step _ ih => exact ih.trans (p.mono _).1

theorem run_of_some (p : Prog ε α) {n m : ℕ} {a : α} (ha : (p.run n).2 = some a) (h : n ≤ m) :
    p.run m = p.run n := by
  induction h with
  | refl => rfl
  | step _ ih => rw [(p.mono _).2 a (by rw [ih]; exact ha), ih]

/-! ## Constructors -/

/-- Return at once. -/
protected def pure (a : α) : Prog ε α := ⟨fun _ => ([], some a), fun _ => ⟨List.prefix_rfl, fun _ _ => rfl⟩⟩

/-- Log a list of events. -/
def emitAll (l : List ε) : Prog ε Unit := ⟨fun _ => (l, some ()), fun _ => ⟨List.prefix_rfl, fun _ _ => rfl⟩⟩

/-- Log one event. -/
def emit (e : ε) : Prog ε Unit := emitAll [e]

/-- Hand the result of a bounded run on to `k`. -/
def seqRun (r : List ε × Option α) (k : α → List ε × Option β) : List ε × Option β :=
  match r.2 with
  | none => (r.1, none)
  | some a => (r.1 ++ (k a).1, (k a).2)

theorem seqRun_none {r : List ε × Option α} {k : α → List ε × Option β} (h : r.2 = none) :
    seqRun r k = (r.1, none) := by
  simp [seqRun, h]

theorem seqRun_some {r : List ε × Option α} {k : α → List ε × Option β} {a : α} (h : r.2 = some a) :
    seqRun r k = (r.1 ++ (k a).1, (k a).2) := by
  simp [seqRun, h]

/-- Sequencing is monotone in the bound when the continuation is. -/
theorem seqRun_mono (p : Prog ε α) {k k' : α → List ε × Option β} (n : ℕ)
    (hk : ∀ a, (k a).1 <+: (k' a).1 ∧ ∀ b, (k a).2 = some b → k' a = k a) :
    (seqRun (p.run n) k).1 <+: (seqRun (p.run (n + 1)) k').1 ∧
      ∀ b, (seqRun (p.run n) k).2 = some b → seqRun (p.run (n + 1)) k' = seqRun (p.run n) k := by
  cases hp : (p.run n).2 with
  | none =>
    rw [seqRun_none hp]
    refine ⟨?_, fun b hb => by cases hb⟩
    cases hp' : (p.run (n + 1)).2 with
    | none => rw [seqRun_none hp']; exact (p.mono n).1
    | some a => rw [seqRun_some hp']; exact (p.mono n).1.trans (List.prefix_append _ _)
  | some a =>
    have hrun : p.run (n + 1) = p.run n := (p.mono n).2 a hp
    rw [hrun, seqRun_some hp, seqRun_some hp]
    refine ⟨(List.prefix_append_right_inj _).mpr (hk a).1, fun b hb => ?_⟩
    rw [(hk a).2 b hb]

/-- Run `p`, then `f` on its result. -/
protected def bind (p : Prog ε α) (f : α → Prog ε β) : Prog ε β :=
  ⟨fun n => seqRun (p.run n) fun a => (f a).run n, fun n => seqRun_mono p n fun a => (f a).mono n⟩

instance : Monad (Prog ε) where
  pure := Prog.pure
  bind := Prog.bind

/-- The rounds of a loop: the bound limits both their number and the loops inside a round. -/
def loopRun (body : σ → Prog ε (Round σ α)) : ℕ → σ → List ε × Option α
  | 0, _ => ([], none)
  | n + 1, s => seqRun ((body s).run n) fun r =>
      match r with
      | .again s' => loopRun body n s'
      | .leave a => ([], some a)

theorem loopRun_mono (body : σ → Prog ε (Round σ α)) : ∀ (n : ℕ) (s : σ),
    (loopRun body n s).1 <+: (loopRun body (n + 1) s).1 ∧
      ∀ a, (loopRun body n s).2 = some a → loopRun body (n + 1) s = loopRun body n s
  | 0, s => by
    refine ⟨List.nil_prefix, fun a h => ?_⟩
    simp [loopRun] at h
  | n + 1, s => by
    rw [loopRun, loopRun]
    refine seqRun_mono (body s) n fun r => ?_
    cases r with
    | again s' => exact loopRun_mono body n s'
    | leave a => exact ⟨List.prefix_rfl, fun _ _ => rfl⟩

/-- `while (1) { body }`: run `body` on the state until a round leaves. -/
def loop (body : σ → Prog ε (Round σ α)) (s : σ) : Prog ε α :=
  ⟨fun n => loopRun body n s, fun n => loopRun_mono body n s⟩

/-! ## What a program returns and what it logs -/

/-- `p` returns `a`. -/
def Returns (p : Prog ε α) (a : α) : Prop := ∃ n, (p.run n).2 = some a

/-- `p` logs `e`. -/
def Logs (p : Prog ε α) (e : ε) : Prop := ∃ n, e ∈ (p.run n).1

/-- `p` returns. -/
def Halts (p : Prog ε α) : Prop := ∃ a, p.Returns a

/-- Every event that `p` logs satisfies `P`. -/
def Emits (P : ε → Prop) (p : Prog ε α) : Prop := ∀ e, p.Logs e → P e

theorem Returns.unique {p : Prog ε α} {a b : α} (ha : p.Returns a) (hb : p.Returns b) : a = b := by
  obtain ⟨n, hn⟩ := ha
  obtain ⟨m, hm⟩ := hb
  rcases Nat.le_total n m with h | h
  · rw [p.run_of_some hn h, hn] at hm
    exact Option.some_inj.mp hm
  · rw [p.run_of_some hm h, hm] at hn
    exact (Option.some_inj.mp hn).symm

@[simp] theorem returns_pure {a b : α} : (pure a : Prog ε α).Returns b ↔ a = b :=
  ⟨fun ⟨_, h⟩ => Option.some_inj.mp h, fun h => ⟨0, congrArg some h⟩⟩

@[simp] theorem logs_pure {a : α} {e : ε} : ¬ (pure a : Prog ε α).Logs e :=
  fun ⟨_, h⟩ => List.not_mem_nil h

@[simp] theorem returns_emitAll {l : List ε} {u : Unit} : (emitAll l).Returns u := ⟨0, rfl⟩

@[simp] theorem logs_emitAll {l : List ε} {e : ε} : (emitAll l).Logs e ↔ e ∈ l :=
  ⟨fun ⟨_, h⟩ => h, fun h => ⟨0, h⟩⟩

@[simp] theorem returns_emit {e : ε} {u : Unit} : (emit e).Returns u := ⟨0, rfl⟩

@[simp] theorem logs_emit {e e' : ε} : (emit e).Logs e' ↔ e' = e := by
  rw [emit, logs_emitAll, List.mem_singleton]

@[simp] theorem returns_bind {p : Prog ε α} {f : α → Prog ε β} {b : β} :
    (p >>= f).Returns b ↔ ∃ a, p.Returns a ∧ (f a).Returns b := by
  constructor
  · rintro ⟨n, h⟩
    change (seqRun (p.run n) _).2 = some b at h
    cases hp : (p.run n).2 with
    | none => rw [seqRun_none hp] at h; cases h
    | some a => rw [seqRun_some hp] at h; exact ⟨a, ⟨n, hp⟩, n, h⟩
  · rintro ⟨a, ⟨n, hp⟩, m, hf⟩
    refine ⟨max n m, ?_⟩
    show (seqRun (p.run (max n m)) _).2 = some b
    rw [p.run_of_some hp (Nat.le_max_left n m), seqRun_some hp, (f a).run_of_some hf (Nat.le_max_right n m)]
    exact hf

@[simp] theorem logs_bind {p : Prog ε α} {f : α → Prog ε β} {e : ε} :
    (p >>= f).Logs e ↔ p.Logs e ∨ ∃ a, p.Returns a ∧ (f a).Logs e := by
  constructor
  · rintro ⟨n, h⟩
    change e ∈ (seqRun (p.run n) _).1 at h
    cases hp : (p.run n).2 with
    | none => rw [seqRun_none hp] at h; exact Or.inl ⟨n, h⟩
    | some a =>
      rw [seqRun_some hp] at h
      exact (List.mem_append.mp h).imp (fun h => ⟨n, h⟩) fun h => ⟨a, ⟨n, hp⟩, n, h⟩
  · rintro (⟨n, h⟩ | ⟨a, ⟨n, hp⟩, m, h⟩)
    · refine ⟨n, ?_⟩
      show e ∈ (seqRun (p.run n) _).1
      cases hp : (p.run n).2 with
      | none => rw [seqRun_none hp]; exact h
      | some a => rw [seqRun_some hp]; exact List.mem_append_left _ h
    · refine ⟨max n m, ?_⟩
      show e ∈ (seqRun (p.run (max n m)) _).1
      rw [p.run_of_some hp (Nat.le_max_left n m), seqRun_some hp]
      exact List.mem_append_right _ (((f a).run_le (Nat.le_max_right n m)).subset h)

theorem returns_loop {body : σ → Prog ε (Round σ α)} {s : σ} {a : α} :
    (loop body s).Returns a ↔
      (body s).Returns (.leave a) ∨ ∃ s', (body s).Returns (.again s') ∧ (loop body s').Returns a := by
  constructor
  · rintro ⟨n, h⟩
    change (loopRun body n s).2 = some a at h
    cases n with
    | zero => simp [loopRun] at h
    | succ n =>
      rw [loopRun] at h
      cases hb : ((body s).run n).2 with
      | none => rw [seqRun_none hb] at h; cases h
      | some r =>
        rw [seqRun_some hb] at h
        cases r with
        | again s' => exact Or.inr ⟨s', ⟨n, hb⟩, n, h⟩
        | leave a' => cases h; exact Or.inl ⟨n, hb⟩
  · rintro (⟨n, hb⟩ | ⟨s', ⟨n, hb⟩, m, h⟩)
    · refine ⟨n + 1, ?_⟩
      show (loopRun body (n + 1) s).2 = some a
      rw [loopRun, seqRun_some hb]
    · refine ⟨max n m + 1, ?_⟩
      show (loopRun body (max n m + 1) s).2 = some a
      rw [loopRun, (body s).run_of_some hb (Nat.le_max_left n m), seqRun_some hb]
      show ((loop body s').run (max n m)).2 = some a
      rw [(loop body s').run_of_some h (Nat.le_max_right n m)]
      exact h

theorem logs_loop {body : σ → Prog ε (Round σ α)} {s : σ} {e : ε} :
    (loop body s).Logs e ↔
      (body s).Logs e ∨ ∃ s', (body s).Returns (.again s') ∧ (loop body s').Logs e := by
  constructor
  · rintro ⟨n, h⟩
    change e ∈ (loopRun body n s).1 at h
    cases n with
    | zero => simp [loopRun] at h
    | succ n =>
      rw [loopRun] at h
      cases hb : ((body s).run n).2 with
      | none => rw [seqRun_none hb] at h; exact Or.inl ⟨n, h⟩
      | some r =>
        rw [seqRun_some hb] at h
        rcases List.mem_append.mp h with h | h
        · exact Or.inl ⟨n, h⟩
        · cases r with
          | again s' => exact Or.inr ⟨s', ⟨n, hb⟩, n, h⟩
          | leave a' => simp at h
  · rintro (⟨n, h⟩ | ⟨s', ⟨n, hb⟩, m, h⟩)
    · refine ⟨n + 1, ?_⟩
      show e ∈ (loopRun body (n + 1) s).1
      rw [loopRun]
      cases hb : ((body s).run n).2 with
      | none => rw [seqRun_none hb]; exact h
      | some r => rw [seqRun_some hb]; exact List.mem_append_left _ h
    · refine ⟨max n m + 1, ?_⟩
      show e ∈ (loopRun body (max n m + 1) s).1
      rw [loopRun, (body s).run_of_some hb (Nat.le_max_left n m), seqRun_some hb]
      exact List.mem_append_right _ (((loop body s').run_le (Nat.le_max_right n m)).subset h)

/-- What a program that returns `a` hands on is what a continuation starts from. -/
theorem Returns.bind_iff {p : Prog ε α} {a : α} (h : p.Returns a) {f : α → Prog ε β} {b : β} :
    (p >>= f).Returns b ↔ (f a).Returns b := by
  rw [returns_bind]
  constructor
  · rintro ⟨a', h', hf⟩
    rwa [h.unique h']
  · exact fun hf => ⟨a, h, hf⟩

theorem returns_emit_bind {e : ε} {f : Unit → Prog ε β} {b : β} : (emit e >>= f).Returns b ↔ (f ()).Returns b :=
  (returns_emit (u := ())).bind_iff

/-! ## Rules for loops -/

/-- Induction on the rounds of a loop that returns `a`. -/
theorem Returns.loop_rec {body : σ → Prog ε (Round σ α)} {a : α} {C : σ → Prop}
    (hleave : ∀ s, (body s).Returns (.leave a) → C s)
    (hagain : ∀ s s', (body s).Returns (.again s') → (loop body s').Returns a → C s' → C s) {s : σ}
    (h : (loop body s).Returns a) : C s := by
  obtain ⟨n, h⟩ := h
  change (loopRun body n s).2 = some a at h
  induction n generalizing s with
  | zero => simp [loopRun] at h
  | succ n ih =>
    rw [loopRun] at h
    cases hb : ((body s).run n).2 with
    | none => rw [seqRun_none hb] at h; cases h
    | some r =>
      rw [seqRun_some hb] at h
      cases r with
      | again s' => exact hagain s s' ⟨n, hb⟩ ⟨n, h⟩ (ih h)
      | leave a' => cases h; exact hleave s ⟨n, hb⟩

/-- An invariant of the rounds holds in the round that leaves. -/
theorem Returns.loop_inv {body : σ → Prog ε (Round σ α)} {I : σ → Prop}
    (hstep : ∀ s s', I s → (body s).Returns (.again s') → I s') {s : σ} (hs : I s) {a : α}
    (h : (loop body s).Returns a) : ∃ s', I s' ∧ (body s').Returns (.leave a) :=
  Returns.loop_rec (C := fun s => I s → ∃ s', I s' ∧ (body s').Returns (.leave a)) (fun s hb hs => ⟨s, hs, hb⟩)
    (fun s s' hb _ ih hs => ih (hstep s s' hs hb)) h hs

/-- What a loop logs is logged by a round that an invariant covers. -/
theorem Logs.loop_inv {body : σ → Prog ε (Round σ α)} {I : σ → Prop}
    (hstep : ∀ s s', I s → (body s).Returns (.again s') → I s') {s : σ} (hs : I s) {e : ε}
    (h : (loop body s).Logs e) : ∃ s', I s' ∧ (body s').Logs e := by
  obtain ⟨n, h⟩ := h
  change e ∈ (loopRun body n s).1 at h
  induction n generalizing s with
  | zero => simp [loopRun] at h
  | succ n ih =>
    rw [loopRun] at h
    cases hb : ((body s).run n).2 with
    | none => rw [seqRun_none hb] at h; exact ⟨s, hs, n, h⟩
    | some r =>
      rw [seqRun_some hb] at h
      rcases List.mem_append.mp h with h | h
      · exact ⟨s, hs, n, h⟩
      · cases r with
        | again s' => exact ih (hstep s s' hs ⟨n, hb⟩) h
        | leave a' => simp at h

/-! ## Rules for event properties -/

section Emits

variable {P Q : ε → Prop} {p : Prog ε α} {f : α → Prog ε β}

@[simp] theorem emits_pure {a : α} : Emits P (pure a : Prog ε α) := fun _ h => absurd h logs_pure

@[simp] theorem emits_emitAll {l : List ε} : Emits P (emitAll l) ↔ ∀ e ∈ l, P e := by simp [Emits]

@[simp] theorem emits_emit {e : ε} : Emits P (emit e) ↔ P e := by simp [Emits]

theorem emits_bind : Emits P (p >>= f) ↔ Emits P p ∧ ∀ a, p.Returns a → Emits P (f a) := by
  constructor
  · exact fun h => ⟨fun e he => h e (logs_bind.mpr (Or.inl he)),
      fun a ha e he => h e (logs_bind.mpr (Or.inr ⟨a, ha, he⟩))⟩
  · rintro ⟨hp, hf⟩ e he
    rcases logs_bind.mp he with he | ⟨a, ha, he⟩
    · exact hp e he
    · exact hf a ha e he

theorem Returns.emits_bind_iff {a : α} (h : p.Returns a) : Emits P (p >>= f) ↔ Emits P p ∧ Emits P (f a) := by
  rw [emits_bind]
  refine and_congr_right fun _ => ⟨fun hf => hf a h, ?_⟩
  intro hf a' h'
  rwa [← h.unique h']

/-- A part that keeps `P` and returns `a`. -/
theorem Returns.emits_behind {a : α} (h : p.Returns a) (hp : Emits P p) : Emits P (p >>= f) ↔ Emits P (f a) :=
  h.emits_bind_iff.trans (and_iff_right hp)

/-- Parts that keep `P`, whatever comes before them returns. -/
theorem emits_before (hf : ∀ a, p.Returns a → Emits P (f a)) : Emits P (p >>= f) ↔ Emits P p :=
  emits_bind.trans (and_iff_left hf)

theorem emits_emit_bind {e : ε} {f : Unit → Prog ε β} : Emits P (emit e >>= f) ↔ P e ∧ Emits P (f ()) := by
  rw [(returns_emit (u := ())).emits_bind_iff, emits_emit]

theorem Emits.mono (h : Emits P p) (hPQ : ∀ e, P e → Q e) : Emits Q p := fun e he => hPQ e (h e he)

theorem emits_loop {body : σ → Prog ε (Round σ α)} {s : σ} : Emits P (loop body s) ↔
    Emits P (body s) ∧ ∀ s', (body s).Returns (.again s') → Emits P (loop body s') := by
  constructor
  · exact fun h => ⟨fun e he => h e (logs_loop.mpr (Or.inl he)),
      fun s' hs' e he => h e (logs_loop.mpr (Or.inr ⟨s', hs', he⟩))⟩
  · rintro ⟨hb, hl⟩ e he
    rcases logs_loop.mp he with he | ⟨s', hs', he⟩
    · exact hb e he
    · exact hl s' hs' e he

/-- The event rule for loops: if the rounds keep an invariant as long as their events satisfy `P`, and then their events
satisfy `Q`, then so do those of the loop. -/
theorem Emits.loop_inv {body : σ → Prog ε (Round σ α)} {I : σ → Prop}
    (hbody : ∀ s, I s → Emits P (body s) → Emits Q (body s))
    (hstep : ∀ s s', I s → Emits P (body s) → (body s).Returns (.again s') → I s') {s : σ} (hs : I s)
    (h : Emits P (loop body s)) : Emits Q (loop body s) := by
  intro e he
  obtain ⟨s', ⟨hI, hP⟩, he⟩ := Logs.loop_inv (I := fun s => I s ∧ Emits P (loop body s))
    (fun s s' ⟨hI, hP⟩ hs' => ⟨hstep s s' hI (emits_loop.mp hP).1 hs', (emits_loop.mp hP).2 s' hs'⟩) ⟨hs, h⟩ he
  exact hbody s' hI (emits_loop.mp hP).1 e he

theorem halts_pure {a : α} : (pure a : Prog ε α).Halts := ⟨a, returns_pure.mpr rfl⟩

theorem Returns.halts_bind_iff {a : α} (h : p.Returns a) : (p >>= f).Halts ↔ (f a).Halts :=
  exists_congr fun _ => h.bind_iff

theorem halts_emit_bind_iff {e : ε} {f : Unit → Prog ε β} : (emit e >>= f).Halts ↔ (f ()).Halts :=
  exists_congr fun _ => returns_emit_bind

end Emits

/-! ## Rules for results -/

/-- `p` returns some `a` for which `Q a` holds of the proposition that all events of `p` satisfy `P`. -/
def Ends (P : ε → Prop) (Q : α → Prop → Prop) (p : Prog ε α) : Prop := ∃ a, p.Returns a ∧ Q a (Emits P p)

section Ends

variable {P : ε → Prop} {Q : α → Prop → Prop} {R : β → Prop → Prop} {p : Prog ε α} {f : α → Prog ε β}

theorem Ends.halts (h : Ends P Q p) : p.Halts := h.imp fun _ ha => ha.1

theorem Ends.of_returns (h : Ends P Q p) {a : α} (ha : p.Returns a) : Q a (Emits P p) := by
  obtain ⟨a', ha', hQ⟩ := h
  rwa [← ha'.unique ha]

theorem Ends.mono (h : Ends P Q p) {Q' : α → Prop → Prop} (hQ : ∀ a x, Q a x → Q' a x) : Ends P Q' p :=
  h.imp fun a ha => ⟨ha.1, hQ a _ ha.2⟩

/-- Keep hold of the events. -/
theorem Ends.emits (h : Ends P Q p) : Ends P (fun a x => (x → Emits P p) ∧ Q a x) p :=
  h.imp fun _ ha => ⟨ha.1, id, ha.2⟩

theorem ends_pure {a : α} (h : Q a True) : Ends P Q (pure a : Prog ε α) :=
  ⟨a, returns_pure.mpr rfl, by rwa [eq_true (emits_pure (P := P) (a := a))]⟩

theorem Ends.bind (h : Ends P Q p) (hf : ∀ a x, Q a x → Ends P (fun b y => R b (x ∧ y)) (f a)) :
    Ends P R (p >>= f) := by
  obtain ⟨a, ha, hQ⟩ := h
  obtain ⟨b, hb, hR⟩ := hf a _ hQ
  exact ⟨b, ha.bind_iff.mpr hb, by rwa [propext ha.emits_bind_iff]⟩

/-- A part whose events all satisfy `P`. -/
theorem Returns.ends_bind {a : α} (h : p.Returns a) (he : Emits P p) (hf : Ends P R (f a)) : Ends P R (p >>= f) := by
  obtain ⟨b, hb, hR⟩ := hf
  exact ⟨b, h.bind_iff.mpr hb, by rwa [propext h.emits_bind_iff, eq_true he, true_and]⟩

theorem ends_emit_bind {e : ε} {f : Unit → Prog ε β} (hf : Ends P (fun b y => R b (P e ∧ y)) (f ())) :
    Ends P R (emit e >>= f) := by
  obtain ⟨b, hb, hR⟩ := hf
  exact ⟨b, returns_emit_bind.mpr hb, by rwa [propext emits_emit_bind]⟩

/-- An event that satisfies `P`. -/
theorem ends_emit_bind_of {e : ε} {f : Unit → Prog ε β} (he : P e) (hf : Ends P R (f ())) : Ends P R (emit e >>= f) :=
  (returns_emit (u := ())).ends_bind (emits_emit.mpr he) hf

/-- The rule for loops: an invariant, a measure that the rounds that go on decrease, and no bad event in those. -/
theorem ends_loop {body : σ → Prog ε (Round σ α)} {I : σ → Prop} (μ : σ → ℕ)
    (hbody : ∀ s, I s → Ends P (fun r x => match r with
      | .again s' => x ∧ I s' ∧ μ s' < μ s
      | .leave a => Q a x) (body s)) {s : σ} (hs : I s) : Ends P Q (loop body s) := by
  induction hn : μ s using Nat.strongRecOn generalizing s with
  | ind n ih =>
    obtain ⟨r, hr, hQ⟩ := hbody s hs
    cases r with
    | leave a =>
      have hem : Emits P (loop body s) ↔ Emits P (body s) := by
        rw [emits_loop]
        refine and_iff_left_of_imp fun _ s' hs' => ?_
        cases hr.unique hs'
      exact ⟨a, returns_loop.mpr (Or.inl hr), by rwa [propext hem]⟩
    | again s' =>
      obtain ⟨hx, hI, hlt⟩ := hQ
      obtain ⟨a, ha, hQ⟩ := ih (μ s') (hn ▸ hlt) hI rfl
      have hem : Emits P (loop body s) ↔ Emits P (loop body s') := by
        rw [emits_loop]
        constructor
        · exact fun h => h.2 s' hr
        · refine fun h => ⟨hx, fun s'' hs'' => ?_⟩
          cases hr.unique hs''
          exact h
      exact ⟨a, returns_loop.mpr (Or.inr ⟨s', hr, ha⟩), by rwa [propext hem]⟩

end Ends

/-! ## Loops that search -/

/-- `for (j = k; n times; j++) if (f j) return 1;`. -/
def anyOf (f : ℕ → Prog ε Bool) : ℕ → ℕ → Prog ε Bool
  | 0, _ => pure false
  | n + 1, k => do
    let found ← f k
    if found then pure true else anyOf f n (k + 1)

/-- `p` returns, and says whether `Q` holds. -/
def Decides (p : Prog ε Bool) (Q : Prop) : Prop := ∃ b, p.Returns b ∧ (b = true ↔ Q)

section Decides

variable {p : Prog ε α} {f : α → Prog ε Bool} {g : Prog ε Bool} {Q R : Prop}

theorem decides_pure {b : Bool} (h : b = true ↔ Q) : Decides (pure b : Prog ε Bool) Q := ⟨b, returns_pure.mpr rfl, h⟩

theorem Decides.congr (h : Decides g Q) (hQR : Q ↔ R) : Decides g R := h.imp fun _ hb => ⟨hb.1, hb.2.trans hQR⟩

theorem Returns.decides_bind {a : α} (h : p.Returns a) (hf : Decides (f a) Q) : Decides (p >>= f) Q :=
  hf.imp fun _ hb => ⟨h.bind_iff.mpr hb.1, hb.2⟩

/-- A loop that searches says whether one of its rounds finds something. -/
theorem decides_anyOf {f : ℕ → Prog ε Bool} {Q : ℕ → Prop} {n k : ℕ}
    (h : ∀ j, k ≤ j → j < k + n → Decides (f j) (Q j)) : Decides (anyOf f n k) (∃ j, k ≤ j ∧ j < k + n ∧ Q j) := by
  induction n generalizing k with
  | zero =>
    refine decides_pure ⟨nofun, ?_⟩
    rintro ⟨j, hk, hj, -⟩
    omega
  | succ n ih =>
    obtain ⟨b, hb, hQ⟩ := h k le_rfl (by omega)
    refine hb.decides_bind ?_
    cases b with
    | true => exact decides_pure ⟨fun _ => ⟨k, le_rfl, by omega, hQ.mp rfl⟩, fun _ => rfl⟩
    | false =>
      have hnot : ¬ Q k := fun hk => absurd (hQ.mpr hk) nofun
      refine (ih fun j hk hj => h j (by omega) (by omega)).congr ⟨?_, ?_⟩
      · rintro ⟨j, hk, hj, hq⟩
        exact ⟨j, by omega, by omega, hq⟩
      · rintro ⟨j, hk, hj, hq⟩
        have hne : j ≠ k := fun heq => hnot (heq ▸ hq)
        exact ⟨j, by omega, by omega, hq⟩

end Decides

end Prog

end OpenUsb
