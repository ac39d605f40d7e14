import OpenUsb.MultiRequest

/-!
# MultiRegistry — the multi-requests on the `m_head` list of a device handle

`openusb_start` creates the worker before it takes the lock of the device handle and puts the record on `m_head`, so it is
two steps, and the worker may run between them.  `openusb_stop` looks the record up and is one step.  A record is named
by its allocation, which `free` does not give to another one; it is kept after `free`, with `freed` set.

* `registry_iff`: when `m_head` is exactly the multi-requests with a live worker.
-/

namespace OpenUsb

/-! ## The list and its records -/

/-- What the user's `openusb_multi_request_handle` says: its address, its `dev` and its `type`. -/
structure MultiHandle where
  addr : ℕ
  dev : ℕ
  type : MultiType
  deriving DecidableEq, Repr

/-- A `usbi_multi_request`, with the device handle it was made for, whether it has a worker, and whether it is freed. -/
structure MultiEntry where
  mreq : Option ℕ
  dev : ℕ
  req : MultiRequest
  thread : Bool
  freed : Bool
  deriving DecidableEq, Repr

/-- The signal and the flag of `usbi_add_or_stop`. -/
def MultiEntry.signal (flag : MreqFlag) (e : MultiEntry) : MultiEntry := { e with req := e.req.addOrStop flag }

/-- An `openusb_start` that has created its worker and has not yet put the record on `m_head`, and what it returns. -/
structure Starting where
  id : ℕ
  dev : ℕ
  ret : ℤ
  deriving DecidableEq, Repr

/-- The device handles, their lists, the records, and the calls of `openusb_start` in progress.  `headFlag`: the flag that
was written over a device handle, where its `m_head` was taken for the `list` of a record. -/
structure MultiRegistry where
  devs : List ℕ
  mHead : ℕ → List ℕ
  entries : ℕ → Option MultiEntry
  starting : List Starting
  headFlag : ℕ → Option MreqFlag

/-- What the allocations of `openusb_start`, `check_req_valid` and `pthread_create` give. -/
structure StartOutcome where
  miReq : Option ℕ
  req : Bool
  check : ℤ
  thread : Bool
  deriving DecidableEq, Repr

namespace MultiRegistry

variable (s : MultiRegistry)

/-- No multi-request has been started. -/
def init (devs : List ℕ) : MultiRegistry := ⟨devs, fun _ => [], fun _ => none, [], fun _ => none⟩

/-- The worker of a record. -/
def worker (id : ℕ) : Option MultiRequest :=
  (s.entries id).bind fun e => if e.thread then some e.req else none

/-- The record is of the device handle, and its worker has not ended. -/
def Live (dev id : ℕ) : Prop :=
  ∃ e, s.entries id = some e ∧ e.dev = dev ∧ e.thread = true ∧ e.req.pc.ended = false

/-- The record is written. -/
def setEntry (id : ℕ) (e : MultiEntry) : MultiRegistry := { s with entries := Function.update s.entries id (some e) }

/-- `openusb_start` up to `pthread_create`: what the call returns, and the state.  After a failed `check_req_valid` the
record is freed, and the function goes on with it. -/
def openusbStart (handle : Option MultiHandle) (o : StartOutcome) : ℤ × MultiRegistry :=
  match handle with
  | none => (OPENUSB_BADARG, s)
  | some h =>
    if h.dev ∉ s.devs then (OPENUSB_BADARG, s)
    else
      match o.miReq with
      | none => (OPENUSB_NO_RESOURCES, s)
      | some id =>
        if o.req = false then
          (OPENUSB_NO_RESOURCES, s.setEntry id ⟨none, h.dev, .start h.type, false, false⟩)
        else
          let ret := if o.check ≠ 0 then -1 else 0
          let s' := s.setEntry id ⟨some h.addr, h.dev, .start h.type, o.thread, decide (o.check ≠ 0)⟩
          (ret, { s' with starting := s.starting ++ [⟨id, h.dev, ret⟩] })

/-- The rest of `openusb_start`: the record is put at the end of the list. -/
def finishStart (c : Starting) : MultiRegistry :=
  { s with mHead := Function.update s.mHead c.dev (s.mHead c.dev ++ [c.id]), starting := s.starting.erase c }

/-- Whether `list_for_each_entry` stops at the record. -/
def matchesHandle (h : MultiHandle) (id : ℕ) : Bool := (s.entries id).any fun e => e.mreq = some h.addr

/-- `usbi_add_or_stop`.  After a search without a match the cursor is not NULL: it is the list head, taken for the `list` of
a record.  Its `lock` is then what lies there in the device handle; a call that gets it writes `flag` and returns 0, and one
that does not get it never returns. -/
def usbiAddOrStop (handle : Option MultiHandle) (flag : MreqFlag) : ℤ × MultiRegistry :=
  match handle with
  | none => (OPENUSB_BADARG, s)
  | some h =>
    if h.dev ∉ s.devs then (OPENUSB_BADARG, s)
    else
      match (s.mHead h.dev).find? (s.matchesHandle h) with
      | none => (0, { s with headFlag := Function.update s.headFlag h.dev (some flag) })
      | some id => (0, { s with entries := Function.update s.entries id ((s.entries id).map (MultiEntry.signal flag)) })

/-- `openusb_stop`. -/
def openusbStop (handle : Option MultiHandle) : ℤ × MultiRegistry := s.usbiAddOrStop handle .stopped

/-- The record has a new state of its request, and is freed where its worker has freed it. -/
def setReq (id : ℕ) (e : MultiEntry) (m : MultiRequest) : MultiRegistry :=
  s.setEntry id { e with req := m, freed := e.freed || decide (m.pc = .freed) }

end MultiRegistry

/-- The two halves of `openusb_start`, `openusb_stop`, and the progress of a worker. -/
inductive RegistryLabel where
  | start (handle : Option MultiHandle) (o : StartOutcome)
  | finish (c : Starting)
  | stop (handle : Option MultiHandle)
  | worker (id : ℕ) (l : MultiLabel)
  deriving DecidableEq, Repr

inductive RegistryStep : MultiRegistry → RegistryLabel → MultiRegistry → Prop where
  | start {s : MultiRegistry} {handle : Option MultiHandle} {o : StartOutcome}
      (hfresh : ∀ id, o.miReq = some id → s.entries id = none) :
      RegistryStep s (.start handle o) (s.openusbStart handle o).2
  | finish {s : MultiRegistry} {c : Starting} (hc : c ∈ s.starting) : RegistryStep s (.finish c) (s.finishStart c)
  | stop {s : MultiRegistry} {handle : Option MultiHandle} : RegistryStep s (.stop handle) (s.openusbStop handle).2
  | worker {s : MultiRegistry} {id : ℕ} {l : MultiLabel} {e : MultiEntry} {m : MultiRequest}
      (he : s.entries id = some e) (hthread : e.thread = true) (hcall : l ≠ .stop ∧ l ≠ .add)
      (hstep : MultiStep e.req l m) : RegistryStep s (.worker id l) (s.setReq id e m)

/-! ## What the registry promises, and when -/

namespace MultiRegistry

variable (s : MultiRegistry)

/-- `m_head` is exactly the multi-requests with a live worker, save those whose `openusb_start` has not come to the list. -/
def Exact : Prop :=
  ∀ dev, (s.mHead dev).Nodup ∧ ∀ id, id ∈ s.mHead dev ↔ s.Live dev id ∧ ∀ c ∈ s.starting, c.id ≠ id

/-- The multi-request is on the list of its device handle. -/
def Listed (h : MultiHandle) : Prop := h.dev ∈ s.devs ∧ ∃ id ∈ s.mHead h.dev, s.matchesHandle h id = true

/-- A failed `openusb_start` adds nothing and starts no worker; an `openusb_stop` of a multi-request that is not listed
returns `OPENUSB_INVALID_HANDLE` and changes nothing. -/
def CallKept : RegistryLabel → Prop
  | .start handle o => (s.openusbStart handle o).1 ≠ 0 →
      (s.openusbStart handle o).2.mHead = s.mHead ∧ (s.openusbStart handle o).2.starting = s.starting ∧
        (s.openusbStart handle o).2.worker = s.worker
  | .stop (some h) => ¬ s.Listed h → s.openusbStop (some h) = (OPENUSB_INVALID_HANDLE, s)
  | _ => True

/-- The call does what it promises, and the registry is exact after the step. -/
def Keeps (l : RegistryLabel) : Prop := s.CallKept l ∧ ∀ s', RegistryStep s l s' → s'.Exact

/-- No `openusb_start` gets as far as a failed `check_req_valid`, a record that comes to the list has a live worker, no
worker of a listed record ends, and only listed multi-requests are stopped. -/
def Orderly : RegistryLabel → Prop
  | .start (some h) o => h.dev ∈ s.devs → o.miReq.isSome → o.req = true → o.check = 0
  | .finish c => s.Live c.dev c.id
  | .stop (some h) => s.Listed h
  | .worker id l => (∃ dev, id ∈ s.mHead dev) →
      ∀ e m, s.entries id = some e → MultiStep e.req l m → m.pc.ended = false
  | _ => True

end MultiRegistry

/-! ## Steps -/

section

variable {s s' : MultiRegistry} {dev id k : ℕ} {e : MultiEntry} {m m' : MultiRequest} {l : MultiLabel}

/-- An ended worker does nothing more. -/
theorem MultiStep.stays_ended (h : MultiStep m l m') (hcall : l ≠ .stop ∧ l ≠ .add) (hended : m.pc.ended = true) :
    m'.pc.ended = true := by
  cases h with
  | lookup hpc | beginRound hpc | afterSubmit hpc | spurious hpc | wake hpc | abort hpc =>
    rw [hpc] at hended
    exact absurd hended nofun
  | done => exact hended
  | stop => exact absurd rfl hcall.1
  | add => exact absurd rfl hcall.2

@[simp] theorem addOrStop_ended {flag : MreqFlag} : (m.addOrStop flag).pc.ended = m.pc.ended := by
  show (if m.pc = .asleep then WorkerPc.woken else m.pc).ended = m.pc.ended
  by_cases hpc : m.pc = .asleep
  · rw [if_pos hpc, hpc]
    rfl
  · rw [if_neg hpc]

namespace MultiRegistry

@[simp] theorem setEntry_mHead : (s.setEntry id e).mHead = s.mHead := rfl

@[simp] theorem setEntry_starting : (s.setEntry id e).starting = s.starting := rfl

theorem live_setEntry_self : (s.setEntry id e).Live dev id ↔ e.dev = dev ∧ e.thread = true ∧ e.req.pc.ended = false := by
  simp [Live, setEntry]

theorem live_setEntry_ne (hk : k ≠ id) : (s.setEntry id e).Live dev k ↔ s.Live dev k := by
  simp [Live, setEntry, Function.update_of_ne hk]

theorem Live.dev_eq (h : s.Live dev id) (he : s.entries id = some e) : e.dev = dev := by
  obtain ⟨e', he', hdev, -⟩ := h
  rw [he, Option.some.injEq] at he'
  rw [he', hdev]

theorem not_live_of_none (h : s.entries id = none) : ¬ s.Live dev id := by
  rintro ⟨e, he, -⟩
  rw [h] at he
  exact absurd he nofun

/-- Where the list and the calls in progress are the same, only the workers that are not about to be listed matter. -/
theorem Exact.of_live (h : s.Exact) (hhead : s'.mHead = s.mHead) (hstart : s'.starting = s.starting)
    (hlive : ∀ dev id, (∀ c ∈ s.starting, c.id ≠ id) → (s'.Live dev id ↔ s.Live dev id)) : s'.Exact := by
  intro dev
  rw [hhead, hstart]
  refine ⟨(h dev).1, fun id => ?_⟩
  rw [(h dev).2 id]
  constructor
  · rintro ⟨hl, hc⟩
    exact ⟨(hlive dev id hc).mpr hl, hc⟩
  · rintro ⟨hl, hc⟩
    exact ⟨(hlive dev id hc).mp hl, hc⟩

/-- The registry is exact, and the calls in progress have records of their own. -/
structure Inv (s : MultiRegistry) : Prop where
  exact : s.Exact
  known : ∀ c ∈ s.starting, s.entries c.id ≠ none
  distinct : (s.starting.map Starting.id).Nodup

theorem Inv.listed_live (h : s.Inv) (hid : id ∈ s.mHead dev) : s.Live dev id := ((h.exact dev).2 id |>.mp hid).1

theorem Inv.init (devs : List ℕ) : (init devs).Inv := by
  refine ⟨fun dev => ⟨List.nodup_nil, fun id => ?_⟩, nofun, List.nodup_nil⟩
  constructor
  · exact nofun
  · rintro ⟨hlive, -⟩
    exact absurd hlive (not_live_of_none rfl)

/-! ### `openusb_start` -/

variable {handle : Option MultiHandle} {o : StartOutcome} {h : MultiHandle}

/-- The record of an `openusb_start` that has come to its worker, and the state then. -/
def begun (s : MultiRegistry) (h : MultiHandle) (o : StartOutcome) (id : ℕ) (ret : ℤ) : MultiRegistry :=
  { s.setEntry id ⟨some h.addr, h.dev, .start h.type, o.thread, decide (o.check ≠ 0)⟩ with
    starting := s.starting ++ [⟨id, h.dev, ret⟩] }

/-- `openusb_start` fails early and keeps the state, or keeps a record without a worker, or gets to the worker. -/
theorem openusbStart_cases (s : MultiRegistry) (handle : Option MultiHandle) (o : StartOutcome) :
    (∃ ret, ret ≠ 0 ∧ s.openusbStart handle o = (ret, s)) ∨
    (∃ (h : MultiHandle) (id : ℕ), o.miReq = some id ∧
      s.openusbStart handle o = (OPENUSB_NO_RESOURCES, s.setEntry id ⟨none, h.dev, .start h.type, false, false⟩)) ∨
    ∃ (h : MultiHandle) (id : ℕ), handle = some h ∧ h.dev ∈ s.devs ∧ o.miReq = some id ∧ o.req = true ∧
      s.openusbStart handle o = (if o.check ≠ 0 then -1 else 0, s.begun h o id (if o.check ≠ 0 then -1 else 0)) := by
  cases handle with
  | none => exact .inl ⟨OPENUSB_BADARG, by decide, rfl⟩
  | some h =>
    unfold openusbStart
    by_cases hdev : h.dev ∈ s.devs
    · simp only [if_neg (not_not_intro hdev)]
      cases hid : o.miReq with
      | none => exact .inl ⟨OPENUSB_NO_RESOURCES, by decide, rfl⟩
      | some id =>
        cases hreq : o.req with
        | false => exact .inr (.inl ⟨h, id, rfl, rfl⟩)
        | true => exact .inr (.inr ⟨h, id, rfl, hdev, rfl, rfl, rfl⟩)
    · simp only [if_pos hdev]
      exact .inl ⟨OPENUSB_BADARG, by decide, rfl⟩

/-- A record without a worker changes nothing for the list. -/
theorem Inv.setEntry (hi : s.Inv) (hid : s.entries id = none) (he : e.thread = false) : (s.setEntry id e).Inv := by
  refine ⟨hi.exact.of_live rfl rfl fun dev k _ => ?_, fun c hc => ?_, hi.distinct⟩
  · by_cases hk : k = id
    · subst hk
      rw [live_setEntry_self, he]
      exact ⟨fun hl => absurd hl.2.1 nofun, fun hl => absurd hl (not_live_of_none hid)⟩
    · exact live_setEntry_ne hk
  · by_cases hk : c.id = id
    · simp [MultiRegistry.setEntry, hk]
    · simp [MultiRegistry.setEntry, Function.update_of_ne hk, hi.known c hc]

/-- Until it is listed, the new record is one of a call in progress. -/
theorem Inv.begun (hi : s.Inv) (hid : s.entries id = none) (ret : ℤ) : (s.begun h o id ret).Inv := by
  have hnew : ∀ c ∈ s.starting, c.id ≠ id := by
    rintro c hc rfl
    exact hi.known c hc hid
  refine ⟨fun dev => ⟨(hi.exact dev).1, fun k => ?_⟩, fun c hc => ?_, ?_⟩
  · show k ∈ s.mHead dev ↔ (s.setEntry id _).Live dev k ∧ ∀ c ∈ s.starting ++ [⟨id, h.dev, ret⟩], c.id ≠ k
    have hlast : (∀ c ∈ s.starting ++ [⟨id, h.dev, ret⟩], c.id ≠ k) ↔ (∀ c ∈ s.starting, c.id ≠ k) ∧ id ≠ k := by
      rw [List.forall_mem_append, List.forall_mem_singleton]
    rw [hlast]
    by_cases hk : k = id
    · subst hk
      constructor
      · intro hmem
        exact absurd (hi.listed_live hmem) (not_live_of_none hid)
      · rintro ⟨-, hc⟩
        exact absurd rfl hc.2
    · rw [live_setEntry_ne hk, (hi.exact dev).2 k, and_iff_left (Ne.symm hk)]
  · show (s.setEntry id _).entries c.id ≠ none
    have hc : c ∈ s.starting ++ [⟨id, h.dev, ret⟩] := hc
    rcases List.mem_append.mp hc with hc | hc
    · simp [MultiRegistry.setEntry, Function.update_of_ne (hnew c hc), hi.known c hc]
    · rw [List.mem_singleton] at hc
      simp [MultiRegistry.setEntry, hc]
  · show ((s.starting ++ ([⟨id, h.dev, ret⟩] : List Starting)).map Starting.id).Nodup
    rw [List.map_append, List.nodup_append]
    refine ⟨hi.distinct, by simp, ?_⟩
    rintro _ hmem _ hlast rfl
    obtain ⟨c, hc, hcid⟩ := List.mem_map.mp hmem
    simp only [List.map_cons, List.map_nil, List.mem_singleton] at hlast
    exact hnew c hc (hcid.trans hlast)

/-! ### The other steps -/

/-- A call in progress ends by listing a live record. -/
theorem Inv.finishStart {c : Starting} (hi : s.Inv) (hc : c ∈ s.starting) (hlive : s.Live c.dev c.id) :
    (s.finishStart c).Inv := by
  have hnodup : s.starting.Nodup := hi.distinct.of_map
  have hother : ∀ c' ∈ s.starting.erase c, c'.id ≠ c.id := by
    intro c' hc' hid
    obtain ⟨hne, hmem⟩ := (List.Nodup.mem_erase_iff hnodup).mp hc'
    exact hne (List.inj_on_of_nodup_map hi.distinct hmem hc hid)
  have hkeep : ∀ k, k ≠ c.id → ((∀ c' ∈ s.starting.erase c, c'.id ≠ k) ↔ ∀ c' ∈ s.starting, c'.id ≠ k) := by
    intro k hk
    constructor
    · intro hc' c' hmem
      by_cases heq : c' = c
      · rw [heq]
        exact Ne.symm hk
      · exact hc' c' ((List.Nodup.mem_erase_iff hnodup).mpr ⟨heq, hmem⟩)
    · intro hc' c' hmem
      exact hc' c' (List.mem_of_mem_erase hmem)
  have hunlisted : ∀ dev, c.id ∉ s.mHead dev := fun dev hmem => (((hi.exact dev).2 c.id).mp hmem).2 c hc rfl
  refine ⟨fun dev => ?_, fun c' hc' => hi.known c' (List.mem_of_mem_erase hc'), ?_⟩
  · by_cases hdev : dev = c.dev
    · subst hdev
      simp only [MultiRegistry.finishStart, Function.update_self]
      refine ⟨?_, fun k => ?_⟩
      · rw [List.nodup_append]
        refine ⟨(hi.exact _).1, by simp, ?_⟩
        rintro _ hmem _ hlast rfl
        exact hunlisted _ (List.mem_singleton.mp hlast ▸ hmem)
      · rw [List.mem_append, List.mem_singleton]
        by_cases hk : k = c.id
        · subst hk
          exact ⟨fun _ => ⟨hlive, hother⟩, fun _ => .inr rfl⟩
        · rw [(hi.exact _).2 k, hkeep k hk, or_iff_left hk]
          rfl
    · simp only [MultiRegistry.finishStart, Function.update_of_ne hdev]
      refine ⟨(hi.exact dev).1, fun k => ?_⟩
      by_cases hk : k = c.id
      · subst hk
        constructor
        · intro hmem
          exact absurd hmem (hunlisted dev)
        · rintro ⟨hl, -⟩
          obtain ⟨e, he, hcdev, -⟩ := hlive
          exact absurd ((Live.dev_eq hl he).symm.trans hcdev) hdev
      · rw [(hi.exact dev).2 k, hkeep k hk]
        rfl
  · show ((s.starting.erase c).map Starting.id).Nodup
    exact hi.distinct.sublist (List.erase_sublist.map _)

/-- A worker that has ended stays so, and one of a listed record does not end. -/
theorem Inv.setReq (hi : s.Inv) (he : s.entries id = some e) (hcall : l ≠ .stop ∧ l ≠ .add)
    (hstep : MultiStep e.req l m) (hend : (∃ dev, id ∈ s.mHead dev) → m.pc.ended = false) : (s.setReq id e m).Inv := by
  refine ⟨hi.exact.of_live rfl rfl fun dev k hk => ?_, fun c hc => ?_, hi.distinct⟩
  · by_cases hkid : k = id
    · subst hkid
      show (s.setEntry k _).Live dev k ↔ s.Live dev k
      rw [live_setEntry_self]
      constructor
      · rintro ⟨hdev, hthread, hended⟩
        refine ⟨e, he, hdev, hthread, ?_⟩
        by_contra hne
        rw [hstep.stays_ended hcall (by simpa using hne)] at hended
        exact absurd hended nofun
      · intro hlive
        have hlisted := ((hi.exact dev).2 k).mpr ⟨hlive, hk⟩
        obtain ⟨e', he', hdev, hthread, -⟩ := hlive
        rw [he, Option.some.injEq] at he'
        subst he'
        exact ⟨hdev, hthread, hend ⟨dev, hlisted⟩⟩
    · exact live_setEntry_ne hkid
  · show (s.setEntry id _).entries c.id ≠ none
    by_cases hk : c.id = id
    · simp [MultiRegistry.setEntry, hk]
    · simp [MultiRegistry.setEntry, Function.update_of_ne hk, hi.known c hc]

/-- The signal and the flag end no worker. -/
theorem live_signal {flag : MreqFlag} :
    MultiRegistry.Live { s with entries := Function.update s.entries id ((s.entries id).map (MultiEntry.signal flag)) }
      dev k ↔ s.Live dev k := by
  by_cases hk : k = id
  · subst hk
    simp only [Live, Function.update_self, Option.map_eq_some_iff]
    constructor
    · rintro ⟨_, ⟨e, he, rfl⟩, hdev, hthread, hended⟩
      exact ⟨e, he, hdev, hthread, addOrStop_ended.symm.trans hended⟩
    · rintro ⟨e, he, hdev, hthread, hended⟩
      exact ⟨_, ⟨e, he, rfl⟩, hdev, hthread, addOrStop_ended.trans hended⟩
  · simp only [Live, Function.update_of_ne hk]

/-- `usbi_add_or_stop` signals a listed record, or takes the list head for one. -/
theorem usbiAddOrStop_cases (s : MultiRegistry) (h : MultiHandle) (flag : MreqFlag) :
    (h.dev ∉ s.devs ∧ s.usbiAddOrStop (some h) flag = (OPENUSB_BADARG, s)) ∨
    (h.dev ∈ s.devs ∧ ¬ s.Listed h ∧ s.usbiAddOrStop (some h) flag =
      (0, { s with headFlag := Function.update s.headFlag h.dev (some flag) })) ∨
    (s.Listed h ∧ ∃ id, s.usbiAddOrStop (some h) flag = (0, { s with
      entries := Function.update s.entries id ((s.entries id).map (MultiEntry.signal flag)) })) := by
  unfold usbiAddOrStop
  by_cases hdev : h.dev ∈ s.devs
  · simp only [if_neg (not_not_intro hdev)]
    cases hfind : (s.mHead h.dev).find? (s.matchesHandle h) with
    | none =>
      refine .inr (.inl ⟨hdev, ?_, rfl⟩)
      rintro ⟨-, id, hmem, hmatch⟩
      exact List.find?_eq_none.mp hfind id hmem hmatch
    | some id =>
      have hlisted : s.Listed h := ⟨hdev, id, List.mem_of_find?_eq_some hfind, List.find?_some hfind⟩
      exact .inr (.inr ⟨hlisted, id, rfl⟩)
  · simp only [if_pos hdev]
    exact .inl ⟨hdev, by simp⟩

theorem Inv.openusbStop (hi : s.Inv) : (s.openusbStop handle).2.Inv := by
  cases handle with
  | none => exact hi
  | some h =>
    unfold MultiRegistry.openusbStop
    rcases usbiAddOrStop_cases s h .stopped with ⟨-, heq⟩ | ⟨-, -, heq⟩ | ⟨-, id, heq⟩
    · rw [heq]
      exact hi
    · rw [heq]
      exact ⟨hi.exact, hi.known, hi.distinct⟩
    · rw [heq]
      refine ⟨hi.exact.of_live rfl rfl fun dev k _ => live_signal, fun c hc => ?_, hi.distinct⟩
      by_cases hid : c.id = id
      · simp [← hid, hi.known c hc]
      · simp [Function.update_of_ne hid, hi.known c hc]

theorem Inv.step {l : RegistryLabel} (hi : s.Inv) (hl : s.Orderly l) (hstep : RegistryStep s l s') : s'.Inv := by
  cases hstep with
  | @start handle o hfresh =>
    rcases openusbStart_cases s handle o with ⟨ret, -, heq⟩ | ⟨h, id, hid, heq⟩ | ⟨h, id, -, -, hid, -, heq⟩
    · rw [heq]
      exact hi
    · rw [heq]
      exact hi.setEntry (hfresh id hid) rfl
    · rw [heq]
      exact hi.begun (hfresh id hid) _
  | finish hc => exact hi.finishStart hc hl
  | stop => exact hi.openusbStop
  | worker he hthread hcall hstep => exact hi.setReq he hcall hstep fun hlisted => hl hlisted _ _ he hstep

/-! ### When it is exact -/

/-- The record that `openusb_start` keeps after a failed allocation has no worker. -/
theorem worker_setEntry (hid : s.entries id = none) (he : e.thread = false) : (s.setEntry id e).worker = s.worker := by
  ext k
  by_cases hk : k = id
  · subst hk
    simp [MultiRegistry.worker, MultiRegistry.setEntry, hid, he]
  · simp [MultiRegistry.worker, MultiRegistry.setEntry, Function.update_of_ne hk]

/-- `openusb_start` keeps its promise if and only if it does not get as far as a failed `check_req_valid`. -/
theorem callKept_start (hfresh : ∀ id, o.miReq = some id → s.entries id = none) :
    s.CallKept (.start handle o) ↔ s.Orderly (.start handle o) := by
  rcases openusbStart_cases s handle o with ⟨ret, hret, heq⟩ | ⟨h, id, hid, heq⟩ | ⟨h, id, rfl, hdev, hid, hreq, heq⟩
  · have hkept : s.CallKept (.start handle o) := by
      intro _
      rw [heq]
      exact ⟨rfl, rfl, rfl⟩
    refine iff_of_true hkept ?_
    cases handle with
    | none => trivial
    | some h =>
      intro hdev hsome hreq
      obtain ⟨id, hid⟩ := Option.isSome_iff_exists.mp hsome
      have hstate : (s.openusbStart (some h) o).2.starting = s.starting := by rw [heq]
      simp [openusbStart, hdev, hid, hreq] at hstate
  · have hkept : s.CallKept (.start handle o) := by
      intro _
      rw [heq]
      exact ⟨rfl, rfl, worker_setEntry (hfresh id hid) rfl⟩
    refine iff_of_true hkept ?_
    cases handle with
    | none => trivial
    | some h' =>
      intro hdev _ hreq
      have hstate : (s.openusbStart (some h') o).2.starting = s.starting := by
        rw [heq]
        rfl
      simp [openusbStart, hdev, hid, hreq] at hstate
  · by_cases hcheck : o.check = 0
    · refine iff_of_true (fun hret => ?_) fun _ _ _ => hcheck
      rw [heq, if_neg (not_not_intro hcheck)] at hret
      exact absurd rfl hret
    · refine iff_of_false (fun hkept => ?_) fun hl => hcheck (hl hdev (by rw [hid]; rfl) hreq)
      have hret : (s.openusbStart (some h) o).1 ≠ 0 := by
        rw [heq, if_pos hcheck]
        simp
      have hstate := (hkept hret).2.1
      rw [heq] at hstate
      simp [MultiRegistry.begun] at hstate

/-- `openusb_stop` keeps its promise if and only if the multi-request is listed. -/
theorem callKept_stop : s.CallKept (.stop handle) ↔ s.Orderly (.stop handle) := by
  cases handle with
  | none => exact Iff.rfl
  | some h =>
    refine ⟨fun hkept => ?_, fun hlisted hnot => absurd hlisted hnot⟩
    show s.Listed h
    by_contra hnot
    have hret := congrArg Prod.fst (hkept hnot)
    unfold MultiRegistry.openusbStop at hret
    rcases usbiAddOrStop_cases s h .stopped with ⟨-, heq⟩ | ⟨-, -, heq⟩ | ⟨hlisted, -⟩
    · rw [heq] at hret
      simp [OPENUSB_BADARG, OPENUSB_INVALID_HANDLE] at hret
    · rw [heq] at hret
      simp [OPENUSB_INVALID_HANDLE] at hret
    · exact hnot hlisted

/-- With the registry exact, a step keeps its promises just where it is orderly. -/
theorem Inv.keeps_iff {l : RegistryLabel} (hi : s.Inv) (hstep : RegistryStep s l s') : s.Keeps l ↔ s.Orderly l := by
  have hcall : s.CallKept l → (∀ s', RegistryStep s l s' → s'.Exact) → s.Orderly l := by
    intro hkept hexact
    cases hstep with
    | start hfresh => exact (callKept_start hfresh).mp hkept
    | @finish c hc =>
      have hmem : c.id ∈ (s.finishStart c).mHead c.dev := by simp [MultiRegistry.finishStart]
      exact (((hexact _ (.finish hc)) c.dev).2 c.id |>.mp hmem).1
    | stop => exact callKept_stop.mp hkept
    | worker he hthread hcall hstep =>
      rintro ⟨dev, hmem⟩ e m he hstep
      obtain ⟨e', he', hdev, hthread, hended⟩ := hi.listed_live hmem
      rw [he, Option.some.injEq] at he'
      subst he'
      have hlive := ((hexact _ (.worker he hthread hcall hstep) dev).2 _ |>.mp hmem).1
      exact (live_setEntry_self.mp hlive).2.2
  refine ⟨fun hkeeps => hcall hkeeps.1 hkeeps.2, fun hl => ⟨?_, fun s'' hstep' => (hi.step hl hstep').exact⟩⟩
  cases hstep with
  | start hfresh => exact (callKept_start hfresh).mpr hl
  | finish hc => trivial
  | stop => exact callKept_stop.mpr hl
  | worker he hthread hcall hstep => trivial

/-- In a history of starts, stops and worker progress every call keeps its promise and the registry stays exact, if and
only if every step is orderly. -/
theorem registry_iff {devs : List ℕ} {ls : List RegistryLabel} :
    Run RegistryStep Keeps (MultiRegistry.init devs) ls s ↔ Run RegistryStep Orderly (MultiRegistry.init devs) ls s := by
  apply run_iff (I := MultiRegistry.Inv)
  · intro s l t hi hstep
    exact hi.keeps_iff hstep
  · intro s l t hi hl hstep
    exact hi.step hl hstep
  · exact Inv.init devs

/-- `check_req_valid` refuses the request: `openusb_start` returns -1, and a worker runs on the freed record. -/
theorem failed_start_goes_on : ∃ s, Run RegistryStep (fun _ _ => True) (MultiRegistry.init [0])
      [.start (some ⟨7, 0, .bulk⟩) ⟨some 0, true, -1, true⟩, .finish ⟨0, 0, -1⟩] s ∧
    s.mHead 0 = [0] ∧ (s.worker 0).isSome ∧ (s.entries 0).any MultiEntry.freed ∧
    ¬ Run RegistryStep Keeps (MultiRegistry.init [0])
      [.start (some ⟨7, 0, .bulk⟩) ⟨some 0, true, -1, true⟩, .finish ⟨0, 0, -1⟩] s := by
  refine ⟨_, .cons trivial (.start fun _ _ => rfl) (.cons trivial (.finish (by decide)) (.nil _)),
    rfl, rfl, rfl, fun hrun => ?_⟩
  obtain ⟨⟨hcall, -⟩, -⟩ := run_cons.mp hrun
  have hret : ((MultiRegistry.init [0]).openusbStart (some ⟨7, 0, .bulk⟩) ⟨some 0, true, -1, true⟩).1 ≠ 0 := by decide
  exact absurd (hcall hret).2.1 (by decide)

end MultiRegistry

end

end OpenUsb
