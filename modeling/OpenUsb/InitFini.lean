import OpenUsb.Descr
import OpenUsb.Lib.Runs
import Mathlib.Data.List.Range
import Mathlib.Tactic.SplitIfs

/-!
# InitFini — `openusb_init` and `openusb_fini`

The state is what the library keeps over its instances: `usbi_inited`, the list of its handles, the event threads that run,
the loaded backends and the next handle.  Every call of `openusb_init` comes with what its steps give.  An entry that is
freed and still on the list is not live.

* `init_settles_iff`: after which histories the count, the list and the thread agree.
-/

namespace OpenUsb

/-! ## The two calls -/

structure HandleEntry where
  handle : ℕ
  live : Bool
  deriving DecidableEq, Repr

structure LibInit where
  usbiInited : ℤ
  usbiHandles : List HandleEntry
  threads : ℕ
  backends : ℕ
  curHandle : ℕ
  deriving DecidableEq, Repr

/-- What the steps of one `openusb_init` give: is there a place for the handle, do the five `usbi_list_init` succeed, the
return code of `pthread_create`, how many backends `load_backends` adds, is the handle allocated, and which backends fail
to init. -/
structure InitSteps where
  handleArg : Bool
  lists : Bool
  threadRet : ℤ
  newBackends : ℕ
  hdl : Bool
  backendFails : ℕ → Bool

namespace LibInit

variable (s : LibInit) (o : InitSteps)

/-- `usbi_init_common`.  A list that was initialised before a failure is finished again, and `pthread_create` gives a
positive code when it fails. -/
def usbiInitCommon : ℤ × LibInit :=
  let s := { s with usbiHandles := [] }
  if o.lists = false then (OPENUSB_SYS_FUNC_FAILURE, s)
  else if o.threadRet < 0 then (OPENUSB_SYS_FUNC_FAILURE, s)
  else
    let s := { s with
      threads := if o.threadRet = 0 then s.threads + 1 else s.threads
      backends := s.backends + o.newBackends }
    if s.backends = 0 then (OPENUSB_PLATFORM_FAILURE, s) else (OPENUSB_SUCCESS, s)

/-- `usbi_fini_common` joins the event thread. -/
def usbiFiniCommon : LibInit := { s with threads := s.threads - 1 }

/-- `usbi_inited` goes down, and the common part with the last instance. -/
def uninit : LibInit :=
  let s := { s with usbiInited := s.usbiInited - 1 }
  if s.usbiInited = 0 then s.usbiFiniCommon else s

/-- `usbi_init_handle`, when it succeeds. -/
def usbiInitHandle : LibInit :=
  { s with usbiHandles := s.usbiHandles ++ [⟨s.curHandle, true⟩], curHandle := s.curHandle + 1 }

/-- `free` of a handle, which stays on the list. -/
def freeHandle (handle : ℕ) : LibInit :=
  { s with usbiHandles := s.usbiHandles.map fun e => if e.handle = handle then { e with live := false } else e }

/-- `openusb_init` from where the common part is there: the return code, the handle and the state. -/
def initInstance : ℤ × ℕ × LibInit :=
  let s := { s with usbiInited := s.usbiInited + 1 }
  if o.hdl = false then (OPENUSB_SYS_FUNC_FAILURE, 0, s.uninit)
  else
    let hdl := s.curHandle
    let s := s.usbiInitHandle
    let initCnt := (List.range s.backends).countP o.backendFails
    if s.backends = initCnt then (OPENUSB_PLATFORM_FAILURE, 0, s.uninit.freeHandle hdl)
    else (OPENUSB_SUCCESS, hdl, s)

/-- `openusb_init`. -/
def openusbInit : ℤ × ℕ × LibInit :=
  if o.handleArg = false then (OPENUSB_BADARG, 0, s)
  else if s.usbiInited = 0 then
    let (ret, s) := s.usbiInitCommon o
    if ret < 0 then (ret, 0, s) else s.initInstance o
  else s.initInstance o

/-- `usbi_find_handle`. -/
def usbiFindHandle (handle : ℕ) : Option HandleEntry :=
  if s.usbiInited = 0 then none else s.usbiHandles.find? (·.handle = handle)

/-- `openusb_fini`: the last instance unloads the backends. -/
def openusbFini (handle : ℕ) : LibInit :=
  match s.usbiFindHandle handle with
  | none => s
  | some hdl =>
    let s := { s with usbiHandles := s.usbiHandles.erase hdl }.uninit
    if s.usbiInited = 0 then { s with backends := 0 } else s

/-- The library as it is loaded. -/
def start : LibInit := ⟨0, [], 0, 0, 1⟩

end LibInit

/-! ## Histories of calls -/

inductive LibCall where
  | init (o : InitSteps)
  | fini (handle : ℕ)

inductive LibCalls : LibInit → LibCall → LibInit → Prop where
  | init {s : LibInit} {o : InitSteps} : LibCalls s (.init o) (s.openusbInit o).2.2
  | fini {s : LibInit} {handle : ℕ} : LibCalls s (.fini handle) (s.openusbFini handle)

/-- The count is the number of handles, all of them are live, and there is one event thread while there are any. -/
structure LibInit.Settled (s : LibInit) : Prop where
  count : s.usbiInited = s.usbiHandles.length
  live : ∀ e ∈ s.usbiHandles, e.live = true
  thread : s.threads = if 0 < s.usbiInited then 1 else 0

/-- The list, the count and the threads are as they were. -/
structure SameBooks (s s' : LibInit) : Prop where
  inited : s'.usbiInited = s.usbiInited
  handles : s'.usbiHandles = s.usbiHandles
  threads : s'.threads = s.threads

/-- The library is settled after the call, and a call that fails changes nothing. -/
def Settles (s : LibInit) : LibCall → Prop
  | .init o => (s.openusbInit o).2.2.Settled ∧ ((s.openusbInit o).1 ≠ 0 → SameBooks s (s.openusbInit o).2.2)
  | .fini handle => (s.openusbFini handle).Settled

/-- The common part is there or is set up, and so is the new handle. -/
structure ReachesBackends (s : LibInit) (o : InitSteps) : Prop where
  handleArg : o.handleArg = true
  hdl : o.hdl = true
  common : s.usbiInited = 0 → o.lists = true ∧ 0 ≤ o.threadRet ∧ s.backends + o.newBackends ≠ 0

/-- What the steps of an `openusb_init` must not give. -/
structure InitOk (s : LibInit) (o : InitSteps) : Prop where
  /-- The first instance finds no backend when its event thread runs already. -/
  found : o.handleArg = true → s.usbiInited = 0 → o.lists = true → o.threadRet = 0 → s.backends + o.newBackends ≠ 0
  /-- The first instance gets its handle without an event thread. -/
  thread : ReachesBackends s o → s.usbiInited = 0 → o.threadRet = 0
  /-- Every backend fails. -/
  backend : ReachesBackends s o →
    ∃ b < if s.usbiInited = 0 then s.backends + o.newBackends else s.backends, o.backendFails b = false

def CallOk (s : LibInit) : LibCall → Prop
  | .init o => InitOk s o
  | .fini _ => True

section

variable {s t : LibInit} {o : InitSteps}

/-- Some backend inits exactly when the failures do not add up to all of them. -/
theorem countP_ne_iff {n : ℕ} {p : ℕ → Bool} : n ≠ (List.range n).countP p ↔ ∃ b < n, p b = false := by
  have hall : (List.range n).countP p = n ↔ ∀ b < n, p b = true := by
    conv_lhs => rhs; rw [← List.length_range (n := n)]
    rw [List.countP_eq_length]
    simp only [List.mem_range]
  rw [ne_comm, ne_eq, hall]
  simp

theorem freeHandle_length {handle : ℕ} : (s.freeHandle handle).usbiHandles.length = s.usbiHandles.length :=
  List.length_map _

theorem uninit_usbiInited : s.uninit.usbiInited = s.usbiInited - 1 := by
  unfold LibInit.uninit
  dsimp only
  split_ifs <;> rfl

theorem uninit_usbiHandles : s.uninit.usbiHandles = s.usbiHandles := by
  unfold LibInit.uninit
  dsimp only
  split_ifs <;> rfl

theorem uninit_threads : s.uninit.threads = if s.usbiInited = 1 then s.threads - 1 else s.threads := by
  unfold LibInit.uninit
  dsimp only
  split_ifs with h1 h2 h2
  · rfl
  · omega
  · omega
  · rfl

/-- With a settled library before and after, the threads are the same when the count is. -/
theorem LibInit.Settled.sameBooks (hs : s.Settled) (ht : t.Settled) (hinited : t.usbiInited = s.usbiInited)
    (hhandles : t.usbiHandles = s.usbiHandles) : SameBooks s t :=
  ⟨hinited, hhandles, by rw [ht.thread, hs.thread, hinited]⟩

/-- The handle cannot be allocated: with the last instance the event thread is joined. -/
theorem initInstance_noHdl (hhdl : o.hdl = false) (hcount : s.usbiInited = s.usbiHandles.length)
    (hlive : ∀ e ∈ s.usbiHandles, e.live = true)
    (hthread : s.threads ≤ 1 ∧ (0 < s.usbiInited → s.threads = 1)) :
    (s.initInstance o).2.2.Settled ∧ (s.initInstance o).2.2.usbiInited = s.usbiInited ∧
      (s.initInstance o).2.2.usbiHandles = s.usbiHandles := by
  have heq : (s.initInstance o).2.2 = LibInit.uninit { s with usbiInited := s.usbiInited + 1 } := by
    unfold LibInit.initInstance
    dsimp only
    rw [if_pos hhdl]
  rw [heq, uninit_usbiHandles]
  have hinited : (LibInit.uninit { s with usbiInited := s.usbiInited + 1 }).usbiInited = s.usbiInited := by
    rw [uninit_usbiInited]
    exact add_sub_cancel_right _ _
  refine ⟨⟨?_, ?_, ?_⟩, hinited, rfl⟩
  · rw [hinited, uninit_usbiHandles]
    exact hcount
  · rw [uninit_usbiHandles]
    exact hlive
  · rw [uninit_threads, hinited]
    dsimp only
    split_ifs <;> omega

/-- Every backend fails: the freed handle stays on the list, which is then longer than the count. -/
theorem initInstance_allFail (hhdl : o.hdl = true) (hcount : s.usbiInited = s.usbiHandles.length)
    (hfail : s.backends = (List.range s.backends).countP o.backendFails) : ¬ (s.initInstance o).2.2.Settled := by
  have heq : s.initInstance o = (OPENUSB_PLATFORM_FAILURE, 0,
      ((LibInit.usbiInitHandle { s with usbiInited := s.usbiInited + 1 }).uninit).freeHandle s.curHandle) := by
    unfold LibInit.initInstance
    dsimp only
    rw [if_neg (by rw [hhdl]; nofun)]
    exact if_pos hfail
  rw [heq]
  intro h
  have hlen := h.count
  rw [freeHandle_length, uninit_usbiHandles] at hlen
  change (LibInit.uninit _).usbiInited = _ at hlen
  rw [uninit_usbiInited] at hlen
  change s.usbiInited + 1 - 1 = ((s.usbiHandles ++ [_]).length : ℤ) at hlen
  rw [List.length_append, List.length_singleton] at hlen
  omega

/-- Some backend inits: the handle is on the list. -/
theorem initInstance_success (hhdl : o.hdl = true) (hcount : s.usbiInited = s.usbiHandles.length)
    (hlive : ∀ e ∈ s.usbiHandles, e.live = true)
    (hsome : s.backends ≠ (List.range s.backends).countP o.backendFails) :
    (s.initInstance o).1 = 0 ∧ ((s.initInstance o).2.2.Settled ↔ s.threads = 1) := by
  have heq : s.initInstance o =
      (OPENUSB_SUCCESS, s.curHandle, LibInit.usbiInitHandle { s with usbiInited := s.usbiInited + 1 }) := by
    unfold LibInit.initInstance
    dsimp only
    rw [if_neg (by rw [hhdl]; nofun)]
    exact if_neg hsome
  rw [heq]
  refine ⟨rfl, ?_⟩
  have hpos : (LibInit.usbiInitHandle { s with usbiInited := s.usbiInited + 1 }).usbiInited > 0 := by
    show s.usbiInited + 1 > 0
    omega
  constructor
  · intro h
    have hthread := h.thread
    rw [if_pos hpos] at hthread
    exact hthread
  · intro hthread
    refine ⟨?_, ?_, ?_⟩
    · show s.usbiInited + 1 = ((s.usbiHandles ++ [_]).length : ℤ)
      rw [List.length_append, List.length_singleton, hcount]
      rfl
    · intro e he
      rcases List.mem_append.mp he with he | he
      · exact hlive e he
      · rw [List.mem_singleton.mp he]
    · rw [if_pos hpos]
      exact hthread

/-- `openusb_init` from where the common part is there. -/
theorem initInstance_settles (hcount : s.usbiInited = s.usbiHandles.length) (hlive : ∀ e ∈ s.usbiHandles, e.live = true)
    (hthread : s.threads ≤ 1 ∧ (0 < s.usbiInited → s.threads = 1)) :
    ((s.initInstance o).2.2.Settled ∧ ((s.initInstance o).1 ≠ 0 →
      (s.initInstance o).2.2.usbiInited = s.usbiInited ∧ (s.initInstance o).2.2.usbiHandles = s.usbiHandles)) ↔
    (o.hdl = true → s.threads = 1 ∧ ∃ b < s.backends, o.backendFails b = false) := by
  rw [← countP_ne_iff]
  by_cases hhdl : o.hdl = true
  · by_cases hfail : s.backends = (List.range s.backends).countP o.backendFails
    · apply iff_of_false
      · exact fun h => initInstance_allFail hhdl hcount hfail h.1
      · exact fun h => (h hhdl).2 hfail
    · obtain ⟨hret, hsettled⟩ := initInstance_success hhdl hcount hlive hfail
      rw [hsettled]
      refine ⟨fun h _ => ⟨h.1, hfail⟩, fun h => ⟨(h hhdl).1, fun hne => absurd hret hne⟩⟩
  · have hno : o.hdl = false := by simpa using hhdl
    obtain ⟨hsettled, hsame⟩ := initInstance_noHdl hno hcount hlive hthread
    exact iff_of_true ⟨hsettled, fun _ => hsame⟩ fun h => absurd h hhdl

/-- The books of a settled library without instances. -/
theorem LibInit.Settled.empty (hs : s.Settled) (hinited : s.usbiInited = 0) : s.usbiHandles = [] ∧ s.threads = 0 := by
  have hcount := hs.count
  have hthread := hs.thread
  rw [hinited] at hcount hthread
  exact ⟨List.length_eq_zero_iff.mp (by omega), hthread⟩

/-- An `openusb_init` that fails before the handle is there, with an unchanged list and count. -/
theorem settles_early {r : ℤ × ℕ × LibInit} (hs : s.Settled) (hr : s.openusbInit o = r) (hret : r.1 ≠ 0)
    (hinited : r.2.2.usbiInited = s.usbiInited) (hhandles : r.2.2.usbiHandles = s.usbiHandles) :
    Settles s (.init o) ↔ r.2.2.threads = s.threads := by
  subst hr
  constructor
  · intro h
    exact (h.2 hret).threads
  · intro hthreads
    refine ⟨⟨?_, ?_, ?_⟩, fun _ => ⟨hinited, hhandles, hthreads⟩⟩
    · rw [hinited, hhandles]
      exact hs.count
    · rw [hhandles]
      exact hs.live
    · rw [hthreads, hinited]
      exact hs.thread

/-- An `openusb_init` that gets past the common part, with an unchanged list and count. -/
theorem settles_instance (hs : s.Settled) (hinit : s.openusbInit o = t.initInstance o)
    (hinited : t.usbiInited = s.usbiInited) (hhandles : t.usbiHandles = s.usbiHandles)
    (hthread : t.threads ≤ 1 ∧ (0 < t.usbiInited → t.threads = 1)) :
    Settles s (.init o) ↔ (o.hdl = true → t.threads = 1 ∧ ∃ b < t.backends, o.backendFails b = false) := by
  have hcount : t.usbiInited = t.usbiHandles.length := by
    rw [hinited, hhandles]
    exact hs.count
  have hlive : ∀ e ∈ t.usbiHandles, e.live = true := by
    rw [hhandles]
    exact hs.live
  rw [← initInstance_settles hcount hlive hthread]
  show (s.openusbInit o).2.2.Settled ∧ ((s.openusbInit o).1 ≠ 0 → SameBooks s (s.openusbInit o).2.2) ↔ _
  rw [hinit, hinited, hhandles]
  refine and_congr_right fun hsettled => forall_congr' fun _ => ?_
  exact ⟨fun h => ⟨h.inited, h.handles⟩, fun h => hs.sameBooks hsettled h.1 h.2⟩

/-- The common part, when its lists are there and `pthread_create` gives no negative code. -/
theorem usbiInitCommon_eq (hlists : o.lists = true) (hret : 0 ≤ o.threadRet) :
    s.usbiInitCommon o = (if s.backends + o.newBackends = 0 then OPENUSB_PLATFORM_FAILURE else OPENUSB_SUCCESS,
      { s with
        usbiHandles := []
        threads := if o.threadRet = 0 then s.threads + 1 else s.threads
        backends := s.backends + o.newBackends }) := by
  unfold LibInit.usbiInitCommon
  dsimp only
  rw [if_neg (by rw [hlists]; nofun), if_neg (by omega)]
  split_ifs <;> rfl

/-- The first instance: the common part fails before there is a thread. -/
theorem init_settles_refused (hs : s.Settled) (harg : o.handleArg = true) (hinited : s.usbiInited = 0)
    (hcommon : ¬ (o.lists = true ∧ 0 ≤ o.threadRet)) : Settles s (.init o) ↔ InitOk s o := by
  have hfail : s.usbiInitCommon o = (OPENUSB_SYS_FUNC_FAILURE, { s with usbiHandles := [] }) := by
    unfold LibInit.usbiInitCommon
    dsimp only
    by_cases hlists : o.lists = false
    · rw [if_pos hlists]
    · rw [if_neg hlists]
      have hneg : o.threadRet < 0 := by
        by_contra hret
        exact hcommon ⟨by simpa using hlists, by omega⟩
      rw [if_pos hneg]
  have hinit : s.openusbInit o = (OPENUSB_SYS_FUNC_FAILURE, 0, { s with usbiHandles := [] }) := by
    unfold LibInit.openusbInit
    rw [if_neg (by rw [harg]; nofun), if_pos hinited, hfail]
    exact if_pos (by decide)
  rw [settles_early hs hinit (show OPENUSB_SYS_FUNC_FAILURE ≠ 0 by decide) rfl (hs.empty hinited).1.symm]
  refine iff_of_true rfl ⟨fun _ _ h1 h2 => ?_, fun h => ?_, fun h => ?_⟩
  · exact absurd ⟨h1, h2.ge⟩ hcommon
  · exact absurd ⟨(h.common hinited).1, (h.common hinited).2.1⟩ hcommon
  · exact absurd ⟨(h.common hinited).1, (h.common hinited).2.1⟩ hcommon

/-- The first instance: the common part gets as far as the backends. -/
theorem init_settles_first (hs : s.Settled) (harg : o.handleArg = true) (hinited : s.usbiInited = 0)
    (hlists : o.lists = true) (hret : 0 ≤ o.threadRet) : Settles s (.init o) ↔ InitOk s o := by
  obtain ⟨hhandles, hthreads⟩ := hs.empty hinited
  have hcommon := usbiInitCommon_eq (s := s) hlists hret
  by_cases hback : s.backends + o.newBackends = 0
  · rw [if_pos hback] at hcommon
    have hinit : s.openusbInit o = (OPENUSB_PLATFORM_FAILURE, 0, (s.usbiInitCommon o).2) := by
      unfold LibInit.openusbInit
      rw [if_neg (by rw [harg]; nofun), if_pos hinited, hcommon]
      exact if_pos (by decide)
    rw [hcommon] at hinit
    rw [settles_early hs hinit (show OPENUSB_PLATFORM_FAILURE ≠ 0 by decide) rfl hhandles.symm]
    constructor
    · intro h
      refine ⟨fun _ _ _ h0 => ?_, fun hr => ?_, fun hr => ?_⟩
      · rw [if_pos h0] at h
        exact absurd h (Nat.succ_ne_self _)
      · exact absurd hback (hr.common hinited).2.2
      · exact absurd hback (hr.common hinited).2.2
    · intro h
      exact if_neg fun h0 => h.found harg hinited hlists h0 hback
  · rw [if_neg hback] at hcommon
    have hinit : s.openusbInit o = (s.usbiInitCommon o).2.initInstance o := by
      unfold LibInit.openusbInit
      rw [if_neg (by rw [harg]; nofun), if_pos hinited, hcommon]
      exact if_neg (by decide)
    rw [hcommon] at hinit
    have hreach : o.hdl = true → ReachesBackends s o := fun hhdl => ⟨harg, hhdl, fun _ => ⟨hlists, hret, hback⟩⟩
    rw [settles_instance hs hinit rfl hhandles.symm]
    · dsimp only
      rw [hthreads, zero_add]
      constructor
      · intro h
        refine ⟨fun _ _ _ _ => hback, fun hr _ => ?_, fun hr => ?_⟩
        · by_contra hne
          have hone := (h hr.hdl).1
          rw [if_neg hne] at hone
          exact absurd hone (by decide)
        · rw [if_pos hinited]
          exact (h hr.hdl).2
      · intro h hhdl
        have hb := h.backend (hreach hhdl)
        rw [if_pos hinited] at hb
        exact ⟨if_pos (h.thread (hreach hhdl) hinited), hb⟩
    · dsimp only
      rw [hthreads, hinited]
      refine ⟨?_, fun h0 => absurd h0 (lt_irrefl 0)⟩
      split_ifs <;> omega

/-- From a settled library, an `openusb_init` settles it again exactly when its steps do not go wrong in one of three
ways. -/
theorem init_settles (hs : s.Settled) : Settles s (.init o) ↔ InitOk s o := by
  by_cases harg : o.handleArg = true
  · by_cases hinited : s.usbiInited = 0
    · by_cases hcommon : o.lists = true ∧ 0 ≤ o.threadRet
      · exact init_settles_first hs harg hinited hcommon.1 hcommon.2
      · exact init_settles_refused hs harg hinited hcommon
    · have hinit : s.openusbInit o = s.initInstance o := by
        unfold LibInit.openusbInit
        rw [if_neg (by rw [harg]; nofun), if_neg hinited]
      have hpos : 0 < s.usbiInited := by
        have hcount := hs.count
        omega
      have hone : s.threads = 1 := hs.thread.trans (if_pos hpos)
      rw [settles_instance hs hinit rfl rfl ⟨hone.le, fun _ => hone⟩]
      constructor
      · intro h
        refine ⟨fun _ h0 => absurd h0 hinited, fun _ h0 => absurd h0 hinited, fun hr => ?_⟩
        rw [if_neg hinited]
        exact (h hr.hdl).2
      · intro h hhdl
        have hb := h.backend ⟨harg, hhdl, fun h0 => absurd h0 hinited⟩
        rw [if_neg hinited] at hb
        exact ⟨hone, hb⟩
  · have hinit : s.openusbInit o = (OPENUSB_BADARG, 0, s) := if_pos (by simpa using harg)
    rw [settles_early hs hinit (show OPENUSB_BADARG ≠ 0 by decide) rfl rfl]
    exact iff_of_true rfl ⟨fun h => absurd h harg, fun h => absurd h.handleArg harg, fun h => absurd h.handleArg harg⟩

/-- `openusb_fini` takes one live handle off, and the thread goes with the last one. -/
theorem fini_settles (hs : s.Settled) (handle : ℕ) : Settles s (.fini handle) := by
  show (s.openusbFini handle).Settled
  unfold LibInit.openusbFini
  cases hfind : s.usbiFindHandle handle with
  | none => exact hs
  | some hdl =>
    have hinited : s.usbiInited ≠ 0 := by
      intro h0
      unfold LibInit.usbiFindHandle at hfind
      rw [if_pos h0] at hfind
      exact absurd hfind nofun
    have hmem : hdl ∈ s.usbiHandles := by
      unfold LibInit.usbiFindHandle at hfind
      rw [if_neg hinited] at hfind
      exact List.mem_of_find?_eq_some hfind
    have hcount := hs.count
    have hlen := List.length_erase_of_mem hmem
    have hthread : s.threads = 1 := hs.thread.trans (if_pos (by omega))
    have hsettled : (LibInit.uninit { s with usbiHandles := s.usbiHandles.erase hdl }).Settled := by
      refine ⟨?_, ?_, ?_⟩
      · rw [uninit_usbiInited, uninit_usbiHandles]
        show s.usbiInited - 1 = ((s.usbiHandles.erase hdl).length : ℤ)
        omega
      · rw [uninit_usbiHandles]
        exact fun e he => hs.live e (List.mem_of_mem_erase he)
      · rw [uninit_threads, uninit_usbiInited]
        dsimp only
        rw [hthread]
        split_ifs <;> omega
    dsimp only
    split_ifs
    · exact ⟨hsettled.count, hsettled.live, hsettled.thread⟩
    · exact hsettled

theorem settles_iff (hs : s.Settled) (call : LibCall) : Settles s call ↔ CallOk s call := by
  cases call with
  | init o => exact init_settles hs
  | fini handle => exact iff_of_true (fini_settles hs handle) trivial

theorem settled_start : LibInit.start.Settled := ⟨rfl, fun _ he => absurd he List.not_mem_nil, rfl⟩

/-- A call that settles the library leaves it settled. -/
theorem Settles.settled {call : LibCall} (h : Settles s call) (hstep : LibCalls s call t) : t.Settled := by
  cases hstep with
  | init => exact h.1
  | fini => exact h

/-- After every call of a history the library is settled, and the calls that fail change nothing, exactly when no
`openusb_init` of the history goes wrong in one of the three ways. -/
theorem init_settles_iff {cs : List LibCall} :
    Run LibCalls Settles .start cs s ↔ Run LibCalls CallOk .start cs s := by
  apply run_iff (I := LibInit.Settled)
  · exact fun r call _ hr _ => settles_iff hr call
  · exact fun r call _ hr hok hstep => ((settles_iff hr call).mpr hok).settled hstep
  · exact settled_start

/-- No backend is found: the call fails, and its event thread goes on. -/
theorem init_leaves_thread : ∃ o : InitSteps, (LibInit.start.openusbInit o).1 ≠ 0 ∧
    ¬ Settles .start (.init o) := by
  refine ⟨⟨true, true, 0, 0, true, fun _ => false⟩, by decide, fun h => ?_⟩
  exact absurd h.1.thread (by decide)

end

end OpenUsb
