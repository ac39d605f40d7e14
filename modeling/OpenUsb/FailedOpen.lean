import OpenUsb.OpenDevice

/-!
# FailedOpen — what a failed open gives back

On Linux each layer of an open undoes its own part by hand, except that a failure to read the configuration goes through
`openusb_close_device`.

* `open_leaves_nothing_iff`: after which failures everything is as it was before.
-/

namespace OpenUsb.Opening

/-! ## Failures -/

inductive OpenStep where
  | handle
  | device
  | alloc
  | mutex
  | pipe
  | priv
  | file
  | privPipe
  | thread
  | config
  deriving DecidableEq, Repr

/-- The step that fails, if one does. -/
def failing (env : OpenEnv) (lin : LinuxEnv) (config : ℤ) : Option OpenStep :=
  if !env.handle then some .handle
  else if !env.device then some .device
  else if env.alloc = none then some .alloc
  else if !env.mutex then some .mutex
  else if env.pipe = none then some .pipe
  else if !lin.priv then some .priv
  else if deviceOpen lin < 0 then some .file
  else if lin.pipe = none then some .privPipe
  else if lin.create ≠ 0 then some .thread
  else if config ≠ OPENUSB_SUCCESS then some .config
  else none

/-- The frontend's steps before the backend's open. -/
def OpenStep.early : OpenStep → Bool
  | .handle | .device | .alloc | .mutex | .pipe => true
  | _ => false

def pair : Option (ℤ × ℤ) → List ℤ
  | none => []
  | some p => [p.1, p.2]

/-- The descriptors that the backend gets. -/
def privFds (lin : LinuxEnv) : List ℤ := deviceOpen lin :: pair lin.pipe

/-- Descriptors and threads are new, and `pthread_create` returns 0 or an error number. -/
structure Granted (s : OpenState) (env : OpenEnv) (lin : LinuxEnv) : Prop where
  fds : ∀ fd ∈ pair env.pipe ++ privFds lin, 0 ≤ fd → fd ∉ s.fds
  apart : ∀ fd ∈ pair env.pipe, fd ∉ privFds lin
  nonneg : ∀ fd ∈ pair env.pipe ++ pair lin.pipe, 0 ≤ fd
  thread : lin.thread ∉ s.threads
  create : 0 ≤ lin.create

/-- The call returns an error, and everything is as it was before. -/
structure LeavesNothing (s : OpenState) (r : OpenResult) : Prop where
  error : r.ret ≠ OPENUSB_SUCCESS
  dev : r.dev = 0
  devHandles : r.state.devHandles = s.devHandles
  fds : r.state.fds = s.fds
  threads : r.state.threads = s.threads
  hdev : r.state.hdev = s.hdev

/-- A failure that leaves nothing behind: one before the backend's open; or one to read the configuration, when none of the
backend's descriptors is 0, and the device already has the address of the new handle in `priv->hdev`. -/
def Undone (s : OpenState) (devid : ℕ) (env : OpenEnv) (lin : LinuxEnv) (step : OpenStep) : Prop :=
  step.early ∨ step = .config ∧ (∀ fd ∈ privFds lin, fd ≠ 0) ∧ s.hdev devid = env.alloc

section

variable {s : OpenState} {B : Backend} {env : OpenEnv} {lin : LinuxEnv} {config : ℤ} {devid addr : ℕ} {p q : ℤ × ℤ}
  {hdev : DevHandle} {step : OpenStep}

/-! ## Failures of the backend's open -/

/-- Nothing closes the pipe of the frontend when the backend's open fails. -/
theorem linuxOpen_fails (hneg : (linuxOpen lin s hdev).1 < 0) (hcreate : 0 ≤ lin.create) :
    s.fds ⊆ (linuxOpen lin s hdev).2.2.fds := by
  intro x hx
  revert hneg
  unfold linuxOpen
  dsimp only
  split_ifs
  · exact fun _ => hx
  · exact fun _ => hx
  · exact fun _ => hx
  · cases lin.pipe with
    | none => exact fun _ => mem_openFds.mpr (.inl hx)
    | some q =>
      intro hneg
      dsimp only [startPolling] at hneg
      rw [if_neg (by omega)] at hneg
      exact absurd hneg (show ¬ (OPENUSB_SUCCESS < 0) by decide)

/-- An open that fails in the backend leaves the pipe behind. -/
theorem pipe_left (hgranted : Granted s ⟨true, true, some addr, true, some p⟩ lin)
    (hneg : (linuxOpen lin (started s p) (newHandle s devid addr p)).1 < 0) :
    ¬ ∃ r, openusbOpenDevice (linuxBackend lin config) s devid true ⟨true, true, some addr, true, some p⟩ = some r ∧
      LeavesNothing s r := by
  rintro ⟨r, hr, hleaves⟩
  rw [openusbOpenDevice_eq] at hr
  change (if (linuxOpen lin (started s p) (newHandle s devid addr p)).1 < 0 then _ else _) = some r at hr
  rw [if_pos hneg] at hr
  have hopen : p.1 ∈ r.state.fds := by
    rw [← Option.some.inj hr]
    exact linuxOpen_fails hneg hgranted.create (mem_openFds.mpr (.inr List.mem_cons_self))
  rw [hleaves.fds] at hopen
  exact hgranted.fds p.1 List.mem_cons_self (hgranted.nonneg p.1 List.mem_cons_self) hopen

/-! ## Failures after it -/

/-- The handle when the Linux backend's open has succeeded. -/
def linuxHandle (lin : LinuxEnv) (hdev : DevHandle) (q : ℤ × ℤ) : DevHandle :=
  { hdev with priv := some ⟨deviceOpen lin, q, if decide (lin.create = 0) then some lin.thread else none⟩ }

/-- The state then. -/
def linuxOpened (lin : LinuxEnv) (s : OpenState) (hdev : DevHandle) (q : ℤ × ℤ) : OpenState :=
  let s := (s.openFds [deviceOpen lin]).openFds [q.1, q.2]
  let s := if decide (lin.create = 0) then { s with threads := insert lin.thread s.threads } else s
  { s with hdev := Function.update s.hdev hdev.idev (some hdev.addr) }

theorem linuxOpen_ok (hstate : hdev.state = .closed) (hpriv : lin.priv = true) (hfile : ¬ deviceOpen lin < 0)
    (hpipe : lin.pipe = some q) (hcreate : 0 ≤ lin.create) :
    linuxOpen lin s hdev = (OPENUSB_SUCCESS, linuxHandle lin hdev q, linuxOpened lin s hdev q) := by
  unfold linuxOpen
  dsimp only
  rw [if_neg (by rw [hstate]; decide), if_neg (by simp [hpriv]), if_neg hfile, hpipe]
  dsimp only [startPolling]
  rw [if_neg (by omega)]
  rfl

/-- The call from the backend's open on, when that has succeeded. -/
theorem openusbOpenDevice_ok (hpriv : lin.priv = true) (hfile : ¬ deviceOpen lin < 0) (hpipe : lin.pipe = some q)
    (hcreate : 0 ≤ lin.create) :
    openusbOpenDevice (linuxBackend lin config) s devid true ⟨true, true, some addr, true, some p⟩ =
      readConfiguration (linuxBackend lin config)
        (listed (linuxOpened lin (started s p) (newHandle s devid addr p) q) (linuxHandle lin (newHandle s devid addr p) q))
        s.cur_dev_handle := by
  have hopen : (linuxBackend lin config).opens (started s p) (newHandle s devid addr p) =
      (OPENUSB_SUCCESS, linuxHandle lin (newHandle s devid addr p) q,
        linuxOpened lin (started s p) (newHandle s devid addr p) q) := by
    show linuxOpen lin (started s p) (newHandle s devid addr p) = _
    exact linuxOpen_ok rfl hpriv hfile hpipe hcreate
  rw [openusbOpenDevice_eq, hopen]
  exact if_neg (show ¬ (OPENUSB_SUCCESS < 0) by decide)

theorem linuxOpened_devHandles : (linuxOpened lin s hdev q).devHandles = s.devHandles := by
  unfold linuxOpened
  split_ifs <;> rfl

theorem OpenState.Inv.new (hs : s.Inv) :
    ∀ h ∈ (linuxOpened lin (started s p) (newHandle s devid addr p) q).devHandles, h.handle ≠ s.cur_dev_handle := by
  intro h hh
  rw [linuxOpened_devHandles] at hh
  exact Nat.ne_of_lt (hs.given h hh).2

/-- The state when the new handle is on the list. -/
def opened (lin : LinuxEnv) (s : OpenState) (devid addr : ℕ) (p q : ℤ × ℤ) : OpenState :=
  listed (linuxOpened lin (started s p) (newHandle s devid addr p) q) (linuxHandle lin (newHandle s devid addr p) q)

theorem OpenState.Inv.find_opened (hs : s.Inv) : (opened lin s devid addr p q).usbiFindDevHandle s.cur_dev_handle =
    some { linuxHandle lin (newHandle s devid addr p) q with state := .opened } :=
  find_listed hs.new

theorem OpenState.Inv.getConfiguration_opened (hs : s.Inv) :
    openusbGetConfigurationOf (linuxBackend lin config) (opened lin s devid addr p q) s.cur_dev_handle =
      if lin.create = 0 then some config else none := by
  rw [openusbGetConfigurationOf, hs.find_opened]
  show linuxGetConfiguration config _ _ = _
  rw [linuxGetConfiguration]
  by_cases hcreate : lin.create = 0
  · have hthread : ({ linuxHandle lin (newHandle s devid addr p) q with state := .opened } : DevHandle).priv.bind
        HandlePriv.io_thread = some lin.thread := by simp [linuxHandle, hcreate]
    have hrunning : lin.thread ∈ (opened lin s devid addr p q).threads := by
      simp [opened, listed, linuxOpened, hcreate]
    rw [hthread, Option.bind_some, if_pos hrunning, if_pos hcreate]
  · have hthread : ({ linuxHandle lin (newHandle s devid addr p) q with state := .opened } : DevHandle).priv.bind
        HandlePriv.io_thread = none := by simp [linuxHandle, hcreate]
    rw [hthread, Option.bind_none, if_neg hcreate]

/-- Without the poll thread the call does not return. -/
theorem no_thread (hs : s.Inv) (hpriv : lin.priv = true) (hfile : ¬ deviceOpen lin < 0) (hpipe : lin.pipe = some q)
    (hcreate : 0 ≤ lin.create) (hthread : lin.create ≠ 0) :
    openusbOpenDevice (linuxBackend lin config) s devid true ⟨true, true, some addr, true, some p⟩ = none := by
  rw [openusbOpenDevice_ok hpriv hfile hpipe hcreate, readConfiguration]
  change (openusbGetConfigurationOf _ (opened lin s devid addr p q) _).bind _ = none
  rw [hs.getConfiguration_opened, if_neg hthread, Option.bind_none]

/-- `linux_close` of the new handle. -/
def unwound (lin : LinuxEnv) (s : OpenState) (q : ℤ × ℤ) : OpenState :=
  let t := { s with threads := s.threads.erase lin.thread }.closeFds ([q.1, q.2].filter (0 < ·))
  if deviceOpen lin ≤ 0 then t else t.closeFds [deviceOpen lin]

theorem linuxClose_opened (hthread : lin.create = 0) (t : OpenState) :
    linuxClose t { linuxHandle lin (newHandle s devid addr p) q with state := .opened } =
      some (OPENUSB_SUCCESS, unwound lin t q) := by
  have hpriv : ({ linuxHandle lin (newHandle s devid addr p) q with state := .opened } : DevHandle).priv =
      some ⟨deviceOpen lin, q, some lin.thread⟩ := by simp [linuxHandle, hthread]
  rw [linuxClose, if_neg (by simp), hpriv]
  simp only [Option.bind_eq_bind, Option.bind_some, unwound]
  split_ifs <;> rfl

/-- The state after the new handle has been closed again. -/
def closed (lin : LinuxEnv) (s : OpenState) (devid addr : ℕ) (p q : ℤ × ℤ) : OpenState :=
  { unwound lin (opened lin s devid addr p q) q with devHandles := s.devHandles }.closeFds [p.1, p.2]

theorem unwound_devHandles : (unwound lin s q).devHandles = s.devHandles := by
  unfold unwound
  dsimp only
  split_ifs <;> rfl

/-- When the configuration cannot be read, the new handle is closed again. -/
theorem config_fails (hs : s.Inv) (hpriv : lin.priv = true) (hfile : ¬ deviceOpen lin < 0) (hpipe : lin.pipe = some q)
    (hthread : lin.create = 0) (hconfig : config ≠ OPENUSB_SUCCESS) :
    openusbOpenDevice (linuxBackend lin config) s devid true ⟨true, true, some addr, true, some p⟩ =
      some ⟨config, 0, closed lin s devid addr p q⟩ := by
  have hclose : openusbCloseDevice (linuxBackend lin config) (opened lin s devid addr p q) s.cur_dev_handle =
      some (OPENUSB_SUCCESS, closed lin s devid addr p q) := by
    have hrest : (opened lin s devid addr p q).devHandles.eraseP (fun h => h.handle = s.cur_dev_handle) = s.devHandles := by
      have herase := @eraseP_listed (linuxOpened lin (started s p) (newHandle s devid addr p) q)
        (linuxHandle lin (newHandle s devid addr p) q) hs.new
      exact herase.trans linuxOpened_devHandles
    have hlinux : (linuxBackend lin config).closes (opened lin s devid addr p q)
        { linuxHandle lin (newHandle s devid addr p) q with state := .opened } =
          some (OPENUSB_SUCCESS, unwound lin (opened lin s devid addr p q) q) :=
      linuxClose_opened hthread (opened lin s devid addr p q)
    rw [openusbCloseDevice, if_neg hs.pos.ne', hs.find_opened]
    dsimp only
    rw [hlinux, Option.map_some, unwound_devHandles, hrest]
    rfl
  rw [openusbOpenDevice_ok hpriv hfile hpipe hthread.ge, readConfiguration]
  change (openusbGetConfigurationOf _ (opened lin s devid addr p q) _).bind _ = _
  rw [hs.getConfiguration_opened, if_pos hthread, Option.bind_some, if_pos hconfig]
  change (openusbCloseDevice _ (opened lin s devid addr p q) _).map _ = _
  rw [hclose]
  rfl

/-- `linux_close` closes the descriptors that are not 0. -/
theorem mem_unwound {x : ℤ} :
    x ∈ (unwound lin s q).fds ↔ x ∈ s.fds ∧ ¬ (x ∈ deviceOpen lin :: pair (some q) ∧ 0 < x) := by
  have hpipe : x ∈ [q.1, q.2].filter (0 < ·) ↔ x ∈ pair (some q) ∧ 0 < x := by
    rw [List.mem_filter, decide_eq_true_eq]
    rfl
  have hkept : x ∈ ({ s with threads := s.threads.erase lin.thread }.closeFds ([q.1, q.2].filter (0 < ·))).fds ↔
      x ∈ s.fds ∧ ¬ (x ∈ pair (some q) ∧ 0 < x) := mem_closeFds.trans (and_congr_right' (not_congr hpipe))
  rw [List.mem_cons, unwound]
  by_cases hfd : deviceOpen lin ≤ 0
  · rw [if_pos hfd, hkept]
    have hne : 0 < x → x ≠ deviceOpen lin := by omega
    tauto
  · rw [if_neg hfd, mem_closeFds, hkept, List.mem_singleton]
    have hpos : x = deviceOpen lin → 0 < x := by omega
    tauto

/-- The descriptors that are open then. -/
theorem mem_closed {x : ℤ} : x ∈ (closed lin s devid addr p q).fds ↔
    (x ∈ s.fds ∨ x ∈ pair (some p) ∨ x ∈ deviceOpen lin :: pair (some q)) ∧
      ¬ (x ∈ deviceOpen lin :: pair (some q) ∧ 0 < x) ∧ x ∉ pair (some p) := by
  have hopened : (opened lin s devid addr p q).fds =
      (((started s p).openFds [deviceOpen lin]).openFds [q.1, q.2]).fds := by
    unfold opened listed linuxOpened
    split_ifs <;> rfl
  have hstarted : x ∈ (started s p).fds ↔ x ∈ s.fds ∨ x ∈ pair (some p) := mem_openFds
  have hunwound : x ∈ (closed lin s devid addr p q).fds ↔
      x ∈ (unwound lin (opened lin s devid addr p q) q).fds ∧ x ∉ pair (some p) := mem_closeFds
  have hq : x ∈ [q.1, q.2] ↔ x ∈ pair (some q) := Iff.rfl
  rw [hunwound, mem_unwound, hopened, mem_openFds, mem_openFds, hstarted, List.mem_singleton, hq, List.mem_cons,
    or_assoc, or_assoc, and_assoc]

theorem closed_fds_iff (hgranted : Granted s ⟨true, true, some addr, true, some p⟩ lin) (hfile : ¬ deviceOpen lin < 0)
    (hpipe : lin.pipe = some q) :
    (closed lin s devid addr p q).fds = s.fds ↔ ∀ fd ∈ privFds lin, fd ≠ 0 := by
  have hpriv : privFds lin = deviceOpen lin :: pair (some q) := by rw [privFds, hpipe]
  have hnonneg : ∀ fd ∈ privFds lin, 0 ≤ fd := by
    intro fd hfd
    rw [hpriv] at hfd
    rcases List.mem_cons.mp hfd with rfl | hfd
    · exact not_lt.mp hfile
    · exact hgranted.nonneg fd (List.mem_append_right _ (hpipe ▸ hfd))
  have hnew : ∀ fd ∈ pair (some p) ++ privFds lin, fd ∉ s.fds := by
    intro fd hfd
    refine hgranted.fds fd hfd ?_
    rcases List.mem_append.mp hfd with hfd | hfd
    · exact hgranted.nonneg fd (List.mem_append_left _ hfd)
    · exact hnonneg fd hfd
  constructor
  · rintro heq fd hfd rfl
    apply hnew 0 (List.mem_append_right _ hfd)
    rw [← heq, mem_closed, ← hpriv]
    exact ⟨.inr (.inr hfd), fun h => lt_irrefl 0 h.2, fun h => hgranted.apart 0 h hfd⟩
  · intro hne
    ext x
    rw [mem_closed, ← hpriv]
    constructor
    · rintro ⟨hx, hpos, hp⟩
      rcases hx with hx | hx | hx
      · exact hx
      · exact absurd hx hp
      · exact absurd ⟨hx, (hnonneg x hx).lt_of_ne (hne x hx).symm⟩ hpos
    · intro hx
      refine ⟨.inl hx, fun h => hnew x (List.mem_append_right _ h.1) hx, fun h => ?_⟩
      exact hnew x (List.mem_append_left _ h) hx

/-- What a failure to read the configuration leaves. -/
theorem closed_leaves_iff (hgranted : Granted s ⟨true, true, some addr, true, some p⟩ lin) (hfile : ¬ deviceOpen lin < 0)
    (hpipe : lin.pipe = some q) (hthread : lin.create = 0) (hconfig : config ≠ OPENUSB_SUCCESS) :
    LeavesNothing s ⟨config, 0, closed lin s devid addr p q⟩ ↔
      (∀ fd ∈ privFds lin, fd ≠ 0) ∧ s.hdev devid = some addr := by
  have hthreads : (closed lin s devid addr p q).threads = s.threads := by
    have hunwound : (closed lin s devid addr p q).threads = (opened lin s devid addr p q).threads.erase lin.thread := by
      unfold closed unwound
      dsimp only
      split_ifs <;> rfl
    have hopened : (opened lin s devid addr p q).threads = insert lin.thread s.threads := by
      unfold opened listed linuxOpened
      dsimp only
      rw [if_pos (decide_eq_true hthread)]
      rfl
    rw [hunwound, hopened, Finset.erase_insert hgranted.thread]
  have hhdev : (closed lin s devid addr p q).hdev = Function.update s.hdev devid (some addr) := by
    have hunwound : (closed lin s devid addr p q).hdev = (opened lin s devid addr p q).hdev := by
      unfold closed unwound
      dsimp only
      split_ifs <;> rfl
    have hopened : (opened lin s devid addr p q).hdev = Function.update s.hdev devid (some addr) := by
      unfold opened listed linuxOpened
      dsimp only
      rw [if_pos (decide_eq_true hthread)]
      rfl
    rw [hunwound, hopened]
  constructor
  · intro h
    refine ⟨(closed_fds_iff hgranted hfile hpipe).mp h.fds, ?_⟩
    have hsame := congrFun (hhdev.symm.trans h.hdev) devid
    rw [Function.update_self] at hsame
    exact hsame.symm
  · rintro ⟨hne, hsame⟩
    refine ⟨hconfig, rfl, rfl, (closed_fds_iff hgranted hfile hpipe).mpr hne, hthreads, ?_⟩
    rw [hhdev, ← hsame, Function.update_eq_self]

/-! ## Every failure -/

theorem not_undone (hearly : step.early = false) (hconfig : step ≠ .config) : ¬ Undone s devid env lin step := by
  rintro (h | ⟨h, -, -⟩)
  · rw [hearly] at h
    cases h
  · exact hconfig h

/-- Only a value for a handle is used up. -/
theorem unchanged (c : ℕ) {ret : ℤ} (hret : ret ≠ OPENUSB_SUCCESS) :
    LeavesNothing s ⟨ret, 0, { s with cur_dev_handle := c }⟩ :=
  ⟨hret, rfl, rfl, rfl, rfl, rfl⟩

/-- The Linux backend's open fails without its private data, the device file or the second pipe. -/
theorem linuxOpen_neg (hstate : hdev.state = .closed) (hfail : lin.priv = false ∨ deviceOpen lin < 0 ∨ lin.pipe = none) :
    (linuxOpen lin s hdev).1 < 0 := by
  unfold linuxOpen
  dsimp only
  rw [if_neg (by rw [hstate]; decide)]
  by_cases hpriv : lin.priv = true
  · rw [if_neg (by simp [hpriv])]
    by_cases hfile : deviceOpen lin < 0
    · rw [if_pos hfile]
      exact hfile
    · have hpipe : lin.pipe = none := by simpa [hpriv, hfile] using hfail
      rw [if_neg hfile, hpipe]
      exact show OPENUSB_SYS_FUNC_FAILURE < 0 by decide
  · rw [if_pos (by simpa using hpriv)]
    exact show OPENUSB_NO_RESOURCES < 0 by decide

/-- Failures from the backend's open on. -/
theorem late_iff (hs : s.Inv) (hgranted : Granted s ⟨true, true, some addr, true, some p⟩ lin)
    (hfail : failing ⟨true, true, some addr, true, some p⟩ lin config = some step) :
    (∃ r, openusbOpenDevice (linuxBackend lin config) s devid true ⟨true, true, some addr, true, some p⟩ = some r ∧
      LeavesNothing s r) ↔ Undone s devid ⟨true, true, some addr, true, some p⟩ lin step := by
  change (if !lin.priv then some OpenStep.priv else if deviceOpen lin < 0 then some .file
    else if lin.pipe = none then some .privPipe else if lin.create ≠ 0 then some .thread
    else if config ≠ OPENUSB_SUCCESS then some .config else none) = some step at hfail
  by_cases hpriv : lin.priv = false
  · rw [if_pos (by simp [hpriv])] at hfail
    obtain rfl := Option.some.inj hfail
    exact iff_of_false (pipe_left hgranted (linuxOpen_neg rfl (.inl hpriv))) (not_undone rfl (by decide))
  rw [if_neg (by simpa using hpriv)] at hfail
  rw [Bool.not_eq_false] at hpriv
  by_cases hfile : deviceOpen lin < 0
  · rw [if_pos hfile] at hfail
    obtain rfl := Option.some.inj hfail
    exact iff_of_false (pipe_left hgranted (linuxOpen_neg rfl (.inr (.inl hfile)))) (not_undone rfl (by decide))
  rw [if_neg hfile] at hfail
  cases hpipe : lin.pipe with
  | none =>
    rw [if_pos hpipe] at hfail
    obtain rfl := Option.some.inj hfail
    exact iff_of_false (pipe_left hgranted (linuxOpen_neg rfl (.inr (.inr hpipe)))) (not_undone rfl (by decide))
  | some q =>
    rw [if_neg (by simp [hpipe])] at hfail
    by_cases hthread : lin.create = 0
    · rw [if_neg (not_not.mpr hthread)] at hfail
      by_cases hconfig : config = OPENUSB_SUCCESS
      · rw [if_neg (not_not.mpr hconfig)] at hfail
        cases hfail
      · rw [if_pos hconfig] at hfail
        obtain rfl := Option.some.inj hfail
        have hleaves := @closed_leaves_iff s lin config devid addr p q hgranted hfile hpipe hthread hconfig
        rw [config_fails hs hpriv hfile hpipe hthread hconfig]
        constructor
        · rintro ⟨r, hr, h⟩
          rw [← Option.some.inj hr] at h
          exact .inr ⟨rfl, hleaves.mp h⟩
        · rintro (h | ⟨-, h⟩)
          · cases h
          · exact ⟨_, rfl, hleaves.mpr h⟩
    · rw [if_pos hthread] at hfail
      obtain rfl := Option.some.inj hfail
      rw [no_thread hs hpriv hfile hpipe hgranted.create hthread]
      exact iff_of_false (by simp) (not_undone rfl (by decide))

/-- Before the backend's open there is nothing to undo; after it, everything is as before only in the one case of
`Undone`. -/
theorem open_leaves_nothing_iff (hs : s.Inv) (hgranted : Granted s env lin)
    (hfail : failing env lin config = some step) :
    (∃ r, openusbOpenDevice (linuxBackend lin config) s devid true env = some r ∧ LeavesNothing s r) ↔
      Undone s devid env lin step := by
  obtain ⟨handle, device, alloc, mutex, pipe⟩ := env
  cases handle with
  | false =>
    obtain rfl := Option.some.inj hfail
    exact iff_of_true ⟨_, rfl, unchanged s.cur_dev_handle (by decide : OPENUSB_INVALID_HANDLE ≠ OPENUSB_SUCCESS)⟩ (.inl rfl)
  | true =>
  cases device with
  | false =>
    obtain rfl := Option.some.inj hfail
    exact iff_of_true ⟨_, rfl, unchanged s.cur_dev_handle (by decide : OPENUSB_UNKNOWN_DEVICE ≠ OPENUSB_SUCCESS)⟩ (.inl rfl)
  | true =>
  cases alloc with
  | none =>
    obtain rfl := Option.some.inj hfail
    exact iff_of_true ⟨_, rfl, unchanged s.cur_dev_handle (by decide : OPENUSB_NO_RESOURCES ≠ OPENUSB_SUCCESS)⟩ (.inl rfl)
  | some addr =>
  cases mutex with
  | false =>
    obtain rfl := Option.some.inj hfail
    have hret : OPENUSB_SYS_FUNC_FAILURE ≠ OPENUSB_SUCCESS := by decide
    exact iff_of_true ⟨_, rfl, unchanged (s.cur_dev_handle + 1) hret⟩ (.inl rfl)
  | true =>
  cases pipe with
  | none =>
    obtain rfl := Option.some.inj hfail
    have hret : OPENUSB_SYS_FUNC_FAILURE ≠ OPENUSB_SUCCESS := by decide
    exact iff_of_true ⟨_, rfl, unchanged (s.cur_dev_handle + 1) hret⟩ (.inl rfl)
  | some p => exact late_iff hs hgranted hfail

end

/-- No handle, and the three standard descriptors. -/
def idle : OpenState := ⟨[], 1, {0, 1, 2}, ∅, fun _ => none⟩

/-- The frontend's pipe cannot be created. -/
theorem open_without_pipe_leaves_nothing :
    ∃ r, openusbOpenDevice (linuxBackend ⟨true, ⟨5, 0⟩, ⟨5, 0⟩, some (6, 7), 0, 8⟩ 0) idle 1 true
      ⟨true, true, some 100, true, none⟩ = some r ∧ LeavesNothing idle r :=
  (@open_leaves_nothing_iff idle ⟨true, true, some 100, true, none⟩ ⟨true, ⟨5, 0⟩, ⟨5, 0⟩, some (6, 7), 0, 8⟩ 0 1 .pipe
    (.start ..) ⟨by decide, by decide, by decide, by decide, by decide⟩ rfl).mpr (.inl rfl)

/-- The device file cannot be opened for want of permission: the pipe stays open. -/
theorem open_without_permission_leaves_pipe :
    ∃ r, Granted idle ⟨true, true, some 100, true, some (3, 4)⟩ ⟨true, ⟨-1, 13⟩, ⟨-1, 13⟩, none, 0, 8⟩ ∧
      openusbOpenDevice (linuxBackend ⟨true, ⟨-1, 13⟩, ⟨-1, 13⟩, none, 0, 8⟩ 0) idle 1 true
        ⟨true, true, some 100, true, some (3, 4)⟩ = some r ∧
      r.ret = OPENUSB_NOACCESS ∧ 3 ∈ r.state.fds ∧ ¬ LeavesNothing idle r := by
  have hopen : ∃ r, openusbOpenDevice (linuxBackend ⟨true, ⟨-1, 13⟩, ⟨-1, 13⟩, none, 0, 8⟩ 0) idle 1 true
      ⟨true, true, some 100, true, some (3, 4)⟩ = some r ∧ r.ret = OPENUSB_NOACCESS ∧ 3 ∈ r.state.fds :=
    ⟨_, rfl, by decide, by decide⟩
  obtain ⟨r, hr, hret, hfd⟩ := hopen
  refine ⟨r, ⟨by decide, by decide, by decide, by decide, by decide⟩, hr, hret, hfd, fun h => ?_⟩
  rw [h.fds] at hfd
  exact absurd hfd (by decide)

end OpenUsb.Opening
