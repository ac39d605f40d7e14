import OpenUsb.Claim
import OpenUsb.HandleLinks

/-!
# OpenDevice — `openusb_open_device` and `openusb_close_device`

`openusb_open_device` takes a handle, a pipe and what the backend's open takes: on Linux the device file, a second pipe and
the poll thread.  What the frontend needs of a backend is that it leaves the list of handles alone (`Backend`).

* `OpenState.Inv.opens`: an open lists one new handle, or none.
-/

namespace OpenUsb.Opening

/-! ## The state -/

/-- The private data of the Linux backend for a handle. -/
structure HandlePriv where
  fd : ℤ
  event_pipe : ℤ × ℤ
  io_thread : Option ℕ
  deriving DecidableEq, Repr

/-- `struct usbi_dev_handle`, at the address `addr`. -/
structure DevHandle where
  handle : ℕ
  addr : ℕ
  idev : ℕ
  state : DevState := .closed
  event_pipe : ℤ × ℤ := (0, 0)
  priv : Option HandlePriv := none
  deriving DecidableEq, Repr

/-- `usbi_dev_handles`, `cur_dev_handle`, the open file descriptors, the running threads, and `priv->hdev` of every device. -/
structure OpenState where
  devHandles : List DevHandle
  cur_dev_handle : ℕ
  fds : Finset ℤ
  threads : Finset ℕ
  hdev : ℕ → Option ℕ

namespace OpenState

variable (s : OpenState)

def openFds (fds : List ℤ) : OpenState := { s with fds := s.fds ∪ fds.toFinset }

def closeFds (fds : List ℤ) : OpenState := { s with fds := s.fds \ fds.toFinset }

/-- `usbi_find_dev_handle`. -/
def usbiFindDevHandle (dev : ℕ) : Option DevHandle := s.devHandles.find? fun h => h.handle = dev

/-- The same handles are listed, and as many have been given out. -/
def SameHandles (t : OpenState) : Prop := t.devHandles = s.devHandles ∧ t.cur_dev_handle = s.cur_dev_handle

end OpenState

/-- What the frontend calls of a backend.  Only the frontend puts handles on the list and takes them off. -/
structure Backend where
  opens : OpenState → DevHandle → ℤ × DevHandle × OpenState
  closes : OpenState → DevHandle → Option (ℤ × OpenState)
  getConfiguration : OpenState → DevHandle → Option ℤ
  opens_handle : ∀ s h, (opens s h).2.1.handle = h.handle
  opens_same : ∀ (s : OpenState) h, s.SameHandles (opens s h).2.2
  closes_same : ∀ (s : OpenState) h r, closes s h = some r → s.SameHandles r.2

/-! ## The frontend -/

/-- How the steps of `openusb_open_device` end: are the library handle and the device found, where is the new handle
allocated, is its mutex initialised, and its pipe. -/
structure OpenEnv where
  handle : Bool
  device : Bool
  alloc : Option ℕ
  mutex : Bool
  pipe : Option (ℤ × ℤ)
  deriving DecidableEq, Repr

structure OpenResult where
  ret : ℤ
  dev : ℕ
  state : OpenState

/-- `openusb_close_device`; it does not return when the backend's close does not. -/
def openusbCloseDevice (B : Backend) (s : OpenState) (dev : ℕ) : Option (ℤ × OpenState) :=
  if dev = 0 then some (OPENUSB_SUCCESS, s)
  else match s.usbiFindDevHandle dev with
    | none => some (OPENUSB_UNKNOWN_DEVICE, s)
    | some hdev => (B.closes s hdev).map fun r =>
      (r.1, { r.2 with devHandles := r.2.devHandles.eraseP fun h => h.handle = dev }.closeFds
        [hdev.event_pipe.1, hdev.event_pipe.2])

/-- `openusb_get_configuration` for a handle. -/
def openusbGetConfigurationOf (B : Backend) (s : OpenState) (dev : ℕ) : Option ℤ :=
  match s.usbiFindDevHandle dev with
  | none => some OPENUSB_UNKNOWN_DEVICE
  | some hdev => B.getConfiguration s hdev

/-- `openusb_open_device` from the handle being listed. -/
def readConfiguration (B : Backend) (s : OpenState) (dev : ℕ) : Option OpenResult :=
  (openusbGetConfigurationOf B s dev).bind fun ret =>
    if ret ≠ OPENUSB_SUCCESS then (openusbCloseDevice B s dev).map fun r => ⟨ret, 0, r.2⟩
    else some ⟨OPENUSB_SUCCESS, dev, s⟩

/-- `openusb_open_device`; `dev = false` is a NULL pointer. -/
def openusbOpenDevice (B : Backend) (s : OpenState) (devid : ℕ) (dev : Bool) (env : OpenEnv) : Option OpenResult :=
  if !dev then some ⟨OPENUSB_BADARG, 0, s⟩
  else if !env.handle then some ⟨OPENUSB_INVALID_HANDLE, 0, s⟩
  else if !env.device then some ⟨OPENUSB_UNKNOWN_DEVICE, 0, s⟩
  else match env.alloc with
    | none => some ⟨OPENUSB_NO_RESOURCES, 0, s⟩
    | some addr =>
      let hdev : DevHandle := { handle := s.cur_dev_handle, addr := addr, idev := devid }
      let s := { s with cur_dev_handle := s.cur_dev_handle + 1 }
      if !env.mutex then some ⟨OPENUSB_SYS_FUNC_FAILURE, 0, s⟩
      else match env.pipe with
        | none => some ⟨OPENUSB_SYS_FUNC_FAILURE, 0, s⟩
        | some p =>
          let opened := B.opens (s.openFds [p.1, p.2]) { hdev with event_pipe := p }
          if opened.1 < 0 then some ⟨opened.1, 0, opened.2.2⟩
          else
            let s := opened.2.2
            let s := { s with devHandles := s.devHandles ++ [{ opened.2.1 with state := .opened }] }
            readConfiguration B s opened.2.1.handle

/-! ## The Linux backend -/

/-- How the steps of `linux_open` end. -/
structure LinuxEnv where
  priv : Bool
  rdwr : Syscall
  rdonly : Syscall
  pipe : Option (ℤ × ℤ)
  create : ℤ
  thread : ℕ
  deriving DecidableEq, Repr

/-- `device_open`. -/
def deviceOpen (env : LinuxEnv) : ℤ :=
  if env.rdwr.ret < 0 then
    if env.rdonly.ret < 0 then translateErrno env.rdonly.errno else env.rdonly.ret
  else env.rdwr.ret

/-- `linux_close`: no thread is joined that was never created. -/
def linuxClose (s : OpenState) (hdev : DevHandle) : Option (ℤ × OpenState) :=
  if hdev.state ≠ .opened then some (OPENUSB_SUCCESS, s)
  else do
    let priv ← hdev.priv
    let thread ← priv.io_thread
    let s := { s with threads := s.threads.erase thread }
    let s := s.closeFds ([priv.event_pipe.1, priv.event_pipe.2].filter (0 < ·))
    if priv.fd ≤ 0 then some (OPENUSB_SUCCESS, s) else some (OPENUSB_SUCCESS, s.closeFds [priv.fd])

/-- `linux_open` from the private pipe on; `pthread_create` returns an error number when it fails. -/
def startPolling (env : LinuxEnv) (s : OpenState) (hdev : DevHandle) (fd : ℤ) (q : ℤ × ℤ) : ℤ × DevHandle × OpenState :=
  let created := decide (env.create = 0)
  let hdev := { hdev with priv := some ⟨fd, q, if created then some env.thread else none⟩ }
  let s := if created then { s with threads := insert env.thread s.threads } else s
  if env.create < 0 then (OPENUSB_NO_RESOURCES, hdev, ((linuxClose s hdev).map Prod.snd).getD s)
  else (OPENUSB_SUCCESS, hdev, { s with hdev := Function.update s.hdev hdev.idev (some hdev.addr) })

/-- `linux_open`. -/
def linuxOpen (env : LinuxEnv) (s : OpenState) (hdev : DevHandle) : ℤ × DevHandle × OpenState :=
  if hdev.state = .opened then (OPENUSB_BUSY, hdev, s)
  else if !env.priv then (OPENUSB_NO_RESOURCES, hdev, s)
  else
    let fd := deviceOpen env
    if fd < 0 then (fd, { hdev with priv := some ⟨fd, (0, 0), none⟩ }, s)
    else match env.pipe with
      | none => (OPENUSB_SYS_FUNC_FAILURE, { hdev with priv := some ⟨fd, (0, 0), none⟩ }, s.openFds [fd])
      | some q => startPolling env ((s.openFds [fd]).openFds [q.1, q.2]) hdev fd q

/-- The read of the configuration completes when the poll thread reaps it: without that thread it is waited for forever. -/
def linuxGetConfiguration (config : ℤ) (s : OpenState) (hdev : DevHandle) : Option ℤ :=
  (hdev.priv.bind HandlePriv.io_thread).bind fun thread => if thread ∈ s.threads then some config else none

section

variable {s : OpenState} {hdev : DevHandle} {env : LinuxEnv} {r : ℤ × OpenState}

@[simp] theorem mem_openFds {fds : List ℤ} {x : ℤ} : x ∈ (s.openFds fds).fds ↔ x ∈ s.fds ∨ x ∈ fds := by
  simp [OpenState.openFds]

@[simp] theorem mem_closeFds {fds : List ℤ} {x : ℤ} : x ∈ (s.closeFds fds).fds ↔ x ∈ s.fds ∧ x ∉ fds := by
  simp [OpenState.closeFds]

theorem linuxClose_same (h : linuxClose s hdev = some r) : s.SameHandles r.2 := by
  unfold linuxClose at h
  split_ifs at h
  · rw [← Option.some.inj h]
    exact ⟨rfl, rfl⟩
  · obtain ⟨priv, -, h⟩ := Option.bind_eq_some_iff.mp h
    obtain ⟨thread, -, h⟩ := Option.bind_eq_some_iff.mp h
    dsimp only at h
    split_ifs at h
    · rw [← Option.some.inj h]
      exact ⟨rfl, rfl⟩
    · rw [← Option.some.inj h]
      exact ⟨rfl, rfl⟩

theorem startPolling_same (fd : ℤ) (q : ℤ × ℤ) : s.SameHandles (startPolling env s hdev fd q).2.2 := by
  have hclose : ∀ (t : OpenState) (h : DevHandle), t.SameHandles (((linuxClose t h).map Prod.snd).getD t) := by
    intro t h
    cases hr : linuxClose t h with
    | none => exact ⟨rfl, rfl⟩
    | some r => exact linuxClose_same hr
  have hcreated : s.SameHandles (if decide (env.create = 0) = true then
      { s with threads := insert env.thread s.threads } else s) := by
    split_ifs
    · exact ⟨rfl, rfl⟩
    · exact ⟨rfl, rfl⟩
  unfold startPolling
  dsimp only
  by_cases hneg : env.create < 0
  · rw [if_pos hneg]
    exact ⟨(hclose _ _).1.trans hcreated.1, (hclose _ _).2.trans hcreated.2⟩
  · rw [if_neg hneg]
    exact hcreated

theorem linuxOpen_keeps : (linuxOpen env s hdev).2.1.handle = hdev.handle ∧ s.SameHandles (linuxOpen env s hdev).2.2 := by
  unfold linuxOpen
  dsimp only
  split_ifs
  · exact ⟨rfl, rfl, rfl⟩
  · exact ⟨rfl, rfl, rfl⟩
  · exact ⟨rfl, rfl, rfl⟩
  · cases env.pipe with
    | none => exact ⟨rfl, rfl, rfl⟩
    | some q =>
      refine ⟨?_, startPolling_same _ q⟩
      unfold startPolling
      dsimp only
      split_ifs <;> rfl

end

/-- The Linux backend, when its steps end like this and the read of the configuration with `config`. -/
def linuxBackend (env : LinuxEnv) (config : ℤ) : Backend where
  opens := linuxOpen env
  closes := linuxClose
  getConfiguration := linuxGetConfiguration config
  opens_handle := fun _ _ => linuxOpen_keeps.1
  opens_same := fun _ _ => linuxOpen_keeps.2
  closes_same := fun _ _ _ => linuxClose_same

/-! ## The handles -/

/-- Handles have values that were given out, and 0 is none of them. -/
structure OpenState.Inv (s : OpenState) : Prop where
  pos : 0 < s.cur_dev_handle
  given : ∀ h ∈ s.devHandles, 0 < h.handle ∧ h.handle < s.cur_dev_handle

section

variable {B : Backend} {s t : OpenState} {env : OpenEnv} {devid dev addr : ℕ} {p : ℤ × ℤ} {hdev : DevHandle}
  {r : OpenResult}

theorem OpenState.Inv.congr (hs : s.Inv) (h : s.SameHandles t) : t.Inv where
  pos := h.2.symm ▸ hs.pos
  given := by
    intro h' hh'
    rw [h.1] at hh'
    rw [h.2]
    exact hs.given h' hh'

/-- No handle has been given out. -/
theorem OpenState.Inv.start (fds : Finset ℤ) (threads : Finset ℕ) (hdev : ℕ → Option ℕ) :
    (⟨[], 1, fds, threads, hdev⟩ : OpenState).Inv where
  pos := Nat.one_pos
  given := nofun

def listed (s : OpenState) (hdev : DevHandle) : OpenState :=
  { s with devHandles := s.devHandles ++ [{ hdev with state := .opened }] }

/-- A handle that was just listed is the one that is found. -/
theorem find_listed (hnew : ∀ h ∈ s.devHandles, h.handle ≠ hdev.handle) :
    (listed s hdev).usbiFindDevHandle hdev.handle = some { hdev with state := .opened } := by
  unfold OpenState.usbiFindDevHandle listed
  rw [List.find?_append, List.find?_eq_none.mpr (by simpa using hnew)]
  simp

theorem eraseP_listed (hnew : ∀ h ∈ s.devHandles, h.handle ≠ hdev.handle) :
    (listed s hdev).devHandles.eraseP (fun h => h.handle = hdev.handle) = s.devHandles := by
  unfold listed
  rw [List.eraseP_append_right _ (by simpa using hnew)]
  simp

/-- Closing takes the handle off the list, if it is found. -/
theorem close_devHandles {c : ℤ × OpenState} (h : openusbCloseDevice B s dev = some c) :
    c.2.devHandles = (if dev = 0 then s.devHandles else s.devHandles.eraseP fun h => h.handle = dev) ∧
      c.2.cur_dev_handle = s.cur_dev_handle := by
  unfold openusbCloseDevice at h
  by_cases hzero : dev = 0
  · rw [if_pos hzero] at h ⊢
    rw [← Option.some.inj h]
    exact ⟨rfl, rfl⟩
  rw [if_neg hzero] at h ⊢
  cases hfind : s.usbiFindDevHandle dev with
  | none =>
    rw [hfind] at h
    rw [← Option.some.inj h, List.eraseP_of_forall_not (List.find?_eq_none.mp hfind)]
    exact ⟨rfl, rfl⟩
  | some hdev =>
    rw [hfind] at h
    obtain ⟨c', hc', rfl⟩ := Option.map_eq_some_iff.mp h
    obtain ⟨hlist, hcur⟩ := B.closes_same s hdev c' hc'
    exact ⟨congrArg (fun l => l.eraseP fun h => h.handle = dev) hlist, hcur⟩

theorem OpenState.Inv.close (hs : s.Inv) {c : ℤ × OpenState} (h : openusbCloseDevice B s dev = some c) : c.2.Inv := by
  obtain ⟨hlist, hcur⟩ := close_devHandles h
  refine ⟨hcur.symm ▸ hs.pos, fun h' hh' => hcur.symm ▸ hs.given h' ?_⟩
  rw [hlist] at hh'
  split_ifs at hh'
  · exact hh'
  · exact List.mem_of_mem_eraseP hh'

/-- What an open does to the handles: it succeeds with a new one at the end of the list, or leaves them. -/
structure Opens (s : OpenState) (r : OpenResult) : Prop where
  inv : r.state.Inv
  ok : r.ret = OPENUSB_SUCCESS → r.dev = s.cur_dev_handle ∧
    ∃ hdev, hdev.handle = s.cur_dev_handle ∧ r.state.devHandles = s.devHandles ++ [hdev]
  error : r.ret ≠ OPENUSB_SUCCESS → r.dev = 0 ∧ r.state.devHandles = s.devHandles

/-- The new handle, as the backend's open gets it. -/
def newHandle (s : OpenState) (devid addr : ℕ) (p : ℤ × ℤ) : DevHandle :=
  { handle := s.cur_dev_handle, addr := addr, idev := devid, event_pipe := p }

/-- The state that the backend's open starts from. -/
def started (s : OpenState) (p : ℤ × ℤ) : OpenState :=
  { s with cur_dev_handle := s.cur_dev_handle + 1 }.openFds [p.1, p.2]

/-- When the frontend's own steps have succeeded. -/
theorem openusbOpenDevice_eq : openusbOpenDevice B s devid true ⟨true, true, some addr, true, some p⟩ =
    if (B.opens (started s p) (newHandle s devid addr p)).1 < 0 then
      some ⟨(B.opens (started s p) (newHandle s devid addr p)).1, 0,
        (B.opens (started s p) (newHandle s devid addr p)).2.2⟩
    else readConfiguration B (listed (B.opens (started s p) (newHandle s devid addr p)).2.2
      (B.opens (started s p) (newHandle s devid addr p)).2.1) (B.opens (started s p) (newHandle s devid addr p)).2.1.handle :=
  rfl

theorem OpenState.Inv.opens_error (hs : s.Inv) {c : ℕ} (hc : s.cur_dev_handle ≤ c) {ret : ℤ}
    (hret : ret ≠ OPENUSB_SUCCESS) : Opens s ⟨ret, 0, { s with cur_dev_handle := c }⟩ where
  inv := ⟨hs.pos.trans_le hc, fun h hh => ⟨(hs.given h hh).1, (hs.given h hh).2.trans_le hc⟩⟩
  ok := fun h => absurd h hret
  error := fun _ => ⟨rfl, rfl⟩

/-- The part of an open behind the backend's. -/
theorem OpenState.Inv.opens_late (hs : s.Inv) (ht : { s with cur_dev_handle := s.cur_dev_handle + 1 }.SameHandles t)
    (hdev : DevHandle) (hhandle : hdev.handle = s.cur_dev_handle)
    (h : readConfiguration B (listed t hdev) hdev.handle = some r) : Opens s r := by
  obtain ⟨hlist, hcur⟩ := ht
  have hnew : ∀ h ∈ t.devHandles, h.handle ≠ hdev.handle := by
    intro h hh
    rw [hlist] at hh
    rw [hhandle]
    exact Nat.ne_of_lt (hs.given h hh).2
  have hinv : (listed t hdev).Inv := by
    refine ⟨hcur.symm ▸ Nat.succ_pos _, fun h hh => ?_⟩
    have hcur' : (listed t hdev).cur_dev_handle = s.cur_dev_handle + 1 := hcur
    rw [hcur']
    rcases List.mem_append.mp hh with hh | hh
    · rw [hlist] at hh
      exact ⟨(hs.given h hh).1, (hs.given h hh).2.trans (Nat.lt_succ_self _)⟩
    · rw [List.mem_singleton.mp hh]
      exact ⟨hhandle.symm ▸ hs.pos, hhandle.symm ▸ Nat.lt_succ_self _⟩
  obtain ⟨ret, -, h⟩ := Option.bind_eq_some_iff.mp h
  by_cases hret : ret ≠ OPENUSB_SUCCESS
  · rw [if_pos hret] at h
    obtain ⟨c, hc, rfl⟩ := Option.map_eq_some_iff.mp h
    refine ⟨hinv.close hc, fun h => absurd h hret, fun _ => ⟨rfl, ?_⟩⟩
    show c.2.devHandles = s.devHandles
    rw [(close_devHandles hc).1, if_neg (hhandle.symm ▸ hs.pos.ne'), eraseP_listed hnew, hlist]
  · rw [if_neg hret] at h
    rw [← Option.some.inj h]
    refine ⟨hinv, fun _ => ⟨hhandle, _, ?_, congrArg (· ++ _) hlist⟩, fun h => absurd rfl h⟩
    exact hhandle

theorem OpenState.Inv.opens (hs : s.Inv) (h : openusbOpenDevice B s devid true env = some r) : Opens s r := by
  obtain ⟨handle, device, alloc, mutex, pipe⟩ := env
  cases handle with
  | false => exact Option.some.inj h ▸ hs.opens_error le_rfl (by decide : OPENUSB_INVALID_HANDLE ≠ OPENUSB_SUCCESS)
  | true =>
  cases device with
  | false => exact Option.some.inj h ▸ hs.opens_error le_rfl (by decide : OPENUSB_UNKNOWN_DEVICE ≠ OPENUSB_SUCCESS)
  | true =>
  cases alloc with
  | none => exact Option.some.inj h ▸ hs.opens_error le_rfl (by decide : OPENUSB_NO_RESOURCES ≠ OPENUSB_SUCCESS)
  | some addr =>
  have hmore : s.cur_dev_handle ≤ s.cur_dev_handle + 1 := Nat.le_succ _
  cases mutex with
  | false => exact Option.some.inj h ▸ hs.opens_error hmore (by decide : OPENUSB_SYS_FUNC_FAILURE ≠ OPENUSB_SUCCESS)
  | true =>
  cases pipe with
  | none => exact Option.some.inj h ▸ hs.opens_error hmore (by decide : OPENUSB_SYS_FUNC_FAILURE ≠ OPENUSB_SUCCESS)
  | some p =>
    have hsame := B.opens_same (started s p) (newHandle s devid addr p)
    rw [openusbOpenDevice_eq] at h
    by_cases hneg : (B.opens (started s p) (newHandle s devid addr p)).1 < 0
    · rw [if_pos hneg] at h
      rw [← Option.some.inj h]
      have hret : (B.opens (started s p) (newHandle s devid addr p)).1 ≠ OPENUSB_SUCCESS := ne_of_lt hneg
      refine ⟨?_, fun h => absurd h hret, fun _ => ⟨rfl, hsame.1⟩⟩
      have hstarted := (hs.opens_error hmore hret).inv
      exact hstarted.congr hsame
    · rw [if_neg hneg] at h
      exact hs.opens_late hsame _ (B.opens_handle _ _) h

end

end OpenUsb.Opening
