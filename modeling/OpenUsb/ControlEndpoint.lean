import OpenUsb.Claim

/-!
# ControlEndpoint — the control endpoint that the handles of a device share on Solaris

Endpoint 0 of a device is opened with its first handle and closed with its last one.  `info` of the device has the two
descriptors and counts the handles.  A refresh of the bus writes `info` of the devices it finds again.

* `endpoint_shared_iff`: after which calls the count and the descriptors are right.
-/

namespace OpenUsb

namespace Solaris

/-! ## The device and its handles -/

/-- `struct usb_dev_info`, as far as endpoint 0 goes. -/
structure DevInfo where
  refCount : ℤ
  ep0Fd : ℤ
  ep0FdStat : ℤ
  deriving DecidableEq, Repr

/-- `struct ep`. -/
structure Ep where
  datafd : ℤ
  statfd : ℤ
  deriving DecidableEq, Repr

/-- A device, the handles that are open for it, `eps[0]` of every handle, and the descriptors of endpoint 0 that are open. -/
structure ControlEndpoint where
  info : DevInfo
  devHandles : List ℕ
  eps0 : ℕ → Ep
  fds : List ℤ

/-- How the steps of an open end: the ones before endpoint 0 is opened, the two calls of `open`, and `pthread_create`. -/
structure OpenCalls where
  ugenpath : Bool
  priv : Bool
  cntrl0 : ℤ
  cntrl0stat : ℤ
  thread : ℤ
  deriving DecidableEq, Repr

/-- Does a refresh get the device tree and the device links? -/
structure RefreshCalls where
  diInit : Bool
  diDevlinkInit : Bool
  deriving DecidableEq, Repr

namespace ControlEndpoint

section

variable (s : ControlEndpoint) (hdev : ℕ)

def setEp (ep : Ep) : ControlEndpoint := { s with eps0 := Function.update s.eps0 hdev ep }

/-- `open` of a file of endpoint 0 that returns a descriptor. -/
def openFd (fd : ℤ) : ControlEndpoint := { s with fds := s.fds ++ [fd] }

def closeFd (fd : ℤ) : ControlEndpoint := { s with fds := s.fds.erase fd }

/-- `usb_open_ep0`. -/
def usbOpenEp0 (calls : OpenCalls) : ℤ × ControlEndpoint :=
  if s.info.ep0Fd ≥ 0 then
    let s := { s with info := { s.info with refCount := s.info.refCount + 1 } }
    (0, s.setEp hdev ⟨s.info.ep0Fd, s.info.ep0FdStat⟩)
  else if calls.cntrl0 < 0 then (OPENUSB_SYS_FUNC_FAILURE, s.setEp hdev ⟨calls.cntrl0, -1⟩)
  else
    let s := s.openFd calls.cntrl0
    if calls.cntrl0stat < 0 then (-1, (s.closeFd calls.cntrl0).setEp hdev ⟨-1, calls.cntrl0stat⟩)
    else
      let s := (s.openFd calls.cntrl0stat).setEp hdev ⟨calls.cntrl0, calls.cntrl0stat⟩
      (0, { s with info := ⟨s.info.refCount + 1, calls.cntrl0, calls.cntrl0stat⟩ })

/-- `solaris_open`. -/
def solarisOpen (calls : OpenCalls) : ℤ × ControlEndpoint :=
  if !calls.ugenpath then (OPENUSB_NOT_SUPPORTED, s)
  else if !calls.priv then (OPENUSB_NO_RESOURCES, s)
  else
    let (ret, s) := (s.setEp hdev ⟨-1, -1⟩).usbOpenEp0 hdev calls
    if ret ≠ 0 then (OPENUSB_PLATFORM_FAILURE, s)
    else if calls.thread ≠ 0 then (OPENUSB_SYS_FUNC_FAILURE, s)
    else (OPENUSB_SUCCESS, s)

/-- `openusb_open_device` from the backend's open on: a handle whose open fails is freed. -/
def openusbOpenDevice (calls : OpenCalls) : ℤ × ControlEndpoint :=
  let (ret, s) := s.solarisOpen hdev calls
  if ret < 0 then (ret, s) else (OPENUSB_SUCCESS, { s with devHandles := s.devHandles ++ [hdev] })

/-- `usb_close_ep0`. -/
def usbCloseEp0 : ℤ × ControlEndpoint :=
  if s.info.ep0Fd ≥ 0 then
    let s := { s with info := { s.info with refCount := s.info.refCount - 1 } }
    if s.info.refCount > 0 then (0, s)
    else if (s.eps0 hdev).datafd ≠ s.info.ep0Fd ∨ (s.eps0 hdev).statfd ≠ s.info.ep0FdStat then (-1, s)
    else
      let s := (s.closeFd s.info.ep0Fd).closeFd s.info.ep0FdStat
      (0, { s with info := { s.info with ep0Fd := -1, ep0FdStat := -1 } }.setEp hdev ⟨-1, -1⟩)
  else (-1, s)

/-- `solaris_close`, as far as endpoint 0 goes. -/
def solarisClose : ℤ × ControlEndpoint := (OPENUSB_SUCCESS, (s.usbCloseEp0 hdev).2)

/-- `openusb_close_device`. -/
def openusbCloseDevice : ℤ × ControlEndpoint :=
  if hdev ∉ s.devHandles then (OPENUSB_UNKNOWN_DEVICE, s)
  else
    let (ret, s) := s.solarisClose hdev
    (ret, { s with devHandles := s.devHandles.erase hdev })

/-- `create_new_device` for a device that is on the list already. -/
def createNewDevice : ControlEndpoint := { s with info := { s.info with ep0Fd := -1, ep0FdStat := -1 } }

/-- `solaris_refresh_devices` of the bus, which finds the device again. -/
def solarisRefreshDevices (calls : RefreshCalls) : ℤ × ControlEndpoint :=
  if !calls.diInit then (OPENUSB_PLATFORM_FAILURE, s)
  else if !calls.diDevlinkInit then (OPENUSB_PLATFORM_FAILURE, s)
  else (OPENUSB_SUCCESS, s.createNewDevice)

end

/-- A device that a refresh has just found for the first time; `freed` is what lies where handles will be. -/
def new (freed : ℕ → Ep) : ControlEndpoint := ⟨⟨0, -1, -1⟩, [], freed, []⟩

end ControlEndpoint

inductive DeviceCall where
  | openDevice (hdev : ℕ) (calls : OpenCalls)
  | closeDevice (hdev : ℕ)
  | refresh (calls : RefreshCalls)
  deriving DecidableEq, Repr

def ControlEndpoint.exec (s : ControlEndpoint) : DeviceCall → ℤ × ControlEndpoint
  | .openDevice hdev calls => s.openusbOpenDevice hdev calls
  | .closeDevice hdev => s.openusbCloseDevice hdev
  | .refresh calls => s.solarisRefreshDevices calls

/-- A new handle has an address that no open one has. -/
inductive DeviceCalls : ControlEndpoint → DeviceCall → ControlEndpoint → Prop where
  | call {s : ControlEndpoint} {call : DeviceCall}
      (hnew : ∀ hdev calls, call = .openDevice hdev calls → hdev ∉ s.devHandles) : DeviceCalls s call (s.exec call).2

/-! ## What the handles share -/

namespace ControlEndpoint

variable (s : ControlEndpoint)

/-- The handles are counted, endpoint 0 is open exactly while there are any, and they all have its two descriptors.  No other
descriptor was left open. -/
structure Shared : Prop where
  refCount : s.info.refCount = s.devHandles.length
  ep0Fd : 0 ≤ s.info.ep0Fd ↔ s.devHandles ≠ []
  eps0 : ∀ hdev ∈ s.devHandles, s.eps0 hdev = ⟨s.info.ep0Fd, s.info.ep0FdStat⟩
  fds : s.fds = if s.devHandles = [] then [] else [s.info.ep0Fd, s.info.ep0FdStat]

/-- A descriptor that is open before a call is closed by it exactly when no handle is left. -/
def ClosedByLast (t : ControlEndpoint) : Prop := ∀ fd ∈ s.fds, fd ∉ t.fds ↔ t.devHandles = []

/-- The timeout thread of a handle is created, if endpoint 0 was opened for it; and a refresh that reads the device tree finds
no open handle. -/
def EndpointKept : DeviceCall → Prop
  | .openDevice _ calls => calls.ugenpath = true → calls.priv = true →
      (0 ≤ s.info.ep0Fd ∨ 0 ≤ calls.cntrl0 ∧ 0 ≤ calls.cntrl0stat) → calls.thread = 0
  | .closeDevice _ => True
  | .refresh calls => calls.diInit = true → calls.diDevlinkInit = true → s.devHandles = []

end ControlEndpoint

section

variable {s t : ControlEndpoint} {hdev : ℕ} {calls : OpenCalls} {call : DeviceCall} {ep : Ep}

/-! ## What the calls do -/

theorem ControlEndpoint.Shared.setEp (hs : s.Shared) (hnew : hdev ∉ s.devHandles) : (s.setEp hdev ep).Shared := by
  refine ⟨hs.refCount, hs.ep0Fd, ?_, hs.fds⟩
  intro h hh
  have hne : h ≠ hdev := by
    rintro rfl
    exact hnew hh
  exact (Function.update_of_ne hne ..).trans (hs.eps0 h hh)

/-- Nothing is closed by a call that leaves the descriptors and the handles alone. -/
theorem ControlEndpoint.Shared.closedByLast_of_same (hs : s.Shared) (hfds : t.fds = s.fds)
    (hhandles : s.devHandles ≠ [] → t.devHandles ≠ []) : s.ClosedByLast t := by
  intro fd hfd
  have hopen : s.devHandles ≠ [] := by
    intro hnone
    rw [hs.fds, if_pos hnone] at hfd
    exact List.not_mem_nil hfd
  rw [hfds]
  exact iff_of_false (not_not_intro hfd) (hhandles hopen)

/-- `usb_open_ep0` fails and leaves everything as it was but the new handle, or it counts the handle and gives it the two
descriptors. -/
theorem ControlEndpoint.Shared.usbOpenEp0_cases (hs : s.Shared) (hdev : ℕ) (calls : OpenCalls) :
    (¬ (0 ≤ s.info.ep0Fd ∨ 0 ≤ calls.cntrl0 ∧ 0 ≤ calls.cntrl0stat) ∧
      (s.usbOpenEp0 hdev calls).1 ≠ 0 ∧ ∃ ep, (s.usbOpenEp0 hdev calls).2 = s.setEp hdev ep) ∨
    ((0 ≤ s.info.ep0Fd ∨ 0 ≤ calls.cntrl0 ∧ 0 ≤ calls.cntrl0stat) ∧ (s.usbOpenEp0 hdev calls).1 = 0 ∧
      ∃ ep, 0 ≤ ep.datafd ∧ (s.devHandles ≠ [] → ep = ⟨s.info.ep0Fd, s.info.ep0FdStat⟩) ∧
        (s.usbOpenEp0 hdev calls).2 = ControlEndpoint.setEp
          { s with info := ⟨s.info.refCount + 1, ep.datafd, ep.statfd⟩, fds := [ep.datafd, ep.statfd] } hdev ep) := by
  unfold ControlEndpoint.usbOpenEp0
  by_cases hshared : s.info.ep0Fd ≥ 0
  · rw [if_pos hshared]
    refine .inr ⟨.inl hshared, rfl, ⟨s.info.ep0Fd, s.info.ep0FdStat⟩, hshared, fun _ => rfl, ?_⟩
    have hfds := hs.fds
    rw [if_neg (hs.ep0Fd.mp hshared)] at hfds
    rw [← hfds]
  · have hnone : s.devHandles = [] := not_not.mp fun hopen => hshared (hs.ep0Fd.mpr hopen)
    have hfds := hs.fds
    rw [if_pos hnone] at hfds
    rw [if_neg hshared]
    by_cases hdata : calls.cntrl0 < 0
    · rw [if_pos hdata]
      refine .inl ⟨?_, show OPENUSB_SYS_FUNC_FAILURE ≠ 0 by decide, _, rfl⟩
      omega
    · rw [if_neg hdata]
      by_cases hstat : calls.cntrl0stat < 0
      · dsimp only
        rw [if_pos hstat]
        refine .inl ⟨by omega, show (-1 : ℤ) ≠ 0 by decide, ⟨-1, calls.cntrl0stat⟩, ?_⟩
        -- the first descriptor is closed again
        unfold ControlEndpoint.closeFd ControlEndpoint.openFd
        dsimp only
        rw [hfds, List.nil_append, List.erase_cons_head, ← hfds]
      · dsimp only
        rw [if_neg hstat]
        refine .inr ⟨.inr ⟨by omega, by omega⟩, rfl, ⟨calls.cntrl0, calls.cntrl0stat⟩, not_lt.mp hdata,
          fun hopen => absurd hnone hopen, ?_⟩
        unfold ControlEndpoint.openFd ControlEndpoint.setEp
        dsimp only
        rw [hfds]
        rfl

/-- What an open does: nothing but to the new handle, or it counts the handle, and lists it if its thread is created. -/
theorem ControlEndpoint.Shared.open_cases (hs : s.Shared) (hnew : hdev ∉ s.devHandles) (calls : OpenCalls) :
    (¬ (calls.ugenpath = true ∧ calls.priv = true ∧
        (0 ≤ s.info.ep0Fd ∨ 0 ≤ calls.cntrl0 ∧ 0 ≤ calls.cntrl0stat)) ∧
      (s.openusbOpenDevice hdev calls).2.Shared ∧ (s.openusbOpenDevice hdev calls).2.fds = s.fds ∧
      (s.openusbOpenDevice hdev calls).2.devHandles = s.devHandles) ∨
    ((calls.ugenpath = true ∧ calls.priv = true ∧
        (0 ≤ s.info.ep0Fd ∨ 0 ≤ calls.cntrl0 ∧ 0 ≤ calls.cntrl0stat)) ∧
      ∃ ep eps0, 0 ≤ ep.datafd ∧ (s.devHandles ≠ [] → ep = ⟨s.info.ep0Fd, s.info.ep0FdStat⟩) ∧ eps0 hdev = ep ∧
        (∀ h ∈ s.devHandles, eps0 h = s.eps0 h) ∧
        (s.openusbOpenDevice hdev calls).2 =
          { info := ⟨s.info.refCount + 1, ep.datafd, ep.statfd⟩
            devHandles := if calls.thread = 0 then s.devHandles ++ [hdev] else s.devHandles
            eps0 := eps0
            fds := [ep.datafd, ep.statfd] }) := by
  unfold ControlEndpoint.openusbOpenDevice ControlEndpoint.solarisOpen
  by_cases hugen : calls.ugenpath = true
  swap
  · rw [if_pos (by simpa using hugen)]
    exact .inl ⟨fun h => hugen h.1, hs, rfl, rfl⟩
  by_cases hpriv : calls.priv = true
  swap
  · rw [if_neg (by simpa using hugen), if_pos (by simpa using hpriv)]
    exact .inl ⟨fun h => hpriv h.2.1, hs, rfl, rfl⟩
  rw [if_neg (by simpa using hugen), if_neg (by simpa using hpriv)]
  have hset := @ControlEndpoint.Shared.setEp s hdev ⟨-1, -1⟩ hs hnew
  have hold : ∀ ep, ∀ h ∈ s.devHandles, ((s.setEp hdev ⟨-1, -1⟩).setEp hdev ep).eps0 h = s.eps0 h := by
    intro ep h hh
    have hne : h ≠ hdev := by
      rintro rfl
      exact hnew hh
    exact (Function.update_of_ne hne ..).trans (Function.update_of_ne hne ..)
  rcases hset.usbOpenEp0_cases hdev calls with ⟨hcalls, hret, ep, heq⟩ | ⟨hcalls, hret, ep, hdata, hsame, heq⟩
  · dsimp only
    rw [if_pos hret, heq]
    exact .inl ⟨fun h => hcalls h.2.2, hset.setEp hnew, rfl, rfl⟩
  · dsimp only
    rw [if_neg (not_not_intro hret), heq]
    refine .inr ⟨⟨hugen, hpriv, hcalls⟩, ep, _, hdata, hsame, Function.update_self .., hold ep, ?_⟩
    by_cases hthread : calls.thread = 0
    · rw [if_neg (not_not_intro hthread), if_pos hthread]
      rfl
    · rw [if_pos hthread, if_neg hthread]
      rfl

theorem ControlEndpoint.Shared.opens (hs : s.Shared) (hnew : hdev ∉ s.devHandles) (calls : OpenCalls) :
    ((s.openusbOpenDevice hdev calls).2.Shared ↔ s.EndpointKept (.openDevice hdev calls)) ∧
    s.ClosedByLast (s.openusbOpenDevice hdev calls).2 := by
  rcases hs.open_cases hnew calls with
    ⟨hcalls, hshared, hfds, hhandles⟩ | ⟨hcalls, ep, eps0, hdata, hsame, hmine, hold, heq⟩
  · refine ⟨iff_of_true hshared fun h1 h2 h3 => absurd ⟨h1, h2, h3⟩ hcalls, ?_⟩
    exact hs.closedByLast_of_same hfds fun hopen => by rwa [hhandles]
  · have hfds : s.devHandles ≠ [] → [ep.datafd, ep.statfd] = s.fds := by
      intro hopen
      rw [hs.fds, if_neg hopen, hsame hopen]
    rw [heq]
    constructor
    · by_cases hthread : calls.thread = 0
      · rw [if_pos hthread]
        refine iff_of_true ⟨?_, ?_, ?_, ?_⟩ fun _ _ _ => hthread
        · show s.info.refCount + 1 = ((s.devHandles ++ [hdev]).length : ℤ)
          rw [hs.refCount, List.length_append, List.length_singleton, Nat.cast_succ]
        · exact iff_of_true hdata (List.concat_ne_nil hdev s.devHandles)
        · intro h hh
          rcases List.mem_append.mp hh with hh | hh
          · show eps0 h = ep
            rw [hold h hh, hs.eps0 h hh, hsame (List.ne_nil_of_mem hh)]
          · rw [List.mem_singleton.mp hh]
            exact hmine
        · exact (if_neg (List.concat_ne_nil hdev s.devHandles)).symm
      · -- the handle is counted, and it is not open
        rw [if_neg hthread]
        refine iff_of_false (fun hshared => ?_) fun hkept => hthread (hkept hcalls.1 hcalls.2.1 hcalls.2.2)
        have hcount : s.info.refCount + 1 = (s.devHandles.length : ℤ) := hshared.refCount
        rw [hs.refCount] at hcount
        omega
    · intro fd hfd
      have hopen : s.devHandles ≠ [] := by
        intro hnone
        rw [hs.fds, if_pos hnone] at hfd
        exact List.not_mem_nil hfd
      refine iff_of_false (not_not_intro ?_) ?_
      · show fd ∈ [ep.datafd, ep.statfd]
        rw [hfds hopen]
        exact hfd
      · show (if calls.thread = 0 then s.devHandles ++ [hdev] else s.devHandles) ≠ []
        split_ifs
        · exact List.concat_ne_nil hdev s.devHandles
        · exact hopen

/-- What `usb_close_ep0` does for an open handle: it counts down, and closes the two descriptors behind the last handle. -/
theorem ControlEndpoint.Shared.usbCloseEp0_eq (hs : s.Shared) (hmem : hdev ∈ s.devHandles) :
    (s.usbCloseEp0 hdev).2 =
      if s.devHandles.length = 1 then
        { info := ⟨0, -1, -1⟩, devHandles := s.devHandles, eps0 := Function.update s.eps0 hdev ⟨-1, -1⟩, fds := [] }
      else { s with info := { s.info with refCount := s.info.refCount - 1 } } := by
  have hopen : s.devHandles ≠ [] := List.ne_nil_of_mem hmem
  have hlength := List.length_pos_of_mem hmem
  have hcount := hs.refCount
  unfold ControlEndpoint.usbCloseEp0
  rw [if_pos (hs.ep0Fd.mpr hopen)]
  dsimp only
  by_cases hlast : s.devHandles.length = 1
  · have hep := hs.eps0 hdev hmem
    have hfds := hs.fds
    rw [if_neg hopen] at hfds
    rw [if_pos hlast, if_neg (by omega), if_neg (by simp [hep])]
    unfold ControlEndpoint.setEp ControlEndpoint.closeFd
    dsimp only
    rw [hfds, List.erase_cons_head, List.erase_cons_head, hcount, hlast]
    rfl
  · rw [if_neg hlast, if_pos (by omega)]

theorem ControlEndpoint.Shared.closes (hs : s.Shared) (hdev : ℕ) :
    (s.openusbCloseDevice hdev).2.Shared ∧ s.ClosedByLast (s.openusbCloseDevice hdev).2 := by
  unfold ControlEndpoint.openusbCloseDevice ControlEndpoint.solarisClose
  by_cases hmem : hdev ∈ s.devHandles
  swap
  · rw [if_pos hmem]
    exact ⟨hs, hs.closedByLast_of_same rfl id⟩
  rw [if_neg (not_not_intro hmem)]
  dsimp only
  rw [hs.usbCloseEp0_eq hmem]
  have hlength := List.length_erase_of_mem hmem
  have hpos := List.length_pos_of_mem hmem
  by_cases hlast : s.devHandles.length = 1
  · have hnone : s.devHandles.erase hdev = [] := List.eq_nil_of_length_eq_zero (by omega)
    rw [if_pos hlast]
    dsimp only
    rw [hnone]
    refine ⟨⟨rfl, ?_, ?_, rfl⟩, fun fd _ => iff_of_true List.not_mem_nil rfl⟩
    · exact iff_of_false (show ¬ (0 : ℤ) ≤ -1 by decide) (not_not_intro rfl)
    · exact fun h hh => absurd hh List.not_mem_nil
  · have hopen : s.devHandles.erase hdev ≠ [] := List.ne_nil_of_length_pos (by omega)
    rw [if_neg hlast]
    refine ⟨⟨?_, ?_, ?_, ?_⟩, hs.closedByLast_of_same rfl fun _ => hopen⟩
    · show s.info.refCount - 1 = ((s.devHandles.erase hdev).length : ℤ)
      rw [hs.refCount, hlength]
      omega
    · exact iff_of_true (hs.ep0Fd.mpr (List.ne_nil_of_mem hmem)) hopen
    · exact fun h hh => hs.eps0 h (List.mem_of_mem_erase hh)
    · show s.fds = if s.devHandles.erase hdev = [] then [] else _
      rw [if_neg hopen, hs.fds, if_neg (List.ne_nil_of_mem hmem)]

/-- A refresh marks endpoint 0 as closed without closing it. -/
theorem ControlEndpoint.Shared.refreshes (hs : s.Shared) (calls : RefreshCalls) :
    ((s.solarisRefreshDevices calls).2.Shared ↔ s.EndpointKept (.refresh calls)) ∧
    s.ClosedByLast (s.solarisRefreshDevices calls).2 := by
  unfold ControlEndpoint.solarisRefreshDevices
  split_ifs with hnodes hlinks
  · refine ⟨iff_of_true hs fun h => ?_, hs.closedByLast_of_same rfl id⟩
    rw [h] at hnodes
    exact absurd hnodes (by decide)
  · refine ⟨iff_of_true hs fun _ h => ?_, hs.closedByLast_of_same rfl id⟩
    rw [h] at hlinks
    exact absurd hlinks (by decide)
  · refine ⟨⟨fun hshared _ _ => ?_, fun hkept => ?_⟩, hs.closedByLast_of_same rfl id⟩
    · refine not_not.mp fun hopen => ?_
      exact absurd (hshared.ep0Fd.mpr hopen) (show ¬ (0 : ℤ) ≤ -1 by decide)
    · have hnone : s.devHandles = [] := hkept (by simpa using hnodes) (by simpa using hlinks)
      refine ⟨hs.refCount, ?_, ?_, ?_⟩
      · exact iff_of_false (show ¬ (0 : ℤ) ≤ -1 by decide) (not_not_intro hnone)
      · exact fun h hh => absurd (hnone ▸ hh) List.not_mem_nil
      · show s.fds = if s.devHandles = [] then [] else _
        rw [hs.fds, if_pos hnone, if_pos hnone]

/-! ## Runs -/

theorem new_shared (freed : ℕ → Ep) : (ControlEndpoint.new freed).Shared where
  refCount := rfl
  ep0Fd := iff_of_false (show ¬ (0 : ℤ) ≤ -1 by decide) (not_not_intro rfl)
  eps0 _ h := absurd h List.not_mem_nil
  fds := rfl

/-- After every call of a history the handles are counted and share endpoint 0, which is closed behind the last one, exactly
when every call meets the condition. -/
theorem endpoint_shared_iff {freed : ℕ → Ep} {history : List DeviceCall} :
    (ControlEndpoint.new freed).Shared ∧
    (Run DeviceCalls (fun s call => (s.exec call).2.Shared ∧ s.ClosedByLast (s.exec call).2) (.new freed) history s ↔
      Run DeviceCalls ControlEndpoint.EndpointKept (.new freed) history s) := by
  have hcall : ∀ (q : ControlEndpoint) (call : DeviceCall), q.Shared →
      (∀ hdev calls, call = .openDevice hdev calls → hdev ∉ q.devHandles) →
      ((q.exec call).2.Shared ↔ q.EndpointKept call) ∧ q.ClosedByLast (q.exec call).2 := by
    intro q call hq hnew
    cases call with
    | openDevice hdev calls => exact hq.opens (hnew hdev calls rfl) calls
    | closeDevice hdev => exact ⟨iff_of_true (hq.closes hdev).1 trivial, (hq.closes hdev).2⟩
    | refresh calls => exact hq.refreshes calls
  refine ⟨new_shared freed, ?_⟩
  apply run_iff (I := ControlEndpoint.Shared)
  · rintro q call _ hq ⟨hnew⟩
    have hspec := hcall q call hq hnew
    exact ⟨fun h => hspec.1.mp h.1, fun h => ⟨hspec.1.mpr h, hspec.2⟩⟩
  · rintro q call _ hq hok ⟨hnew⟩
    exact (hcall q call hq hnew).1.mpr hok
  · exact new_shared freed

/-- A refresh while a handle is open: the close that follows leaves both descriptors open, and the count is 1 without a handle.
And a handle whose thread is not created stays counted. -/
theorem endpoint_miscounted :
    (∃ s, Run DeviceCalls (fun _ _ => True) (.new fun _ => ⟨0, 0⟩)
        [.openDevice 7 ⟨true, true, 3, 4, 0⟩, .refresh ⟨true, true⟩, .closeDevice 7] s ∧
      s.devHandles = [] ∧ s.info.refCount = 1 ∧ s.fds = [3, 4]) ∧
    ∃ s, Run DeviceCalls (fun _ _ => True) (.new fun _ => ⟨0, 0⟩) [.openDevice 7 ⟨true, true, 3, 4, 11⟩] s ∧
      s.devHandles = [] ∧ s.info.refCount = 1 ∧ s.info.ep0Fd = 3 ∧ s.fds = [3, 4] := by
  refine ⟨⟨_, .cons trivial (.call fun _ _ _ => List.not_mem_nil) (.cons trivial (.call nofun)
    (.cons trivial (.call nofun) (.nil _))), rfl, rfl, rfl⟩, ?_⟩
  exact ⟨_, .cons trivial (.call fun _ _ _ => List.not_mem_nil) (.nil _), rfl, rfl, rfl, rfl⟩

end

end Solaris

end OpenUsb
