import OpenUsb.Lib.Runs
import Mathlib.Data.List.Nodup
import Mathlib.Logic.Function.Basic

/-!
# HandleLinks — devices and device handles that point at each other

A device handle has its device in `idev`, and on Linux the device has in `priv->hdev` the handle that was opened last.  Devices
are freed by udev events and handles by `openusb_close_device`.  Devices and handles are addresses, which may be used again
after a `free`.

* `links_kept_iff`: after which events and calls no pointer dangles.
-/

namespace OpenUsb

/-! ## Devices and handles -/

/-- `enum usbi_devstate`. -/
inductive DevState where
  | closed
  | opened
  | closing
  deriving DecidableEq, Repr

/-- The device list, `usbi_dev_handles`, and the pointers between them.  `usedFreed`: something that is freed was used. -/
structure HandleLinks where
  devices : List ℕ
  devHandles : List ℕ
  hdev : ℕ → Option ℕ
  idev : ℕ → ℕ
  state : ℕ → DevState
  usedFreed : Bool

namespace HandleLinks

variable (s : HandleLinks)

def useDevice (d : ℕ) : HandleLinks := { s with usedFreed := s.usedFreed || decide (d ∉ s.devices) }

def useHandle (h : ℕ) : HandleLinks := { s with usedFreed := s.usedFreed || decide (h ∉ s.devHandles) }

/-- `usbi_add_device` for a new device. -/
def usbiAddDevice (d : ℕ) : HandleLinks :=
  { s with devices := s.devices ++ [d], hdev := Function.update s.hdev d none }

/-- `linux_close` of a handle. -/
def linuxClose (h : ℕ) : HandleLinks :=
  let s := s.useHandle h
  if s.state h ≠ .opened then s else { s with state := Function.update s.state h .closed }

/-- `linux_close` of the pointer of a device. -/
def linuxCloseOf (d : ℕ) : HandleLinks :=
  match s.hdev d with
  | none => s
  | some h => s.linuxClose h

/-- `openusb_close_device`: the backend's close is reached through the device of the handle. -/
def openusbCloseDevice (h : ℕ) : HandleLinks :=
  if h ∉ s.devHandles then s
  else
    let s := (s.useDevice (s.idev h)).linuxClose h
    { s with devHandles := s.devHandles.erase h }

/-- `linux_open` and the rest of `openusb_open_device`, with the new handle at `h`: does the backend's open succeed, and
`openusb_get_configuration` after it? -/
def openusbOpenDevice (d h : ℕ) (opens configures : Bool) : HandleLinks :=
  if d ∉ s.devices then s
  else if opens = false then s
  else
    let s := { s with
      devHandles := s.devHandles ++ [h]
      hdev := Function.update s.hdev d (some h)
      idev := Function.update s.idev h d
      state := Function.update s.state h .opened }
    if configures = false then s.openusbCloseDevice h else s

/-- Any other call for a handle works with the handle and its device. -/
def deviceCall (h : ℕ) : HandleLinks :=
  if h ∉ s.devHandles then s else s.useDevice (s.idev h)

/-- `device_removed` and `usbi_remove_device`. -/
def deviceRemoved (d : ℕ) : HandleLinks :=
  if d ∉ s.devices then s
  else
    let s := s.linuxCloseOf d
    { s with devices := s.devices.erase d }

/-- No device and no handle. -/
def start : HandleLinks := ⟨[], [], fun _ => none, fun _ => 0, fun _ => .closed, false⟩

end HandleLinks

inductive LinkEvent where
  | added (d : ℕ)
  | removed (d : ℕ)
  | openDevice (d h : ℕ) (opens configures : Bool)
  | closeDevice (h : ℕ)
  | call (h : ℕ)
  deriving DecidableEq, Repr

def HandleLinks.exec (s : HandleLinks) : LinkEvent → HandleLinks
  | .added d => s.usbiAddDevice d
  | .removed d => s.deviceRemoved d
  | .openDevice d h opens configures => s.openusbOpenDevice d h opens configures
  | .closeDevice h => s.openusbCloseDevice h
  | .call h => s.deviceCall h

/-- New devices and handles are at addresses that nothing else has. -/
inductive LinkStep : HandleLinks → LinkEvent → HandleLinks → Prop where
  | event {s : HandleLinks} {e : LinkEvent} (hdevice : ∀ d, e = .added d → d ∉ s.devices)
      (hhandle : ∀ d h opens configures, e = .openDevice d h opens configures → h ∉ s.devHandles) : LinkStep s e (s.exec e)

/-! ## Pointers that dangle -/

/-- Every listed handle has a listed device, every listed device has no handle or a listed one, and nothing that was freed has
been used. -/
structure HandleLinks.Linked (s : HandleLinks) : Prop where
  idev : ∀ h ∈ s.devHandles, s.idev h ∈ s.devices
  hdev : ∀ d ∈ s.devices, ∀ h, s.hdev d = some h → h ∈ s.devHandles
  used : s.usedFreed = false

/-- A handle is not closed while its device has it in `priv->hdev`, a device is not removed while a handle is open for it, and
an open that succeeds gets the configuration. -/
def LinksKept (s : HandleLinks) : LinkEvent → Prop
  | .added _ => True
  | .removed d => d ∈ s.devices → ∀ h ∈ s.devHandles, s.idev h ≠ d
  | .openDevice d _ opens configures => d ∈ s.devices → opens = true → configures = true
  | .closeDevice h => h ∈ s.devHandles → s.hdev (s.idev h) ≠ some h
  | .call _ => True

section

variable {s : HandleLinks} {e : LinkEvent} {d h : ℕ}

/-- As long as no pointer dangles, the two directions agree. -/
structure HandleLinks.Inv (s : HandleLinks) : Prop extends s.Linked where
  back : ∀ d ∈ s.devices, ∀ h, s.hdev d = some h → s.idev h = d
  devicesNodup : s.devices.Nodup
  handlesNodup : s.devHandles.Nodup

theorem useDevice_of_mem (hd : d ∈ s.devices) : s.useDevice d = s := by
  unfold HandleLinks.useDevice
  rw [decide_eq_false (not_not_intro hd), Bool.or_false]

theorem useHandle_of_mem (hh : h ∈ s.devHandles) : s.useHandle h = s := by
  unfold HandleLinks.useHandle
  rw [decide_eq_false (not_not_intro hh), Bool.or_false]

/-- `linux_close` of a listed handle only changes its state. -/
theorem linuxClose_eq (hh : h ∈ s.devHandles) : ∃ state, s.linuxClose h = { s with state := state } := by
  unfold HandleLinks.linuxClose
  rw [useHandle_of_mem hh]
  dsimp only
  split_ifs
  · exact ⟨s.state, rfl⟩
  · exact ⟨_, rfl⟩

/-- What `openusb_close_device` does with a listed handle of a listed device. -/
theorem HandleLinks.Inv.close_eq (hs : s.Inv) (hh : h ∈ s.devHandles) :
    ∃ state, s.openusbCloseDevice h = { s with state := state, devHandles := s.devHandles.erase h } := by
  obtain ⟨state, hclose⟩ := linuxClose_eq hh
  refine ⟨state, ?_⟩
  unfold HandleLinks.openusbCloseDevice
  rw [if_neg (not_not_intro hh), useDevice_of_mem (hs.idev h hh), hclose]

/-- Closing a handle that its device does not name. -/
theorem HandleLinks.Inv.close (hs : s.Inv) (hh : h ∈ s.devHandles) (hok : s.hdev (s.idev h) ≠ some h) :
    (s.openusbCloseDevice h).Inv := by
  obtain ⟨state, heq⟩ := hs.close_eq hh
  rw [heq]
  refine ⟨⟨?_, ?_, hs.used⟩, hs.back, hs.devicesNodup, hs.handlesNodup.erase h⟩
  · exact fun h' hh' => hs.idev h' (List.mem_of_mem_erase hh')
  · intro d hd h' hd'
    refine (List.mem_erase_of_ne ?_).mpr (hs.hdev d hd h' hd')
    rintro rfl
    rw [← hs.back d hd h' hd'] at hd'
    exact hok hd'

/-- Closing the handle that its device names leaves the device with a freed handle. -/
theorem HandleLinks.Inv.close_dangles (hs : s.Inv) (hh : h ∈ s.devHandles) (hnames : s.hdev (s.idev h) = some h) :
    ¬ (s.openusbCloseDevice h).Linked := by
  obtain ⟨state, heq⟩ := hs.close_eq hh
  rw [heq]
  intro hl
  exact hs.handlesNodup.not_mem_erase (hl.hdev _ (hs.idev h hh) h hnames)

/-- The state after a successful open. -/
theorem HandleLinks.Inv.opened (hs : s.Inv) (hd : d ∈ s.devices) (hh : h ∉ s.devHandles) : HandleLinks.Inv { s with
    devHandles := s.devHandles ++ [h]
    hdev := Function.update s.hdev d (some h)
    idev := Function.update s.idev h d
    state := Function.update s.state h .opened } := by
  have hother : ∀ h' ∈ s.devHandles, Function.update s.idev h d h' = s.idev h' := by
    intro h' hh'
    have hne : h' ≠ h := by
      rintro rfl
      exact hh hh'
    exact Function.update_of_ne hne ..
  -- the device names the new handle, and every other device names what it did
  have hnamed : ∀ d' h', Function.update s.hdev d (some h) d' = some h' → (d' = d ∧ h' = h) ∨ s.hdev d' = some h' := by
    intro d' h' hname
    by_cases hdd : d' = d
    · rw [hdd, Function.update_self] at hname
      exact .inl ⟨hdd, (Option.some.inj hname).symm⟩
    · rw [Function.update_of_ne hdd] at hname
      exact .inr hname
  refine ⟨⟨?_, ?_, hs.used⟩, ?_, hs.devicesNodup, ?_⟩
  · intro h' hh'
    show Function.update s.idev h d h' ∈ s.devices
    rcases List.mem_append.mp hh' with hh' | hh'
    · rw [hother h' hh']
      exact hs.idev h' hh'
    · rw [List.mem_singleton.mp hh', Function.update_self]
      exact hd
  · intro d' hd' h' hname
    rcases hnamed d' h' hname with ⟨-, rfl⟩ | hname
    · exact List.mem_append_right _ (List.mem_singleton_self h')
    · exact List.mem_append_left _ (hs.hdev d' hd' h' hname)
  · intro d' hd' h' hname
    show Function.update s.idev h d h' = d'
    rcases hnamed d' h' hname with ⟨rfl, rfl⟩ | hname
    · rw [Function.update_self]
    · rw [hother h' (hs.hdev d' hd' h' hname)]
      exact hs.back d' hd' h' hname
  · show (s.devHandles ++ [h]).Nodup
    rw [List.nodup_append]
    refine ⟨hs.handlesNodup, List.nodup_singleton h, ?_⟩
    rintro h' hh' _ hh'' rfl
    exact hh (List.mem_singleton.mp hh'' ▸ hh')

theorem HandleLinks.Inv.open_device (hs : s.Inv) (hh : h ∉ s.devHandles) (opens configures : Bool) :
    ((s.openusbOpenDevice d h opens configures).Linked ↔ LinksKept s (.openDevice d h opens configures)) ∧
    (LinksKept s (.openDevice d h opens configures) → (s.openusbOpenDevice d h opens configures).Inv) := by
  unfold HandleLinks.openusbOpenDevice
  by_cases hd : d ∈ s.devices
  swap
  · rw [if_pos hd]
    exact ⟨iff_of_true hs.toLinked fun hd' => absurd hd' hd, fun _ => hs⟩
  rw [if_neg (not_not_intro hd)]
  by_cases hopens : opens = false
  · rw [if_pos hopens]
    refine ⟨iff_of_true hs.toLinked fun _ hopens' => ?_, fun _ => hs⟩
    exact absurd (hopens.symm.trans hopens') nofun
  rw [if_neg hopens]
  have hinv := hs.opened hd hh
  by_cases hconf : configures = false
  · have hnot : ¬ LinksKept s (.openDevice d h opens configures) := by
      intro hok
      exact absurd (hconf.symm.trans (hok hd (by simpa using hopens))) nofun
    dsimp only
    rw [if_pos hconf]
    refine ⟨iff_of_false (hinv.close_dangles ?_ ?_) hnot, fun hok => absurd hok hnot⟩
    · exact List.mem_append_right _ (List.mem_singleton_self h)
    · show Function.update s.hdev d (some h) (Function.update s.idev h d h) = some h
      rw [Function.update_self, Function.update_self]
  · dsimp only
    rw [if_neg hconf]
    exact ⟨iff_of_true hinv.toLinked fun _ _ => by simpa using hconf, fun _ => hinv⟩

theorem HandleLinks.Inv.close_device (hs : s.Inv) :
    ((s.openusbCloseDevice h).Linked ↔ LinksKept s (.closeDevice h)) ∧
    (LinksKept s (.closeDevice h) → (s.openusbCloseDevice h).Inv) := by
  by_cases hh : h ∈ s.devHandles
  · by_cases hnames : s.hdev (s.idev h) = some h
    · have hnot : ¬ LinksKept s (.closeDevice h) := fun hok => hok hh hnames
      exact ⟨iff_of_false (hs.close_dangles hh hnames) hnot, fun hok => absurd hok hnot⟩
    · have hinv := hs.close hh hnames
      exact ⟨iff_of_true hinv.toLinked fun _ => hnames, fun _ => hinv⟩
  · have hsame : s.openusbCloseDevice h = s := if_pos hh
    rw [hsame]
    exact ⟨iff_of_true hs.toLinked fun hh' => absurd hh' hh, fun _ => hs⟩

/-- The device is freed, and the handles that are open for it keep their pointer. -/
theorem HandleLinks.Inv.device_removed (hs : s.Inv) :
    ((s.deviceRemoved d).Linked ↔ LinksKept s (.removed d)) ∧ (LinksKept s (.removed d) → (s.deviceRemoved d).Inv) := by
  by_cases hd : d ∈ s.devices
  · obtain ⟨state, hclose⟩ : ∃ state, s.linuxCloseOf d = { s with state := state } := by
      unfold HandleLinks.linuxCloseOf
      cases hhdev : s.hdev d with
      | none => exact ⟨s.state, rfl⟩
      | some h => exact linuxClose_eq (hs.hdev d hd h hhdev)
    have heq : s.deviceRemoved d = { s with state := state, devices := s.devices.erase d } := by
      unfold HandleLinks.deviceRemoved
      rw [if_neg (not_not_intro hd), hclose]
    rw [heq]
    have hkeeps : LinksKept s (.removed d) →
        HandleLinks.Inv { s with state := state, devices := s.devices.erase d } := by
      intro hok
      refine ⟨⟨?_, ?_, hs.used⟩, ?_, hs.devicesNodup.erase d, hs.handlesNodup⟩
      · exact fun h hh => (List.mem_erase_of_ne (hok hd h hh)).mpr (hs.idev h hh)
      · exact fun d' hd' => hs.hdev d' (List.mem_of_mem_erase hd')
      · exact fun d' hd' => hs.back d' (List.mem_of_mem_erase hd')
    refine ⟨⟨fun hl _ h hh hidev => ?_, fun hok => (hkeeps hok).toLinked⟩, hkeeps⟩
    exact hs.devicesNodup.not_mem_erase (hidev ▸ hl.idev h hh)
  · have hsame : s.deviceRemoved d = s := if_pos hd
    rw [hsame]
    exact ⟨iff_of_true hs.toLinked fun hd' => absurd hd' hd, fun _ => hs⟩

theorem HandleLinks.Inv.device_added (hs : s.Inv) (hd : d ∉ s.devices) : (s.usbiAddDevice d).Inv := by
  -- a handle is named by one of the old devices
  have hold : ∀ d' ∈ s.devices ++ [d], ∀ h, Function.update s.hdev d none d' = some h →
      d' ∈ s.devices ∧ s.hdev d' = some h := by
    intro d' hd' h hname
    by_cases hdd : d' = d
    · rw [hdd, Function.update_self] at hname
      exact absurd hname nofun
    · rw [Function.update_of_ne hdd] at hname
      exact ⟨(List.mem_append.mp hd').resolve_right fun h1 => hdd (List.mem_singleton.mp h1), hname⟩
  refine ⟨⟨?_, ?_, hs.used⟩, ?_, ?_, hs.handlesNodup⟩
  · exact fun h hh => List.mem_append_left _ (hs.idev h hh)
  · intro d' hd' h hname
    obtain ⟨hmem, hname⟩ := hold d' hd' h hname
    exact hs.hdev d' hmem h hname
  · intro d' hd' h hname
    obtain ⟨hmem, hname⟩ := hold d' hd' h hname
    exact hs.back d' hmem h hname
  · show (s.devices ++ [d]).Nodup
    rw [List.nodup_append]
    refine ⟨hs.devicesNodup, List.nodup_singleton d, ?_⟩
    rintro d' hd' _ hd'' rfl
    exact hd (List.mem_singleton.mp hd'' ▸ hd')

/-- The events and calls from a state in which nothing dangles. -/
theorem HandleLinks.Inv.event (hs : s.Inv) (hdevice : ∀ d, e = .added d → d ∉ s.devices)
    (hhandle : ∀ d h opens configures, e = .openDevice d h opens configures → h ∉ s.devHandles) :
    ((s.exec e).Linked ↔ LinksKept s e) ∧ (LinksKept s e → (s.exec e).Inv) := by
  cases e with
  | added d =>
    have hinv := hs.device_added (hdevice d rfl)
    exact ⟨iff_of_true hinv.toLinked trivial, fun _ => hinv⟩
  | removed d => exact hs.device_removed
  | openDevice d h opens configures => exact hs.open_device (hhandle d h opens configures rfl) opens configures
  | closeDevice h => exact hs.close_device
  | call h =>
    have hsame : s.deviceCall h = s := by
      unfold HandleLinks.deviceCall
      by_cases hh : h ∈ s.devHandles
      · rw [if_neg (not_not_intro hh)]
        exact useDevice_of_mem (hs.idev h hh)
      · rw [if_pos hh]
    show ((s.deviceCall h).Linked ↔ _) ∧ (_ → (s.deviceCall h).Inv)
    rw [hsame]
    exact ⟨iff_of_true hs.toLinked trivial, fun _ => hs⟩

theorem links_start : HandleLinks.start.Inv where
  idev _ h := absurd h List.not_mem_nil
  hdev _ h := absurd h List.not_mem_nil
  used := rfl
  back _ h := absurd h List.not_mem_nil
  devicesNodup := List.nodup_nil
  handlesNodup := List.nodup_nil

/-- After every event and call of a history no pointer dangles, and nothing freed has been used, exactly when every event and
call meets the condition. -/
theorem links_kept_iff {history : List LinkEvent} :
    Run LinkStep (fun s e => (s.exec e).Linked) .start history s ↔ Run LinkStep LinksKept .start history s := by
  apply run_iff (I := HandleLinks.Inv)
  · rintro q e _ hq ⟨hdevice, hhandle⟩
    exact (hq.event hdevice hhandle).1
  · rintro q e _ hq hok ⟨hdevice, hhandle⟩
    exact (hq.event hdevice hhandle).2 hok
  · exact links_start

/-- A device is opened, closed and pulled: the removal uses the handle that is freed.  And it is pulled while it is open: the
close uses the device that is freed. -/
theorem links_dangle :
    (∃ s, Run LinkStep (fun _ _ => True) .start [.added 1, .openDevice 1 7 true true, .closeDevice 7, .removed 1] s ∧
      s.usedFreed = true ∧ ¬ s.Linked) ∧
    ∃ s, Run LinkStep (fun _ _ => True) .start [.added 1, .openDevice 1 7 true true, .removed 1, .closeDevice 7] s ∧
      s.usedFreed = true ∧ ¬ s.Linked := by
  refine ⟨⟨_, .cons trivial (.event ?_ nofun) (.cons trivial (.event nofun ?_)
      (.cons trivial (.event nofun nofun) (.cons trivial (.event nofun nofun) (.nil _)))), rfl, fun h => ?_⟩,
    ⟨_, .cons trivial (.event ?_ nofun) (.cons trivial (.event nofun ?_)
      (.cons trivial (.event nofun nofun) (.cons trivial (.event nofun nofun) (.nil _)))), rfl, fun h => ?_⟩⟩
  · exact fun _ _ => List.not_mem_nil
  · exact fun _ _ _ _ _ => List.not_mem_nil
  · exact absurd h.used nofun
  · exact fun _ _ => List.not_mem_nil
  · exact fun _ _ _ _ _ => List.not_mem_nil
  · exact absurd h.used nofun

end

end OpenUsb
