import OpenUsb.Descr
import OpenUsb.DeviceTable
import OpenUsb.EventQueue
import Mathlib.Data.List.Count
import Mathlib.Data.List.Pairwise

/-!
# Rescan — `linux_refresh_devices`

A rescan goes through what udev enumerates, adds the new devices of the bus and marks the others as found, and then removes
the devices that are not marked.  No rescan takes a mark away.

* `rescan_lists_iff`: after which rescans the list of the bus is what udev enumerates.
-/

namespace OpenUsb

/-! ## The rescan -/

/-- A call of `linux_refresh_devices`: the bus, the library handles, and what udev enumerates, where `none` stands for an
object without `busnum`.  `udev`, `alloc`, `strdup` and `callback` tell which allocations are made: that of `udev_new`, those
of `create_new_device`, the copy of the path, and those of `usbi_add_event_callback`. -/
structure Rescan where
  ibus : ℕ
  handles : List ℕ
  distinct : handles.Nodup
  objects : List (Option UdevDevice)
  udev : Bool := true
  alloc : UdevDevice → Bool := fun _ => true
  strdup : UdevDevice → Bool := fun _ => true
  callback : ℕ → UdevDevice → EventType → Bool := fun _ _ _ => true

/-- The devices, their marks by `devid`, and what was ever put on the queue of the event thread. -/
structure ScanState where
  table : DeviceTable
  found : ℕ → Bool
  queued : List Event

/-- What `usbi_add_event_callback` puts on the queue for the library handles. -/
def Rescan.events (r : Rescan) (devid : ℕ) (dev : UdevDevice) (type : EventType) : List Event :=
  (r.handles.filter fun handle => r.callback handle dev type).map fun handle => ⟨devid, type, handle⟩

namespace ScanState

variable (r : Rescan) (s : ScanState)

/-- `create_new_device` and `usbi_add_device`, with the parent or the root set up. -/
def usbiAddDevice (dev : UdevDevice) : ScanState where
  table := s.table.addDevice dev { alloc := true, strdup := r.strdup dev, staleFound := false }
  found := Function.update s.found s.table.curDeviceId false
  queued := s.queued ++ r.events s.table.curDeviceId dev .attach

/-- `idev->found = 1`. -/
def markFound (devid : ℕ) : ScanState := { s with found := Function.update s.found devid true }

/-- `ibus->root && ibus->root->found`. -/
def rootFound : Bool :=
  match s.table.root r.ibus with
  | none => false
  | some devid => s.found devid

/-- `process_new_device` with the bus given. -/
def processNewDevice : Option UdevDevice → ScanState
  | none => s
  | some dev =>
    if dev.busnum ≠ r.ibus then s
    else if dev.devnum < 1 ∨ dev.devnum ≥ USB_MAX_DEVICES_PER_BUS ∨ dev.maxChildren ≥ USB_MAX_DEVICES_PER_BUS ∨
        dev.pdevnum ≥ USB_MAX_DEVICES_PER_BUS then s
    else if dev.pdevnum = 0 ∧ s.rootFound r = true then s
    else match s.table.devByNum dev.busnum dev.devnum with
      | some devid => s.markFound devid
      | none =>
        if r.alloc dev = false then s
        else (s.usbiAddDevice r dev).markFound s.table.curDeviceId

/-- `usbi_remove_device`. -/
def usbiRemoveDevice (idev : UsbiDevice) : ScanState where
  table := s.table.usbiRemoveDevice idev
  found := s.found
  queued := s.queued ++ r.events idev.devid idev.dev .remove

/-- A round of the second loop. -/
def sweep (idev : UsbiDevice) : ScanState := if s.found idev.devid = true then s else s.usbiRemoveDevice r idev

/-- The list of a bus. -/
def onBus (ibus : ℕ) : List UsbiDevice := s.table.devices.filter fun idev => idev.dev.busnum = ibus

/-- `linux_refresh_devices`. -/
def linuxRefreshDevices : ℤ × ScanState :=
  if r.udev = false then (OPENUSB_SYS_FUNC_FAILURE, s)
  else
    let t := r.objects.foldl (processNewDevice r) s
    (OPENUSB_SUCCESS, (t.onBus r.ibus).foldl (sweep r) t)

/-- Before the first rescan. -/
def start : ScanState := ⟨.start, fun _ => false, []⟩

end ScanState

def RescanStep (s : ScanState) (r : Rescan) (s' : ScanState) : Prop := s' = (s.linuxRefreshDevices r).2

/-! ## What a rescan is for -/

/-- The devices of the bus among what udev enumerates. -/
def Rescan.devices (r : Rescan) : List UdevDevice := r.objects.reduceOption.filter fun dev => dev.busnum = r.ibus

/-- The numbers are 1 to 127 and distinct, there is one root, and parents come before their children. -/
structure Rescan.Valid (r : Rescan) : Prop where
  range : ∀ dev ∈ r.devices, 1 ≤ dev.devnum ∧ dev.devnum < USB_MAX_DEVICES_PER_BUS
  nums : (r.devices.map UdevDevice.devnum).Nodup
  root : ∃! dev, dev ∈ r.devices ∧ dev.pdevnum = 0
  parents : ∀ before dev after, r.devices = before ++ dev :: after → dev.pdevnum ≠ 0 →
    ∃ p ∈ before, p.devnum = dev.pdevnum

/-- The bus lists the enumerated devices, each once.  Those that vanished are removed and those that are new are added, with
an event for each handle, and the others keep their id. -/
structure Rescanned (r : Rescan) (s s' : ScanState) : Prop where
  listed : ((s'.onBus r.ibus).map UsbiDevice.dev).Perm r.devices
  removed : ∀ idev ∈ s.onBus r.ibus, idev.dev ∉ r.devices → idev.devid ∉ s'.table.devices.map UsbiDevice.devid ∧
    ∀ handle ∈ r.handles, s'.queued.count ⟨idev.devid, .remove, handle⟩ = s.queued.count ⟨idev.devid, .remove, handle⟩ + 1
  added : ∀ idev ∈ s'.onBus r.ibus, idev.dev ∉ (s.onBus r.ibus).map UsbiDevice.dev →
    ∀ handle ∈ r.handles, s'.queued.count ⟨idev.devid, .attach, handle⟩ = s.queued.count ⟨idev.devid, .attach, handle⟩ + 1
  kept : ∀ idev ∈ s.onBus r.ibus, idev.dev ∈ r.devices → ∃ idev' ∈ s'.onBus r.ibus, idev'.dev = idev.dev ∧
    idev'.devid = idev.devid

/-- No listed device has vanished, and a new one has fewer than 128 ports and gets its memory, and so do its events. -/
structure Rescannable (r : Rescan) (s : ScanState) : Prop where
  present : ∀ idev ∈ s.onBus r.ibus, idev.dev ∈ r.devices
  fresh : ∀ dev ∈ r.devices, dev ∉ (s.onBus r.ibus).map UsbiDevice.dev → r.udev = true ∧
    dev.maxChildren < USB_MAX_DEVICES_PER_BUS ∧ r.alloc dev = true ∧
    ∀ handle ∈ r.handles, r.callback handle dev .attach = true

namespace ScanState

section

variable {r : Rescan} {s : ScanState} {dev : UdevDevice} {idev : UsbiDevice}

/-- What the rescans keep: the arrays and the roots name listed devices, and every listed device is marked. -/
structure Inv (s : ScanState) : Prop extends s.table.Indexed where
  found : ∀ idev ∈ s.table.devices, s.found idev.devid = true
  root : ∀ b devid, s.table.root b = some devid →
    ∃ idev ∈ s.table.devices, idev.devid = devid ∧ idev.dev.busnum = b ∧ idev.dev.pdevnum = 0

theorem inv_start : start.Inv where
  entry _ h := absurd h List.not_mem_nil
  byNum _ _ _ h := absurd h nofun
  fresh _ h := absurd h List.not_mem_nil
  ids := List.nodup_nil
  found _ h := absurd h List.not_mem_nil
  root _ _ h := absurd h nofun

/-! ## One device -/

/-- A new device as it is listed and marked. -/
def addFound (r : Rescan) (s : ScanState) (dev : UdevDevice) : ScanState :=
  (s.usbiAddDevice r dev).markFound s.table.curDeviceId

/-- What the table gains. -/
def newDevice (r : Rescan) (s : ScanState) (dev : UdevDevice) : UsbiDevice where
  dev := dev
  devid := s.table.curDeviceId
  parent := if dev.pdevnum ≠ 0 then (s.addFound r dev).table.devByNum dev.busnum dev.pdevnum else none
  named := r.strdup dev

/-- The device is taken for a new one, and listed. -/
def Adds (r : Rescan) (s : ScanState) (dev : UdevDevice) : Prop :=
  dev.busnum = r.ibus ∧ (1 ≤ dev.devnum ∧ dev.devnum < USB_MAX_DEVICES_PER_BUS) ∧
    dev.maxChildren < USB_MAX_DEVICES_PER_BUS ∧ dev.pdevnum < USB_MAX_DEVICES_PER_BUS ∧
    (dev.pdevnum = 0 → s.table.root dev.busnum = none) ∧ s.table.devByNum dev.busnum dev.devnum = none ∧ r.alloc dev = true

instance : DecidablePred (Adds r s) := fun _ => inferInstanceAs (Decidable (_ ∧ _))

theorem devices_addFound : (s.addFound r dev).table.devices = s.table.devices ++ [s.newDevice r dev] := rfl

theorem mem_addFound : idev ∈ (s.addFound r dev).table.devices ↔ idev ∈ s.table.devices ∨ idev = s.newDevice r dev := by
  rw [devices_addFound, List.mem_append, List.mem_singleton]

theorem Inv.rootFound_iff (h : s.Inv) : s.rootFound r = true ↔ s.table.root r.ibus ≠ none := by
  unfold rootFound
  cases hroot : s.table.root r.ibus with
  | none => exact iff_of_false nofun (not_not.mpr rfl)
  | some devid =>
    obtain ⟨idev, hidev, rfl, -⟩ := h.root _ _ hroot
    exact iff_of_true (h.found idev hidev) nofun

/-- The mark of a listed device is set already. -/
theorem Inv.markFound (h : s.Inv) (hidev : idev ∈ s.table.devices) : s.markFound idev.devid = s := by
  unfold ScanState.markFound
  rw [Function.update_eq_self_iff.mpr (h.found idev hidev).symm]

/-- A device is listed when it is taken for a new one, and otherwise nothing changes. -/
theorem Inv.process (h : s.Inv) (dev : UdevDevice) :
    s.processNewDevice r (some dev) = if Adds r s dev then s.addFound r dev else s := by
  unfold processNewDevice
  dsimp only
  by_cases hadds : Adds r s dev
  · rw [if_pos hadds]
    obtain ⟨hbus, hnum, hports, hparent, hroot, hentry, halloc⟩ := hadds
    have hfound : ¬ (dev.pdevnum = 0 ∧ s.rootFound r = true) := fun hc =>
      h.rootFound_iff.mp hc.2 (hbus ▸ hroot hc.1)
    rw [if_neg (not_not.mpr hbus), if_neg (by omega), if_neg hfound, hentry]
    dsimp only
    rw [if_neg (by rw [halloc]; nofun)]
    rfl
  · rw [if_neg hadds]
    by_cases hbus : dev.busnum ≠ r.ibus
    · rw [if_pos hbus]
    rw [if_neg hbus]
    by_cases hrange : dev.devnum < 1 ∨ dev.devnum ≥ USB_MAX_DEVICES_PER_BUS ∨ dev.maxChildren ≥ USB_MAX_DEVICES_PER_BUS ∨
        dev.pdevnum ≥ USB_MAX_DEVICES_PER_BUS
    · rw [if_pos hrange]
    rw [if_neg hrange]
    by_cases hfound : dev.pdevnum = 0 ∧ s.rootFound r = true
    · rw [if_pos hfound]
    rw [if_neg hfound]
    cases hentry : s.table.devByNum dev.busnum dev.devnum with
    | some devid =>
      obtain ⟨idev, hidev, rfl, -⟩ := h.byNum _ _ _ hentry
      exact h.markFound hidev
    | none =>
      refine if_pos (Bool.eq_false_iff.mpr fun halloc => hadds ?_)
      refine ⟨not_not.mp hbus, by omega, by omega, by omega, fun hp => ?_, hentry, halloc⟩
      rw [not_not.mp hbus]
      exact not_not.mp fun hroot => hfound ⟨hp, h.rootFound_iff.mpr hroot⟩

theorem Inv.addFound (h : s.Inv) (hadds : Adds r s dev) : (s.addFound r dev).Inv where
  toIndexed := h.toIndexed.addDevice _ hadds.2.2.2.2.2.1
  found idev hidev := by
    show Function.update (Function.update s.found _ false) s.table.curDeviceId true idev.devid = true
    rcases mem_addFound.mp hidev with hidev | rfl
    · have hne := Nat.ne_of_lt (h.fresh idev hidev)
      rw [Function.update_of_ne hne, Function.update_of_ne hne]
      exact h.found idev hidev
    · exact Function.update_self _ _ _
  root b devid hroot := by
    change (if dev.pdevnum ≠ 0 then s.table.root else Function.update s.table.root dev.busnum (some s.table.curDeviceId)) b =
      some devid at hroot
    have hold (hroot : s.table.root b = some devid) :
        ∃ idev ∈ (s.addFound r dev).table.devices, idev.devid = devid ∧ idev.dev.busnum = b ∧ idev.dev.pdevnum = 0 := by
      obtain ⟨idev, hidev, hrest⟩ := h.root b devid hroot
      exact ⟨idev, mem_addFound.mpr (.inl hidev), hrest⟩
    by_cases hp : dev.pdevnum = 0
    · rw [if_neg (not_not.mpr hp)] at hroot
      by_cases hb : b = dev.busnum
      · subst hb
        rw [Function.update_self] at hroot
        exact ⟨s.newDevice r dev, mem_addFound.mpr (.inr rfl), Option.some_inj.mp hroot, rfl, hp⟩
      · rw [Function.update_of_ne hb] at hroot
        exact hold hroot
    · rw [if_pos hp] at hroot
      exact hold hroot

theorem Inv.processNewDevice (h : s.Inv) (object : Option UdevDevice) : (s.processNewDevice r object).Inv := by
  cases object with
  | none => exact h
  | some dev =>
    rw [h.process]
    by_cases hadds : Adds r s dev
    · rw [if_pos hadds]
      exact h.addFound hadds
    · rw [if_neg hadds]
      exact h

/-! ## The loops -/

theorem Inv.foldl_process (h : s.Inv) (objects : List (Option UdevDevice)) :
    (objects.foldl (ScanState.processNewDevice r) s).Inv := by
  induction objects generalizing s with
  | nil => exact h
  | cons object objects ih => exact ih (h.processNewDevice object)

/-- The second loop finds every device marked. -/
theorem Inv.foldl_sweep (h : s.Inv) {l : List UsbiDevice} (hl : ∀ idev ∈ l, idev ∈ s.table.devices) :
    l.foldl (sweep r) s = s := by
  induction l with
  | nil => rfl
  | cons idev l ih =>
    rw [List.foldl_cons, sweep, if_pos (h.found idev (hl idev List.mem_cons_self))]
    exact ih fun other hother => hl other (List.mem_cons_of_mem idev hother)

/-- So nothing is ever removed. -/
theorem Inv.refresh_eq (h : s.Inv) : (s.linuxRefreshDevices r).2 =
    if r.udev = true then r.objects.foldl (ScanState.processNewDevice r) s else s := by
  unfold linuxRefreshDevices
  cases r.udev with
  | false => rfl
  | true => exact (h.foldl_process r.objects).foldl_sweep fun idev hidev => List.mem_of_mem_filter hidev

theorem Inv.refresh (h : s.Inv) : (s.linuxRefreshDevices r).2.Inv := by
  rw [h.refresh_eq]
  split_ifs
  · exact h.foldl_process r.objects
  · exact h

/-! ## The enumeration -/

/-- Objects without a number, and devices of other buses, are passed over. -/
theorem foldl_objects (objects : List (Option UdevDevice)) (s : ScanState) :
    objects.foldl (ScanState.processNewDevice r) s =
      (objects.reduceOption.filter fun dev => dev.busnum = r.ibus).foldl
        (fun s dev => s.processNewDevice r (some dev)) s := by
  induction objects generalizing s with
  | nil => rfl
  | cons object objects ih =>
    cases object with
    | none =>
      rw [List.reduceOption_cons_of_none]
      exact ih s
    | some dev =>
      rw [List.reduceOption_cons_of_some, List.foldl_cons, ih]
      by_cases hbus : dev.busnum = r.ibus
      · rw [List.filter_cons_of_pos (by simpa using hbus)]
        rfl
      · rw [List.filter_cons_of_neg (by simpa using hbus)]
        congr 1
        exact if_pos hbus

/-- Neither number nor place of one device keeps the other from being listed. -/
def Apart (a b : UdevDevice) : Prop := a.devnum ≠ b.devnum ∧ ¬ (a.pdevnum = 0 ∧ b.pdevnum = 0)

theorem adds_addFound {other : UdevDevice} (hapart : Apart dev other) : Adds r (s.addFound r dev) other ↔ Adds r s other := by
  have hentry : (s.addFound r dev).table.devByNum other.busnum other.devnum = s.table.devByNum other.busnum other.devnum :=
    addDevice_of_ne _ fun _ => hapart.1.symm
  have hroot : (other.pdevnum = 0 → (s.addFound r dev).table.root other.busnum = none) ↔
      (other.pdevnum = 0 → s.table.root other.busnum = none) := by
    refine forall_congr' fun hp => ?_
    have hsame : (s.addFound r dev).table.root = s.table.root := if_pos fun hdev => hapart.2 ⟨hdev, hp⟩
    rw [hsame]
  unfold Adds
  rw [hentry, hroot]

/-- The first loop lists the devices that are new at its start. -/
theorem Inv.foldl_apart (h : s.Inv) {l : List UdevDevice} (hapart : l.Pairwise Apart) :
    l.foldl (fun s dev => s.processNewDevice r (some dev)) s = (l.filter (Adds r s)).foldl (ScanState.addFound r) s := by
  induction l generalizing s with
  | nil => rfl
  | cons dev l ih =>
    obtain ⟨hdev, hrest⟩ := List.pairwise_cons.mp hapart
    rw [List.foldl_cons, h.process]
    by_cases hadds : Adds r s dev
    · have hsame : l.filter (Adds r (s.addFound r dev)) = l.filter (Adds r s) :=
        List.filter_congr fun other hother => decide_eq_decide.mpr (adds_addFound (hdev other hother))
      rw [if_pos hadds, ih (h.addFound hadds) hrest, hsame, List.filter_cons_of_pos (by simpa using hadds), List.foldl_cons]
    · rw [if_neg hadds, ih h hrest, List.filter_cons_of_neg (by simpa using hadds)]

theorem apart_devices (hvalid : r.Valid) : r.devices.Pairwise Apart := by
  have hne : r.devices.Pairwise fun a b => a.devnum ≠ b.devnum := List.pairwise_map.mp hvalid.nums
  refine hne.imp_of_mem fun ha hb hnum => ⟨hnum, fun hroots => ?_⟩
  have heq := hvalid.root.unique ⟨ha, hroots.1⟩ ⟨hb, hroots.2⟩
  exact hnum (congrArg UdevDevice.devnum heq)

/-- The devices that a rescan adds. -/
def news (r : Rescan) (s : ScanState) : List UdevDevice := if r.udev = true then r.devices.filter (Adds r s) else []

/-- What a rescan does to a list that earlier rescans made. -/
theorem Inv.refresh_valid (h : s.Inv) (hvalid : r.Valid) :
    (s.linuxRefreshDevices r).2 = (s.news r).foldl (ScanState.addFound r) s := by
  rw [h.refresh_eq, news]
  split_ifs
  · rw [foldl_objects]
    exact h.foldl_apart (apart_devices hvalid)
  · rfl

theorem mem_news : dev ∈ s.news r ↔ r.udev = true ∧ dev ∈ r.devices ∧ Adds r s dev := by
  unfold news
  split_ifs with hudev
  · rw [List.mem_filter, decide_eq_true_iff, and_iff_right hudev]
  · exact iff_of_false List.not_mem_nil fun h => hudev h.1

/-! ## What the new devices leave -/

theorem devices_foldl_addFound (l : List UdevDevice) (s : ScanState) :
    (l.foldl (ScanState.addFound r) s).table.devices.map UsbiDevice.dev = s.table.devices.map UsbiDevice.dev ++ l := by
  induction l generalizing s with
  | nil => exact (List.append_nil _).symm
  | cons dev l ih =>
    rw [List.foldl_cons, ih, devices_addFound, List.map_append, List.append_assoc]
    rfl

theorem mem_foldl_addFound {l : List UdevDevice} (hidev : idev ∈ s.table.devices) :
    idev ∈ (l.foldl (ScanState.addFound r) s).table.devices := by
  induction l generalizing s with
  | nil => exact hidev
  | cons dev l ih => exact ih (mem_addFound.mpr (.inl hidev))

/-- The ids of the new devices are new. -/
theorem devid_foldl_addFound {l : List UdevDevice} (hidev : idev ∈ (l.foldl (ScanState.addFound r) s).table.devices) :
    idev ∈ s.table.devices ∨ s.table.curDeviceId ≤ idev.devid := by
  induction l generalizing s with
  | nil => exact .inl hidev
  | cons dev l ih =>
    rcases ih hidev with hidev | hlater
    · rcases mem_addFound.mp hidev with hidev | rfl
      · exact .inl hidev
      · exact .inr le_rfl
    · exact .inr (Nat.le_of_succ_le hlater)

/-- A library handle gets the event when its memory is there. -/
theorem count_events {type : EventType} {devid handle : ℕ} (hhandle : handle ∈ r.handles) :
    (r.events devid dev type).count ⟨devid, type, handle⟩ = if r.callback handle dev type = true then 1 else 0 := by
  have hinj : Function.Injective fun handle => (⟨devid, type, handle⟩ : Event) := fun a b hab => congrArg Event.handle hab
  have hnodup : (r.handles.filter fun handle => r.callback handle dev type).Nodup := r.distinct.filter _
  unfold Rescan.events
  rw [List.count_map_of_injective _ _ hinj handle, hnodup.count]
  simp only [List.mem_filter, hhandle, true_and]

theorem count_events_of_ne {type : EventType} {devid : ℕ} {e : Event} (hne : e.devid ≠ devid) :
    (r.events devid dev type).count e = 0 := by
  refine List.count_eq_zero.mpr fun he => hne ?_
  obtain ⟨handle, -, rfl⟩ := List.mem_map.mp he
  rfl

/-- The events of the devices that are listed already stay as they are. -/
theorem count_foldl_old {l : List UdevDevice} {e : Event} (hold : e.devid < s.table.curDeviceId) :
    (l.foldl (ScanState.addFound r) s).queued.count e = s.queued.count e := by
  induction l generalizing s with
  | nil => rfl
  | cons dev l ih =>
    rw [List.foldl_cons, ih (Nat.lt_succ_of_lt hold)]
    show (s.queued ++ r.events s.table.curDeviceId dev .attach).count e = _
    rw [List.count_append, count_events_of_ne (Nat.ne_of_lt hold), Nat.add_zero]

/-- A new device has its event for each handle that gets memory for it. -/
theorem count_foldl_new {l : List UdevDevice} (hidev : idev ∈ (l.foldl (ScanState.addFound r) s).table.devices)
    (hnew : idev ∉ s.table.devices) {handle : ℕ} (hhandle : handle ∈ r.handles) :
    (l.foldl (ScanState.addFound r) s).queued.count ⟨idev.devid, .attach, handle⟩ =
      s.queued.count ⟨idev.devid, .attach, handle⟩ + if r.callback handle idev.dev .attach = true then 1 else 0 := by
  induction l generalizing s with
  | nil => exact absurd hidev hnew
  | cons dev l ih =>
    rw [List.foldl_cons] at hidev ⊢
    by_cases hfirst : idev = s.newDevice r dev
    · subst hfirst
      rw [count_foldl_old (Nat.lt_succ_self _)]
      show (s.queued ++ r.events s.table.curDeviceId dev .attach).count ⟨s.table.curDeviceId, .attach, handle⟩ = _
      rw [List.count_append, count_events hhandle]
      rfl
    · have hrest : idev ∉ (s.addFound r dev).table.devices := fun h => (mem_addFound.mp h).elim hnew hfirst
      have hlater : s.table.curDeviceId < idev.devid := (devid_foldl_addFound hidev).resolve_left hrest
      rw [ih hidev hrest]
      show (s.queued ++ r.events s.table.curDeviceId dev .attach).count ⟨idev.devid, .attach, handle⟩ + _ = _
      rw [List.count_append, count_events_of_ne (Nat.ne_of_gt hlater), Nat.add_zero]

/-! ## The list of the bus -/

theorem mem_onBus {b : ℕ} : idev ∈ s.onBus b ↔ idev ∈ s.table.devices ∧ idev.dev.busnum = b := by
  unfold onBus
  rw [List.mem_filter, decide_eq_true_iff]

theorem mem_map_onBus {b : ℕ} : dev ∈ (s.onBus b).map UsbiDevice.dev ↔
    dev ∈ s.table.devices.map UsbiDevice.dev ∧ dev.busnum = b := by
  rw [List.mem_map, List.mem_map]
  constructor
  · rintro ⟨idev, hidev, rfl⟩
    obtain ⟨hlisted, hbus⟩ := mem_onBus.mp hidev
    exact ⟨⟨idev, hlisted, rfl⟩, hbus⟩
  · rintro ⟨⟨idev, hlisted, rfl⟩, hbus⟩
    exact ⟨idev, mem_onBus.mpr ⟨hlisted, hbus⟩, rfl⟩

/-- No device is listed twice. -/
theorem Inv.nodup_onBus (h : s.Inv) (b : ℕ) : ((s.onBus b).map UsbiDevice.dev).Nodup := by
  have hnodup : (s.onBus b).Nodup := h.ids.of_map.filter _
  refine hnodup.map_on fun x hx y hy hdev => ?_
  have hxl := (mem_onBus.mp hx).1
  have hyl := (mem_onBus.mp hy).1
  have hids := (h.entry x hxl).symm.trans ((congrArg₂ s.table.devByNum (congrArg UdevDevice.busnum hdev)
    (congrArg UdevDevice.devnum hdev)).trans (h.entry y hyl))
  exact List.inj_on_of_nodup_map h.ids hxl hyl (Option.some_inj.mp hids)

theorem mem_devices : dev ∈ r.devices ↔ some dev ∈ r.objects ∧ dev.busnum = r.ibus := by
  unfold Rescan.devices
  rw [List.mem_filter, List.reduceOption_mem_iff, decide_eq_true_iff]

/-- The number of a parent is that of a device. -/
theorem parent_lt (hvalid : r.Valid) (hdev : dev ∈ r.devices) : dev.pdevnum < USB_MAX_DEVICES_PER_BUS := by
  by_cases hp : dev.pdevnum = 0
  · rw [hp]
    decide
  · obtain ⟨before, after, hsplit⟩ := List.append_of_mem hdev
    obtain ⟨p, hmem, hnum⟩ := hvalid.parents before dev after hsplit hp
    have hlisted : p ∈ r.devices := hsplit ▸ List.mem_append_left _ hmem
    rw [← hnum]
    exact (hvalid.range p hlisted).2

/-- When nothing has vanished, what is new is added. -/
theorem Inv.mem_news_iff (h : s.Inv) (hvalid : r.Valid) (hok : Rescannable r s) :
    dev ∈ s.news r ↔ dev ∈ r.devices ∧ dev ∉ (s.onBus r.ibus).map UsbiDevice.dev := by
  rw [mem_news]
  constructor
  · rintro ⟨-, hdev, hadds⟩
    refine ⟨hdev, fun hlisted => ?_⟩
    obtain ⟨idev, hidev, rfl⟩ := List.mem_map.mp hlisted
    have hentry := h.entry idev (mem_onBus.mp hidev).1
    rw [hadds.2.2.2.2.2.1] at hentry
    cases hentry
  · rintro ⟨hdev, hnew⟩
    obtain ⟨hudev, hports, halloc, -⟩ := hok.fresh dev hdev hnew
    have hbus := (mem_devices.mp hdev).2
    -- a listed device that is the same by its number or as a root is there as well, and is this one
    have hother {idev : UsbiDevice} (hidev : idev ∈ s.table.devices) (hon : idev.dev.busnum = dev.busnum) :
        idev.dev ∈ r.devices ∧ idev.dev ≠ dev := by
      have hmem := mem_onBus.mpr ⟨hidev, hon.trans hbus⟩
      exact ⟨hok.present idev hmem, fun heq => hnew (List.mem_map.mpr ⟨idev, hmem, heq⟩)⟩
    refine ⟨hudev, hdev, hbus, hvalid.range dev hdev, hports, parent_lt hvalid hdev, fun hp => ?_, ?_, halloc⟩
    · cases hroot : s.table.root dev.busnum with
      | none => rfl
      | some devid =>
        obtain ⟨idev, hidev, -, hon, hparent⟩ := h.root _ _ hroot
        obtain ⟨hthere, hne⟩ := hother hidev hon
        exact absurd (hvalid.root.unique ⟨hthere, hparent⟩ ⟨hdev, hp⟩) hne
    · cases hentry : s.table.devByNum dev.busnum dev.devnum with
      | none => rfl
      | some devid =>
        obtain ⟨idev, hidev, -, hon, hnum⟩ := h.byNum _ _ _ hentry
        obtain ⟨hthere, hne⟩ := hother hidev hon
        exact absurd (List.inj_on_of_nodup_map hvalid.nums hthere hdev hnum) hne

/-- What the list of the bus is after the rescan. -/
theorem Inv.mem_after (h : s.Inv) (hvalid : r.Valid) : dev ∈ ((s.linuxRefreshDevices r).2.onBus r.ibus).map UsbiDevice.dev ↔
    dev ∈ (s.onBus r.ibus).map UsbiDevice.dev ∨ dev ∈ s.news r := by
  rw [mem_map_onBus, h.refresh_valid hvalid, devices_foldl_addFound, List.mem_append, mem_map_onBus]
  constructor
  · rintro ⟨hold | hnew, hbus⟩
    · exact .inl ⟨hold, hbus⟩
    · exact .inr hnew
  · rintro (⟨hold, hbus⟩ | hnew)
    · exact ⟨.inl hold, hbus⟩
    · exact ⟨.inr hnew, (mem_devices.mp (mem_news.mp hnew).2.1).2⟩

/-- A device that was listed still is. -/
theorem Inv.still_onBus (h : s.Inv) (hvalid : r.Valid) (hidev : idev ∈ s.onBus r.ibus) :
    idev ∈ (s.linuxRefreshDevices r).2.onBus r.ibus := by
  obtain ⟨hlisted, hbus⟩ := mem_onBus.mp hidev
  rw [h.refresh_valid hvalid]
  exact mem_onBus.mpr ⟨mem_foldl_addFound hlisted, hbus⟩

/-- The event of a device that is on the list of the bus only now. -/
theorem Inv.count_added (h : s.Inv) (hvalid : r.Valid) (hidev : idev ∈ (s.linuxRefreshDevices r).2.onBus r.ibus)
    (hnew : idev.dev ∉ (s.onBus r.ibus).map UsbiDevice.dev) {handle : ℕ} (hhandle : handle ∈ r.handles) :
    (s.linuxRefreshDevices r).2.queued.count ⟨idev.devid, .attach, handle⟩ =
      s.queued.count ⟨idev.devid, .attach, handle⟩ + if r.callback handle idev.dev .attach = true then 1 else 0 := by
  rw [h.refresh_valid hvalid] at hidev ⊢
  obtain ⟨hlisted, hbus⟩ := mem_onBus.mp hidev
  refine count_foldl_new hlisted (fun hold => hnew ?_) hhandle
  exact List.mem_map_of_mem (mem_onBus.mpr ⟨hold, hbus⟩)

theorem Inv.rescanned_iff (h : s.Inv) (hvalid : r.Valid) :
    Rescanned r s (s.linuxRefreshDevices r).2 ↔ Rescannable r s := by
  constructor
  · intro hr
    have hpresent : ∀ idev ∈ s.onBus r.ibus, idev.dev ∈ r.devices := fun idev hidev =>
      hr.listed.mem_iff.mp (List.mem_map_of_mem (h.still_onBus hvalid hidev))
    refine ⟨hpresent, fun dev hdev hnew => ?_⟩
    have hafter := hr.listed.mem_iff.mpr hdev
    obtain ⟨hudev, -, hadds⟩ := mem_news.mp (((h.mem_after hvalid).mp hafter).resolve_left hnew)
    refine ⟨hudev, hadds.2.2.1, hadds.2.2.2.2.2.2, fun handle hhandle => ?_⟩
    obtain ⟨idev, hidev, rfl⟩ := List.mem_map.mp hafter
    have hone := hr.added idev hidev hnew handle hhandle
    rw [h.count_added hvalid hidev hnew hhandle, Nat.add_left_cancel_iff] at hone
    by_contra hfail
    rw [if_neg hfail] at hone
    cases hone
  · intro hok
    have hmem {dev : UdevDevice} : dev ∈ ((s.linuxRefreshDevices r).2.onBus r.ibus).map UsbiDevice.dev ↔
        dev ∈ r.devices := by
      rw [h.mem_after hvalid, h.mem_news_iff hvalid hok]
      constructor
      · rintro (hold | ⟨hdev, -⟩)
        · obtain ⟨idev, hidev, rfl⟩ := List.mem_map.mp hold
          exact hok.present idev hidev
        · exact hdev
      · intro hdev
        by_cases hold : dev ∈ (s.onBus r.ibus).map UsbiDevice.dev
        · exact .inl hold
        · exact .inr ⟨hdev, hold⟩
    refine ⟨?_, fun idev hidev hgone => ?_, fun idev hidev hnew handle hhandle => ?_, fun idev hidev _ => ?_⟩
    · exact (List.perm_ext_iff_of_nodup (h.refresh.nodup_onBus _) hvalid.nums.of_map).mpr fun dev => hmem
    · exact absurd (hok.present idev hidev) hgone
    · have hevents := (hok.fresh idev.dev (hmem.mp (List.mem_map_of_mem hidev)) hnew).2.2.2
      rw [h.count_added hvalid hidev hnew hhandle, if_pos (hevents handle hhandle)]
    · exact ⟨idev, h.still_onBus hvalid hidev, rfl, rfl⟩

end

end ScanState

/-- After any earlier rescans, a rescan makes the list of the bus what udev enumerates, with the right events, exactly when
nothing has vanished, and what is new has fewer than 128 ports and gets its memory. -/
theorem rescan_lists_iff {history : List Rescan} {s : ScanState} (hrun : Run RescanStep (fun _ _ => True) .start history s)
    {r : Rescan} (hvalid : r.Valid) : Rescanned r s (s.linuxRefreshDevices r).2 ↔ Rescannable r s := by
  have hinv : s.Inv := by
    refine hrun.inv (fun s r s' h _ hstep => ?_) ScanState.inv_start
    rw [hstep]
    exact h.refresh
  exact hinv.rescanned_iff hvalid

/-- Only the root hub is there. -/
def hubAlone : Rescan where
  ibus := 1
  handles := [1]
  distinct := List.nodup_singleton 1
  objects := [none, some rootHub]

/-- The root hub and a stick are there. -/
def hubAndStick : Rescan where
  ibus := 1
  handles := [1]
  distinct := List.nodup_singleton 1
  objects := [some rootHub, some stick, none]

theorem hubAlone_valid : hubAlone.Valid where
  range := by decide
  nums := by decide
  root := ⟨rootHub, ⟨by decide, rfl⟩, fun dev h => List.mem_singleton.mp h.1⟩
  parents before dev after hsplit hp := by
    have hdev : dev ∈ [rootHub] := by
      rw [show [rootHub] = before ++ dev :: after from hsplit]
      exact List.mem_append_right _ List.mem_cons_self
    rw [List.mem_singleton.mp hdev] at hp
    exact absurd rfl hp

theorem hubAndStick_valid : hubAndStick.Valid where
  range := by decide
  nums := by decide
  root := by
    refine ⟨rootHub, ⟨by decide, rfl⟩, fun dev h => ?_⟩
    rcases List.mem_pair.mp h.1 with rfl | rfl
    · rfl
    · exact absurd h.2 (by decide)
  parents before dev after hsplit hp := by
    have hboth : [rootHub, stick] = before ++ dev :: after := hsplit
    cases before with
    | nil =>
      obtain ⟨rfl, -⟩ := List.cons.inj hboth
      exact absurd rfl hp
    | cons p before =>
      obtain ⟨rfl, hrest⟩ := List.cons.inj hboth
      have hdev : dev ∈ [stick] := by
        rw [show [stick] = before ++ dev :: after from hrest]
        exact List.mem_append_right _ List.mem_cons_self
      rw [List.mem_singleton.mp hdev]
      exact ⟨rootHub, List.mem_cons_self, rfl⟩

/-- The stick is plugged in, and the next rescan lists it. -/
theorem rescan_lists_iff_stick : ∃ s, Run RescanStep (fun _ _ => True) .start [hubAlone] s ∧
    Rescanned hubAndStick s (s.linuxRefreshDevices hubAndStick).2 := by
  have hrun : Run RescanStep (fun _ _ => True) .start [hubAlone] _ := .cons trivial rfl (.nil _)
  exact ⟨_, hrun, (rescan_lists_iff hrun hubAndStick_valid).mpr ⟨by decide, by decide⟩⟩

/-- The stick is pulled out again, and the next rescan leaves it on the list. -/
theorem vanished_stays : ∃ s, Run RescanStep (fun _ _ => True) .start [hubAndStick] s ∧ hubAlone.Valid ∧
    stick ∉ hubAlone.devices ∧ stick ∈ ((s.linuxRefreshDevices hubAlone).2.onBus 1).map UsbiDevice.dev ∧
    ¬ Rescanned hubAlone s (s.linuxRefreshDevices hubAlone).2 := by
  refine ⟨_, .cons trivial rfl (.nil _), hubAlone_valid, by decide, by decide, fun h => ?_⟩
  exact absurd h.listed.length_eq (by decide)

end OpenUsb
