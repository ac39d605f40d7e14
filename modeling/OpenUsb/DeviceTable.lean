import OpenUsb.Lib.Runs
import Mathlib.Data.List.Perm.Basic
import Mathlib.Data.List.Nodup
import Mathlib.Logic.Function.Basic

/-!
# DeviceTable — the device lists of the Linux backend and the udev events

A device is on the list of its bus and on the global list, which change together, and in `dev_by_num` of its bus.  Its
address is its `devid`, which is never given twice.  The events come from a system in which devices are attached and removed.

* `table_follows_iff`: after which events the lists and the arrays are those of the attached devices.
-/

namespace OpenUsb

/-! ## Devices -/

def USB_MAX_DEVICES_PER_BUS : ℕ := 128

/-- What udev tells of a device.  `pdevnum` is 0 without a parent that has a number. -/
structure UdevDevice where
  busnum : ℕ
  devnum : ℕ
  pdevnum : ℕ
  maxChildren : ℕ
  path : List UInt8
  deriving DecidableEq, Repr

/-- A `struct usbi_device`, with what udev told of it.  `named`: `sysfspath` holds the path, and is not NULL. -/
structure UsbiDevice where
  dev : UdevDevice
  devid : ℕ
  parent : Option ℕ
  named : Bool
  deriving DecidableEq, Repr

/-- The lists, `dev_by_num` and `root` of each bus, and `cur_device_id`. -/
structure DeviceTable where
  devices : List UsbiDevice
  devByNum : ℕ → ℕ → Option ℕ
  root : ℕ → Option ℕ
  curDeviceId : ℕ

/-- What the environment of one event gives: are the allocations of `create_new_device` and `strdup` made, and what does
`found` of a root that is freed already read. -/
structure EventEnv where
  alloc : Bool
  strdup : Bool
  staleFound : Bool
  deriving DecidableEq, Repr

namespace DeviceTable

variable (t : DeviceTable)

/-- `create_new_device` and `usbi_add_device`, with the parent or the root set up. -/
def addDevice (dev : UdevDevice) (env : EventEnv) : DeviceTable :=
  let devByNum := Function.update t.devByNum dev.busnum
    (Function.update (t.devByNum dev.busnum) dev.devnum (some t.curDeviceId))
  { devices := t.devices ++ [{
      dev := dev
      devid := t.curDeviceId
      parent := if dev.pdevnum ≠ 0 then devByNum dev.busnum dev.pdevnum else none
      named := env.strdup }]
    devByNum := devByNum
    root := if dev.pdevnum ≠ 0 then t.root else Function.update t.root dev.busnum (some t.curDeviceId)
    curDeviceId := t.curDeviceId + 1 }

/-- `ibus->root && ibus->root->found`; every device on the list is marked found. -/
def rootFound (busnum : ℕ) (env : EventEnv) : Bool :=
  match t.root busnum with
  | none => false
  | some root => if root ∈ t.devices.map UsbiDevice.devid then true else env.staleFound

/-- `process_new_device` for an event, where `known` are the buses on `usbi_buses`. -/
def processNewDevice (known : ℕ → Bool) (dev : UdevDevice) (env : EventEnv) : DeviceTable :=
  if known dev.busnum = false then t
  else if dev.devnum < 1 ∨ dev.devnum ≥ USB_MAX_DEVICES_PER_BUS ∨ dev.maxChildren ≥ USB_MAX_DEVICES_PER_BUS ∨
      dev.pdevnum ≥ USB_MAX_DEVICES_PER_BUS then t
  else if dev.pdevnum = 0 ∧ t.rootFound dev.busnum env = true then t
  else if t.devByNum dev.busnum dev.devnum ≠ none then t
  else if env.alloc = false then t
  else t.addDevice dev env

/-- `find_device_by_sysfspath`. -/
def findDeviceBySysfspath (path : List UInt8) : Option UsbiDevice :=
  t.devices.find? fun idev => idev.named ∧ idev.dev.path = path

/-- `device_added`: a device that is on the list already is only announced. -/
def deviceAdded (known : ℕ → Bool) (dev : UdevDevice) (env : EventEnv) : DeviceTable :=
  match t.findDeviceBySysfspath dev.path with
  | some _ => t
  | none => t.processNewDevice known dev env

/-- `usbi_remove_device`. -/
def usbiRemoveDevice (idev : UsbiDevice) : DeviceTable :=
  { t with devices := t.devices.filter fun other => other.devid ≠ idev.devid }

/-- `device_removed`. -/
def deviceRemoved (path : List UInt8) : DeviceTable :=
  match t.findDeviceBySysfspath path with
  | none => t
  | some idev =>
    -- the array is cleared at the id of the device, not at its number
    usbiRemoveDevice { t with
      devByNum := Function.update t.devByNum idev.dev.busnum
        (Function.update (t.devByNum idev.dev.busnum) idev.devid none) } idev

/-- Before the first event. -/
def start : DeviceTable := ⟨[], fun _ _ => none, fun _ => none, 1⟩

end DeviceTable

/-! ## The system -/

/-- The attached devices and what the library keeps of them. -/
structure Hotplug where
  attached : List UdevDevice
  table : DeviceTable

inductive UdevEvent where
  | add (dev : UdevDevice) (env : EventEnv)
  | remove (path : List UInt8)
  deriving DecidableEq, Repr

/-- The system after an event. -/
def Hotplug.exec (known : ℕ → Bool) (s : Hotplug) : UdevEvent → Hotplug
  | .add dev env =>
    ⟨if dev ∈ s.attached then s.attached else s.attached ++ [dev], s.table.deviceAdded known dev env⟩
  | .remove path => ⟨s.attached.filter fun dev => dev.path ≠ path, s.table.deviceRemoved path⟩

def HotplugStep (known : ℕ → Bool) (s : Hotplug) (e : UdevEvent) (s' : Hotplug) : Prop := s' = s.exec known e

def Hotplug.start : Hotplug := ⟨[], .start⟩

/-- What an event of the system is: the numbers are 1 to 127 and, like the paths, distinct among the devices attached to a
bus; a parent is added before its children and removed after them. -/
def Plausible (s : Hotplug) : UdevEvent → Prop
  | .add dev _ => dev ∈ s.attached ∨
      1 ≤ dev.devnum ∧ dev.devnum < USB_MAX_DEVICES_PER_BUS ∧
      (∀ other ∈ s.attached, other.path ≠ dev.path ∧ (other.busnum = dev.busnum → other.devnum ≠ dev.devnum)) ∧
      (dev.pdevnum ≠ 0 → ∃ p ∈ s.attached, p.busnum = dev.busnum ∧ p.devnum = dev.pdevnum)
  | .remove path => ∀ dev ∈ s.attached, dev.path = path → ∀ child ∈ s.attached, child.busnum = dev.busnum →
      child.pdevnum ≠ dev.devnum

/-- The attached devices of the known buses are listed, each once; the arrays name listed devices, each at its number; and
so do the parents. -/
structure Hotplug.Follows (known : ℕ → Bool) (s : Hotplug) : Prop where
  listed : (s.table.devices.map UsbiDevice.dev).Perm (s.attached.filter fun dev => known dev.busnum)
  byNum : ∀ busnum n devid, s.table.devByNum busnum n = some devid →
    ∃ idev ∈ s.table.devices, idev.devid = devid ∧ idev.dev.busnum = busnum ∧ idev.dev.devnum = n
  parents : ∀ idev ∈ s.table.devices, ∀ devid, idev.parent = some devid → ∃ p ∈ s.table.devices, p.devid = devid

/-- What must hold before an event.  A new device of a known bus has fewer than 128 ports and gets its memory, and if it
has no parent then its bus has no root, or one that is gone and does not read as found.  A listed device that is removed has
its path, and its id is its number. -/
def Followable (known : ℕ → Bool) (s : Hotplug) : UdevEvent → Prop
  | .add dev env => dev ∉ s.attached → known dev.busnum = true → dev.maxChildren < USB_MAX_DEVICES_PER_BUS ∧
      env.alloc = true ∧ (dev.pdevnum = 0 → s.table.rootFound dev.busnum env = false)
  | .remove path => ∀ idev ∈ s.table.devices, idev.dev.path = path → idev.named = true ∧ idev.devid = idev.dev.devnum

section

variable {known : ℕ → Bool} {s : Hotplug} {dev : UdevDevice} {env : EventEnv} {path : List UInt8} {idev : UsbiDevice}

/-- What the events keep as long as the lists and the arrays follow the system. -/
structure Hotplug.Inv (known : ℕ → Bool) (s : Hotplug) : Prop extends s.Follows known where
  paths : (s.attached.map UdevDevice.path).Nodup
  nums : ∀ a ∈ s.attached, ∀ b ∈ s.attached, a.busnum = b.busnum → a.devnum = b.devnum → a = b
  range : ∀ a ∈ s.attached, 1 ≤ a.devnum ∧ a.devnum < USB_MAX_DEVICES_PER_BUS ∧ a.pdevnum < USB_MAX_DEVICES_PER_BUS
  entry : ∀ idev ∈ s.table.devices, s.table.devByNum idev.dev.busnum idev.dev.devnum = some idev.devid
  fresh : ∀ idev ∈ s.table.devices, idev.devid < s.table.curDeviceId
  ids : (s.table.devices.map UsbiDevice.devid).Nodup
  parentNum : ∀ idev ∈ s.table.devices, ∀ p ∈ s.table.devices, idev.parent = some p.devid →
    p.dev.busnum = idev.dev.busnum ∧ p.dev.devnum = idev.dev.pdevnum

theorem Hotplug.Inv.mem_iff (h : s.Inv known) : dev ∈ s.table.devices.map UsbiDevice.dev ↔
    dev ∈ s.attached ∧ known dev.busnum = true := by
  rw [h.listed.mem_iff, List.mem_filter]

theorem Hotplug.Inv.attached (h : s.Inv known) (hidev : idev ∈ s.table.devices) :
    idev.dev ∈ s.attached ∧ known idev.dev.busnum = true :=
  h.mem_iff.mp (List.mem_map_of_mem hidev)

theorem Hotplug.Inv.eq_of_devid {other : UsbiDevice} (h : s.Inv known) (hidev : idev ∈ s.table.devices)
    (hother : other ∈ s.table.devices) (heq : idev.devid = other.devid) : idev = other :=
  List.inj_on_of_nodup_map h.ids hidev hother heq

theorem Hotplug.Inv.eq_of_dev {other : UsbiDevice} (h : s.Inv known) (hidev : idev ∈ s.table.devices)
    (hother : other ∈ s.table.devices) (heq : idev.dev = other.dev) : idev = other := by
  have hnodup : (s.table.devices.map UsbiDevice.dev).Nodup := h.listed.nodup_iff.mpr (h.paths.of_map.filter _)
  exact List.inj_on_of_nodup_map hnodup hidev hother heq

theorem Hotplug.Inv.eq_of_path {other : UsbiDevice} (h : s.Inv known) (hidev : idev ∈ s.table.devices)
    (hother : other ∈ s.table.devices) (heq : idev.dev.path = other.dev.path) : idev = other :=
  h.eq_of_dev hidev hother
    (List.inj_on_of_nodup_map h.paths (h.attached hidev).1 (h.attached hother).1 heq)

theorem inv_start : Hotplug.start.Inv known where
  listed := List.Perm.refl _
  byNum _ _ _ h := absurd h nofun
  parents _ h := absurd h List.not_mem_nil
  paths := List.nodup_nil
  nums _ h := absurd h List.not_mem_nil
  range _ h := absurd h List.not_mem_nil
  entry _ h := absurd h List.not_mem_nil
  fresh _ h := absurd h List.not_mem_nil
  ids := List.nodup_nil
  parentNum _ h := absurd h List.not_mem_nil

/-! ## A device is added -/

/-- The event of a device that is attached already changes nothing. -/
theorem Hotplug.Inv.add_again (h : s.Inv known) (hdev : dev ∈ s.attached) : s.exec known (.add dev env) = s := by
  have htable : s.table.deviceAdded known dev env = s.table := by
    unfold DeviceTable.deviceAdded
    cases s.table.findDeviceBySysfspath dev.path with
    | some _ => rfl
    | none =>
      show s.table.processNewDevice known dev env = s.table
      unfold DeviceTable.processNewDevice
      split_ifs with hknown hrange hroot hentry halloc
      · rfl
      · rfl
      · rfl
      · rfl
      · rfl
      · obtain ⟨idev, hidev, rfl⟩ := List.mem_map.mp (h.mem_iff.mpr ⟨hdev, by simpa using hknown⟩)
        exact absurd ((h.entry idev hidev).symm.trans (not_not.mp hentry)) nofun
  show (⟨if dev ∈ s.attached then s.attached else s.attached ++ [dev], s.table.deviceAdded known dev env⟩ : Hotplug) = s
  rw [htable, if_pos hdev]

/-- What is true of a device that is attached now. -/
structure NewDevice (s : Hotplug) (dev : UdevDevice) : Prop where
  fresh : dev ∉ s.attached
  low : 1 ≤ dev.devnum
  high : dev.devnum < USB_MAX_DEVICES_PER_BUS
  distinct : ∀ other ∈ s.attached, other.path ≠ dev.path ∧ (other.busnum = dev.busnum → other.devnum ≠ dev.devnum)
  parent : dev.pdevnum ≠ 0 → ∃ p ∈ s.attached, p.busnum = dev.busnum ∧ p.devnum = dev.pdevnum

theorem NewDevice.parent_ne (hnew : NewDevice s dev) (hp : dev.pdevnum ≠ 0) : dev.pdevnum ≠ dev.devnum := by
  obtain ⟨p, hpa, hbus, hnum⟩ := hnew.parent hp
  rw [← hnum]
  exact (hnew.distinct p hpa).2 hbus

theorem Hotplug.Inv.parent_lt (h : s.Inv known) (hnew : NewDevice s dev) : dev.pdevnum < USB_MAX_DEVICES_PER_BUS := by
  by_cases hp : dev.pdevnum = 0
  · rw [hp]
    decide
  · obtain ⟨p, hpa, -, hnum⟩ := hnew.parent hp
    rw [← hnum]
    exact (h.range p hpa).2.1

theorem Hotplug.Inv.find_none (h : s.Inv known) (hnew : NewDevice s dev) :
    s.table.findDeviceBySysfspath dev.path = none := by
  apply List.find?_eq_none.mpr
  intro idev hidev
  have hne := (hnew.distinct _ (h.attached hidev).1).1
  simp [hne]

theorem Hotplug.Inv.entry_none (h : s.Inv known) (hnew : NewDevice s dev) :
    s.table.devByNum dev.busnum dev.devnum = none := by
  cases hentry : s.table.devByNum dev.busnum dev.devnum with
  | none => rfl
  | some devid =>
    obtain ⟨idev, hidev, -, hbus, hnum⟩ := h.byNum _ _ _ hentry
    exact absurd hnum ((hnew.distinct _ (h.attached hidev).1).2 hbus)

/-- What becomes of a new device. -/
theorem Hotplug.Inv.exec_new (h : s.Inv known) (hnew : NewDevice s dev) : s.exec known (.add dev env) =
    ⟨s.attached ++ [dev],
      if known dev.busnum = true ∧ dev.maxChildren < USB_MAX_DEVICES_PER_BUS ∧ env.alloc = true ∧
          (dev.pdevnum = 0 → s.table.rootFound dev.busnum env = false)
        then s.table.addDevice dev env else s.table⟩ := by
  have htable : s.table.deviceAdded known dev env = s.table.processNewDevice known dev env := by
    unfold DeviceTable.deviceAdded
    rw [h.find_none hnew]
  show (⟨if dev ∈ s.attached then s.attached else s.attached ++ [dev], s.table.deviceAdded known dev env⟩ : Hotplug) = _
  rw [if_neg hnew.fresh, htable]
  congr 1
  have hlow := hnew.low
  have hhigh := hnew.high
  have hparent := h.parent_lt hnew
  unfold DeviceTable.processNewDevice
  by_cases hok : known dev.busnum = true ∧ dev.maxChildren < USB_MAX_DEVICES_PER_BUS ∧ env.alloc = true ∧
      (dev.pdevnum = 0 → s.table.rootFound dev.busnum env = false)
  · obtain ⟨hknown, hports, halloc, hroot⟩ := hok
    have hrange : ¬ (dev.devnum < 1 ∨ dev.devnum ≥ USB_MAX_DEVICES_PER_BUS ∨
        dev.maxChildren ≥ USB_MAX_DEVICES_PER_BUS ∨ dev.pdevnum ≥ USB_MAX_DEVICES_PER_BUS) := by omega
    have hroot' : ¬ (dev.pdevnum = 0 ∧ s.table.rootFound dev.busnum env = true) := by
      rintro ⟨hp, hfound⟩
      exact absurd ((hroot hp).symm.trans hfound) nofun
    rw [if_neg (by rw [hknown]; nofun), if_neg hrange, if_neg hroot', if_neg (not_not.mpr (h.entry_none hnew)),
      if_neg (by rw [halloc]; nofun), if_pos ⟨hknown, hports, halloc, hroot⟩]
  · rw [if_neg hok]
    split_ifs with hknown hrange hroot hentry halloc
    · rfl
    · rfl
    · rfl
    · rfl
    · rfl
    · refine absurd ⟨by simpa using hknown, by omega, by simpa using halloc, fun hp => ?_⟩ hok
      simpa using not_and.mp hroot hp

theorem mem_addDevice {x : UsbiDevice} (t : DeviceTable) : x ∈ (t.addDevice dev env).devices ↔
    x ∈ t.devices ∨ x = ⟨dev, t.curDeviceId,
      if dev.pdevnum ≠ 0 then (t.addDevice dev env).devByNum dev.busnum dev.pdevnum else none, env.strdup⟩ := by
  show x ∈ t.devices ++ [_] ↔ _
  rw [List.mem_append, List.mem_singleton]
  rfl

theorem addDevice_self (t : DeviceTable) :
    (t.addDevice dev env).devByNum dev.busnum dev.devnum = some t.curDeviceId := by
  simp only [DeviceTable.addDevice, Function.update_self]

theorem addDevice_of_ne (t : DeviceTable) {b n : ℕ} (hne : b = dev.busnum → n ≠ dev.devnum) :
    (t.addDevice dev env).devByNum b n = t.devByNum b n := by
  simp only [DeviceTable.addDevice]
  by_cases hb : b = dev.busnum
  · rw [hb, Function.update_self, Function.update_of_ne (hne hb)]
  · rw [Function.update_of_ne hb]

/-- A table by itself: every listed device is under its number, with an id of its own, and the array names no others. -/
structure DeviceTable.Indexed (t : DeviceTable) : Prop where
  entry : ∀ idev ∈ t.devices, t.devByNum idev.dev.busnum idev.dev.devnum = some idev.devid
  byNum : ∀ busnum n devid, t.devByNum busnum n = some devid →
    ∃ idev ∈ t.devices, idev.devid = devid ∧ idev.dev.busnum = busnum ∧ idev.dev.devnum = n
  fresh : ∀ idev ∈ t.devices, idev.devid < t.curDeviceId
  ids : (t.devices.map UsbiDevice.devid).Nodup

/-- A device is listed whose number is free. -/
theorem DeviceTable.Indexed.addDevice {t : DeviceTable} (h : t.Indexed) (env : EventEnv)
    (hnone : t.devByNum dev.busnum dev.devnum = none) : (t.addDevice dev env).Indexed where
  entry idev hidev := by
    rcases (mem_addDevice _).mp hidev with hidev | rfl
    · refine (addDevice_of_ne _ fun hbus hnum => ?_).trans (h.entry idev hidev)
      have hentry := h.entry idev hidev
      rw [hbus, hnum, hnone] at hentry
      cases hentry
    · exact addDevice_self _
  byNum b n devid hentry := by
    by_cases hat : b = dev.busnum ∧ n = dev.devnum
    · obtain ⟨rfl, rfl⟩ := hat
      refine ⟨_, (mem_addDevice _).mpr (.inr rfl), ?_, rfl, rfl⟩
      exact Option.some.inj ((addDevice_self _).symm.trans hentry)
    · have hold : t.devByNum b n = some devid :=
        (addDevice_of_ne _ fun hb hn => hat ⟨hb, hn⟩).symm.trans hentry
      obtain ⟨idev, hidev, hrest⟩ := h.byNum b n devid hold
      exact ⟨idev, (mem_addDevice _).mpr (.inl hidev), hrest⟩
  fresh idev hidev := by
    show idev.devid < t.curDeviceId + 1
    rcases (mem_addDevice _).mp hidev with hidev | rfl
    · have hlt := h.fresh idev hidev
      omega
    · exact Nat.lt_succ_self _
  ids := by
    show ((t.devices ++ [_]).map UsbiDevice.devid).Nodup
    rw [List.map_append, List.map_singleton, List.nodup_append]
    refine ⟨h.ids, List.nodup_singleton _, ?_⟩
    intro devid hdevid devid' hdevid'
    obtain ⟨idev, hidev, rfl⟩ := List.mem_map.mp hdevid
    rw [List.mem_singleton.mp hdevid']
    exact Nat.ne_of_lt (h.fresh idev hidev)

theorem Hotplug.Inv.indexed (h : s.Inv known) : s.table.Indexed := ⟨h.entry, h.byNum, h.fresh, h.ids⟩

/-- The entry that the parent of a new device comes from. -/
theorem Hotplug.Inv.parent_entry (h : s.Inv known) (hnew : NewDevice s dev) {devid : ℕ}
    (hparent : (if dev.pdevnum ≠ 0 then (s.table.addDevice dev env).devByNum dev.busnum dev.pdevnum else none) = some devid) :
    ∃ p ∈ s.table.devices, p.devid = devid ∧ p.dev.busnum = dev.busnum ∧ p.dev.devnum = dev.pdevnum := by
  by_cases hp : dev.pdevnum ≠ 0
  · rw [if_pos hp, addDevice_of_ne _ fun _ => hnew.parent_ne hp] at hparent
    exact h.byNum _ _ _ hparent
  · rw [if_neg hp] at hparent
    exact absurd hparent nofun

/-- The numbers and paths of the attached devices, with one more. -/
theorem Hotplug.Inv.attach (h : s.Inv known) (hnew : NewDevice s dev) :
    ((s.attached ++ [dev]).map UdevDevice.path).Nodup ∧
    (∀ a ∈ s.attached ++ [dev], ∀ b ∈ s.attached ++ [dev], a.busnum = b.busnum → a.devnum = b.devnum → a = b) ∧
    ∀ a ∈ s.attached ++ [dev], 1 ≤ a.devnum ∧ a.devnum < USB_MAX_DEVICES_PER_BUS ∧
      a.pdevnum < USB_MAX_DEVICES_PER_BUS := by
  refine ⟨?_, ?_, ?_⟩
  · rw [List.map_append, List.map_singleton, List.nodup_append]
    refine ⟨h.paths, List.nodup_singleton _, ?_⟩
    intro path hpath path' hpath'
    obtain ⟨other, hother, rfl⟩ := List.mem_map.mp hpath
    rw [List.mem_singleton.mp hpath']
    exact (hnew.distinct other hother).1
  · intro a ha b hb hbus hnum
    rcases List.mem_append.mp ha with ha | ha <;> rcases List.mem_append.mp hb with hb | hb
    · exact h.nums a ha b hb hbus hnum
    · rw [List.mem_singleton.mp hb] at hbus hnum
      exact absurd hnum ((hnew.distinct a ha).2 hbus)
    · rw [List.mem_singleton.mp ha] at hbus hnum
      exact absurd hnum.symm ((hnew.distinct b hb).2 hbus.symm)
    · rw [List.mem_singleton.mp ha, List.mem_singleton.mp hb]
  · intro a ha
    rcases List.mem_append.mp ha with ha | ha
    · exact h.range a ha
    · rw [List.mem_singleton.mp ha]
      exact ⟨hnew.low, hnew.high, h.parent_lt hnew⟩

/-- A new device is listed, and has its number. -/
theorem Hotplug.Inv.addDevice (h : s.Inv known) (env : EventEnv) (hnew : NewDevice s dev) (hknown : known dev.busnum = true) :
    Hotplug.Inv known ⟨s.attached ++ [dev], s.table.addDevice dev env⟩ where
  listed := by
    show ((s.table.devices ++ [_]).map UsbiDevice.dev).Perm _
    rw [List.map_append, List.filter_append, List.map_singleton, List.filter_cons_of_pos (by exact hknown), List.filter_nil]
    exact h.listed.append_right _
  byNum := (h.indexed.addDevice env (h.entry_none hnew)).byNum
  parents idev hidev devid hparent := by
    rcases (mem_addDevice _).mp hidev with hidev | rfl
    · obtain ⟨p, hp, hdevid⟩ := h.parents idev hidev devid hparent
      exact ⟨p, (mem_addDevice _).mpr (.inl hp), hdevid⟩
    · obtain ⟨p, hp, hdevid, -⟩ := h.parent_entry hnew hparent
      exact ⟨p, (mem_addDevice _).mpr (.inl hp), hdevid⟩
  paths := (h.attach hnew).1
  nums := (h.attach hnew).2.1
  range := (h.attach hnew).2.2
  entry := (h.indexed.addDevice env (h.entry_none hnew)).entry
  fresh := (h.indexed.addDevice env (h.entry_none hnew)).fresh
  ids := (h.indexed.addDevice env (h.entry_none hnew)).ids
  parentNum idev hidev p hp hparent := by
    have hold : p ∈ s.table.devices := by
      rcases (mem_addDevice _).mp hp with hp | rfl
      · exact hp
      · obtain ⟨q, hq, hdevid⟩ : ∃ q ∈ s.table.devices, q.devid = s.table.curDeviceId := by
          rcases (mem_addDevice _).mp hidev with hidev | rfl
          · exact h.parents idev hidev _ hparent
          · obtain ⟨q, hq, hdevid, -⟩ := h.parent_entry hnew hparent
            exact ⟨q, hq, hdevid⟩
        exact absurd hdevid (Nat.ne_of_lt (h.fresh q hq))
    rcases (mem_addDevice _).mp hidev with hidev | rfl
    · exact h.parentNum idev hidev p hold hparent
    · obtain ⟨q, hq, hdevid, hrest⟩ := h.parent_entry hnew hparent
      rw [← h.eq_of_devid hq hold hdevid]
      exact hrest

/-- A device of a bus that the library does not know is not listed. -/
theorem Hotplug.Inv.unlisted (h : s.Inv known) (hnew : NewDevice s dev) (hknown : known dev.busnum = false) :
    Hotplug.Inv known ⟨s.attached ++ [dev], s.table⟩ where
  listed := by
    have hskip : ¬ known dev.busnum = true := by
      rw [hknown]
      nofun
    rw [List.filter_append, List.filter_cons_of_neg (by exact hskip), List.filter_nil, List.append_nil]
    exact h.listed
  byNum := h.byNum
  parents := h.parents
  paths := (h.attach hnew).1
  nums := (h.attach hnew).2.1
  range := (h.attach hnew).2.2
  entry := h.entry
  fresh := h.fresh
  ids := h.ids
  parentNum := h.parentNum

/-- The events of attached devices. -/
theorem Hotplug.Inv.add (h : s.Inv known) (hpl : Plausible s (.add dev env)) :
    ((s.exec known (.add dev env)).Follows known ↔ Followable known s (.add dev env)) ∧
    (Followable known s (.add dev env) → (s.exec known (.add dev env)).Inv known) := by
  by_cases hdev : dev ∈ s.attached
  · rw [h.add_again hdev]
    exact ⟨iff_of_true h.toFollows fun hfresh => absurd hdev hfresh, fun _ => h⟩
  · obtain ⟨hlow, hhigh, hdistinct, hparent⟩ := hpl.resolve_left hdev
    have hnew : NewDevice s dev := ⟨hdev, hlow, hhigh, hdistinct, hparent⟩
    rw [h.exec_new hnew]
    by_cases hknown : known dev.busnum = true
    · by_cases hok : Followable known s (.add dev env)
      · obtain ⟨hports, halloc, hroot⟩ := hok hdev hknown
        rw [if_pos ⟨hknown, hports, halloc, hroot⟩]
        have hinv := h.addDevice env hnew hknown
        exact ⟨iff_of_true hinv.toFollows hok, fun _ => hinv⟩
      · have hnot : ¬ (known dev.busnum = true ∧ dev.maxChildren < USB_MAX_DEVICES_PER_BUS ∧ env.alloc = true ∧
            (dev.pdevnum = 0 → s.table.rootFound dev.busnum env = false)) := fun hc => hok fun _ _ => hc.2
        rw [if_neg hnot]
        refine ⟨iff_of_false (fun hfollows => ?_) hok, fun hok' => absurd hok' hok⟩
        have hmem : dev ∈ s.table.devices.map UsbiDevice.dev := by
          refine hfollows.listed.mem_iff.mpr (List.mem_filter.mpr ⟨?_, hknown⟩)
          exact List.mem_append_right _ (List.mem_singleton_self dev)
        exact hdev (h.mem_iff.mp hmem).1
    · have hskip : known dev.busnum = false := by simpa using hknown
      rw [if_neg fun hc => hknown hc.1]
      have hinv := h.unlisted hnew hskip
      exact ⟨iff_of_true hinv.toFollows fun _ hk => absurd hk hknown, fun _ => hinv⟩

/-! ## A device is removed -/

/-- The attached devices without the one with the path. -/
theorem Hotplug.Inv.detach (h : s.Inv known) (path : List UInt8) :
    ((s.attached.filter fun dev => dev.path ≠ path).map UdevDevice.path).Nodup ∧
    (∀ a ∈ s.attached.filter fun dev => dev.path ≠ path, ∀ b ∈ s.attached.filter fun dev => dev.path ≠ path,
      a.busnum = b.busnum → a.devnum = b.devnum → a = b) ∧
    ∀ a ∈ s.attached.filter fun dev => dev.path ≠ path, 1 ≤ a.devnum ∧ a.devnum < USB_MAX_DEVICES_PER_BUS ∧
      a.pdevnum < USB_MAX_DEVICES_PER_BUS := by
  refine ⟨?_, ?_, ?_⟩
  · exact (List.filter_sublist.map _).nodup h.paths
  · exact fun a ha b hb => h.nums a (List.mem_of_mem_filter ha) b (List.mem_of_mem_filter hb)
  · exact fun a ha => h.range a (List.mem_of_mem_filter ha)

/-- No listed device has the path. -/
theorem Hotplug.Inv.remove_unlisted (h : s.Inv known) (hnone : ∀ idev ∈ s.table.devices, idev.dev.path ≠ path) :
    (s.exec known (.remove path)).Inv known := by
  have hfind : s.table.findDeviceBySysfspath path = none := by
    apply List.find?_eq_none.mpr
    intro idev hidev
    simp [hnone idev hidev]
  have htable : s.table.deviceRemoved path = s.table := by
    unfold DeviceTable.deviceRemoved
    rw [hfind]
  have hexec : s.exec known (.remove path) = ⟨s.attached.filter fun dev => dev.path ≠ path, s.table⟩ :=
    congrArg (Hotplug.mk _) htable
  rw [hexec]
  obtain ⟨hpaths, hnums, hrange⟩ := h.detach path
  refine ⟨⟨?_, h.byNum, h.parents⟩, hpaths, hnums, hrange, h.entry, h.fresh, h.ids, h.parentNum⟩
  have hsame : (s.attached.filter fun dev => dev.path ≠ path).filter (fun dev => known dev.busnum) =
      s.attached.filter fun dev => known dev.busnum := by
    rw [List.filter_filter]
    apply List.filter_congr
    intro dev hdev
    by_cases hknown : known dev.busnum = true
    · obtain ⟨idev, hidev, rfl⟩ := List.mem_map.mp (h.mem_iff.mpr ⟨hdev, hknown⟩)
      simp [hnone idev hidev]
    · simp [hknown]
  rw [hsame]
  exact h.listed

/-- `usbi_remove_device` after the array was cleared at the id. -/
def DeviceTable.clearAndRemove (t : DeviceTable) (idev : UsbiDevice) : DeviceTable :=
  DeviceTable.usbiRemoveDevice { t with
    devByNum := Function.update t.devByNum idev.dev.busnum
      (Function.update (t.devByNum idev.dev.busnum) idev.devid none) } idev

theorem clearAndRemove_of_ne (t : DeviceTable) {b n : ℕ} (hne : b = idev.dev.busnum → n ≠ idev.devid) :
    (t.clearAndRemove idev).devByNum b n = t.devByNum b n := by
  show Function.update t.devByNum idev.dev.busnum (Function.update (t.devByNum idev.dev.busnum) idev.devid none) b n = _
  by_cases hb : b = idev.dev.busnum
  · rw [hb, Function.update_self, Function.update_of_ne (hne hb)]
  · rw [Function.update_of_ne hb]

theorem clearAndRemove_self (t : DeviceTable) : (t.clearAndRemove idev).devByNum idev.dev.busnum idev.devid = none := by
  show Function.update t.devByNum idev.dev.busnum (Function.update (t.devByNum idev.dev.busnum) idev.devid none)
    idev.dev.busnum idev.devid = none
  rw [Function.update_self, Function.update_self]

theorem mem_clearAndRemove {other : UsbiDevice} (t : DeviceTable) :
    other ∈ (t.clearAndRemove idev).devices ↔ other ∈ t.devices ∧ other.devid ≠ idev.devid := by
  show other ∈ t.devices.filter _ ↔ _
  rw [List.mem_filter, decide_eq_true_iff]

/-- A listed device is removed whose id is its number. -/
theorem Hotplug.Inv.remove_listed (h : s.Inv known) (hidev : idev ∈ s.table.devices) (hnum : idev.devid = idev.dev.devnum)
    (hchild : ∀ child ∈ s.attached, child.busnum = idev.dev.busnum → child.pdevnum ≠ idev.dev.devnum) :
    Hotplug.Inv known ⟨s.attached.filter fun dev => dev.path ≠ idev.dev.path, s.table.clearAndRemove idev⟩ where
  listed := by
    have hsame : (s.table.clearAndRemove idev).devices =
        s.table.devices.filter ((fun dev => decide (dev.path ≠ idev.dev.path)) ∘ UsbiDevice.dev) := by
      apply List.filter_congr
      intro other hother
      apply decide_eq_decide.mpr
      refine not_congr ⟨fun heq => ?_, fun heq => ?_⟩
      · rw [h.eq_of_devid hother hidev heq]
      · rw [h.eq_of_path hother hidev heq]
    show ((s.table.clearAndRemove idev).devices.map UsbiDevice.dev).Perm _
    rw [hsame, ← List.filter_map, List.filter_comm]
    exact h.listed.filter _
  byNum b n devid hentry := by
    by_cases hat : b = idev.dev.busnum ∧ n = idev.devid
    · obtain ⟨rfl, rfl⟩ := hat
      exact absurd ((clearAndRemove_self s.table).symm.trans hentry) nofun
    · have hold := (clearAndRemove_of_ne s.table fun hb hn => hat ⟨hb, hn⟩).symm.trans hentry
      obtain ⟨other, hother, hdevid, hbus, hothernum⟩ := h.byNum b n devid hold
      refine ⟨other, (mem_clearAndRemove _).mpr ⟨hother, fun heq => ?_⟩, hdevid, hbus, hothernum⟩
      rw [h.eq_of_devid hother hidev heq] at hbus hothernum
      exact hat ⟨hbus.symm, hothernum.symm.trans hnum.symm⟩
  parents other hother devid hparent := by
    have hold := ((mem_clearAndRemove _).mp hother).1
    obtain ⟨p, hp, hdevid⟩ := h.parents other hold devid hparent
    refine ⟨p, (mem_clearAndRemove _).mpr ⟨hp, fun heq => ?_⟩, hdevid⟩
    obtain ⟨hbus, hpnum⟩ := h.parentNum other hold p hp (hdevid ▸ hparent)
    rw [h.eq_of_devid hp hidev heq] at hbus hpnum
    exact hchild _ (h.attached hold).1 hbus.symm hpnum.symm
  paths := (h.detach _).1
  nums := (h.detach _).2.1
  range := (h.detach _).2.2
  entry other hother := by
    obtain ⟨hold, hne⟩ := (mem_clearAndRemove _).mp hother
    refine (clearAndRemove_of_ne _ fun hbus hothernum => hne ?_).trans (h.entry other hold)
    have hdev := h.nums _ (h.attached hold).1 _ (h.attached hidev).1 hbus (hothernum.trans hnum)
    rw [h.eq_of_dev hold hidev hdev]
  fresh other hother := h.fresh other ((mem_clearAndRemove _).mp hother).1
  ids := (List.filter_sublist.map _).nodup h.ids
  parentNum other hother p hp :=
    h.parentNum other ((mem_clearAndRemove _).mp hother).1 p ((mem_clearAndRemove _).mp hp).1

/-- `device_removed` for the path of a listed device. -/
theorem Hotplug.Inv.deviceRemoved (h : s.Inv known) (hidev : idev ∈ s.table.devices) :
    s.table.deviceRemoved idev.dev.path = if idev.named = true then s.table.clearAndRemove idev else s.table := by
  unfold DeviceTable.deviceRemoved
  cases hfind : s.table.findDeviceBySysfspath idev.dev.path with
  | none =>
    have hnot := List.find?_eq_none.mp hfind idev hidev
    rw [if_neg fun hnamed => hnot (by simp [hnamed])]
  | some other =>
    have hother := List.find?_some hfind
    rw [decide_eq_true_iff] at hother
    have heq := h.eq_of_path (List.mem_of_find?_eq_some hfind) hidev hother.2
    subst heq
    rw [if_pos hother.1]
    rfl

/-- The events of devices that are removed. -/
theorem Hotplug.Inv.remove (h : s.Inv known) (hpl : Plausible s (.remove path)) :
    ((s.exec known (.remove path)).Follows known ↔ Followable known s (.remove path)) ∧
    (Followable known s (.remove path) → (s.exec known (.remove path)).Inv known) := by
  by_cases hlisted : ∃ idev ∈ s.table.devices, idev.dev.path = path
  · obtain ⟨idev, hidev, rfl⟩ := hlisted
    have hattached := h.attached hidev
    have hexec : s.exec known (.remove idev.dev.path) = ⟨s.attached.filter fun dev => dev.path ≠ idev.dev.path,
        if idev.named = true then s.table.clearAndRemove idev else s.table⟩ :=
      congrArg (Hotplug.mk _) (h.deviceRemoved hidev)
    have hok : Followable known s (.remove idev.dev.path) ↔ idev.named = true ∧ idev.devid = idev.dev.devnum := by
      constructor
      · exact fun hall => hall idev hidev rfl
      · intro hone other hother hpath
        rw [h.eq_of_path hother hidev hpath]
        exact hone
    rw [hexec, hok]
    by_cases hnamed : idev.named = true
    · rw [if_pos hnamed]
      by_cases hnum : idev.devid = idev.dev.devnum
      · have hinv := h.remove_listed hidev hnum (hpl _ hattached.1 rfl)
        exact ⟨iff_of_true hinv.toFollows ⟨hnamed, hnum⟩, fun _ => hinv⟩
      · refine ⟨iff_of_false (fun hfollows => ?_) fun hc => hnum hc.2, fun hc => absurd hc.2 hnum⟩
        -- the entry of the device stays, and the device is gone
        have hentry := (clearAndRemove_of_ne s.table fun _ => Ne.symm hnum).trans (h.entry idev hidev)
        obtain ⟨other, hother, hdevid, -⟩ := hfollows.byNum _ _ _ hentry
        exact ((mem_clearAndRemove _).mp hother).2 hdevid
    · rw [if_neg hnamed]
      refine ⟨iff_of_false (fun hfollows => ?_) fun hc => hnamed hc.1, fun hc => absurd hc.1 hnamed⟩
      have hmem := hfollows.listed.mem_iff.mp (List.mem_map_of_mem hidev)
      have hpath := List.of_mem_filter (List.mem_of_mem_filter hmem)
      exact absurd rfl (of_decide_eq_true hpath)
  · have hnone : ∀ idev ∈ s.table.devices, idev.dev.path ≠ path :=
      fun idev hidev hpath => hlisted ⟨idev, hidev, hpath⟩
    have hinv := h.remove_unlisted hnone
    exact ⟨iff_of_true hinv.toFollows fun idev hidev hpath => absurd hpath (hnone idev hidev), fun _ => hinv⟩

theorem Hotplug.Inv.event {e : UdevEvent} (h : s.Inv known) (hpl : Plausible s e) :
    ((s.exec known e).Follows known ↔ Followable known s e) ∧
    (Followable known s e → (s.exec known e).Inv known) := by
  cases e with
  | add dev env => exact h.add hpl
  | remove path => exact h.remove hpl

/-- After every event of a plausible history the lists and the arrays are those of the attached devices exactly when every
event finds what it needs. -/
theorem table_follows_iff {history : List UdevEvent} :
    Run (HotplugStep known) (fun s e => Plausible s e ∧ (s.exec known e).Follows known) .start history s ↔
    Run (HotplugStep known) (fun s e => Plausible s e ∧ Followable known s e) .start history s := by
  apply run_iff (I := Hotplug.Inv known)
  · intro q e _ hq _
    exact and_congr_right fun hpl => (hq.event hpl).1
  · rintro q e _ hq ⟨hpl, hok⟩ rfl
    exact (hq.event hpl).2 hok
  · exact inv_start

/-- The root hub of bus 1. -/
def rootHub : UdevDevice := ⟨1, 1, 0, 2, [1]⟩

/-- A device at the hub, with number 5. -/
def stick : UdevDevice := ⟨1, 5, 1, 0, [2]⟩

def plainEnv : EventEnv := ⟨true, true, true⟩

/-- The stick is removed and plugged in again: `dev_by_num` still names the device that is gone, and it is not listed. -/
theorem table_dangles : ∃ history s, Run (HotplugStep fun _ => true) Plausible .start history s ∧
    stick ∈ s.attached ∧ stick ∉ s.table.devices.map UsbiDevice.dev ∧ ¬ s.Follows fun _ => true := by
  have hchild : ∀ dev ∈ [rootHub, stick], dev.path = [2] → ∀ child ∈ [rootHub, stick], child.busnum = dev.busnum →
      child.pdevnum ≠ dev.devnum := by decide
  have hrun : Run (HotplugStep fun _ => true) Plausible .start
      [.add rootHub plainEnv, .add stick plainEnv, .remove [2], .add stick plainEnv] _ :=
    .cons (.inr ⟨by decide, by decide, by decide, nofun⟩) rfl
      (.cons (.inr ⟨by decide, by decide, by decide, by decide⟩) rfl (.cons hchild rfl
        (.cons (.inr ⟨by decide, by decide, by decide, by decide⟩) rfl (.nil _))))
  refine ⟨_, _, hrun, by decide, by decide, fun h => ?_⟩
  exact absurd h.listed.length_eq (by decide)

end

end OpenUsb
