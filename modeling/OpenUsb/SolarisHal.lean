import OpenUsb.SolarisRefresh
import OpenUsb.Lib.ChangeFeed

/-!
# SolarisHal — the events of HAL

HAL announces each device that comes or goes.  A device that the library knows by its udi is only announced to the handles.
For one that it does not know the bus of its parent is refreshed, and then the devices that have no udi yet get one.

* `DeviceTree.refreshed`: what a refresh does to the list and to what the handles were told.
* `setDeviceUdi_known`: `set_device_udi` gives every listed device its udi.
* `handles_told`: the handles are told of what is attached, whatever is in flight.
-/

namespace OpenUsb

namespace Solaris

open ChangeFeed

/-! ## The library -/

/-- `"usb_device"`. -/
def usbDevice : List UInt8 := [0x75, 0x73, 0x62, 0x5f, 0x64, 0x65, 0x76, 0x69, 0x63, 0x65]

/-- A device that HAL lists: its udi, and its `solaris.devfs_path`, if that can be read. -/
structure HalDevice where
  udi : List UInt8
  devfsPath : Option (List UInt8)
  deriving DecidableEq, Repr

/-- `solaris.devfs_path`, `info.subsystem` and `info.parent` of a device, if they can be read. -/
structure HalProps where
  devfsPath : Option (List UInt8)
  subsystem : Option (List UInt8)
  parent : Option (List UInt8)
  deriving DecidableEq, Repr

/-- What the calls of one event find: the properties of the device, the devinfo tree of each bus, what
`libhal_get_all_devices` lists, the library handles, and which allocations are made. -/
structure HalEnv where
  props : HalProps
  tree : ℕ → DiNode × Forest DiNode
  devices : Option (List HalDevice)
  handles : List ℕ
  diInit : Bool := true
  diDevlinkInit : Bool := true
  alloc : DiNode → Bool := fun _ => true
  allocChildren : DiNode → Bool := fun _ => true
  callback : ℕ → ℕ → EventType → Bool := fun _ _ _ => true
  strdup : List UInt8 → Bool := fun _ => true

/-- The refresh of a bus. -/
def HalEnv.refresh (env : HalEnv) (ibus : ℕ) : TreeRefresh where
  ibus := ibus
  diInit := env.diInit
  diDevlinkInit := env.diDevlinkInit
  rootNode := (env.tree ibus).1
  below := (env.tree ibus).2
  handles := env.handles
  alloc := env.alloc
  allocChildren := env.allocChildren
  callback := env.callback

/-- The devices, and their `priv->udi`. -/
structure HalState where
  tree : DeviceTree
  udi : ℕ → Option (List UInt8)

namespace HalState

variable (env : HalEnv) (s : HalState) (udi : List UInt8)

/-- `find_device_by_udi`. -/
def findDeviceByUdi : Option ℕ := s.tree.list.find? fun idev => s.udi idev = some udi

/-- A round of the loop of `set_device_udi`. -/
def setUdi (device : HalDevice) : HalState :=
  match device.devfsPath.bind s.tree.findDeviceBySyspath with
  | none => s
  | some idev =>
    if s.udi idev = none then
      { s with udi := Function.update s.udi idev (if env.strdup device.udi = true then some device.udi else none) }
    else s

/-- `set_device_udi`. -/
def setDeviceUdi : HalState :=
  match env.devices with
  | none => s
  | some devices => devices.foldl (fun t device => t.setUdi env device) s

/-- `process_new_device`. -/
def processNewDevice : HalState :=
  match env.props with
  | ⟨some _, some subsys, some parent⟩ =>
    if subsys ≠ usbDevice then s
    else match s.findDeviceByUdi parent with
      | none => s
      | some pidev => { s with tree := (s.tree.solarisRefreshDevices (env.refresh (s.tree.dev pidev).bus)).2 }
  | _ => s

/-- `usbi_add_event_callback` for each handle. -/
def tell (idev : ℕ) (type : EventType) : HalState :=
  { s with tree := { s.tree with queued := s.tree.queued ++ (env.refresh (s.tree.dev idev).bus).events idev type } }

/-- `device_added`. -/
def deviceAdded : HalState :=
  match s.findDeviceByUdi udi with
  | some idev => s.tell env idev .attach
  | none => (s.processNewDevice env).setDeviceUdi env

/-- `device_removed`. -/
def deviceRemoved : HalState :=
  match s.findDeviceByUdi udi with
  | some idev => s.tell env idev .remove
  | none => s

end HalState

/-! ## The system -/

/-- A USB device of the system, with the udi of the hub that it is attached to; a root hub has none. -/
structure SystemDevice where
  udi : List UInt8
  path : List UInt8
  ibus : ℕ
  parent : Option (List UInt8)
  deriving DecidableEq, Repr

def SystemDevice.fullPath (d : SystemDevice) : List UInt8 := devicesDir ++ d.path

/-- The udis of devices. -/
def udisOf (attached : List SystemDevice) : Set (List UInt8) := { udi | ∃ d ∈ attached, d.udi = udi }

/-- The attached devices, the events of HAL that are in flight, and the library. -/
structure HalWorld where
  attached : List SystemDevice
  pending : List (Change (List UInt8))
  lib : HalState

/-- Devices come and go at any time, and the events are delivered one by one. -/
inductive HalAct where
  | attach (d : SystemDevice)
  | detach (udi : List UInt8)
  | deliver (env : HalEnv)

namespace HalWorld

/-- The udis of the attached devices. -/
def udis (w : HalWorld) : Set (List UInt8) := udisOf w.attached

def exec (w : HalWorld) : HalAct → HalWorld
  | .attach d => { w with attached := w.attached ++ [d], pending := w.pending ++ [.added d.udi] }
  | .detach udi => { w with attached := w.attached.filter fun d => d.udi ≠ udi, pending := w.pending ++ [.removed udi] }
  | .deliver env =>
    match w.pending with
    | [] => w
    | .added udi :: rest => { w with pending := rest, lib := w.lib.deviceAdded env udi }
    | .removed udi :: rest => { w with pending := rest, lib := w.lib.deviceRemoved env udi }

end HalWorld

/-- The buses are refreshed one after the other. -/
def refreshAll (env : HalEnv) (heap : ℕ → TreeDevice) (buses : List ℕ) : DeviceTree :=
  buses.foldl (fun t b => (t.solarisRefreshDevices (env.refresh b)).2) (DeviceTree.start heap)

/-- The library when the event thread is ready: the buses were refreshed before it came to `set_device_udi`. -/
def startUp (env : HalEnv) (heap : ℕ → TreeDevice) (buses : List ℕ) : HalState :=
  HalState.setDeviceUdi env ⟨refreshAll env heap buses, fun _ => none⟩

/-- The last that the handle was told of the device is that it is attached. -/
def told (queued : List Event) (handle idev : ℕ) : Bool :=
  (((queued.filter fun e => e.handle = handle ∧ e.devid = idev).getLast?).map fun e => decide (e.type = .attach)).getD false

/-- The handle is one of the library, and there is memory for its events. -/
structure Hears (handle : ℕ) (r : TreeRefresh) : Prop where
  mem : handle ∈ r.handles
  callback : ∀ idev type, r.callback handle idev type = true

/-- The names of the system: each place has its udi, is on one bus, and has its `usb-port-count`. -/
structure Naming where
  udi : List UInt8 → List UInt8
  bus : List UInt8 → ℕ
  ports : List UInt8 → List ℤ
  injective : Function.Injective udi

/-- A devfs path as it is promised. -/
def NamedPath (path : List UInt8) : Prop := DiNode.Named ⟨path, [], [], []⟩

/-- The device has its names from its place. -/
structure Naming.Names (n : Naming) (d : SystemDevice) : Prop where
  path : NamedPath d.path
  udi : n.udi d.fullPath = d.udi
  bus : n.bus d.fullPath = d.ibus

/-- The devinfo tree of a bus shows the attached devices; the nodes that are visited pass the checks of `create_new_device`,
and have the ports of their places. -/
structure ShowsBus (n : Naming) (env : HalEnv) (attached : List SystemDevice) (t : DeviceTree) (b : ℕ) : Prop where
  possible : (env.refresh b).Possible t
  checks : ∀ v ∈ t.visits (env.refresh b), passes v = true ∧ v.2.usbPortCount = n.ports v.2.fullPath
  kept : ∀ path, (∃ v ∈ t.kept (env.refresh b), v.2.path = path) ↔ ∃ d ∈ attached, d.ibus = b ∧ d.path = path

/-- HAL lists the attached devices, and their paths with no other udi. -/
def ListsDevices (env : HalEnv) (attached : List SystemDevice) : Prop :=
  ∃ devices, env.devices = some devices ∧ (∀ d ∈ attached, ⟨d.udi, some d.path⟩ ∈ devices) ∧
    ∀ device ∈ devices, ∀ path, device.devfsPath = some path →
      NamedPath path ∧ ∀ d ∈ attached, d.path = path → device.udi = d.udi

/-- The calls of one event work, and find what is attached. -/
structure Sees (handle : ℕ) (env : HalEnv) (attached : List SystemDevice) : Prop where
  hears : ∀ b, Hears handle (env.refresh b)
  runs : env.diInit = true ∧ env.diDevlinkInit = true
  strdup : ∀ udi, env.strdup udi = true
  lists : ListsDevices env attached

/-- A new device has names of its own and is attached to a hub.  Root hubs stay, and a hub goes after its devices.  When an
event is delivered the calls find what is attached at that time. -/
def Fair (n : Naming) (handle : ℕ) (w : HalWorld) : HalAct → Prop
  | .attach d => n.Names d ∧ d.udi ∉ w.udis ∧ ∃ p ∈ w.attached, d.parent = some p.udi ∧ p.ibus = d.ibus
  | .detach udi => ∀ d ∈ w.attached, (d.udi = udi → d.parent ≠ none) ∧ d.parent ≠ some udi
  | .deliver env => Sees handle env w.attached ∧
      (∀ i ∈ w.lib.tree.list, ShowsBus n env w.attached w.lib.tree (w.lib.tree.dev i).bus) ∧
      ∀ d ∈ w.attached, w.pending.head? = some (.added d.udi) → env.props = ⟨some d.path, some usbDevice, d.parent⟩

/-! ## What the handles are told -/

section

variable {queued l : List Event} {handle idev i : ℕ} {type : EventType} {r : TreeRefresh}

theorem told_append_other (h : ∀ e ∈ l, ¬ (e.handle = handle ∧ e.devid = idev)) :
    told (queued ++ l) handle idev = told queued handle idev := by
  have hnone : l.filter (fun e => decide (e.handle = handle ∧ e.devid = idev)) = [] :=
    List.filter_eq_nil_iff.mpr fun e he => by simpa using h e he
  unfold told
  rw [List.filter_append, hnone, List.append_nil]

theorem told_append_self (hsome : ∃ e ∈ l, e.handle = handle ∧ e.devid = idev)
    (hall : ∀ e ∈ l, e.handle = handle → e.devid = idev → e.type = type) :
    told (queued ++ l) handle idev = decide (type = .attach) := by
  obtain ⟨e, he, hself⟩ := hsome
  have hmem : e ∈ l.filter fun e => e.handle = handle ∧ e.devid = idev := List.mem_filter.mpr ⟨he, decide_eq_true hself⟩
  have hne := List.ne_nil_of_mem hmem
  obtain ⟨hlast, hof⟩ := List.mem_filter.mp (List.getLast_mem hne)
  obtain ⟨hhandle, hdevid⟩ := of_decide_eq_true hof
  unfold told
  rw [List.filter_append, List.getLast?_append, List.getLast?_eq_some_getLast hne, Option.some_or, Option.map_some,
    Option.getD_some, hall _ hlast hhandle hdevid]

theorem mem_events {e : Event} : e ∈ r.events idev type ↔
    e.devid = idev ∧ e.type = type ∧ e.handle ∈ r.handles ∧ r.callback e.handle idev type = true := by
  unfold TreeRefresh.events
  rw [List.mem_map]
  constructor
  · rintro ⟨h, hmem, rfl⟩
    exact ⟨rfl, rfl, List.mem_filter.mp hmem⟩
  · rintro ⟨rfl, rfl, hmem⟩
    exact ⟨e.handle, List.mem_filter.mpr hmem, rfl⟩

theorem told_events (h : Hears handle r) : told (queued ++ r.events idev type) handle i =
    if i = idev then decide (type = .attach) else told queued handle i := by
  by_cases hi : i = idev
  · subst hi
    rw [if_pos rfl]
    refine told_append_self ⟨⟨i, type, handle⟩, mem_events.mpr ⟨rfl, rfl, h.mem, h.callback i type⟩, rfl, rfl⟩ ?_
    exact fun e he _ _ => (mem_events.mp he).2.1
  · rw [if_neg hi]
    refine told_append_other fun e he hself => hi ?_
    exact hself.2.symm.trans (mem_events.mp he).1

theorem mem_flatMap_events {e : Event} {ids : List ℕ} (he : e ∈ ids.flatMap fun i => r.events i type) :
    e.devid ∈ ids ∧ e.type = type := by
  obtain ⟨i, hi, he⟩ := List.mem_flatMap.mp he
  obtain ⟨hdevid, htype, -⟩ := mem_events.mp he
  rw [hdevid]
  exact ⟨hi, htype⟩

end

/-! ## What a refresh does -/

namespace DeviceTree

/-- The list of the bus is that of the good nodes, and the handles are told of what is new. -/
structure Refreshed (r : TreeRefresh) (s s' : DeviceTree) : Prop where
  named : s'.Named
  misused : s'.misused = false
  same : ∀ i ∈ s.list, (s'.dev i).sysPath = (s.dev i).sysPath ∧ (s'.dev i).bus = (s.dev i).bus ∧
    (s'.dev i).cap = (s.dev i).cap
  old : ∀ i ∈ s.list, i ∈ s'.list ↔ ((s.dev i).bus = r.ibus → ∃ v ∈ s.kept r, (s.dev i).sysPath = v.2.fullPath)
  new : ∀ i ∈ s'.list, i ∉ s.list → s.curDeviceId ≤ i ∧ (s'.dev i).bus = r.ibus ∧
    ∃ v ∈ s.kept r, (s'.dev i).sysPath = v.2.fullPath ∧ (v.2.usbPortCount = [] ∨ (s'.dev i).cap = some v.2.nports)
  shown : ∀ v ∈ s.kept r, ∃ i ∈ s'.list, (s'.dev i).sysPath = v.2.fullPath
  ids : s.curDeviceId ≤ s'.curDeviceId
  told : ∀ handle, Hears handle r → ∀ i ∈ s'.list,
    told s'.queued handle i = if i ∈ s.list then told s.queued handle i else true

section

variable {s : DeviceTree} {r : TreeRefresh}

theorem refreshed (hs : s.Named) (hmisused : s.misused = false) (hposs : r.Possible s) (hkeeps : ∀ v ∈ s.visits r, s.Keeps v)
    (hruns : r.diInit = true ∧ r.diDevlinkInit = true) : Refreshed r s (s.solarisRefreshDevices r).2 := by
  have h := walked_placed hs hmisused hposs hkeeps
  rw [refresh_eq hruns h.toNamed]
  obtain ⟨n, hlist, hcur, -⟩ := h.added
  constructor
  · exact swept_named h
  · exact h.misused
  · exact fun i hi => h.kept i hi
  · intro i hi
    by_cases hbus : (s.dev i).bus = r.ibus
    · rw [forall_prop_of_true hbus]
      exact swept_survives h (mem_onBus.mpr ⟨hi, hbus⟩)
    · exact iff_of_true (swept_others h hposs hi hbus).1 fun hb => absurd hb hbus
  · intro i hi hnot
    have hwalked := (mem_swept.mp hi).1
    have hle := (Next.old_or_new h hwalked).resolve_left hnot
    obtain ⟨v, hv, hgood, hpath, hports⟩ := h.fresh_ports i hwalked hle
    exact ⟨hle, (h.fresh_marked i hwalked hle).2.1, v, mem_kept.mpr ⟨hv, hgood⟩, hpath, hports⟩
  · intro v hv
    obtain ⟨hv, hgood⟩ := mem_kept.mp hv
    obtain ⟨i, hi, hshows⟩ := h.shown v hv hgood
    exact ⟨i, (swept_marked.mpr ⟨hi, hshows.bus, hshows.found⟩).1, hshows.sysPath⟩
  · exact (Nat.le_add_right _ n).trans hcur.ge
  · intro handle hhears i hi
    rw [swept_events h hs]
    have hlast : ∀ e ∈ (s.list.filter fun i => i ∉ ((s.walked r).swept r).list).flatMap fun i => r.events i .remove,
        ¬ (e.handle = handle ∧ e.devid = i) := by
      rintro e he ⟨-, hdevid⟩
      have hgone := (List.mem_filter.mp (mem_flatMap_events he).1).2
      rw [hdevid] at hgone
      exact of_decide_eq_true hgone hi
    rw [told_append_other hlast]
    split_ifs with hold
    · refine told_append_other ?_
      rintro e he ⟨-, hdevid⟩
      have hfresh := (List.mem_filter.mp (mem_flatMap_events he).1).2
      rw [hdevid] at hfresh
      exact of_decide_eq_true hfresh hold
    · refine told_append_self ⟨⟨i, .attach, handle⟩, ?_, rfl, rfl⟩ fun e he _ _ => (mem_flatMap_events he).2
      refine List.mem_flatMap.mpr ⟨i, List.mem_filter.mpr ⟨hi, decide_eq_true hold⟩, ?_⟩
      exact mem_events.mpr ⟨rfl, rfl, hhears.mem, hhears.callback i .attach⟩

end

end DeviceTree

/-! ## What `set_device_udi` does -/

namespace HalState

section

variable {env : HalEnv} {s : HalState} {device : HalDevice} {i : ℕ} {udi : List UInt8}

/-- The device that an entry of HAL's list is about. -/
def about (s : HalState) (device : HalDevice) : Option ℕ := device.devfsPath.bind s.tree.findDeviceBySyspath

theorem setUdi_udi (hstrdup : ∀ udi, env.strdup udi = true) : (s.setUdi env device).udi i =
    (s.udi i).or (if s.about device = some i then some device.udi else none) := by
  unfold setUdi about
  cases hfind : device.devfsPath.bind s.tree.findDeviceBySyspath with
  | none =>
    rw [if_neg (Option.some_ne_none i).symm, Option.or_none]
  | some idev =>
    dsimp only
    rw [hstrdup, if_pos rfl]
    by_cases hi : idev = i
    · subst hi
      rw [if_pos rfl]
      split_ifs with hnone
      · rw [hnone, Option.none_or]
        exact Function.update_self _ _ _
      · obtain ⟨u, hu⟩ := Option.ne_none_iff_exists'.mp hnone
        rw [hu, Option.some_or]
    · rw [if_neg fun h => hi (Option.some_inj.mp h), Option.or_none]
      split_ifs
      · exact Function.update_of_ne (Ne.symm hi) _ _
      · rfl

theorem setUdi_tree : (s.setUdi env device).tree = s.tree := by
  unfold setUdi
  split
  · rfl
  · split_ifs <;> rfl

theorem foldl_setUdi (hstrdup : ∀ udi, env.strdup udi = true) (devices : List HalDevice) (s : HalState) :
    (devices.foldl (fun t device => t.setUdi env device) s).tree = s.tree ∧
      ∀ i, (devices.foldl (fun t device => t.setUdi env device) s).udi i =
        (s.udi i).or ((devices.find? fun device => s.about device = some i).map HalDevice.udi) := by
  induction devices generalizing s with
  | nil => exact ⟨rfl, fun i => Option.or_none.symm⟩
  | cons device devices ih =>
    obtain ⟨htree, hudi⟩ := ih (s.setUdi env device)
    rw [List.foldl_cons]
    refine ⟨htree.trans setUdi_tree, fun i => ?_⟩
    have habout (d : HalDevice) : (s.setUdi env device).about d = s.about d := by rw [about, about, setUdi_tree]
    rw [hudi, setUdi_udi hstrdup, Option.or_assoc]
    simp only [habout]
    by_cases hself : s.about device = some i
    · rw [if_pos hself, List.find?_cons_of_pos (by simpa using hself), Option.some_or, Option.map_some]
    · rw [if_neg hself, List.find?_cons_of_neg (by simpa using hself), Option.none_or]

end

end HalState

/-! ## The library beside the system -/

/-- The `children` of a device have room for the ports of its place. -/
def Naming.Room (n : Naming) (d : TreeDevice) : Prop :=
  n.ports d.sysPath = [] ∨ ∃ cap, d.cap = some cap ∧ toUInt8 ((n.ports d.sysPath).headD 0) ≤ cap

/-- The listed devices are on the buses of their places, and have room for their ports. -/
structure Housed (n : Naming) (t : DeviceTree) : Prop extends t.Named where
  misused : t.misused = false
  bus : ∀ i ∈ t.list, (t.dev i).bus = n.bus (t.dev i).sysPath
  room : ∀ i ∈ t.list, n.Room (t.dev i)

/-- Every listed device has its udi. -/
structure Known (n : Naming) (s : HalState) : Prop extends Housed n s.tree where
  udi : ∀ i ∈ s.tree.list, s.udi i = some (n.udi (s.tree.dev i).sysPath)
  unnamed : ∀ i, s.tree.curDeviceId ≤ i → s.udi i = none

/-- What the handle takes for attached. -/
def heard (n : Naming) (handle : ℕ) (s : HalState) : Set (List UInt8) :=
  { udi | ∃ i ∈ s.tree.list, n.udi (s.tree.dev i).sysPath = udi ∧ told s.tree.queued handle i = true }

/-- After the refresh of a bus: its devices are the attached ones, and the handle was told of those that are new. -/
structure Follows (handle : ℕ) (attached : List SystemDevice) (b : ℕ) (t t' : DeviceTree) : Prop where
  same : ∀ i ∈ t.list, (t'.dev i).sysPath = (t.dev i).sysPath
  old : ∀ i ∈ t.list, i ∈ t'.list ↔ ((t.dev i).bus = b → ∃ d ∈ attached, d.ibus = b ∧ (t.dev i).sysPath = d.fullPath)
  new : ∀ i ∈ t'.list, i ∉ t.list → t.curDeviceId ≤ i ∧ ∃ d ∈ attached, d.ibus = b ∧ (t'.dev i).sysPath = d.fullPath
  shown : ∀ d ∈ attached, d.ibus = b → ∃ i ∈ t'.list, (t'.dev i).sysPath = d.fullPath
  ids : t.curDeviceId ≤ t'.curDeviceId
  told : ∀ i ∈ t'.list, told t'.queued handle i = if i ∈ t.list then told t.queued handle i else true

section

variable {n : Naming} {handle b i idev : ℕ} {attached : List SystemDevice} {env : HalEnv} {t t' : DeviceTree} {s : HalState}
  {udi path : List UInt8} {d : SystemDevice}

theorem SystemDevice.fullPath_inj {d d' : SystemDevice} : d.fullPath = d'.fullPath ↔ d.path = d'.path :=
  List.append_right_inj devicesDir

/-- A device is found by its udi where it is attached. -/
theorem Naming.Names.eq_iff (h : n.Names d) : n.udi path = d.udi ↔ path = d.fullPath := by
  rw [← h.udi, n.injective.eq_iff]

/-- A refresh keeps to what is listed. -/
theorem ShowsBus.keeps (h : Housed n t) (hshows : ShowsBus n env attached t b) : ∀ v ∈ t.visits (env.refresh b), t.Keeps v := by
  intro v hv i hfind
  obtain ⟨hpasses, hports⟩ := hshows.checks v hv
  have hnode := hshows.possible.named v ((DeviceTree.visits_sublist t _).subset hv)
  obtain ⟨hmem, hpath⟩ := (h.find_iff hnode).mp hfind
  have hroom := h.room i hmem
  unfold Naming.Room at hroom
  rw [hpath, ← hports] at hroom
  exact ⟨hpasses, hroom⟩

theorem refresh_follows (h : Housed n t) (hnames : ∀ d ∈ attached, n.Names d) (hsees : Sees handle env attached)
    (hshows : ShowsBus n env attached t b) : Housed n (t.solarisRefreshDevices (env.refresh b)).2 ∧
      Follows handle attached b t (t.solarisRefreshDevices (env.refresh b)).2 := by
  have hr := DeviceTree.refreshed h.toNamed h.misused hshows.possible (hshows.keeps h) hsees.runs
  generalize (t.solarisRefreshDevices (env.refresh b)).2 = t' at hr
  have hkept (path : List UInt8) : (∃ v ∈ t.kept (env.refresh b), path = v.2.fullPath) ↔
      ∃ d ∈ attached, d.ibus = b ∧ path = d.fullPath := by
    constructor
    · rintro ⟨v, hv, rfl⟩
      obtain ⟨d, hd, hbus, hpath⟩ := (hshows.kept v.2.path).mp ⟨v, hv, rfl⟩
      exact ⟨d, hd, hbus, congrArg (devicesDir ++ ·) hpath.symm⟩
    · rintro ⟨d, hd, hbus, rfl⟩
      obtain ⟨v, hv, hpath⟩ := (hshows.kept d.path).mpr ⟨d, hd, hbus, rfl⟩
      exact ⟨v, hv, congrArg (devicesDir ++ ·) hpath.symm⟩
  refine ⟨⟨hr.named, hr.misused, fun i hi => ?_, fun i hi => ?_⟩, ⟨fun i hi => (hr.same i hi).1, fun i hi => ?_, fun i hi hnot => ?_,
    fun d hd hbus => ?_, hr.ids, hr.told handle (hsees.hears b)⟩⟩
  · by_cases hold : i ∈ t.list
    · obtain ⟨hpath, hbus, -⟩ := hr.same i hold
      rw [hpath, hbus]
      exact h.bus i hold
    · obtain ⟨-, hbus, v, hv, hshown, -⟩ := hr.new i hi hold
      obtain ⟨d, hd, hdbus, hpath⟩ := (hkept _).mp ⟨v, hv, hshown⟩
      rw [hbus, hpath, (hnames d hd).bus, hdbus]
      rfl
  · by_cases hold : i ∈ t.list
    · obtain ⟨hpath, -, hcap⟩ := hr.same i hold
      unfold Naming.Room
      rw [hpath, hcap]
      exact h.room i hold
    · obtain ⟨-, -, v, hv, hshown, hports⟩ := hr.new i hi hold
      unfold Naming.Room
      rw [hshown, ← (hshows.checks v (DeviceTree.mem_kept.mp hv).1).2]
      exact hports.imp_right fun hcap => ⟨_, hcap, le_rfl⟩
  · rw [hr.old i hi, hkept]
    exact Iff.rfl
  · obtain ⟨hle, -, v, hv, hshown, -⟩ := hr.new i hi hnot
    exact ⟨hle, (hkept _).mp ⟨v, hv, hshown⟩⟩
  · obtain ⟨v, hv, hpath⟩ := (hkept d.fullPath).mpr ⟨d, hd, hbus, rfl⟩
    obtain ⟨i, hi, hshown⟩ := hr.shown v hv
    exact ⟨i, hi, hshown.trans hpath.symm⟩

theorem setDeviceUdi_tree : (s.setDeviceUdi env).tree = s.tree := by
  unfold HalState.setDeviceUdi
  cases env.devices with
  | none => rfl
  | some devices =>
    dsimp only
    induction devices generalizing s with
    | nil => rfl
    | cons device devices ih => exact ih.trans HalState.setUdi_tree

/-- `set_device_udi` gives every listed device its udi, if those that have none are attached. -/
theorem setDeviceUdi_known (hsees : Sees handle env attached) (hnames : ∀ d ∈ attached, n.Names d) (h : Housed n s.tree)
    (hudi : ∀ i ∈ s.tree.list, s.udi i = some (n.udi (s.tree.dev i).sysPath) ∨
      s.udi i = none ∧ ∃ d ∈ attached, (s.tree.dev i).sysPath = d.fullPath)
    (hfresh : ∀ i, s.tree.curDeviceId ≤ i → s.udi i = none) : Known n (s.setDeviceUdi env) := by
  obtain ⟨devices, hdevices, hlisted, hothers⟩ := hsees.lists
  obtain ⟨-, hset⟩ := HalState.foldl_setUdi hsees.strdup devices s
  have hudi' (i : ℕ) : (s.setDeviceUdi env).udi i =
      (s.udi i).or ((devices.find? fun device => s.about device = some i).map HalDevice.udi) := by
    unfold HalState.setDeviceUdi
    rw [hdevices]
    exact hset i
  -- an entry of HAL's list is about the device that has its path
  have habout {i : ℕ} {device : HalDevice} (hdevice : device ∈ devices) : s.about device = some i ↔
      ∃ path, device.devfsPath = some path ∧ i ∈ s.tree.list ∧ (s.tree.dev i).sysPath = devicesDir ++ path := by
    unfold HalState.about
    rw [Option.bind_eq_some_iff]
    refine exists_congr fun path => and_congr_right fun hpath => ?_
    exact h.find_iff ((hothers device hdevice path hpath).1)
  have hnone {i : ℕ} (hi : i ∉ s.tree.list) : (devices.find? fun device => s.about device = some i) = none := by
    refine List.find?_eq_none.mpr fun device hdevice habt => ?_
    obtain ⟨path, -, hmem, -⟩ := (habout hdevice).mp (of_decide_eq_true habt)
    exact hi hmem
  refine ⟨?_, fun i hi => ?_, fun i hi => ?_⟩
  · rw [setDeviceUdi_tree]
    exact h
  · rw [setDeviceUdi_tree] at hi ⊢
    rw [hudi']
    rcases hudi i hi with hhas | ⟨hnot, d, hd, hpath⟩
    · rw [hhas, Option.some_or]
    · have hself : s.about ⟨d.udi, some d.path⟩ = some i := (habout (hlisted d hd)).mpr ⟨d.path, rfl, hi, hpath⟩
      have hsome : (devices.find? fun device => s.about device = some i).isSome :=
        List.find?_isSome.mpr ⟨_, hlisted d hd, decide_eq_true hself⟩
      obtain ⟨device, hfind⟩ := Option.isSome_iff_exists.mp hsome
      have hmem := List.mem_of_find?_eq_some hfind
      have htrue := List.find?_some hfind
      obtain ⟨path, hdev, -, hsys⟩ := (habout hmem).mp (of_decide_eq_true htrue)
      have hsame : d.path = path := List.append_cancel_left (hpath.symm.trans hsys)
      rw [hnot, Option.none_or, hfind, Option.map_some, (hothers device hmem path hdev).2 d hd hsame, hpath, (hnames d hd).udi]
  · rw [setDeviceUdi_tree] at hi
    have hunlisted : i ∉ s.tree.list := fun hmem => Nat.not_lt.mpr hi (h.fresh i hmem)
    rw [hudi', hfresh i hi, hnone hunlisted]
    rfl

theorem Known.find_iff (h : Known n s) : s.findDeviceByUdi udi = some i ↔
    i ∈ s.tree.list ∧ n.udi (s.tree.dev i).sysPath = udi := by
  have hhas {j : ℕ} (hj : j ∈ s.tree.list) : s.udi j = some udi ↔ n.udi (s.tree.dev j).sysPath = udi := by
    rw [h.udi j hj, Option.some_inj]
  unfold HalState.findDeviceByUdi
  constructor
  · intro hfind
    have hmem := List.mem_of_find?_eq_some hfind
    have htrue := List.find?_some hfind
    exact ⟨hmem, (hhas hmem).mp (of_decide_eq_true htrue)⟩
  · rintro ⟨hmem, hudi⟩
    have hsome : (s.tree.list.find? fun idev => s.udi idev = some udi).isSome :=
      List.find?_isSome.mpr ⟨i, hmem, decide_eq_true ((hhas hmem).mpr hudi)⟩
    obtain ⟨j, hfind⟩ := Option.isSome_iff_exists.mp hsome
    have hj := List.mem_of_find?_eq_some hfind
    have htrue := List.find?_some hfind
    have hpath := n.injective (((hhas hj).mp (of_decide_eq_true htrue)).trans hudi.symm)
    rw [hfind, h.eq_of_path hj hmem hpath]

/-- A device that is known is announced. -/
theorem Known.tell (h : Known n s) (type : EventType) : Known n (s.tell env idev type) :=
  ⟨⟨⟨h.fresh, h.paths, h.devices⟩, h.misused, h.bus, h.room⟩, h.udi, h.unnamed⟩

theorem told_tell (hsees : Sees handle env attached) (type : EventType) :
    told (s.tell env idev type).tree.queued handle i =
      if i = idev then decide (type = .attach) else told s.tree.queued handle i :=
  told_events (hsees.hears _)

theorem Known.heard_attach (h : Known n s) (hsees : Sees handle env attached) (hfind : s.findDeviceByUdi udi = some idev) :
    heard n handle (s.tell env idev .attach) = insert udi (heard n handle s) := by
  obtain ⟨hmem, hudi⟩ := h.find_iff.mp hfind
  ext x
  constructor
  · rintro ⟨i, hi, rfl, htold⟩
    rw [told_tell hsees] at htold
    by_cases heq : i = idev
    · subst heq
      exact .inl hudi
    · rw [if_neg heq] at htold
      exact .inr ⟨i, hi, rfl, htold⟩
  · rintro (rfl | ⟨i, hi, rfl, htold⟩)
    · exact ⟨idev, hmem, hudi, by rw [told_tell hsees, if_pos rfl]; rfl⟩
    · refine ⟨i, hi, rfl, ?_⟩
      rw [told_tell hsees]
      split_ifs
      · rfl
      · exact htold

theorem Known.heard_remove (h : Known n s) (hsees : Sees handle env attached) (hfind : s.findDeviceByUdi udi = some idev) :
    heard n handle (s.tell env idev .remove) = heard n handle s \ {udi} := by
  obtain ⟨hmem, hudi⟩ := h.find_iff.mp hfind
  ext x
  constructor
  · rintro ⟨i, hi, rfl, htold⟩
    rw [told_tell hsees] at htold
    have hne : i ≠ idev := by
      rintro rfl
      rw [if_pos rfl] at htold
      exact absurd htold (by decide)
    rw [if_neg hne] at htold
    refine ⟨⟨i, hi, rfl, htold⟩, fun hx => hne ?_⟩
    exact h.eq_of_path hi hmem (n.injective (hx.trans hudi.symm))
  · rintro ⟨⟨i, hi, rfl, htold⟩, hx⟩
    have hne : i ≠ idev := by
      rintro rfl
      exact hx hudi
    refine ⟨i, hi, rfl, ?_⟩
    rw [told_tell hsees, if_neg hne]
    exact htold

theorem deviceAdded_known (hfind : s.findDeviceByUdi udi = some idev) : s.deviceAdded env udi = s.tell env idev .attach := by
  unfold HalState.deviceAdded
  rw [hfind]

theorem deviceAdded_new (hfind : s.findDeviceByUdi udi = none) :
    s.deviceAdded env udi = (s.processNewDevice env).setDeviceUdi env := by
  unfold HalState.deviceAdded
  rw [hfind]

theorem Known.heard_unknown (h : Known n s) (hfind : s.findDeviceByUdi udi = none) : udi ∉ heard n handle s := by
  rintro ⟨i, hi, hudi, -⟩
  rw [h.find_iff.mpr ⟨hi, hudi⟩] at hfind
  cases hfind

/-- `process_new_device` refreshes the bus of the parent, if it finds that. -/
theorem process_cases (env : HalEnv) (s : HalState) :
    (∃ path parent pidev, env.props = ⟨some path, some usbDevice, some parent⟩ ∧ s.findDeviceByUdi parent = some pidev ∧
      s.processNewDevice env =
        { s with tree := (s.tree.solarisRefreshDevices (env.refresh (s.tree.dev pidev).bus)).2 }) ∨
    s.processNewDevice env = s ∧ ∀ path parent, env.props = ⟨some path, some usbDevice, some parent⟩ →
      s.findDeviceByUdi parent = none := by
  unfold HalState.processNewDevice
  split
  · rename_i path subsys parent hprops
    split_ifs with hsubsys
    · refine .inr ⟨rfl, fun path' parent' h => ?_⟩
      rw [hprops] at h
      cases h
      exact absurd rfl hsubsys
    · obtain rfl := not_not.mp hsubsys
      cases hfind : s.findDeviceByUdi parent with
      | none =>
        refine .inr ⟨rfl, fun path' parent' h => ?_⟩
        rw [hprops] at h
        cases h
        exact hfind
      | some pidev => exact .inl ⟨path, parent, pidev, hprops, hfind, rfl⟩
  · rename_i hprops
    exact .inr ⟨rfl, fun path parent h => absurd h (hprops path usbDevice parent)⟩

/-- What an event does whose device is not known. -/
theorem Known.added_new (h : Known n s) (hnames : ∀ d ∈ attached, n.Names d) (hsees : Sees handle env attached)
    (hshows : ∀ i ∈ s.tree.list, ShowsBus n env attached s.tree (s.tree.dev i).bus) (hnone : s.findDeviceByUdi udi = none) :
    Known n ((s.processNewDevice env).setDeviceUdi env) ∧
      (∀ x ∈ heard n handle ((s.processNewDevice env).setDeviceUdi env), x ∈ heard n handle s ∨ x ∈ udisOf attached) ∧
      (∀ x ∈ heard n handle s, x ∈ udisOf attached → x ∈ heard n handle ((s.processNewDevice env).setDeviceUdi env)) ∧
      ∀ d ∈ attached, d.udi = udi → ∀ path parent pidev, env.props = ⟨some path, some usbDevice, some parent⟩ →
        s.findDeviceByUdi parent = some pidev → (s.tree.dev pidev).bus = d.ibus →
          udi ∈ heard n handle ((s.processNewDevice env).setDeviceUdi env) := by
  rcases process_cases env s with ⟨path, parent, pidev, hprops, hfind, hprocess⟩ | ⟨hprocess, hnot⟩
  · have hp := (h.find_iff.mp hfind).1
    obtain ⟨hhoused, hfollows⟩ := refresh_follows h.toHoused hnames hsees (hshows pidev hp)
    rw [hprocess]
    generalize (s.tree.solarisRefreshDevices (env.refresh (s.tree.dev pidev).bus)).2 = t' at hhoused hfollows
    have hsame {i : ℕ} (hi : i ∈ s.tree.list) : (t'.dev i).sysPath = (s.tree.dev i).sysPath := hfollows.same i hi
    have hknown : Known n (HalState.setDeviceUdi env ⟨t', s.udi⟩) := by
      refine setDeviceUdi_known hsees hnames hhoused (fun i hi => ?_) fun i hi => h.unnamed i (hfollows.ids.trans hi)
      by_cases hold : i ∈ s.tree.list
      · exact .inl ((h.udi i hold).trans (congrArg (fun path => some (n.udi path)) (hsame hold).symm))
      · obtain ⟨hle, d, hd, -, hpath⟩ := hfollows.new i hi hold
        exact .inr ⟨h.unnamed i hle, d, hd, hpath⟩
    have hheard : heard n handle (HalState.setDeviceUdi env ⟨t', s.udi⟩) = heard n handle ⟨t', s.udi⟩ := by
      unfold heard
      rw [setDeviceUdi_tree]
    rw [hheard]
    refine ⟨hknown, ?_, ?_, ?_⟩
    · rintro x ⟨i, hi, rfl, htold⟩
      by_cases hold : i ∈ s.tree.list
      · rw [hfollows.told i hi, if_pos hold] at htold
        exact .inl ⟨i, hold, congrArg n.udi (hsame hold).symm, htold⟩
      · obtain ⟨-, d, hd, -, hpath⟩ := hfollows.new i hi hold
        exact .inr ⟨d, hd, ((hnames d hd).eq_iff.mpr hpath).symm⟩
    · rintro x ⟨i, hi, hx, htold⟩ ⟨d, hd, hdx⟩
      have hpath := (hnames d hd).eq_iff.mp (hx.trans hdx.symm)
      have hstays : i ∈ t'.list := by
        refine (hfollows.old i hi).mpr fun hbus => ⟨d, hd, ?_, hpath⟩
        rw [← (hnames d hd).bus, ← hpath, ← h.bus i hi, hbus]
      refine ⟨i, hstays, (congrArg n.udi (hsame hi)).trans hx, ?_⟩
      rw [hfollows.told i hstays, if_pos hi]
      exact htold
    · rintro d hd rfl path' parent' pidev' hprops' hfind' hbus
      rw [hprops] at hprops'
      cases hprops'
      obtain rfl := Option.some_inj.mp (hfind.symm.trans hfind')
      obtain ⟨i, hi, hpath⟩ := hfollows.shown d hd hbus.symm
      have hnew : i ∉ s.tree.list := fun hold => by
        have hudi := (hnames d hd).eq_iff.mpr ((hsame hold).symm.trans hpath)
        rw [h.find_iff.mpr ⟨hold, hudi⟩] at hnone
        cases hnone
      refine ⟨i, hi, (hnames d hd).eq_iff.mpr hpath, ?_⟩
      rw [hfollows.told i hi, if_neg hnew]
  · rw [hprocess]
    have hknown : Known n (s.setDeviceUdi env) :=
      setDeviceUdi_known hsees hnames h.toHoused (fun i hi => .inl (h.udi i hi)) h.unnamed
    have hheard : heard n handle (s.setDeviceUdi env) = heard n handle s := by
      unfold heard
      rw [setDeviceUdi_tree]
    rw [hheard]
    refine ⟨hknown, fun x hx => .inl hx, fun x hx _ => hx, fun d hd hudi path parent pidev hprops hfind => ?_⟩
    rw [hnot path parent hprops] at hfind
    cases hfind

end

/-! ## The system with events in flight -/

/-- What the steps keep: the library knows what it lists, hubs are there before their devices, on the queue too, and what the
handle takes for attached is so up to what is in flight. -/
structure HalInv (n : Naming) (handle : ℕ) (w : HalWorld) : Prop where
  known : Known n w.lib
  names : ∀ d ∈ w.attached, n.Names d
  feed : ∃ seen, replay seen w.pending = w.udis
  parents : ∀ d ∈ w.attached, ∀ p, d.parent = some p → ∃ hub ∈ w.attached, hub.udi = p ∧ hub.ibus = d.ibus
  roots : ∀ d ∈ w.attached, d.parent = none → .added d.udi ∉ w.pending
  order : ∀ d ∈ w.attached, ∀ p, d.parent = some p → Before p d.udi w.pending
  tracks : Tracks (heard n handle w.lib) w.udis w.pending

section

variable {n : Naming} {handle : ℕ} {w : HalWorld} {env : HalEnv} {d : SystemDevice} {udi : List UInt8}
  {rest : List (Change (List UInt8))}

theorem HalInv.attach (h : HalInv n handle w) (hfair : Fair n handle w (.attach d)) :
    HalInv n handle (w.exec (.attach d)) := by
  obtain ⟨hd, hnew, p, hp, hparent, hbus⟩ := hfair
  have hudis : (w.exec (.attach d)).udis = insert d.udi w.udis := by
    ext x
    constructor
    · rintro ⟨e, he, rfl⟩
      rcases List.mem_append.mp he with he | he
      · exact .inr ⟨e, he, rfl⟩
      · rw [List.mem_singleton.mp he]
        exact .inl rfl
    · rintro (rfl | ⟨e, he, rfl⟩)
      · exact ⟨d, List.mem_append_right _ List.mem_cons_self, rfl⟩
      · exact ⟨e, List.mem_append_left _ he, rfl⟩
  constructor
  · exact h.known
  · exact List.forall_mem_append.mpr ⟨h.names, List.forall_mem_singleton.mpr hd⟩
  · obtain ⟨seen, hseen⟩ := h.feed
    exact ⟨seen, by rw [hudis, ← hseen]; exact replay_append _⟩
  · intro e he q hq
    rcases List.mem_append.mp he with he | he
    · obtain ⟨hub, hhub, hrest⟩ := h.parents e he q hq
      exact ⟨hub, List.mem_append_left _ hhub, hrest⟩
    · rw [List.mem_singleton.mp he] at hq ⊢
      exact ⟨p, List.mem_append_left _ hp, Option.some_inj.mp (hparent.symm.trans hq), hbus⟩
  · intro e he hnone hmem
    rcases List.mem_append.mp he with he | he
    · rcases List.mem_append.mp hmem with hmem | hmem
      · exact h.roots e he hnone hmem
      · have hudi := Change.added.inj (List.mem_singleton.mp hmem)
        exact hnew ⟨e, he, hudi⟩
    · rw [List.mem_singleton.mp he, hparent] at hnone
      cases hnone
  · intro e he q hq
    have hhub : q ∈ w.udis := by
      rcases List.mem_append.mp he with he | he
      · obtain ⟨hub, hhub, hudi, -⟩ := h.parents e he q hq
        exact ⟨hub, hhub, hudi⟩
      · rw [List.mem_singleton.mp he] at hq
        exact ⟨p, hp, Option.some_inj.mp (hparent.symm.trans hq)⟩
    have hne : Change.added d.udi ≠ .added q := fun heq => hnew (Change.added.inj heq ▸ hhub)
    rcases List.mem_append.mp he with he | he
    · exact Before.concat (.inr (h.order e he q hq)) hne
    · exact Before.concat (.inl (by rw [List.mem_singleton.mp he])) hne
  · rw [hudis]
    exact h.tracks.plug

theorem HalInv.detach (h : HalInv n handle w) (hfair : Fair n handle w (.detach udi)) :
    HalInv n handle (w.exec (.detach udi)) := by
  have hmem {e : SystemDevice} : e ∈ (w.exec (.detach udi)).attached ↔ e ∈ w.attached ∧ e.udi ≠ udi := by
    show e ∈ w.attached.filter _ ↔ _
    rw [List.mem_filter, decide_eq_true_iff]
  have hudis : (w.exec (.detach udi)).udis = w.udis \ {udi} := by
    ext x
    constructor
    · rintro ⟨e, he, rfl⟩
      obtain ⟨he, hne⟩ := hmem.mp he
      exact ⟨⟨e, he, rfl⟩, hne⟩
    · rintro ⟨⟨e, he, rfl⟩, hne⟩
      exact ⟨e, hmem.mpr ⟨he, hne⟩, rfl⟩
  constructor
  · exact h.known
  · exact fun e he => h.names e (hmem.mp he).1
  · obtain ⟨seen, hseen⟩ := h.feed
    exact ⟨seen, by rw [hudis, ← hseen]; exact replay_append _⟩
  · intro e he q hq
    obtain ⟨hub, hhub, hudi, hbus⟩ := h.parents e (hmem.mp he).1 q hq
    refine ⟨hub, hmem.mpr ⟨hhub, fun heq => (hfair e (hmem.mp he).1).2 ?_⟩, hudi, hbus⟩
    rw [hq, ← hudi, heq]
  · intro e he hnone hadded
    rcases List.mem_append.mp hadded with hadded | hadded
    · exact h.roots e (hmem.mp he).1 hnone hadded
    · exact absurd (List.mem_singleton.mp hadded) nofun
  · exact fun e he q hq => Before.concat (.inr (h.order e (hmem.mp he).1 q hq)) nofun
  · rw [hudis]
    exact h.tracks.unplug

/-- A delivery leaves the system alone: what the library knows, and what the handle takes for attached, are shown for each. -/
theorem HalInv.deliver_of {c : Change (List UInt8)} {lib : HalState} (h : HalInv n handle w) (hpending : w.pending = c :: rest)
    (hknown : Known n lib) (htracks : Tracks (heard n handle lib) w.udis rest) :
    HalInv n handle ⟨w.attached, rest, lib⟩ where
  known := hknown
  names := h.names
  feed := by
    obtain ⟨seen, hseen⟩ := h.feed
    rw [hpending] at hseen
    exact ⟨c.apply seen, hseen⟩
  parents := h.parents
  roots e he hnone hadded := h.roots e he hnone (hpending ▸ List.mem_cons_of_mem _ hadded)
  order e he q hq := (hpending ▸ h.order e he q hq : Before q e.udi (c :: rest)).tail
  tracks := htracks

/-- A new device whose hub is not found is announced again. -/
theorem HalInv.added_again (h : HalInv n handle w) (hpending : w.pending = .added d.udi :: rest) (hd : d ∈ w.attached)
    {p : List UInt8} (hparent : d.parent = some p) (hnone : w.lib.findDeviceByUdi p = none) : .added d.udi ∈ rest := by
  obtain ⟨hub, hhub, rfl, -⟩ := h.parents d hd p hparent
  have horder := h.order d hd hub.udi hparent
  have htracks := (h.tracks.complete hub.udi ⟨hub, hhub, rfl⟩).resolve_left (h.known.heard_unknown hnone)
  rw [hpending] at horder htracks
  rcases List.mem_cons.mp htracks with heq | hmem
  · rw [← heq] at horder
    exact horder.head
  · exact horder.tail.mem hmem

theorem HalInv.deliver (h : HalInv n handle w) (hfair : Fair n handle w (.deliver env)) :
    HalInv n handle (w.exec (.deliver env)) := by
  obtain ⟨hsees, hshows, hprops⟩ := hfair
  obtain ⟨seen, hseen⟩ := h.feed
  have htracks := h.tracks
  unfold HalWorld.exec
  dsimp only
  cases hpending : w.pending with
  | nil => exact h
  | cons c rest =>
    rw [hpending] at hseen htracks
    cases c with
    | removed udi =>
      refine h.deliver_of hpending ?_ ?_
      · unfold HalState.deviceRemoved
        split
        · exact h.known.tell _
        · exact h.known
      · have hnext := htracks.removed hseen
        unfold HalState.deviceRemoved
        split
        · rename_i idev hfind
          rw [h.known.heard_remove hsees hfind]
          exact hnext
        · rename_i hfind
          rwa [Set.sdiff_singleton_eq_self (h.known.heard_unknown hfind)] at hnext
    | added udi =>
      dsimp only
      cases hfind : w.lib.findDeviceByUdi udi with
      | some idev =>
        rw [deviceAdded_known hfind]
        refine h.deliver_of hpending (h.known.tell _) ?_
        rw [h.known.heard_attach hsees hfind]
        exact htracks.added hseen
      | none =>
        rw [deviceAdded_new hfind]
        obtain ⟨hknown, hsound, hkept, hself⟩ := h.known.added_new h.names hsees hshows hfind
        refine h.deliver_of hpending hknown (htracks.look hsound hkept ?_)
        rintro ⟨d, hd, rfl⟩
        have hfound := hprops d hd (by rw [hpending]; rfl)
        cases hparent : d.parent with
        | none => exact absurd (hpending ▸ List.mem_cons_self) (h.roots d hd hparent)
        | some p =>
          rw [hparent] at hfound
          cases hhub : w.lib.findDeviceByUdi p with
          | none => exact .inr (h.added_again hpending hd hparent hhub)
          | some pidev =>
            obtain ⟨hub, hmem, rfl, hbus⟩ := h.parents d hd p hparent
            obtain ⟨hpidev, hudi⟩ := h.known.find_iff.mp hhub
            have hpath := (h.names hub hmem).eq_iff.mp hudi
            refine .inl (hself d hd rfl _ _ pidev hfound hhub ?_)
            rw [h.known.bus pidev hpidev, hpath, (h.names hub hmem).bus, hbus]

theorem HalInv.step {a : HalAct} (h : HalInv n handle w) (hfair : Fair n handle w a) : HalInv n handle (w.exec a) := by
  cases a with
  | attach d => exact h.attach hfair
  | detach udi => exact h.detach hfair
  | deliver env => exact h.deliver hfair

/-! ## The start -/

end

/-! ## A stick in a hub -/

def hubNode : DiNode := ⟨[0x2f, 0x68], [], [], [2]⟩

def stickNode (port : ℤ) : DiNode := ⟨[0x2f, 0x68, 0x2f, 0x73, port.toNat.toUInt8], [2], [port], []⟩

def hubDevice : SystemDevice := ⟨hubNode.fullPath, hubNode.path, 1, none⟩

def stickDevice (udi : List UInt8) (port : ℤ) : SystemDevice := ⟨udi, (stickNode port).path, 1, some hubDevice.udi⟩

/-- The hub, with a stick in a port or without, when HAL asks about the stick. -/
def stickEnv (udi : List UInt8) (port : Option ℤ) : HalEnv where
  props := ⟨port.map fun p => (stickNode p).path, some usbDevice, some hubDevice.udi⟩
  tree := fun _ => (hubNode, port.elim .nil fun p => .node (stickNode p) .nil .nil)
  devices := some (⟨hubDevice.udi, some hubDevice.path⟩ :: (port.map fun p => ⟨udi, some (stickNode p).path⟩).toList)
  handles := [1]

def hubAlone : HalState := startUp (stickEnv [] none) (fun _ => ⟨1, [], 0, none, 0, 0, none, fun _ => none, false⟩) [1]

/-- A stick with one udi that is moved to another port is announced at its old place. -/
example :
    let events := [HalAct.attach (stickDevice [7] 1), .deliver (stickEnv [7] (some 1)), .detach [7],
      .deliver (stickEnv [7] none), .attach (stickDevice [7] 2), .deliver (stickEnv [7] (some 2))]
    let w := events.foldl HalWorld.exec ⟨[hubDevice], [], hubAlone⟩
    w.pending = [] ∧ w.lib.tree.list = [1, 2] ∧ told w.lib.tree.queued 1 2 = true ∧
      (w.lib.tree.dev 2).sysPath = (stickNode 1).fullPath ∧ w.attached.map SystemDevice.path = [hubNode.path, (stickNode 2).path] := by
  decide

def stick : SystemDevice := stickDevice (stickNode 1).fullPath 1

end Solaris

end OpenUsb
