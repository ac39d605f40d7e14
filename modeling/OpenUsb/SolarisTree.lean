import OpenUsb.EndpointFiles
import OpenUsb.EventQueue
import OpenUsb.Lib.Forest
import Mathlib.Logic.Function.Basic

/-!
# SolarisTree — the device tree that a refresh reads on Solaris

`solaris_refresh_devices` walks the devinfo tree below the root hub of a bus.  A node that has the path of a listed device is
that device, and its data are written again; another one becomes a new device.  Devices that the walk does not come to are
removed afterwards.

* `setUpDevice_keeps`, `setUpDevice_wrong`: what `create_new_device` does with one node.
-/

namespace OpenUsb

namespace Solaris

/-! ## The devinfo tree -/

/-- A node: `di_devfs_path`, and what `di_prop_lookup_ints` finds of `assigned-address`, `reg` and `usb-port-count`. -/
structure DiNode where
  path : List UInt8
  assignedAddress : List ℤ
  reg : List ℤ
  usbPortCount : List ℤ
  deriving DecidableEq, Repr

/-- `"/devices"`. -/
def devicesDir : List UInt8 := [0x2f, 0x64, 0x65, 0x76, 0x69, 0x63, 0x65, 0x73]

/-- `snprintf(buf, size, "/devices%s", path)`. -/
def devicesPath (size : ℕ) (path : List UInt8) : List UInt8 := (devicesDir ++ path).take (size - 1)

/-- An `int` as a `uint8_t` and as an `unsigned int`. -/
def toUInt8 (n : ℤ) : ℕ := (n % 2 ^ 8).toNat

def toUInt32 (n : ℤ) : ℕ := (n % 2 ^ 32).toNat

/-! ## The devices -/

/-- `struct usbi_device`, as far as the tree goes: `cap` is for how many ports `children` was allocated. -/
structure TreeDevice where
  bus : ℕ
  sysPath : List UInt8
  devnum : ℕ
  parent : Option ℕ
  pport : ℕ
  nports : ℕ
  cap : Option ℕ
  children : ℕ → Option ℕ
  found : Bool

/-- The devices by their `devid`, the list of them, the roots of the buses, the next `devid`, and what was put on the queue of
the event thread.  `misused` says that a listed device was freed in `create_new_device`, or an array of children overrun. -/
structure DeviceTree where
  dev : ℕ → TreeDevice
  list : List ℕ
  root : ℕ → Option ℕ
  curDeviceId : ℕ
  queued : List Event
  misused : Bool

/-- A call of `solaris_refresh_devices` for a bus: the two calls before the walk, the root node with the nodes below it, the
library handles, and which allocations are made: those of a device with its private data, of its `children`, and of
`usbi_add_event_callback`. -/
structure TreeRefresh where
  ibus : ℕ
  diInit : Bool := true
  diDevlinkInit : Bool := true
  rootNode : DiNode
  below : Forest DiNode
  handles : List ℕ
  alloc : DiNode → Bool := fun _ => true
  allocChildren : DiNode → Bool := fun _ => true
  callback : ℕ → ℕ → EventType → Bool := fun _ _ _ => true

/-- What `usbi_add_event_callback` puts on the queue for the library handles. -/
def TreeRefresh.events (r : TreeRefresh) (devid : ℕ) (type : EventType) : List Event :=
  (r.handles.filter fun handle => r.callback handle devid type).map fun handle => ⟨devid, type, handle⟩

namespace DeviceTree

section

variable (s : DeviceTree) (r : TreeRefresh) (pdev : Option ℕ) (idev : ℕ) (node : DiNode)

def setDev (d : TreeDevice) : DeviceTree := { s with dev := Function.update s.dev idev d }

/-- `find_device_by_syspath`. -/
def findDeviceBySyspath (path : List UInt8) : Option ℕ :=
  s.list.find? fun idev => (s.dev idev).sysPath = path ∨ (s.dev idev).sysPath = devicesPath PATH_MAX path

/-- `usbi_add_device`. -/
def usbiAddDevice : DeviceTree :=
  { s with list := s.list ++ [s.curDeviceId], curDeviceId := s.curDeviceId + 1,
           queued := s.queued ++ r.events s.curDeviceId .attach }

/-- `free(idev)` in an error branch, `tmpdev` being what `find_device_by_syspath` returned. -/
def free (tmpdev : Option ℕ) : DeviceTree := { s with misused := s.misused || tmpdev.isSome }

/-- What `memset` leaves of a new device. -/
def zeroed : TreeDevice := ⟨r.ibus, [], 0, none, 0, 0, none, fun _ => none, false⟩

/-- The root gets its number; another node gets `parent` and `pport`, when its address and its port are valid. -/
def setPlace (d : TreeDevice) : Option TreeDevice :=
  match pdev with
  | none => some { d with devnum := 1, parent := none, found := true }
  | some p =>
    match node.assignedAddress, node.reg with
    | [addr], [port] =>
      if addr = 0 then none
      else if port > (s.dev p).nports ∨ port ≤ 0 then none
      else some { d with devnum := toUInt32 addr, parent := some p, pport := toUInt8 port }
    | _, _ => none

/-- The number of ports, and `children`: what the device has, or a new array.  The array is cleared. -/
def setPorts (tmpdev : Option ℕ) (d : TreeDevice) : Option TreeDevice :=
  match node.usbPortCount with
  | [] => some { d with nports := 0 }
  | [n] =>
    let cap := if tmpdev.isSome then d.cap else if r.allocChildren node = true then some (toUInt8 n) else none
    if cap = none then none
    else some { d with nports := toUInt8 n, cap := cap, children := fun i => if i < toUInt8 n then none else d.children i }
  | _ => none

/-- Does `memset` write past the array? -/
def overruns (d : TreeDevice) : Bool := d.nports > d.cap.getD 0

/-- `pdev->children[*port_prop-1] = idev`, or `ibus->root = idev`. -/
def link (d : TreeDevice) : DeviceTree :=
  match pdev with
  | none => { s with root := Function.update s.root r.ibus (some idev) }
  | some p => s.setDev p { s.dev p with children := Function.update (s.dev p).children (d.pport - 1) (some idev) }

/-- `create_new_device` up to the loop over the children; the device is returned that has been set up. -/
def setUpDevice : Option ℕ × DeviceTree :=
  let tmpdev := s.findDeviceBySyspath node.path
  if tmpdev = none ∧ r.alloc node = false then (none, s)
  else
    let idev := tmpdev.getD s.curDeviceId
    let d := if tmpdev.isSome then s.dev idev else zeroed r
    match s.setPlace pdev node d with
    | none => (none, s.free tmpdev)
    | some d =>
      match setPorts r node tmpdev d with
      | none => (none, s.free tmpdev)
      | some d =>
        let t := { s with misused := s.misused || overruns d }
        let t := t.setDev idev { d with sysPath := devicesPath (PATH_MAX + 1) node.path, found := true }
        let t := t.link r pdev idev d
        (some idev, if tmpdev.isSome then t else t.usbiAddDevice r)

/-- Where the loop over the children gets to: `idev` is their `pdev`, if it has ports. -/
def visitNode (pdev : Option ℕ) (node : DiNode) (s : DeviceTree) : Option (Option ℕ) × DeviceTree :=
  match s.setUpDevice r pdev node with
  | (none, t) => (none, t)
  | (some idev, t) => (if (t.dev idev).nports ≠ 0 then some (some idev) else none, t)

/-- `create_new_device` for a node and for its siblings. -/
def createNewDevice (nodes : Forest DiNode) : DeviceTree := nodes.walk (visitNode r) pdev s

/-- `usbi_remove_device`. -/
def usbiRemoveDevice : DeviceTree :=
  { s with list := s.list.erase idev, queued := s.queued ++ r.events idev .remove }

/-- A round of the last loop. -/
def sweep : DeviceTree := if (s.dev idev).found = true then s else s.usbiRemoveDevice r idev

/-- The list of a bus. -/
def onBus (ibus : ℕ) : List ℕ := s.list.filter fun idev => (s.dev idev).bus = ibus

/-- The first loop. -/
def resetFound : DeviceTree :=
  { s with dev := fun idev => if idev ∈ s.onBus r.ibus then { s.dev idev with found := false } else s.dev idev }

/-- The walk of a refresh: the root node is visited without its siblings. -/
def walked : DeviceTree := (s.resetFound r).createNewDevice r none (.node r.rootNode r.below .nil)

/-- `solaris_refresh_devices`. -/
def solarisRefreshDevices : ℤ × DeviceTree :=
  if r.diInit = false then (OPENUSB_PLATFORM_FAILURE, s)
  else if r.diDevlinkInit = false then (OPENUSB_PLATFORM_FAILURE, s)
  else (OPENUSB_SUCCESS, ((s.walked r).onBus r.ibus).foldl (fun t idev => t.sweep r idev) (s.walked r))

end

end DeviceTree

/-! ## What a visit asks for -/

namespace DiNode

variable (node : DiNode)

def fullPath : List UInt8 := devicesDir ++ node.path

def devnum : ℕ := toUInt32 (node.assignedAddress.headD 0)

def pport : ℕ := toUInt8 (node.reg.headD 0)

def nports : ℕ := toUInt8 (node.usbPortCount.headD 0)

/-- The node has an address, and a port of a hub with `ports` ports. -/
def hasPlace (ports : ℕ) : Bool :=
  match node.assignedAddress, node.reg with
  | [addr], [port] => addr ≠ 0 ∧ 0 < port ∧ port ≤ ports
  | _, _ => false

/-- The path is that of a node, and `"/devices"` fits before it. -/
def Named : Prop := (devicesDir ++ node.path).length < PATH_MAX ∧ ¬ devicesDir <+: node.path

theorem fullPath_inj {a b : DiNode} : a.fullPath = b.fullPath ↔ a.path = b.path := List.append_right_inj devicesDir

theorem Named.devicesPath {node : DiNode} (h : node.Named) : devicesPath PATH_MAX node.path = node.fullPath :=
  List.take_of_length_le (Nat.le_sub_one_of_lt h.1)

theorem Named.sysPath {node : DiNode} (h : node.Named) : Solaris.devicesPath (PATH_MAX + 1) node.path = node.fullPath :=
  List.take_of_length_le (Nat.le_of_lt h.1)

end DiNode

/-- A node passes the checks of `create_new_device`, below its parent if it has one. -/
def passes (v : Option DiNode × DiNode) : Bool :=
  (match v.1 with
    | none => true
    | some p => v.2.hasPlace p.nports) && v.2.usbPortCount.length ≤ 1

/-- A node of a device that is not listed gets memory. -/
def TreeRefresh.allocated (r : TreeRefresh) (node : DiNode) : Bool :=
  r.alloc node && (node.usbPortCount = [] || r.allocChildren node)

namespace DeviceTree

section

variable (s : DeviceTree) (r : TreeRefresh) (v : Option DiNode × DiNode)

/-- The visit leaves a device in the list. -/
def good : Bool := passes v && ((s.findDeviceBySyspath v.2.path).isSome || r.allocated v.2)

/-- The nodes below it are visited. -/
def enters : Bool := s.good r v && v.2.nports ≠ 0

/-- All visits of a refresh, and those that leave a device. -/
def visits : List (Option DiNode × DiNode) := (Forest.node r.rootNode r.below .nil).visits (s.enters r) none

def kept : List (Option DiNode × DiNode) := (s.visits r).filter (s.good r)

/-- A device that is listed already passes the checks, and the ports it has now fit into its `children`. -/
def Keeps : Prop := ∀ idev, s.findDeviceBySyspath v.2.path = some idev →
  passes v = true ∧ (v.2.usbPortCount = [] ∨ ∃ cap, (s.dev idev).cap = some cap ∧ v.2.nports ≤ cap)

end

section

variable {s t : DeviceTree} {r : TreeRefresh} {pdev tmpdev : Option ℕ} {idev p ports : ℕ} {node : DiNode} {d : TreeDevice}
  {path : List UInt8} {v : Option DiNode × DiNode}

/-- What the lists keep: the ids are given in order, the paths are all different and begin with `"/devices"`. -/
structure Named (s : DeviceTree) : Prop where
  fresh : ∀ idev ∈ s.list, idev < s.curDeviceId
  paths : (s.list.map fun idev => (s.dev idev).sysPath).Nodup
  devices : ∀ idev ∈ s.list, devicesDir <+: (s.dev idev).sysPath

theorem Named.eq_of_path (h : s.Named) {a b : ℕ} (ha : a ∈ s.list) (hb : b ∈ s.list)
    (hpath : (s.dev a).sysPath = (s.dev b).sysPath) : a = b :=
  List.inj_on_of_nodup_map h.paths ha hb hpath

theorem Named.find_iff (h : s.Named) (hnode : node.Named) :
    s.findDeviceBySyspath node.path = some idev ↔ idev ∈ s.list ∧ (s.dev idev).sysPath = node.fullPath := by
  have htest : ∀ i ∈ s.list, ((s.dev i).sysPath = node.path ∨ (s.dev i).sysPath = devicesPath PATH_MAX node.path) ↔
      (s.dev i).sysPath = node.fullPath := by
    intro i hi
    rw [hnode.devicesPath]
    exact or_iff_right fun hsame => hnode.2 (hsame ▸ h.devices i hi)
  constructor
  · intro hfind
    have hmem := List.mem_of_find?_eq_some hfind
    have htrue := List.find?_some hfind
    exact ⟨hmem, (htest idev hmem).mp (of_decide_eq_true htrue)⟩
  · rintro ⟨hmem, hpath⟩
    have hsome : (s.findDeviceBySyspath node.path).isSome := by
      refine List.find?_isSome.mpr ⟨idev, hmem, ?_⟩
      exact decide_eq_true ((htest idev hmem).mpr hpath)
    obtain ⟨other, hother⟩ := Option.isSome_iff_exists.mp hsome
    have hlisted := List.mem_of_find?_eq_some hother
    have htrue := List.find?_some hother
    have hfull := (htest other hlisted).mp (of_decide_eq_true htrue)
    rw [hother, h.eq_of_path hlisted hmem (hfull.trans hpath.symm)]

/-! ## One visit -/

/-- The device that a node gets. -/
def ident (s : DeviceTree) (node : DiNode) : ℕ := (s.findDeviceBySyspath node.path).getD s.curDeviceId

/-- What is written of the device. -/
def entry (s : DeviceTree) (r : TreeRefresh) (pdev : Option ℕ) (node : DiNode) : TreeDevice :=
  let known := (s.findDeviceBySyspath node.path).isSome
  let d := if known then s.dev (s.ident node) else zeroed r
  { bus := d.bus
    sysPath := node.fullPath
    devnum := if pdev.isSome then node.devnum else 1
    parent := pdev
    pport := if pdev.isSome then node.pport else d.pport
    nports := node.nports
    cap := if known ∨ node.usbPortCount = [] then d.cap else some node.nports
    children := fun i => if i < node.nports then none else d.children i
    found := true }

/-- What a visit leaves that ends well. -/
def place (s : DeviceTree) (r : TreeRefresh) (pdev : Option ℕ) (node : DiNode) : DeviceTree :=
  let t := (s.setDev (s.ident node) (s.entry r pdev node)).link r pdev (s.ident node) (s.entry r pdev node)
  if (s.findDeviceBySyspath node.path).isSome then t else t.usbiAddDevice r

theorem setPlace_some (hports : (s.dev p).nports = ports) : s.setPlace (some p) node d =
    if node.hasPlace ports = true then some { d with devnum := node.devnum, parent := some p, pport := node.pport }
    else none := by
  unfold setPlace DiNode.hasPlace DiNode.devnum DiNode.pport
  subst hports
  dsimp only
  split
  · next addr port haddr hport =>
    by_cases hzero : addr = 0
    · rw [if_pos hzero, if_neg (by simp [hzero])]
    · rw [if_neg hzero]
      by_cases hrange : port > (s.dev p).nports ∨ port ≤ 0
      · rw [if_pos hrange, if_neg (by simp only [decide_eq_true_eq]; omega)]
      · rw [if_neg hrange, if_pos (by simp only [decide_eq_true_eq]; omega), haddr, hport]
        rfl
  · rfl

/-- `pdev` is the device of a parent, with the ports of the parent. -/
def Below (s : DeviceTree) (parent : Option DiNode) (pdev : Option ℕ) : Prop :=
  match parent with
  | none => pdev = none
  | some node => ∃ p, pdev = some p ∧ (s.dev p).nports = node.nports

theorem setPlace_eq (hbelow : s.Below v.1 pdev) : s.setPlace pdev v.2 d =
      if (match v.1 with | none => true | some p => v.2.hasPlace p.nports) = true then
        some { d with devnum := if pdev.isSome then v.2.devnum else 1
                      parent := pdev
                      pport := if pdev.isSome then v.2.pport else d.pport
                      found := if pdev.isSome then d.found else true }
      else none := by
  obtain ⟨parent, node⟩ := v
  cases parent with
  | none =>
    obtain rfl : pdev = none := hbelow
    rfl
  | some parent =>
    obtain ⟨p, rfl, hports⟩ := hbelow
    exact setPlace_some hports

theorem setPorts_new : setPorts r node none d =
    if node.usbPortCount.length ≤ 1 ∧ (node.usbPortCount = [] ∨ r.allocChildren node = true) then
      some { d with nports := node.nports
                    cap := if node.usbPortCount = [] then d.cap else some node.nports
                    children := fun i => if i < node.nports then none else d.children i }
    else none := by
  unfold setPorts DiNode.nports
  match node.usbPortCount with
  | [] => simp [toUInt8]
  | [n] => cases r.allocChildren node <;> simp
  | _ :: _ :: _ => simp

theorem setPorts_known : setPorts r node (some idev) d =
    if node.usbPortCount.length ≤ 1 ∧ (node.usbPortCount = [] ∨ d.cap ≠ none) then
      some { d with nports := node.nports
                    children := fun i => if i < node.nports then none else d.children i }
    else none := by
  unfold setPorts DiNode.nports
  match node.usbPortCount with
  | [] => simp [toUInt8]
  | [n] => cases d.cap <;> simp
  | _ :: _ :: _ => simp

theorem passes_iff : passes v = true ↔ (match v.1 with | none => true | some p => v.2.hasPlace p.nports) = true ∧
    v.2.usbPortCount.length ≤ 1 := by
  unfold passes
  rw [Bool.and_eq_true, decide_eq_true_iff]

theorem nports_of_nil (h : node.usbPortCount = []) : node.nports = 0 := by
  unfold DiNode.nports
  rw [h]
  rfl

theorem entry_new (hfind : s.findDeviceBySyspath node.path = none) : overruns (s.entry r pdev node) = false := by
  refine decide_eq_false (not_lt.mpr ?_)
  show node.nports ≤ (s.entry r pdev node).cap.getD 0
  unfold entry
  rw [hfind]
  dsimp only
  by_cases hports : node.usbPortCount = []
  · rw [nports_of_nil hports]
    exact Nat.zero_le _
  · rw [if_neg (by simp [hports])]
    exact le_rfl

/-- `create_new_device` for a node that is not listed. -/
theorem setUpDevice_new (hnamed : v.2.Named) (hbelow : s.Below v.1 pdev) (hfind : s.findDeviceBySyspath v.2.path = none) :
    s.setUpDevice r pdev v.2 =
      if passes v = true ∧ r.allocated v.2 = true then (some (s.ident v.2), s.place r pdev v.2) else (none, s) := by
  have hallocated : r.allocated v.2 = true ↔ r.alloc v.2 = true ∧ (v.2.usbPortCount = [] ∨ r.allocChildren v.2 = true) := by
    unfold TreeRefresh.allocated
    rw [Bool.and_eq_true, Bool.or_eq_true, decide_eq_true_iff]
  have hfree : s.free none = s := by
    unfold free
    rw [Option.isSome_none, Bool.or_false]
  unfold setUpDevice
  rw [hfind]
  dsimp only
  by_cases halloc : r.alloc v.2 = false
  · rw [if_pos ⟨rfl, halloc⟩, if_neg fun h => Bool.false_ne_true (halloc.symm.trans (hallocated.mp h.2).1)]
  rw [if_neg fun h => halloc h.2, setPlace_eq hbelow]
  by_cases hplace : (match v.1 with | none => true | some p => v.2.hasPlace p.nports) = true
  · rw [if_pos hplace]
    dsimp only
    rw [setPorts_new]
    by_cases hports : v.2.usbPortCount.length ≤ 1 ∧ (v.2.usbPortCount = [] ∨ r.allocChildren v.2 = true)
    · have hall : passes v = true ∧ r.allocated v.2 = true :=
        ⟨passes_iff.mpr ⟨hplace, hports.1⟩, hallocated.mpr ⟨Bool.eq_true_of_not_eq_false halloc, hports.2⟩⟩
      have hsame : s.place r pdev v.2 =
          ({ s with misused := s.misused || overruns (s.entry r pdev v.2) } : DeviceTree).place r pdev v.2 := by
        rw [entry_new hfind, Bool.or_false]
      rw [if_pos hports, if_pos hall, hnamed.sysPath, hsame]
      unfold place entry ident
      unfold findDeviceBySyspath at hfind ⊢
      simp only [hfind, Option.isSome_none, Bool.false_eq_true, if_false, false_or]
      rfl
    · have hnot : ¬ (passes v = true ∧ r.allocated v.2 = true) :=
        fun h => hports ⟨(passes_iff.mp h.1).2, (hallocated.mp h.2).2⟩
      rw [if_neg hports, if_neg hnot]
      exact congrArg (Prod.mk none) hfree
  · rw [if_neg hplace, if_neg fun h => hplace (passes_iff.mp h.1).1]
    exact congrArg (Prod.mk none) hfree

/-- And for a node that is. -/
theorem setUpDevice_known (hnamed : v.2.Named) (hbelow : s.Below v.1 pdev)
    (hfind : s.findDeviceBySyspath v.2.path = some idev) : s.setUpDevice r pdev v.2 =
      if passes v = true ∧ (v.2.usbPortCount = [] ∨ (s.dev idev).cap ≠ none) then
        (some (s.ident v.2),
          ({ s with misused := s.misused || overruns (s.entry r pdev v.2) } : DeviceTree).place r pdev v.2)
      else (none, s.free (some idev)) := by
  unfold setUpDevice
  simp only [hfind, Option.isSome_some, if_true, Option.getD_some]
  rw [if_neg fun h => Option.some_ne_none _ h.1, setPlace_eq hbelow]
  by_cases hplace : (match v.1 with | none => true | some p => v.2.hasPlace p.nports) = true
  · rw [if_pos hplace]
    dsimp only
    rw [setPorts_known]
    by_cases hports : v.2.usbPortCount.length ≤ 1 ∧ (v.2.usbPortCount = [] ∨ (s.dev idev).cap ≠ none)
    · have hall : passes v = true ∧ (v.2.usbPortCount = [] ∨ (s.dev idev).cap ≠ none) :=
        ⟨passes_iff.mpr ⟨hplace, hports.1⟩, hports.2⟩
      rw [if_pos hall, if_pos hports, hnamed.sysPath]
      unfold place entry ident
      unfold findDeviceBySyspath at hfind ⊢
      simp only [hfind, Option.isSome_some, if_true, true_or, Option.getD_some]
      rfl
    · have hnot : ¬ (passes v = true ∧ (v.2.usbPortCount = [] ∨ (s.dev idev).cap ≠ none)) :=
        fun h => hports ⟨(passes_iff.mp h.1).2, h.2⟩
      rw [if_neg hnot, if_neg hports]
  · rw [if_neg hplace, if_neg fun h => hplace (passes_iff.mp h.1).1]

/-- The array of children is not overrun by a visit that keeps to what is listed. -/
theorem Keeps.fits (h : s.Keeps v) (hfind : s.findDeviceBySyspath v.2.path = some idev) :
    overruns (s.entry r pdev v.2) = false := by
  refine decide_eq_false (not_lt.mpr ?_)
  show v.2.nports ≤ (s.entry r pdev v.2).cap.getD 0
  rcases (h idev hfind).2 with hports | ⟨cap, hcap, hle⟩
  · rw [nports_of_nil hports]
    exact Nat.zero_le _
  · unfold entry ident
    simp only [hfind, Option.isSome_some, true_or, if_true, Option.getD_some, hcap]
    exact hle

/-- A visit that keeps to what is listed does what `place` does, or nothing if its node is no good. -/
theorem setUpDevice_keeps (hnamed : v.2.Named) (hbelow : s.Below v.1 pdev) (hkeeps : s.Keeps v) : s.setUpDevice r pdev v.2 =
    if s.good r v = true then (some (s.ident v.2), s.place r pdev v.2) else (none, s) := by
  unfold good
  cases hfind : s.findDeviceBySyspath v.2.path with
  | none =>
    rw [setUpDevice_new hnamed hbelow hfind, Option.isSome_none, Bool.false_or]
    exact if_congr Bool.and_eq_true_iff.symm rfl rfl
  | some idev =>
    obtain ⟨hpasses, hports⟩ := hkeeps idev hfind
    have hcap : v.2.usbPortCount = [] ∨ (s.dev idev).cap ≠ none :=
      hports.imp_right fun ⟨cap, hcap, _⟩ => hcap ▸ Option.some_ne_none cap
    rw [setUpDevice_known hnamed hbelow hfind, if_pos ⟨hpasses, hcap⟩, hkeeps.fits hfind, Bool.or_false, hpasses,
      Option.isSome_some, Bool.true_or]
    rfl

theorem link_misused : (s.link r pdev idev d).misused = s.misused := by
  unfold link
  cases pdev <;> rfl

theorem place_misused : (s.place r pdev node).misused = s.misused := by
  unfold place
  dsimp only
  split_ifs
  · exact link_misused
  · exact link_misused

/-- A visit that does not keep to what is listed goes wrong. -/
theorem setUpDevice_wrong (hnamed : v.2.Named) (hbelow : s.Below v.1 pdev) (hkeeps : ¬ s.Keeps v) :
    (s.setUpDevice r pdev v.2).2.misused = true := by
  unfold Keeps at hkeeps
  push Not at hkeeps
  obtain ⟨idev, hfind, hnot⟩ := hkeeps
  rw [setUpDevice_known hnamed hbelow hfind]
  split_ifs with hall
  · obtain ⟨hports, hcap⟩ := hnot hall.1
    have hover : overruns (s.entry r pdev v.2) = true := by
      refine decide_eq_true ?_
      show v.2.nports > (s.entry r pdev v.2).cap.getD 0
      unfold entry ident
      simp only [hfind, Option.isSome_some, true_or, if_true, Option.getD_some]
      cases hc : (s.dev idev).cap with
      | none => exact absurd hc (hall.2.resolve_left hports)
      | some cap => exact hcap cap hc
    show (DeviceTree.place _ r pdev v.2).misused = true
    rw [place_misused]
    show (s.misused || overruns (s.entry r pdev v.2)) = true
    rw [hover, Bool.or_true]
  · exact Bool.or_true _

theorem setUpDevice_misused (h : s.misused = true) : (s.setUpDevice r pdev node).2.misused = true := by
  have hor (b : Bool) : (s.misused || b) = true := by rw [h, Bool.true_or]
  unfold setUpDevice
  dsimp only
  by_cases halloc : s.findDeviceBySyspath node.path = none ∧ r.alloc node = false
  · rw [if_pos halloc]
    exact h
  · rw [if_neg halloc]
    cases s.setPlace pdev node _ with
    | none => exact hor _
    | some d =>
      dsimp only
      cases setPorts r node _ d with
      | none => exact hor _
      | some d =>
        dsimp only
        split_ifs
        · exact link_misused.trans (hor _)
        · exact link_misused.trans (hor _)

end

end DeviceTree

end Solaris

end OpenUsb
