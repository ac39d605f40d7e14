import OpenUsb.SolarisTree
import OpenUsb.Lib.Runs
import Mathlib.Tactic.Common

/-!
# SolarisRefresh — `solaris_refresh_devices`

* `Next.place`: what one visit of the walk keeps.
* `walked_iff`: the walks that leave the memory of the devices alone.
* `tree_mirrored_iff`: after which refreshes the list of the bus mirrors the devinfo tree.
-/

namespace OpenUsb

namespace Solaris

/-! ## What a refresh is for -/

namespace DeviceTree

/-- The device of a visit: it has the data of the node, and is the root of the bus or belongs to the device of its parent. -/
structure Shows (s : DeviceTree) (ibus : ℕ) (v : Option DiNode × DiNode) (idev : ℕ) : Prop where
  sysPath : (s.dev idev).sysPath = v.2.fullPath
  bus : (s.dev idev).bus = ibus
  found : (s.dev idev).found = true
  nports : (s.dev idev).nports = v.2.nports
  devnum : (s.dev idev).devnum = if v.1.isSome then v.2.devnum else 1
  root : v.1 = none → (s.dev idev).parent = none ∧ s.root ibus = some idev
  parent : ∀ node ∈ v.1, (s.dev idev).pport = v.2.pport ∧ ∃ p ∈ s.list, (s.dev idev).parent = some p ∧
    (s.dev p).sysPath = node.fullPath ∧ (s.dev p).bus = ibus ∧ (s.dev p).found = true

/-- The device is on the bus, and marked. -/
def Marked (s : DeviceTree) (ibus idev : ℕ) : Prop :=
  idev ∈ s.list ∧ (s.dev idev).bus = ibus ∧ (s.dev idev).found = true

/-- A port names the device that has it as its own, and no other does. -/
def Linked (s : DeviceTree) (ibus idev : ℕ) : Prop :=
  ∀ i < (s.dev idev).nports, ∀ c, (s.dev idev).children i = some c ↔
    s.Marked ibus c ∧ (s.dev c).parent = some idev ∧ (s.dev c).pport = i + 1

/-- The list of the bus shows the nodes that are good, each once.  The devices that are still there keep their ids, those of
other buses are left alone, and the handles are told what is new and what has gone. -/
structure Mirrors (r : TreeRefresh) (s s' : DeviceTree) : Prop where
  listed : ((s'.onBus r.ibus).map fun idev => (s'.dev idev).sysPath).Perm ((s.kept r).map fun v => v.2.fullPath)
  shown : ∀ v ∈ s.kept r, ∃ idev ∈ s'.onBus r.ibus, s'.Shows r.ibus v idev
  linked : ∀ idev ∈ s'.onBus r.ibus, s'.Linked r.ibus idev
  survivors : ∀ idev ∈ s.onBus r.ibus, (s'.dev idev).sysPath = (s.dev idev).sysPath ∧
    (idev ∈ s'.list ↔ ∃ v ∈ s.kept r, (s.dev idev).sysPath = v.2.fullPath)
  others : ∀ idev ∈ s.list, (s.dev idev).bus ≠ r.ibus → idev ∈ s'.list ∧ s'.dev idev = s.dev idev
  events : s'.queued = s.queued ++ (s'.list.filter fun idev => idev ∉ s.list).flatMap (fun idev => r.events idev .attach) ++
    (s.list.filter fun idev => idev ∉ s'.list).flatMap fun idev => r.events idev .remove

/-- What the walk has made of the start after the visits `done`. -/
structure Placed (s₀ : DeviceTree) (r : TreeRefresh) (done : List (Option DiNode × DiNode)) (s : DeviceTree) : Prop
    extends s.Named where
  misused : s.misused = false
  added : ∃ n, s.list = s₀.list ++ List.range' s₀.curDeviceId n ∧ s.curDeviceId = s₀.curDeviceId + n ∧
    s.queued = s₀.queued ++ (List.range' s₀.curDeviceId n).flatMap fun idev => r.events idev .attach
  kept : ∀ idev ∈ s₀.list, (s.dev idev).sysPath = (s₀.dev idev).sysPath ∧ (s.dev idev).bus = (s₀.dev idev).bus ∧
    (s.dev idev).cap = (s₀.dev idev).cap
  untouched : ∀ idev ∈ s₀.list, (∀ v ∈ done, s₀.good r v = true → (s₀.dev idev).sysPath ≠ v.2.fullPath) →
    s.dev idev = (s₀.resetFound r).dev idev
  fresh_marked : ∀ idev ∈ s.list, s₀.curDeviceId ≤ idev → s.Marked r.ibus idev
  fresh_ports : ∀ idev ∈ s.list, s₀.curDeviceId ≤ idev → ∃ v ∈ done, s₀.good r v = true ∧
    (s.dev idev).sysPath = v.2.fullPath ∧ (v.2.usbPortCount = [] ∨ (s.dev idev).cap = some v.2.nports)
  shown : ∀ v ∈ done, s₀.good r v = true → ∃ idev ∈ s.list, s.Shows r.ibus v idev
  marked : ∀ idev, s.Marked r.ibus idev → ∃ v ∈ done, s₀.good r v = true ∧ (s.dev idev).sysPath = v.2.fullPath
  linked : ∀ idev, s.Marked r.ibus idev → s.Linked r.ibus idev
  roots : ∀ b ≠ r.ibus, s.root b = s₀.root b

/-- A visit that comes next, whose parent has the device `pdev`. -/
structure Next (s₀ : DeviceTree) (r : TreeRefresh) (done : List (Option DiNode × DiNode)) (s : DeviceTree)
    (v : Option DiNode × DiNode) (pdev : Option ℕ) : Prop extends Placed s₀ r done s where
  node : v.2.Named
  good : s₀.good r v = true
  apart : ∀ u ∈ done, u.2.path ≠ v.2.path
  ports : ∀ u ∈ done, s₀.good r u = true → ∀ p ∈ u.1, ∀ q ∈ v.1, p.path = q.path → u.2.pport ≠ v.2.pport
  bus : ∀ idev ∈ s₀.list, (s₀.dev idev).sysPath = v.2.fullPath → (s₀.dev idev).bus = r.ibus
  root : v.1 = none → pdev = none ∧ ∀ u ∈ done, u.1 ≠ none
  parent : ∀ node ∈ v.1, 0 < v.2.pport ∧ ∃ p, pdev = some p ∧ s.Marked r.ibus p ∧ (s.dev p).sysPath = node.fullPath

section

variable {s₀ s : DeviceTree} {r : TreeRefresh} {done : List (Option DiNode × DiNode)} {v : Option DiNode × DiNode}
  {pdev : Option ℕ} {idev i : ℕ} {node : DiNode}

/-! ## What `place` changes -/

theorem place_dev (hne : pdev ≠ some (s.ident node)) : (s.place r pdev node).dev i =
    if i = s.ident node then s.entry r pdev node
    else if pdev = some i then
      { s.dev i with children := Function.update (s.dev i).children ((s.entry r pdev node).pport - 1) (some (s.ident node)) }
    else s.dev i := by
  have hdev : (s.place r pdev node).dev = ((s.setDev (s.ident node) (s.entry r pdev node)).link r pdev (s.ident node)
      (s.entry r pdev node)).dev := by
    unfold place
    dsimp only
    split_ifs <;> rfl
  rw [hdev]
  cases pdev with
  | none =>
    show Function.update s.dev (s.ident node) _ i = _
    rw [Function.update_apply, if_neg (Option.some_ne_none i).symm]
  | some p =>
    have hp : p ≠ s.ident node := fun h => hne (congrArg some h)
    show Function.update (Function.update s.dev (s.ident node) _) p
      { Function.update s.dev (s.ident node) _ p with
        children := Function.update (Function.update s.dev (s.ident node) _ p).children _ (some (s.ident node)) } i = _
    rw [Function.update_of_ne hp]
    by_cases hi : i = p
    · subst hi
      rw [Function.update_self, if_neg hp, if_pos rfl]
    · rw [Function.update_of_ne hi, Function.update_apply, if_neg fun h => hi (Option.some_inj.mp h).symm]

theorem place_self (hne : pdev ≠ some (s.ident node)) : (s.place r pdev node).dev (s.ident node) = s.entry r pdev node := by
  rw [place_dev hne, if_pos rfl]

/-- Only the children of the parent change besides the device. -/
theorem place_other (hne : pdev ≠ some (s.ident node)) (hi : i ≠ s.ident node) :
    ∃ children, (s.place r pdev node).dev i = { s.dev i with children := children } := by
  rw [place_dev hne, if_neg hi]
  split_ifs
  · exact ⟨_, rfl⟩
  · exact ⟨_, rfl⟩

theorem place_root : (s.place r pdev node).root =
    if pdev = none then Function.update s.root r.ibus (some (s.ident node)) else s.root := by
  unfold place link
  cases pdev with
  | none =>
    dsimp only
    rw [if_pos rfl]
    split_ifs <;> rfl
  | some p =>
    dsimp only
    rw [if_neg (Option.some_ne_none p)]
    split_ifs <;> rfl

theorem link_list {d : TreeDevice} : (s.link r pdev i d).list = s.list ∧ (s.link r pdev i d).curDeviceId = s.curDeviceId ∧
    (s.link r pdev i d).queued = s.queued := by
  unfold link
  cases pdev <;> exact ⟨rfl, rfl, rfl⟩

/-! ## The next visit -/

theorem ident_cases (hs : s.Named) (hnode : node.Named) :
    (s.findDeviceBySyspath node.path = some (s.ident node) ∧ s.ident node ∈ s.list ∧
      (s.dev (s.ident node)).sysPath = node.fullPath) ∨
    (s.findDeviceBySyspath node.path = none ∧ s.ident node = s.curDeviceId ∧ s.ident node ∉ s.list) := by
  unfold ident
  cases hfind : s.findDeviceBySyspath node.path with
  | none => exact .inr ⟨rfl, rfl, fun hmem => Nat.lt_irrefl _ (hs.fresh _ hmem)⟩
  | some idev => exact .inl ⟨rfl, (hs.find_iff hnode).mp hfind⟩

/-- A device that is not listed is added, with its events. -/
theorem place_cases (hs : s.Named) (hnode : node.Named) :
    (s.ident node ∈ s.list ∧ (s.place r pdev node).list = s.list ∧ (s.place r pdev node).curDeviceId = s.curDeviceId ∧
      (s.place r pdev node).queued = s.queued) ∨
    (s.ident node = s.curDeviceId ∧ s.ident node ∉ s.list ∧ (s.place r pdev node).list = s.list ++ [s.curDeviceId] ∧
      (s.place r pdev node).curDeviceId = s.curDeviceId + 1 ∧
      (s.place r pdev node).queued = s.queued ++ r.events s.curDeviceId .attach) := by
  obtain ⟨hlist, hcur, hqueued⟩ :=
    @link_list (s.setDev (s.ident node) (s.entry r pdev node)) r pdev (s.ident node) (s.entry r pdev node)
  unfold place
  dsimp only
  rcases ident_cases hs hnode with ⟨hfind, hmem, -⟩ | ⟨hfind, hident, hmem⟩
  · rw [hfind, Option.isSome_some, if_pos rfl]
    exact .inl ⟨hmem, hlist, hcur, hqueued⟩
  · rw [hfind, Option.isSome_none, if_neg Bool.false_ne_true]
    unfold usbiAddDevice
    dsimp only
    rw [hlist, hcur, hqueued]
    exact .inr ⟨hident, hmem, rfl, rfl, rfl⟩

theorem mem_place (hs : s.Named) (hnode : node.Named) :
    i ∈ (s.place r pdev node).list ↔ i ∈ s.list ∨ i = s.ident node := by
  rcases @place_cases s r pdev node hs hnode with ⟨hmem, hlist, -⟩ | ⟨hident, -, hlist, -⟩
  · rw [hlist]
    exact (or_iff_left_of_imp fun h => h ▸ hmem).symm
  · rw [hlist, hident, List.mem_append, List.mem_singleton]

namespace Next

theorem not_marked (h : Next s₀ r done s v pdev) : ¬ s.Marked r.ibus (s.ident v.2) := by
  intro hmarked
  obtain ⟨u, hu, -, hpath⟩ := h.marked _ hmarked
  rcases ident_cases h.toNamed h.node with ⟨-, -, hfull⟩ | ⟨-, -, hmem⟩
  · exact h.apart u hu (DiNode.fullPath_inj.mp (hpath.symm.trans hfull))
  · exact hmem hmarked.1

theorem ne_pdev (h : Next s₀ r done s v pdev) : pdev ≠ some (s.ident v.2) := by
  cases hv : v.1 with
  | none =>
    rw [(h.root hv).1]
    exact (Option.some_ne_none _).symm
  | some node =>
    obtain ⟨-, p, rfl, hmarked, -⟩ := h.parent node hv
    rintro hp
    obtain rfl := Option.some_inj.mp hp
    exact h.not_marked hmarked

theorem isSome_pdev (h : Next s₀ r done s v pdev) : pdev.isSome = v.1.isSome := by
  cases hv : v.1 with
  | none =>
    rw [(h.root hv).1]
    rfl
  | some node =>
    obtain ⟨-, p, rfl, -, -⟩ := h.parent node hv
    rfl

theorem old_or_new (h : Placed s₀ r done s) (hi : i ∈ s.list) : i ∈ s₀.list ∨ s₀.curDeviceId ≤ i := by
  obtain ⟨n, hlist, -⟩ := h.added
  rw [hlist, List.mem_append, List.mem_range'_1] at hi
  exact hi.imp_right And.left

/-- A node that is listed was so at the start. -/
theorem ident_old (h : Next s₀ r done s v pdev) (hmem : s.ident v.2 ∈ s.list) : s.ident v.2 ∈ s₀.list :=
  (old_or_new h.toPlaced hmem).resolve_right fun hnew => h.not_marked (h.fresh_marked _ hmem hnew)

theorem entry_known (h : Next s₀ r done s v pdev) (hmem : s.ident v.2 ∈ s.list) :
    (s.entry r pdev v.2).bus = r.ibus ∧ (s.dev (s.ident v.2)).bus = r.ibus ∧
      (s.dev (s.ident v.2)).sysPath = v.2.fullPath ∧ (s.entry r pdev v.2).cap = (s.dev (s.ident v.2)).cap := by
  rcases ident_cases h.toNamed h.node with ⟨hfind, -, hpath⟩ | ⟨-, -, hnot⟩
  · obtain ⟨hsame, hbus, -⟩ := h.kept _ (h.ident_old hmem)
    have hibus : (s.dev (s.ident v.2)).bus = r.ibus := hbus.trans (h.bus _ (h.ident_old hmem) (hsame.symm.trans hpath))
    unfold entry
    simp only [hfind, Option.isSome_some, if_true, true_or]
    exact ⟨hibus, hibus, hpath, trivial⟩
  · exact absurd hmem hnot

theorem entry_bus (h : Next s₀ r done s v pdev) : (s.entry r pdev v.2).bus = r.ibus := by
  rcases ident_cases h.toNamed h.node with ⟨-, hmem, -⟩ | ⟨hfind, -, -⟩
  · exact (h.entry_known hmem).1
  · unfold entry
    rw [hfind]
    rfl

/-- A new device gets an array for its ports. -/
theorem place_ports (h : Next s₀ r done s v pdev) (hnot : s.ident v.2 ∉ s.list) :
    v.2.usbPortCount = [] ∨ ((s.place r pdev v.2).dev (s.ident v.2)).cap = some v.2.nports := by
  rw [place_self h.ne_pdev]
  refine or_iff_not_imp_left.mpr fun hports => ?_
  rcases ident_cases h.toNamed h.node with ⟨-, hmem, -⟩ | ⟨hfind, -, -⟩
  · exact absurd hmem hnot
  · unfold entry
    rw [hfind]
    exact if_neg (not_or.mpr ⟨Bool.false_ne_true, hports⟩)

/-- What stays of every listed device. -/
theorem place_same (h : Next s₀ r done s v pdev) (hi : i ∈ s.list) :
    ((s.place r pdev v.2).dev i).sysPath = (s.dev i).sysPath ∧ ((s.place r pdev v.2).dev i).bus = (s.dev i).bus ∧
      ((s.place r pdev v.2).dev i).cap = (s.dev i).cap := by
  by_cases hident : i = s.ident v.2
  · subst hident
    obtain ⟨hbus, hbus', hpath, hcap⟩ := h.entry_known hi
    rw [place_self h.ne_pdev]
    exact ⟨hpath.symm, hbus.trans hbus'.symm, hcap⟩
  · obtain ⟨children, hdev⟩ := place_other (r := r) h.ne_pdev hident
    rw [hdev]
    exact ⟨rfl, rfl, rfl⟩

theorem place_named (h : Next s₀ r done s v pdev) : (s.place r pdev v.2).Named where
  fresh i hi := by
    rcases @place_cases s r pdev v.2 h.toNamed h.node with ⟨-, hlist, hcur, -⟩ | ⟨-, -, hlist, hcur, -⟩
    · rw [hcur]
      exact h.fresh i (hlist ▸ hi)
    · rw [hcur]
      rw [hlist, List.mem_append, List.mem_singleton] at hi
      exact hi.elim (fun hi => Nat.lt_succ_of_lt (h.fresh i hi)) fun hi => hi ▸ Nat.lt_succ_self _
  paths := by
    have hsame : s.list.map (fun i => ((s.place r pdev v.2).dev i).sysPath) = s.list.map fun i => (s.dev i).sysPath :=
      List.map_congr_left fun i hi => (h.place_same hi).1
    rcases @place_cases s r pdev v.2 h.toNamed h.node with ⟨-, hlist, -⟩ | ⟨hident, hmem, hlist, -⟩
    · rw [hlist, hsame]
      exact h.paths
    · rw [hlist, List.map_append, hsame, List.map_singleton, ← hident, place_self h.ne_pdev]
      refine List.nodup_append.mpr ⟨h.paths, List.nodup_singleton _, ?_⟩
      intro path hpath other hother heq
      obtain ⟨i, hi, rfl⟩ := List.mem_map.mp hpath
      obtain rfl := List.mem_singleton.mp hother
      have hfind := (h.find_iff h.node).mpr ⟨hi, heq⟩
      rcases ident_cases h.toNamed h.node with ⟨-, hlisted, -⟩ | ⟨hnone, -, -⟩
      · exact hmem hlisted
      · exact Option.some_ne_none i (hfind.symm.trans hnone)
  devices i hi := by
    rcases (mem_place h.toNamed h.node).mp hi with hi | rfl
    · rw [(h.place_same hi).1]
      exact h.devices i hi
    · rw [place_self h.ne_pdev]
      exact List.prefix_append _ _

/-- The device is marked. -/
theorem place_marked (h : Next s₀ r done s v pdev) :
    (s.place r pdev v.2).Marked r.ibus i ↔ s.Marked r.ibus i ∨ i = s.ident v.2 := by
  by_cases hident : i = s.ident v.2
  · refine iff_of_true ⟨(mem_place h.toNamed h.node).mpr (.inr hident), ?_⟩ (.inr hident)
    rw [hident, place_self h.ne_pdev]
    exact ⟨h.entry_bus, rfl⟩
  · obtain ⟨children, hdev⟩ := place_other (r := r) h.ne_pdev hident
    unfold Marked
    rw [mem_place h.toNamed h.node, hdev, or_iff_left hident, or_iff_left hident]

theorem marked_ne (h : Next s₀ r done s v pdev) (hi : s.Marked r.ibus i) : i ≠ s.ident v.2 :=
  fun heq => h.not_marked (heq ▸ hi)

/-- What was shown before is shown. -/
theorem place_shows (h : Next s₀ r done s v pdev) {u : Option DiNode × DiNode} (hu : u ∈ done) (hi : i ∈ s.list)
    (hshows : s.Shows r.ibus u i) : (s.place r pdev v.2).Shows r.ibus u i := by
  obtain ⟨children, hdev⟩ := place_other (r := r) h.ne_pdev (h.marked_ne ⟨hi, hshows.bus, hshows.found⟩)
  refine ⟨?_, ?_, ?_, ?_, ?_, fun hroot => ?_, fun node hnode => ?_⟩ <;> rw [hdev]
  · exact hshows.sysPath
  · exact hshows.bus
  · exact hshows.found
  · exact hshows.nports
  · exact hshows.devnum
  · refine ⟨(hshows.root hroot).1, ?_⟩
    rw [place_root, if_neg fun hnone => ?_]
    · exact (hshows.root hroot).2
    · have hv : v.1 = none := by
        rw [← Option.isNone_iff_eq_none, ← Option.not_isSome, ← h.isSome_pdev, hnone]
        rfl
      exact (h.root hv).2 u hu hroot
  · obtain ⟨hport, p, hp, hparent, hpath, hbus, hfound⟩ := hshows.parent node hnode
    obtain ⟨children', hdev'⟩ := place_other (r := r) h.ne_pdev (h.marked_ne ⟨hp, hbus, hfound⟩)
    refine ⟨hport, p, (mem_place h.toNamed h.node).mpr (.inl hp), hparent, ?_⟩
    rw [hdev']
    exact ⟨hpath, hbus, hfound⟩

theorem shows_self (h : Next s₀ r done s v pdev) : (s.place r pdev v.2).Shows r.ibus v (s.ident v.2) := by
  have hentry : ((s.place r pdev v.2).dev (s.ident v.2)) = s.entry r pdev v.2 := place_self h.ne_pdev
  refine ⟨?_, ?_, ?_, ?_, ?_, fun hroot => ?_, fun node hnode => ?_⟩ <;> rw [hentry]
  · rfl
  · exact h.entry_bus
  · rfl
  · rfl
  · show (if pdev.isSome = true then _ else _) = _
    rw [h.isSome_pdev]
  · refine ⟨(h.root hroot).1, ?_⟩
    rw [place_root, if_pos (h.root hroot).1, Function.update_self]
  · obtain ⟨-, p, rfl, hmarked, hpath⟩ := h.parent node hnode
    obtain ⟨children, hdev⟩ := place_other (r := r) h.ne_pdev (h.marked_ne hmarked)
    refine ⟨rfl, p, (mem_place h.toNamed h.node).mpr (.inl hmarked.1), rfl, ?_⟩
    rw [hdev]
    exact ⟨hpath, hmarked.2⟩

/-- A device whose parent is `i` is shown below a node that has the path of `i`. -/
theorem child_of (h : Placed s₀ r done s) {c : ℕ} (hc : s.Marked r.ibus c) (hparent : (s.dev c).parent = some i) :
    s.Marked r.ibus i ∧ ∃ u ∈ done, s₀.good r u = true ∧ ∃ node ∈ u.1, (s.dev i).sysPath = node.fullPath ∧
      (s.dev c).pport = u.2.pport := by
  obtain ⟨u, hu, hgood, hpath⟩ := h.marked c hc
  obtain ⟨c', hc', hshows⟩ := h.shown u hu hgood
  obtain rfl : c' = c := h.eq_of_path hc' hc.1 (hshows.sysPath.trans hpath.symm)
  cases hu1 : u.1 with
  | none =>
    rw [(hshows.root hu1).1] at hparent
    exact absurd hparent.symm (Option.some_ne_none i)
  | some node =>
    obtain ⟨hport, p, hp, hparent', hpath', hbus, hfound⟩ := hshows.parent node hu1
    obtain rfl : p = i := Option.some_inj.mp (hparent'.symm.trans hparent)
    exact ⟨⟨hp, hbus, hfound⟩, u, hu, hgood, node, hu1 ▸ rfl, hpath', hport⟩

/-- Each port names its device. -/
theorem place_linked (h : Next s₀ r done s v pdev) (hi : (s.place r pdev v.2).Marked r.ibus i) :
    (s.place r pdev v.2).Linked r.ibus i := by
  -- the parent of a device that is marked already is as it was, and is not the new one
  have hold {c k : ℕ} (hc : c ≠ s.ident v.2) : ((s.place r pdev v.2).Marked r.ibus c ∧
      ((s.place r pdev v.2).dev c).parent = some i ∧ ((s.place r pdev v.2).dev c).pport = k + 1) ↔
      (s.Marked r.ibus c ∧ (s.dev c).parent = some i ∧ (s.dev c).pport = k + 1) := by
    obtain ⟨children, hdev⟩ := place_other (r := r) h.ne_pdev hc
    rw [h.place_marked, or_iff_left hc, hdev]
  have hentry : (s.place r pdev v.2).dev (s.ident v.2) = s.entry r pdev v.2 := place_self h.ne_pdev
  intro k hk c
  by_cases hident : i = s.ident v.2
  · subst hident
    rw [hentry] at hk ⊢
    refine iff_of_false ?_ fun hc => ?_
    · change k < v.2.nports at hk
      show (if k < v.2.nports then none else _) ≠ some c
      rw [if_pos hk]
      exact (Option.some_ne_none c).symm
    · by_cases hself : c = s.ident v.2
      · subst hself
        rw [hentry] at hc
        exact h.ne_pdev hc.2.1
      · obtain ⟨hmarked, hparent, -⟩ := (hold hself).mp hc
        exact h.not_marked (child_of h.toPlaced hmarked hparent).1
  · have hmarked := (h.place_marked.mp hi).resolve_right hident
    have hlinked := h.linked i hmarked
    have hdev := @place_dev s r pdev i v.2 h.ne_pdev
    rw [if_neg hident] at hdev
    by_cases hp : pdev = some i
    · subst hp
      obtain ⟨node, hnode⟩ := Option.isSome_iff_exists.mp (h.isSome_pdev.symm.trans Option.isSome_some)
      obtain ⟨hpos, p, hp, -, hpath⟩ := h.parent node hnode
      obtain rfl := Option.some_inj.mp hp
      have hport : (s.entry r (some i) v.2).pport = v.2.pport := rfl
      rw [if_pos rfl, hport] at hdev
      rw [hdev] at hk ⊢
      show Function.update (s.dev i).children (v.2.pport - 1) (some (s.ident v.2)) k = some c ↔ _
      by_cases hplace : k = v.2.pport - 1
      · rw [hplace, Function.update_self, ← hplace]
        by_cases hself : c = s.ident v.2
        · subst hself
          refine iff_of_true rfl ⟨h.place_marked.mpr (.inr rfl), ?_⟩
          rw [hentry, hport]
          exact ⟨rfl, by omega⟩
        · -- the port has no other device
          refine iff_of_false (fun hc => hself (Option.some_inj.mp hc).symm) fun hc => ?_
          obtain ⟨hc, hparent, hk'⟩ := (hold hself).mp hc
          obtain ⟨-, u, hu, hgood, other, hother, hpath', hport'⟩ := child_of h.toPlaced hc hparent
          refine h.ports u hu hgood other hother node hnode (DiNode.fullPath_inj.mp (hpath'.symm.trans hpath)) ?_
          omega
      · rw [Function.update_of_ne hplace, hlinked k hk c]
        by_cases hself : c = s.ident v.2
        · subst hself
          refine iff_of_false (fun hc => h.not_marked hc.1) fun hc => ?_
          rw [hentry, hport] at hc
          exact hplace (by omega)
        · exact (hold hself).symm
    · rw [if_neg hp] at hdev
      rw [hdev] at hk ⊢
      rw [hlinked k hk c]
      by_cases hself : c = s.ident v.2
      · subst hself
        refine iff_of_false (fun hc => h.not_marked hc.1) fun hc => ?_
        rw [hentry] at hc
        exact hp hc.2.1
      · exact (hold hself).symm

/-- A visit that leaves a device keeps the tree. -/
theorem place (h : Next s₀ r done s v pdev) : Placed s₀ r (done ++ [v]) (s.place r pdev v.2) where
  toNamed := h.place_named
  misused := place_misused.trans h.misused
  added := by
    obtain ⟨n, hlist, hcur, hqueued⟩ := h.added
    rcases @place_cases s r pdev v.2 h.toNamed h.node with ⟨-, hlist', hcur', hqueued'⟩ | ⟨-, -, hlist', hcur', hqueued'⟩
    · exact ⟨n, hlist'.trans hlist, hcur'.trans hcur, hqueued'.trans hqueued⟩
    · refine ⟨n + 1, ?_, ?_, ?_⟩
      · rw [hlist', hlist, hcur, List.range'_concat, Nat.one_mul, List.append_assoc]
      · rw [hcur', hcur, Nat.add_assoc]
      · rw [hqueued', hqueued, hcur, List.range'_concat, Nat.one_mul, List.flatMap_append, List.append_assoc,
          List.flatMap_singleton]
  kept i hi := by
    obtain ⟨n, hlist, -⟩ := h.added
    obtain ⟨hpath, hbus, hcap⟩ := h.kept i hi
    obtain ⟨hpath', hbus', hcap'⟩ := h.place_same (hlist ▸ List.mem_append_left _ hi)
    exact ⟨hpath'.trans hpath, hbus'.trans hbus, hcap'.trans hcap⟩
  untouched i hi hnone := by
    have hident : i ≠ s.ident v.2 := by
      rintro rfl
      obtain ⟨n, hlist, -⟩ := h.added
      obtain ⟨-, -, hpath, -⟩ := h.entry_known (hlist ▸ List.mem_append_left _ hi)
      exact hnone v (List.mem_append_right _ (List.mem_singleton_self v)) h.good ((h.kept _ hi).1.symm.trans hpath)
    have hparent : pdev ≠ some i := by
      rintro rfl
      obtain ⟨node, hnode⟩ := Option.isSome_iff_exists.mp (h.isSome_pdev.symm.trans Option.isSome_some)
      obtain ⟨-, p, hp, hmarked, -⟩ := h.parent node hnode
      obtain rfl := Option.some_inj.mp hp
      obtain ⟨u, hu, hgood, hpath⟩ := h.marked i hmarked
      exact hnone u (List.mem_append_left _ hu) hgood ((h.kept i hi).1.symm.trans hpath)
    rw [place_dev h.ne_pdev, if_neg hident, if_neg hparent]
    exact h.untouched i hi fun u hu => hnone u (List.mem_append_left _ hu)
  fresh_marked i hi hnew := by
    rcases (mem_place h.toNamed h.node).mp hi with hi | hi
    · exact h.place_marked.mpr (.inl (h.fresh_marked i hi hnew))
    · exact h.place_marked.mpr (.inr hi)
  fresh_ports i hi hnew := by
    by_cases hold : i ∈ s.list
    · obtain ⟨u, hu, hgood, hpath, hports⟩ := h.fresh_ports i hold hnew
      obtain ⟨hpath', -, hcap'⟩ := h.place_same hold
      exact ⟨u, List.mem_append_left _ hu, hgood, hpath'.trans hpath, hports.imp_right hcap'.trans⟩
    · obtain rfl := ((mem_place h.toNamed h.node).mp hi).resolve_left hold
      exact ⟨v, List.mem_append_right _ (List.mem_singleton_self v), h.good, h.shows_self.sysPath, h.place_ports hold⟩
  shown u hu hgood := by
    rcases List.mem_append.mp hu with hu | hu
    · obtain ⟨i, hi, hshows⟩ := h.shown u hu hgood
      exact ⟨i, (mem_place h.toNamed h.node).mpr (.inl hi), h.place_shows hu hi hshows⟩
    · obtain rfl := List.mem_singleton.mp hu
      exact ⟨_, (mem_place h.toNamed h.node).mpr (.inr rfl), h.shows_self⟩
  marked i hi := by
    rcases h.place_marked.mp hi with hi | rfl
    · obtain ⟨u, hu, hgood, hpath⟩ := h.marked i hi
      exact ⟨u, List.mem_append_left _ hu, hgood, (h.place_same hi.1).1.trans hpath⟩
    · exact ⟨v, List.mem_append_right _ (List.mem_singleton_self v), h.good, h.shows_self.sysPath⟩
  linked i hi := h.place_linked hi
  roots b hb := by
    rw [place_root]
    split_ifs
    · rw [Function.update_of_ne hb]
      exact h.roots b hb
    · exact h.roots b hb

end Next

end

end DeviceTree

/-! ## The walk -/

/-- The nodes of a refresh with their parents. -/
def TreeRefresh.nodes (r : TreeRefresh) : List (Option DiNode × DiNode) := (Forest.node r.rootNode r.below .nil).edges none

/-- What is promised of the devinfo tree: the paths fit and are all different, also from those of the devices of other buses,
and a port of a hub has one node. -/
structure TreeRefresh.Possible (r : TreeRefresh) (s : DeviceTree) : Prop where
  named : ∀ v ∈ r.nodes, v.2.Named
  distinct : (r.nodes.map fun v => v.2.path).Nodup
  ports : r.nodes.Pairwise fun u v => u.1 = v.1 → ∀ port, u.2.reg = [port] → v.2.reg ≠ [port]
  others : ∀ idev ∈ s.list, ∀ v ∈ r.nodes, (s.dev idev).sysPath = v.2.fullPath → (s.dev idev).bus = r.ibus

namespace DeviceTree

section

variable {s₀ s : DeviceTree} {r : TreeRefresh} {done l : List (Option DiNode × DiNode)} {u v : Option DiNode × DiNode}
  {pdev : Option ℕ} {idev i : ℕ} {node : DiNode}

theorem visits_sublist (s : DeviceTree) (r : TreeRefresh) : (s.visits r).Sublist r.nodes :=
  Forest.visits_sublist (s.enters r) _ none

/-- Only the root has no parent, and it is visited first. -/
theorem root_first (h : s.visits r = done ++ v :: l) (hv : v.1 = none) : done = [] := by
  unfold visits Forest.visits at h
  cases done with
  | nil => rfl
  | cons w done =>
    obtain ⟨-, hrest⟩ := List.cons_eq_cons.mp h
    rw [Forest.visits_nil, List.append_nil] at hrest
    split_ifs at hrest
    · rcases Forest.parent_first hrest with hparent | ⟨u, -, -, hparent⟩
      · exact absurd (hv.symm.trans hparent).symm (Option.some_ne_none _)
      · exact absurd (hv.symm.trans hparent).symm (Option.some_ne_none _)
    · exact absurd hrest.symm (List.append_ne_nil_of_right_ne_nil _ (List.cons_ne_nil _ _))

/-- The parent of a visit was visited. -/
theorem parent_visited (h : s.visits r = done ++ v :: l) (hnode : node ∈ v.1) :
    ∃ u ∈ done, s.good r u = true ∧ u.2 = node := by
  rcases Forest.parent_first h with hparent | ⟨u, hu, henter, hparent⟩
  · rw [hparent] at hnode
    exact absurd hnode.symm (Option.some_ne_none node)
  · rw [hparent] at hnode
    exact ⟨u, hu, (Bool.and_eq_true_iff.mp henter).1, Option.some_inj.mp hnode⟩

theorem good_passes (h : s₀.good r v = true) : passes v = true := (Bool.and_eq_true_iff.mp h).1

/-- A good node below a hub has one port there. -/
theorem good_port (h : s₀.good r v = true) (hnode : node ∈ v.1) :
    ∃ port, v.2.reg = [port] ∧ 0 < port ∧ port < 256 ∧ (v.2.pport : ℤ) = port := by
  have hplace : v.2.hasPlace node.nports = true := by
    have hpasses := (passes_iff.mp (good_passes h)).1
    rw [show v.1 = some node from hnode] at hpasses
    exact hpasses
  have hports : node.nports < 256 := by
    unfold DiNode.nports toUInt8
    omega
  unfold DiNode.hasPlace at hplace
  split at hplace
  · next addr port _ hreg =>
    obtain ⟨-, hpos, hle⟩ := of_decide_eq_true hplace
    refine ⟨port, hreg, hpos, by omega, ?_⟩
    unfold DiNode.pport toUInt8
    rw [hreg, List.headD_cons]
    omega
  · exact absurd hplace Bool.false_ne_true

theorem find_same (h : Placed s₀ r done s) (h₀ : s₀.Named) (hnode : v.2.Named) (hapart : ∀ u ∈ done, u.2.path ≠ v.2.path) :
    s.findDeviceBySyspath v.2.path = s₀.findDeviceBySyspath v.2.path := by
  refine Option.ext fun i => ?_
  show s.findDeviceBySyspath v.2.path = some i ↔ s₀.findDeviceBySyspath v.2.path = some i
  rw [h.find_iff hnode, h₀.find_iff hnode]
  constructor
  · rintro ⟨hi, hpath⟩
    rcases Next.old_or_new h hi with hold | hnew
    · exact ⟨hold, (h.kept i hold).1.symm.trans hpath⟩
    · obtain ⟨u, hu, -, hu'⟩ := h.marked i (h.fresh_marked i hi hnew)
      exact absurd (DiNode.fullPath_inj.mp (hu'.symm.trans hpath)) (hapart u hu)
  · rintro ⟨hi, hpath⟩
    obtain ⟨n, hlist, -⟩ := h.added
    exact ⟨hlist ▸ List.mem_append_left _ hi, (h.kept i hi).1.trans hpath⟩

/-- What the walk knows when the visits `l` are still to come. -/
def Before (s₀ : DeviceTree) (r : TreeRefresh) (s : DeviceTree) (l : List (Option DiNode × DiNode)) : Prop :=
  ∃ done, s₀.visits r = done ++ l ∧ Placed s₀ r done s

/-- `pdev` is what was found at a parent. -/
def Found (r : TreeRefresh) (s : DeviceTree) (parent : Option DiNode) (pdev : Option ℕ) : Prop :=
  (parent = none → pdev = none) ∧ ∀ node ∈ parent, ∃ p, pdev = some p ∧ s.Marked r.ibus p ∧ (s.dev p).sysPath = node.fullPath

/-- The device that is found at the parent of a visit. -/
def parentOf (s : DeviceTree) (v : Option DiNode × DiNode) : Option ℕ :=
  v.1.bind fun node => s.findDeviceBySyspath node.path

/-- A visit, by what was known of its node at the start. -/
def visit (s₀ : DeviceTree) (r : TreeRefresh) (s : DeviceTree) (v : Option DiNode × DiNode) : DeviceTree :=
  if s₀.good r v = true then s.place r (s.parentOf v) v.2 else s

theorem mem_visits (h : s₀.visits r = done ++ v :: l) : v ∈ r.nodes ∧ ∀ u ∈ done, u ∈ r.nodes := by
  have hmem (w : Option DiNode × DiNode) (hw : w ∈ done ++ v :: l) : w ∈ r.nodes :=
    (s₀.visits_sublist r).subset (h ▸ hw)
  exact ⟨hmem v (List.mem_append_right _ List.mem_cons_self), fun u hu => hmem u (List.mem_append_left _ hu)⟩

theorem node_unique (hposs : r.Possible s₀) (hu : u ∈ r.nodes) (hv : v ∈ r.nodes) (hpath : u.2.path = v.2.path) : u = v :=
  List.inj_on_of_nodup_map hposs.distinct hu hv hpath

theorem visits_apart (hposs : r.Possible s₀) (h : s₀.visits r = done ++ v :: l) (hu : u ∈ done) : u.2.path ≠ v.2.path := by
  have hnodup : ((s₀.visits r).map fun v => v.2.path).Nodup := hposs.distinct.sublist ((s₀.visits_sublist r).map _)
  rw [h, List.map_append, List.map_cons] at hnodup
  exact (List.nodup_append.mp hnodup).2.2 _ (List.mem_map_of_mem hu) _ List.mem_cons_self

/-- The parent of a visit is a node of the tree. -/
theorem parent_node (hposs : r.Possible s₀) (h : s₀.visits r = done ++ v :: l) (hnode : node ∈ v.1) :
    ∃ u ∈ done, s₀.good r u = true ∧ u ∈ r.nodes ∧ u.2 = node ∧ node.Named := by
  obtain ⟨u, hu, hgood, rfl⟩ := parent_visited h hnode
  have hmem := (mem_visits h).2 u hu
  exact ⟨u, hu, hgood, hmem, rfl, hposs.named u hmem⟩

theorem visits_ports (hposs : r.Possible s₀) (h : s₀.visits r = done ++ v :: l) (hgood : s₀.good r v = true) (hu : u ∈ done)
    (hgood' : s₀.good r u = true) {p q : DiNode} (hp : p ∈ u.1) (hq : q ∈ v.1) (hpath : p.path = q.path) :
    u.2.pport ≠ v.2.pport := by
  obtain ⟨port, hreg, hpos, hlt, hport⟩ := good_port hgood hq
  obtain ⟨port', hreg', hpos', hlt', hport'⟩ := good_port hgood' hp
  have hpairs : (done ++ v :: l).Pairwise fun u v => u.1 = v.1 → ∀ port, u.2.reg = [port] → v.2.reg ≠ [port] :=
    h ▸ hposs.ports.sublist (s₀.visits_sublist r)
  obtain ⟨w, -, -, hw, hwq, -⟩ := parent_node hposs h hq
  obtain ⟨before, after, hsplit⟩ := List.append_of_mem hu
  have hearlier : s₀.visits r = before ++ u :: (after ++ v :: l) := by
    rw [h, hsplit, List.append_assoc, List.cons_append]
  obtain ⟨w', -, -, hw', hwp, -⟩ := parent_node hposs hearlier hp
  have hsame : w' = w := node_unique hposs hw' hw (by rw [hwp, hwq, hpath])
  have hparents : u.1 = v.1 := by
    rw [show u.1 = some p from hp, show v.1 = some q from hq, ← hwp, ← hwq, hsame]
  have hne := (List.pairwise_append.mp hpairs).2.2 u hu v List.mem_cons_self hparents port' hreg'
  intro heq
  refine hne ?_
  rw [hreg, show port = port' by omega]

theorem next_of (hposs : r.Possible s₀) (h : s₀.visits r = done ++ v :: l) (hplaced : Placed s₀ r done s)
    (hfound : Found r s v.1 pdev) (hgood : s₀.good r v = true) : Next s₀ r done s v pdev where
  toPlaced := hplaced
  node := hposs.named v (mem_visits h).1
  good := hgood
  apart _ hu := visits_apart hposs h hu
  ports _ hu hgood' _ hp _ hq hpath := visits_ports hposs h hgood hu hgood' hp hq hpath
  bus i hi hpath := hposs.others i hi v (mem_visits h).1 hpath
  root hv := by
    obtain rfl := root_first h hv
    exact ⟨hfound.1 hv, fun u hu => absurd hu List.not_mem_nil⟩
  parent node hnode := by
    obtain ⟨port, -, hpos, -, hport⟩ := good_port hgood hnode
    exact ⟨by omega, hfound.2 node hnode⟩

/-- `pdev` is what `findDeviceBySyspath` finds at the parent, and has its ports. -/
theorem found_parent (hposs : r.Possible s₀) (h : s₀.visits r = done ++ v :: l) (hplaced : Placed s₀ r done s)
    (hfound : Found r s v.1 pdev) : pdev = s.parentOf v ∧ s.Below v.1 pdev := by
  unfold parentOf Below
  cases hv : v.1 with
  | none =>
    have hnone := hfound.1 hv
    exact ⟨hnone, hnone⟩
  | some node =>
    obtain ⟨p, rfl, hmarked, hpath⟩ := hfound.2 node hv
    obtain ⟨w, -, -, hmem, rfl, hnamed⟩ := parent_node hposs h hv
    refine ⟨((hplaced.find_iff hnamed).mpr ⟨hmarked.1, hpath⟩).symm, p, rfl, ?_⟩
    obtain ⟨u, hu, hgood, hu'⟩ := hplaced.marked p hmarked
    obtain ⟨p', hp', hshows⟩ := hplaced.shown u hu hgood
    obtain rfl : p' = p := hplaced.eq_of_path hp' hmarked.1 (hshows.sysPath.trans hu'.symm)
    obtain rfl := node_unique hposs ((mem_visits h).2 u hu) hmem (DiNode.fullPath_inj.mp (hu'.symm.trans hpath))
    exact hshows.nports

theorem same_start (h₀ : s₀.Named) (hposs : r.Possible s₀) (h : s₀.visits r = done ++ v :: l) (hplaced : Placed s₀ r done s) :
    s.good r v = s₀.good r v ∧ (s.Keeps v ↔ s₀.Keeps v) := by
  have hnamed := hposs.named v (mem_visits h).1
  have hfind := find_same hplaced h₀ hnamed fun u hu => visits_apart hposs h hu
  unfold good Keeps
  rw [hfind]
  refine ⟨rfl, forall_congr' fun i => forall_congr' fun hi => ?_⟩
  rw [(hplaced.kept i ((h₀.find_iff hnamed).mp hi).1).2.2]

/-- A visit whose node is no good changes nothing. -/
theorem Placed.skip (h : Placed s₀ r done s) (hgood : s₀.good r v ≠ true) : Placed s₀ r (done ++ [v]) s where
  toNamed := h.toNamed
  misused := h.misused
  added := h.added
  kept := h.kept
  untouched i hi hnone := h.untouched i hi fun u hu => hnone u (List.mem_append_left _ hu)
  fresh_marked := h.fresh_marked
  fresh_ports i hi hnew := by
    obtain ⟨u, hu, hrest⟩ := h.fresh_ports i hi hnew
    exact ⟨u, List.mem_append_left _ hu, hrest⟩
  shown u hu hgood' := by
    rcases List.mem_append.mp hu with hu | hu
    · exact h.shown u hu hgood'
    · obtain rfl := List.mem_singleton.mp hu
      exact absurd hgood' hgood
  marked i hi := by
    obtain ⟨u, hu, hrest⟩ := h.marked i hi
    exact ⟨u, List.mem_append_left _ hu, hrest⟩
  linked := h.linked
  roots := h.roots

theorem Placed.visit (hposs : r.Possible s₀) (h : s₀.visits r = done ++ v :: l) (hplaced : Placed s₀ r done s)
    (hfound : Found r s v.1 pdev) : Placed s₀ r (done ++ [v]) (visit s₀ r s v) := by
  unfold DeviceTree.visit
  by_cases hgood : s₀.good r v = true
  · rw [if_pos hgood, ← (found_parent hposs h hplaced hfound).1]
    exact (next_of hposs h hplaced hfound hgood).place
  · rw [if_neg hgood]
    exact hplaced.skip hgood

/-- The device of a visited parent stays where it is. -/
theorem Found.visit {parent : Option DiNode} {pdev' : Option ℕ} (hposs : r.Possible s₀) (h : s₀.visits r = done ++ v :: l)
    (hplaced : Placed s₀ r done s) (hfound : Found r s v.1 pdev) (hother : Found r s parent pdev') :
    Found r (visit s₀ r s v) parent pdev' := by
  refine ⟨hother.1, fun node hnode => ?_⟩
  obtain ⟨p, hp, hmarked, hpath⟩ := hother.2 node hnode
  refine ⟨p, hp, ?_⟩
  unfold DeviceTree.visit
  by_cases hgood : s₀.good r v = true
  · have hnext := next_of hposs h hplaced hfound hgood
    rw [if_pos hgood, ← (found_parent hposs h hplaced hfound).1]
    exact ⟨hnext.place_marked.mpr (.inl hmarked), (hnext.place_same hmarked.1).1.trans hpath⟩
  · rw [if_neg hgood]
    exact ⟨hmarked, hpath⟩

/-- The parent that has been found is known to the walk. -/
theorem found_of_before (hposs : r.Possible s₀) (h : s₀.visits r = done ++ v :: l) (hplaced : Placed s₀ r done s) :
    Found r s v.1 (s.parentOf v) := by
  unfold parentOf
  refine ⟨fun hv => by rw [hv]; rfl, fun node hnode => ?_⟩
  obtain ⟨u, hu, hgood, -, rfl, hnamed⟩ := parent_node hposs h hnode
  obtain ⟨i, hi, hshows⟩ := hplaced.shown u hu hgood
  rw [show v.1 = some u.2 from hnode]
  exact ⟨i, (hplaced.find_iff hnamed).mpr ⟨hi, hshows.sysPath⟩, ⟨hi, hshows.bus, hshows.found⟩, hshows.sysPath⟩

theorem visitNode_eq (h₀ : s₀.Named) (hposs : r.Possible s₀) (h : s₀.visits r = done ++ v :: l) (hplaced : Placed s₀ r done s)
    (hfound : Found r s v.1 pdev) (hkeeps : s₀.Keeps v) :
    visitNode r pdev v.2 s = (if s₀.enters r v = true then some (some (s.ident v.2)) else none, visit s₀ r s v) := by
  obtain ⟨hgood, hsame⟩ := same_start h₀ hposs h hplaced
  obtain ⟨hparent, hbelow⟩ := found_parent hposs h hplaced hfound
  unfold visitNode DeviceTree.visit enters
  rw [setUpDevice_keeps (hposs.named v (mem_visits h).1) hbelow (hsame.mpr hkeeps), hgood]
  by_cases hv : s₀.good r v = true
  · have hnext := next_of hposs h hplaced hfound hv
    rw [if_pos hv, if_pos hv, hv, Bool.true_and, ← hparent]
    dsimp only
    rw [hnext.shows_self.nports]
    exact congrArg (Prod.mk · _) (if_congr decide_eq_true_iff.symm rfl rfl)
  · rw [if_neg hv, if_neg hv, Bool.eq_false_of_not_eq_true hv, Bool.false_and, if_neg Bool.false_ne_true]

/-- The walk of a refresh goes as its visits, if they keep to what is listed. -/
theorem steps (h₀ : s₀.Named) (hposs : r.Possible s₀) :
    Forest.Steps (visitNode r) (visit s₀ r) (s₀.enters r) s₀.Keeps (Before s₀ r) (Found r) where
  step := by
    intro s p node l pdev hbefore hfound hkeeps
    obtain ⟨done, hvisits, hplaced⟩ := hbefore
    refine ⟨some (s.ident node), visitNode_eq h₀ hposs hvisits hplaced hfound hkeeps, fun henter => ?_⟩
    have hnext := next_of hposs hvisits hplaced hfound (Bool.and_eq_true_iff.mp henter).1
    refine ⟨fun hnone => absurd hnone (Option.some_ne_none node), fun other hother => ?_⟩
    obtain rfl := Option.some_inj.mp hother
    unfold DeviceTree.visit
    rw [if_pos hnext.good, ← (found_parent hposs hvisits hplaced hfound).1]
    exact ⟨_, rfl, hnext.place_marked.mpr (.inr rfl), hnext.shows_self.sysPath⟩
  inv := by
    rintro s v l ⟨done, hvisits, hplaced⟩ -
    have hfound := found_of_before hposs hvisits hplaced
    exact ⟨done ++ [v], hvisits.trans (List.append_cons _ _ _), hplaced.visit hposs hvisits hfound⟩
  found := by
    rintro s v l parent pdev ⟨done, hvisits, hplaced⟩ - hother
    exact Found.visit hposs hvisits hplaced (found_of_before hposs hvisits hplaced) hother

theorem visitNode_snd : (visitNode r pdev node s).2 = (s.setUpDevice r pdev node).2 := by
  unfold visitNode
  split
  · next heq => rw [heq]
  · next heq => rw [heq]

theorem visitNode_wrong (h₀ : s₀.Named) (hposs : r.Possible s₀) (hbefore : Before s₀ r s (v :: l))
    (hfound : Found r s v.1 pdev) (hkeeps : ¬ s₀.Keeps v) : (visitNode r pdev v.2 s).2.misused = true := by
  obtain ⟨done, hvisits, hplaced⟩ := hbefore
  have hnot : ¬ s.Keeps v := fun hsame => hkeeps ((same_start h₀ hposs hvisits hplaced).2.mp hsame)
  rw [visitNode_snd]
  exact setUpDevice_wrong (hposs.named v (mem_visits hvisits).1) (found_parent hposs hvisits hplaced hfound).2 hnot

theorem visitNode_misused (pdev : Option ℕ) (node : DiNode) (s : DeviceTree) (h : s.misused = true) :
    (visitNode r pdev node s).2.misused = true := by
  rw [visitNode_snd]
  exact setUpDevice_misused h

/-! ## The refresh -/

theorem resetFound_dev : ((s.resetFound r).dev idev).bus = (s.dev idev).bus ∧
    ((s.resetFound r).dev idev).sysPath = (s.dev idev).sysPath ∧ ((s.resetFound r).dev idev).cap = (s.dev idev).cap := by
  unfold resetFound
  dsimp only
  split_ifs <;> exact ⟨rfl, rfl, rfl⟩

theorem mem_onBus {b : ℕ} : idev ∈ s.onBus b ↔ idev ∈ s.list ∧ (s.dev idev).bus = b := by
  unfold onBus
  rw [List.mem_filter, decide_eq_true_iff]

theorem placed_nil (h : s.Named) (hmisused : s.misused = false) : Placed s r [] (s.resetFound r) := by
  have hmarked (i : ℕ) : ¬ (s.resetFound r).Marked r.ibus i := by
    rintro ⟨hi, hbus, hfound⟩
    have hon : i ∈ s.onBus r.ibus := mem_onBus.mpr ⟨hi, resetFound_dev.1.symm.trans hbus⟩
    unfold resetFound at hfound
    dsimp only at hfound
    rw [if_pos hon] at hfound
    exact Bool.false_ne_true hfound
  refine ⟨⟨h.fresh, ?_, fun i hi => ?_⟩, hmisused, ⟨0, ?_⟩, fun i _ => ?_, fun _ _ _ => rfl, fun i hi hnew => ?_,
    fun i hi hnew => ?_, ?_, ?_, ?_, ?_⟩
  · refine (congrArg List.Nodup (List.map_congr_left fun i _ => ?_)).mpr h.paths
    exact resetFound_dev.2.1
  · rw [resetFound_dev.2.1]
    exact h.devices i hi
  · refine ⟨(List.append_nil _).symm, rfl, (List.append_nil _).symm⟩
  · exact ⟨resetFound_dev.2.1, resetFound_dev.1, resetFound_dev.2.2⟩
  · exact absurd (h.fresh i hi) (Nat.not_lt.mpr hnew)
  · exact absurd (h.fresh i hi) (Nat.not_lt.mpr hnew)
  · exact fun v hv => absurd hv List.not_mem_nil
  · exact fun i hi => absurd hi (hmarked i)
  · exact fun i hi => absurd hi (hmarked i)
  · exact fun _ _ => rfl

theorem before_walk (h : s.Named) (hmisused : s.misused = false) :
    Before s r (s.resetFound r) (s.visits r ++ []) ∧ Found r (s.resetFound r) none none :=
  ⟨⟨[], by rw [List.nil_append, List.append_nil], placed_nil h hmisused⟩, fun _ => rfl, fun node hnode =>
    absurd hnode.symm (Option.some_ne_none node)⟩

/-- What a walk makes whose visits all keep to what is listed. -/
theorem walked_placed (h : s.Named) (hmisused : s.misused = false) (hposs : r.Possible s)
    (hkeeps : ∀ v ∈ s.visits r, s.Keeps v) : Placed s r (s.visits r) (s.walked r) := by
  obtain ⟨hbefore, hfound⟩ := @before_walk s r h hmisused
  have hsteps := steps h hposs
  unfold walked createNewDevice
  rw [hsteps.walk_eq hbefore hfound hkeeps]
  obtain ⟨done, hdone, hplaced⟩ := (hsteps.foldl_found hbefore hkeeps hfound).1
  rw [List.append_nil] at hdone
  rw [← hdone] at hplaced
  exact hplaced

/-- A walk leaves the memory of the devices alone if and only if every visit keeps to what is listed. -/
theorem walked_iff (h : s.Named) (hmisused : s.misused = false) (hposs : r.Possible s) :
    (s.walked r).misused = false ↔ ∀ v ∈ s.visits r, s.Keeps v := by
  constructor
  · intro hwalked
    obtain ⟨hbefore, hfound⟩ := @before_walk s r h hmisused
    refine (steps h hposs).ok_of_walk visitNode_misused ?_ hbefore hfound fun hbad => ?_
    · exact fun hbefore hfound hkeeps => visitNode_wrong h hposs hbefore hfound hkeeps
    · exact Bool.false_ne_true (hwalked.symm.trans hbad)
  · exact fun hkeeps => (walked_placed h hmisused hposs hkeeps).misused

/-- What the last loop removes. -/
def gone (t : DeviceTree) (ibus : ℕ) : List ℕ := (t.onBus ibus).filter fun i => (t.dev i).found = false

theorem foldl_sweep {t : DeviceTree} {l : List ℕ} (ht : t.list.Nodup) (hl : l.Nodup) :
    l.foldl (fun t i => t.sweep r i) t =
      { t with list := t.list.filter fun i => i ∉ l.filter fun i => (t.dev i).found = false
               queued := t.queued ++ (l.filter fun i => (t.dev i).found = false).flatMap fun i => r.events i .remove } := by
  induction l generalizing t with
  | nil =>
    show t = { t with list := t.list.filter fun i => i ∉ [], queued := t.queued ++ [] }
    rw [List.append_nil, List.filter_eq_self.mpr fun _ _ => decide_eq_true List.not_mem_nil]
  | cons i l ih =>
    obtain ⟨hi, hrest⟩ := List.nodup_cons.mp hl
    rw [List.foldl_cons]
    unfold sweep
    by_cases hfound : (t.dev i).found = true
    · rw [if_pos hfound, List.filter_cons_of_neg (by simp [hfound])]
      exact ih ht hrest
    · rw [if_neg hfound, List.filter_cons_of_pos (by simp [hfound])]
      have herase : (t.usbiRemoveDevice r i).list.Nodup := ht.erase i
      have hstep := ih herase hrest
      unfold sweep at hstep
      rw [hstep]
      unfold usbiRemoveDevice
      dsimp only
      rw [ht.erase_eq_filter, List.filter_filter, List.flatMap_cons, List.append_assoc]
      congr 1
      refine List.filter_congr fun j _ => ?_
      by_cases hji : j = i
      · simp [hji]
      · simp [hji]

/-- A walk after the last loop. -/
def swept (t : DeviceTree) (r : TreeRefresh) : DeviceTree :=
  { t with
    list := t.list.filter fun i => i ∉ t.gone r.ibus
    queued := t.queued ++ (t.gone r.ibus).flatMap fun i => r.events i .remove }

/-- What a refresh makes of its walk. -/
theorem refresh_eq (hruns : r.diInit = true ∧ r.diDevlinkInit = true) (ht : (s.walked r).Named) :
    (s.solarisRefreshDevices r).2 = (s.walked r).swept r := by
  unfold solarisRefreshDevices swept gone
  rw [hruns.1, hruns.2, if_neg Bool.true_eq_false_eq_False, if_neg Bool.true_eq_false_eq_False]
  have hnodup : (s.walked r).list.Nodup := ht.paths.of_map
  exact foldl_sweep hnodup (hnodup.filter _)

theorem mem_gone {t : DeviceTree} {b : ℕ} :
    idev ∈ t.gone b ↔ idev ∈ t.list ∧ (t.dev idev).bus = b ∧ (t.dev idev).found = false := by
  unfold gone
  rw [List.mem_filter, mem_onBus, decide_eq_true_iff, and_assoc]

theorem mem_swept : i ∈ (s.swept r).list ↔ i ∈ s.list ∧ ¬ ((s.dev i).bus = r.ibus ∧ (s.dev i).found = false) := by
  unfold swept
  rw [List.mem_filter, decide_eq_true_iff, mem_gone]
  exact and_congr_right fun hi => not_congr (and_iff_right hi)

theorem swept_marked : (s.swept r).Marked r.ibus i ↔ s.Marked r.ibus i := by
  unfold Marked
  rw [mem_swept]
  refine ⟨fun h => ⟨h.1.1, h.2⟩, fun h => ⟨⟨h.1, fun hnot => ?_⟩, h.2⟩⟩
  exact Bool.false_ne_true (hnot.2.symm.trans h.2.2)

theorem swept_onBus : i ∈ (s.swept r).onBus r.ibus ↔ s.Marked r.ibus i := by
  rw [← swept_marked, mem_onBus]
  refine ⟨fun h => ⟨h.1, h.2, ?_⟩, fun h => ⟨h.1, h.2.1⟩⟩
  by_contra hfound
  exact (mem_swept.mp h.1).2 ⟨h.2, Bool.eq_false_of_not_eq_true hfound⟩

theorem swept_shows (h : s.Shows r.ibus v i) : (s.swept r).Shows r.ibus v i where
  sysPath := h.sysPath
  bus := h.bus
  found := h.found
  nports := h.nports
  devnum := h.devnum
  root := h.root
  parent node hnode := by
    obtain ⟨hport, p, hp, hparent, hpath, hmarked⟩ := h.parent node hnode
    exact ⟨hport, p, (swept_marked.mpr ⟨hp, hmarked⟩).1, hparent, hpath, hmarked⟩

theorem swept_linked (h : s.Linked r.ibus i) : (s.swept r).Linked r.ibus i := by
  intro k hk c
  rw [swept_marked]
  exact h k hk c

theorem mem_kept : v ∈ s.kept r ↔ v ∈ s.visits r ∧ s.good r v = true := List.mem_filter

section

variable {t : DeviceTree}

theorem swept_named (h : Placed s r (s.visits r) t) : (t.swept r).Named where
  fresh i hi := h.fresh i (mem_swept.mp hi).1
  paths := h.paths.sublist (List.filter_sublist.map _)
  devices i hi := h.devices i (mem_swept.mp hi).1

theorem swept_listed (h : Placed s r (s.visits r) t) (hposs : r.Possible s) :
    (((t.swept r).onBus r.ibus).map fun i => (t.dev i).sysPath).Perm ((s.kept r).map fun v => v.2.fullPath) := by
  have hleft : (((t.swept r).onBus r.ibus).map fun i => (t.dev i).sysPath).Nodup :=
    h.paths.sublist ((List.filter_sublist.trans List.filter_sublist).map _)
  have hright : ((s.kept r).map fun v => v.2.fullPath).Nodup := by
    have hkept : (s.kept r).Sublist r.nodes := List.filter_sublist.trans (s.visits_sublist r)
    have hpaths := hposs.distinct.sublist (hkept.map _)
    have hfull := hpaths.map (List.append_right_injective devicesDir)
    rw [List.map_map] at hfull
    exact hfull
  refine (List.perm_ext_iff_of_nodup hleft hright).mpr fun path => ?_
  rw [List.mem_map, List.mem_map]
  constructor
  · rintro ⟨i, hi, rfl⟩
    obtain ⟨v, hv, hgood, hpath⟩ := h.marked i (swept_onBus.mp hi)
    exact ⟨v, mem_kept.mpr ⟨hv, hgood⟩, hpath.symm⟩
  · rintro ⟨v, hv, rfl⟩
    obtain ⟨hv, hgood⟩ := mem_kept.mp hv
    obtain ⟨i, hi, hshows⟩ := h.shown v hv hgood
    exact ⟨i, swept_onBus.mpr ⟨hi, hshows.bus, hshows.found⟩, hshows.sysPath⟩

/-- A device of the bus stays if and only if its path is that of a good node. -/
theorem swept_survives (h : Placed s r (s.visits r) t) (hi : i ∈ s.onBus r.ibus) :
    i ∈ (t.swept r).list ↔ ∃ v ∈ s.kept r, (s.dev i).sysPath = v.2.fullPath := by
  obtain ⟨hlisted, hbus⟩ := mem_onBus.mp hi
  obtain ⟨hpath, hbus', -⟩ := h.kept i hlisted
  obtain ⟨n, hlist, -⟩ := h.added
  have hmem : i ∈ t.list := hlist ▸ List.mem_append_left _ hlisted
  constructor
  · intro hstay
    obtain ⟨v, hv, hgood, hv'⟩ := h.marked i (swept_onBus.mp (mem_onBus.mpr ⟨hstay, hbus'.trans hbus⟩))
    exact ⟨v, mem_kept.mpr ⟨hv, hgood⟩, hpath.symm.trans hv'⟩
  · rintro ⟨v, hv, hv'⟩
    obtain ⟨hv, hgood⟩ := mem_kept.mp hv
    obtain ⟨j, hj, hshows⟩ := h.shown v hv hgood
    obtain rfl : j = i := h.eq_of_path hj hmem (hshows.sysPath.trans (hpath.trans hv').symm)
    exact (swept_marked.mpr ⟨hj, hshows.bus, hshows.found⟩).1

theorem swept_others (h : Placed s r (s.visits r) t) (hposs : r.Possible s) (hi : i ∈ s.list) (hbus : (s.dev i).bus ≠ r.ibus) :
    i ∈ (t.swept r).list ∧ t.dev i = s.dev i := by
  have hother : t.dev i = s.dev i := by
    rw [h.untouched i hi fun v hv _ hpath => hbus (hposs.others i hi v ((s.visits_sublist r).subset hv) hpath)]
    exact if_neg fun hon => hbus (mem_onBus.mp hon).2
  obtain ⟨n, hlist, -⟩ := h.added
  refine ⟨mem_swept.mpr ⟨hlist ▸ List.mem_append_left _ hi, fun hgone => hbus ?_⟩, hother⟩
  rw [← hother]
  exact hgone.1

theorem swept_events (h : Placed s r (s.visits r) t) (hs : s.Named) : (t.swept r).queued = s.queued ++
    ((t.swept r).list.filter fun i => i ∉ s.list).flatMap (fun i => r.events i .attach) ++
    (s.list.filter fun i => i ∉ (t.swept r).list).flatMap fun i => r.events i .remove := by
  obtain ⟨n, hlist, -, hqueued⟩ := h.added
  have hnew : ∀ i ∈ List.range' s.curDeviceId n, i ∉ s.list ∧ t.Marked r.ibus i := by
    intro i hi
    have hle := (List.mem_range'_1.mp hi).1
    exact ⟨fun hold => Nat.not_lt.mpr hle (hs.fresh i hold), h.fresh_marked i (hlist ▸ List.mem_append_right _ hi) hle⟩
  have hadded : (t.swept r).list.filter (fun i => i ∉ s.list) = List.range' s.curDeviceId n := by
    unfold swept
    rw [List.filter_filter, hlist, List.filter_append, List.filter_eq_nil_iff.mpr fun i hi => by simp [hi], List.nil_append,
      List.filter_eq_self]
    intro i hi
    obtain ⟨hnot, -, -, hfound⟩ := hnew i hi
    simp [hnot, mem_gone, hfound]
  have hgone : s.list.filter (fun i => i ∉ (t.swept r).list) = t.gone r.ibus := by
    have hnone : (List.range' s.curDeviceId n).filter
        (fun i => decide ((t.dev i).found = false) && decide ((t.dev i).bus = r.ibus)) = [] :=
      List.filter_eq_nil_iff.mpr fun i hi => by simp [(hnew i hi).2.2.2]
    unfold gone onBus
    rw [List.filter_filter, hlist, List.filter_append, hnone, List.append_nil]
    refine List.filter_congr fun i hi => ?_
    have hmem : i ∈ t.list := hlist ▸ List.mem_append_left _ hi
    simp [mem_swept, hmem, and_comm]
  rw [hadded, hgone, ← hqueued]
  rfl

/-- What the refresh leaves of its walk. -/
theorem swept_mirrors (h : Placed s r (s.visits r) t) (hs : s.Named) (hposs : r.Possible s) : Mirrors r s (t.swept r) where
  listed := swept_listed h hposs
  shown v hv := by
    obtain ⟨hv, hgood⟩ := mem_kept.mp hv
    obtain ⟨i, hi, hshows⟩ := h.shown v hv hgood
    exact ⟨i, swept_onBus.mpr ⟨hi, hshows.bus, hshows.found⟩, swept_shows hshows⟩
  linked i hi := swept_linked (h.linked i (swept_onBus.mp hi))
  survivors i hi := ⟨(h.kept i (mem_onBus.mp hi).1).1, swept_survives h hi⟩
  others i hi hbus := swept_others h hposs hi hbus
  events := swept_events h hs

end

end

/-- The steps of the library. -/
def RefreshStep (s : DeviceTree) (r : TreeRefresh) (s' : DeviceTree) : Prop :=
  r.Possible s ∧ s' = (s.solarisRefreshDevices r).2

/-- Before the first refresh no device is listed. -/
def start (heap : ℕ → TreeDevice) : DeviceTree := ⟨heap, [], fun _ => none, 1, [], false⟩

section

variable {s t : DeviceTree} {r : TreeRefresh} {rs : List TreeRefresh} {heap : ℕ → TreeDevice}

theorem refresh_fails (hruns : ¬ (r.diInit = true ∧ r.diDevlinkInit = true)) : (s.solarisRefreshDevices r).2 = s := by
  unfold solarisRefreshDevices
  cases hinit : r.diInit with
  | false => rfl
  | true =>
    cases hlink : r.diDevlinkInit with
    | false => rfl
    | true => exact absurd ⟨hinit, hlink⟩ hruns

theorem foldl_misused (l : List ℕ) (t : DeviceTree) : (l.foldl (fun t i => t.sweep r i) t).misused = t.misused := by
  induction l generalizing t with
  | nil => rfl
  | cons i l ih =>
    rw [List.foldl_cons, ih]
    unfold sweep
    split_ifs <;> rfl

/-- Through every sequence of refreshes of the buses, the memory of the devices is left alone and each refresh makes the list
of its bus mirror the devinfo tree, exactly as long as no node of a listed device fails a check, or has more ports than `children`
of the device was allocated for. -/
theorem tree_mirrored_iff :
    Run RefreshStep (fun s r => (s.solarisRefreshDevices r).2.misused = false ∧
      (r.diInit = true ∧ r.diDevlinkInit = true → Mirrors r s (s.solarisRefreshDevices r).2)) (start heap) rs t ↔
    Run RefreshStep (fun s r => r.diInit = true ∧ r.diDevlinkInit = true → ∀ v ∈ s.visits r, s.Keeps v) (start heap) rs t := by
  refine run_iff (I := fun s => s.Named ∧ s.misused = false) ?_ ?_ ⟨⟨?_, List.nodup_nil, ?_⟩, rfl⟩
  · rintro s r t ⟨hs, hmisused⟩ ⟨hposs, rfl⟩
    by_cases hruns : r.diInit = true ∧ r.diDevlinkInit = true
    · rw [forall_prop_of_true hruns, forall_prop_of_true hruns, ← walked_iff hs hmisused hposs]
      constructor
      · rintro ⟨hleft, -⟩
        unfold solarisRefreshDevices at hleft
        rw [hruns.1, hruns.2, if_neg Bool.true_eq_false_eq_False, if_neg Bool.true_eq_false_eq_False, foldl_misused] at hleft
        exact hleft
      · intro hwalked
        have hplaced := walked_placed hs hmisused hposs ((walked_iff hs hmisused hposs).mp hwalked)
        rw [refresh_eq hruns hplaced.toNamed]
        exact ⟨hwalked, swept_mirrors hplaced hs hposs⟩
    · rw [refresh_fails hruns]
      exact iff_of_true ⟨hmisused, fun h => absurd h hruns⟩ fun h => absurd h hruns
  · rintro s r t ⟨hs, hmisused⟩ hkeeps ⟨hposs, rfl⟩
    by_cases hruns : r.diInit = true ∧ r.diDevlinkInit = true
    · have hplaced := walked_placed hs hmisused hposs (hkeeps hruns)
      rw [refresh_eq hruns hplaced.toNamed]
      exact ⟨swept_named hplaced, hplaced.misused⟩
    · rw [refresh_fails hruns]
      exact ⟨hs, hmisused⟩
  · exact fun i hi => absurd hi List.not_mem_nil
  · exact fun i hi => absurd hi List.not_mem_nil

/-! A root hub that comes back with more ports: its array of children is overrun. -/

def hubWith (ports : ℤ) : TreeRefresh where
  ibus := 1
  rootNode := ⟨[0x2f], [], [], [ports]⟩
  below := .nil
  handles := []

example : (((start fun _ => zeroed (hubWith 2)).solarisRefreshDevices (hubWith 2)).2.solarisRefreshDevices
    (hubWith 4)).2.misused = true := by decide

end

end DeviceTree

end Solaris

end OpenUsb
