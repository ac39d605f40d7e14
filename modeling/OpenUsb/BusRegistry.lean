import OpenUsb.Lib.Reconcile
import OpenUsb.Lib.Runs
import Mathlib

/-!
# BusRegistry — the list of the buses and its refresh from the backends

`refresh_bus` compares what one backend reports with `usbi_buses`, which holds the buses of all backends: a bus stays when
the report has one with its number or its path, and what is left of the report is added.  A backend is its place in the list
of the backends, and stands for its `ops`.

* `registry_union_iff`: after which refreshes the list holds what the backends report.
-/

namespace OpenUsb

/-! ## The refresh -/

/-- A bus as a backend reports it. -/
structure FoundBus where
  busnum : ℕ
  sysPath : List UInt8
  deriving DecidableEq, Repr

structure UsbiBus extends FoundBus where
  busid : ℕ
  ops : ℕ
  deriving DecidableEq, Repr

/-- `usbi_buses` and `cur_bus_id`. -/
structure Registry where
  buses : List UsbiBus
  curBusId : ℕ
  deriving DecidableEq, Repr

namespace Registry

/-- The test of `refresh_bus`. -/
def isSame (ibus : UsbiBus) (nibus : FoundBus) : Bool :=
  ibus.busnum = nibus.busnum ∨ ibus.sysPath = nibus.sysPath

/-- `usbi_add_bus`. -/
def usbiAddBus (r : Registry) (backend : ℕ) (ibus : FoundBus) : Registry where
  buses := r.buses ++ [{ toFoundBus := ibus, busid := r.curBusId, ops := backend }]
  curBusId := r.curBusId + 1

/-- `refresh_bus`, when `find_buses` fails or gives this list. -/
def refreshBus (r : Registry) (backend : ℕ) (busses : Option (List FoundBus)) : Registry :=
  match busses with
  | none => r
  | some busses =>
    let walked := reconcile isSame r.buses busses
    walked.2.foldl (fun r ibus => r.usbiAddBus backend ibus) { r with buses := walked.1 }

/-- `usbi_refresh_busses` from backend `i` on. -/
def refreshFrom (r : Registry) (i : ℕ) : List (Option (List FoundBus)) → Registry
  | [] => r
  | busses :: rest => refreshFrom (r.refreshBus i busses) (i + 1) rest

/-- `usbi_refresh_busses`. -/
def usbiRefreshBusses (r : Registry) (reports : List (Option (List FoundBus))) : Registry := r.refreshFrom 0 reports

/-- No backend has been asked yet. -/
def start : Registry := ⟨[], 1⟩

end Registry

/-- A refresh in which every backend reports its buses. -/
inductive RefreshStep : Registry → List (List FoundBus) → Registry → Prop where
  | refresh {r : Registry} {reports : List (List FoundBus)} :
      RefreshStep r reports (r.usbiRefreshBusses (reports.map some))

/-! ## The union of the reports -/

/-- The bus and whose it is. -/
def UsbiBus.key (bus : UsbiBus) : ℕ × FoundBus := (bus.ops, bus.toFoundBus)

/-- What the backends from `i` on report, each bus with its backend. -/
def reportedFrom (i : ℕ) : List (List FoundBus) → List (ℕ × FoundBus)
  | [] => []
  | busses :: rest => busses.map (Prod.mk i) ++ reportedFrom (i + 1) rest

/-- The refresh of each backend leaves the buses of the others on the list. -/
def LeavesOthers (r : Registry) (i : ℕ) : List (List FoundBus) → Prop
  | [] => True
  | busses :: rest => (∀ bus ∈ r.buses, bus.ops ≠ i → bus ∈ (r.refreshBus i (some busses)).buses) ∧
      LeavesOthers (r.refreshBus i (some busses)) (i + 1) rest

/-- The list holds one bus for each that is reported, with the `ops` of its backend; a bus reported before and after keeps
its id; and no refresh touches the buses of another backend. -/
structure IsUnion (r : Registry) (reports : List (List FoundBus)) : Prop where
  union : ((r.usbiRefreshBusses (reports.map some)).buses.map UsbiBus.key).Perm (reportedFrom 0 reports)
  ids : ∀ old ∈ r.buses, ∀ bus ∈ (r.usbiRefreshBusses (reports.map some)).buses, old.key = bus.key →
    old.busid = bus.busid
  others : LeavesOthers r 0 reports

/-- The numbers and the paths of one report are distinct, and every backend reports. -/
structure ProperReports (backends : ℕ) (reports : List (List FoundBus)) : Prop where
  length : reports.length = backends
  nums : ∀ busses ∈ reports, (busses.map FoundBus.busnum).Nodup
  paths : ∀ busses ∈ reports, (busses.map FoundBus.sysPath).Nodup

/-- With one backend, a bus on the list and a reported one agree in both number and path or in none; with several, the list
is empty and only the last backend reports anything. -/
def Separate (r : Registry) : List (List FoundBus) → Prop
  | [] => True
  | [busses] => ∀ ibus ∈ r.buses, ∀ nibus ∈ busses, ibus.busnum = nibus.busnum ↔ ibus.sysPath = nibus.sysPath
  | busses :: busses' :: rest => r.buses = [] ∧ ∀ b ∈ (busses :: busses' :: rest).dropLast, b = []

section

variable {r : Registry} {i : ℕ} {busses : List FoundBus} {reports : List (List FoundBus)} {bus : UsbiBus}

/-- What the buses that are new add to the list. -/
theorem foldl_usbiAddBus (left : List FoundBus) (r : Registry) :
    ((left.foldl (fun r ibus => r.usbiAddBus i ibus) r).buses.map UsbiBus.key =
      r.buses.map UsbiBus.key ++ left.map (Prod.mk i)) ∧
    (∀ bus ∈ r.buses, bus ∈ (left.foldl (fun r ibus => r.usbiAddBus i ibus) r).buses) ∧
    ∀ bus ∈ (left.foldl (fun r ibus => r.usbiAddBus i ibus) r).buses, bus ∈ r.buses ∨ bus.toFoundBus ∈ left := by
  induction left generalizing r with
  | nil => exact ⟨(List.append_nil _).symm, fun _ => id, fun _ => .inl⟩
  | cons ibus left ih =>
    obtain ⟨hkeys, hkept, hnew⟩ := ih (r.usbiAddBus i ibus)
    refine ⟨?_, ?_, ?_⟩
    · rw [List.foldl_cons, hkeys]
      simp [Registry.usbiAddBus, UsbiBus.key]
    · intro bus hbus
      exact hkept bus (List.mem_append_left _ hbus)
    · intro bus hbus
      rcases hnew bus hbus with h | h
      · rcases List.mem_append.mp h with h | h
        · exact .inl h
        · rw [List.mem_singleton.mp h]
          exact .inr List.mem_cons_self
      · exact .inr (List.mem_cons_of_mem _ h)

/-- What `refresh_bus` makes of the list. -/
theorem refreshBus_spec (r : Registry) (i : ℕ) (busses : List FoundBus) :
    ((r.refreshBus i (some busses)).buses.map UsbiBus.key =
      (reconcile Registry.isSame r.buses busses).1.map UsbiBus.key ++
        (reconcile Registry.isSame r.buses busses).2.map (Prod.mk i)) ∧
    (∀ bus ∈ (reconcile Registry.isSame r.buses busses).1, bus ∈ (r.refreshBus i (some busses)).buses) ∧
    ∀ bus ∈ (r.refreshBus i (some busses)).buses,
      bus ∈ (reconcile Registry.isSame r.buses busses).1 ∨
      bus.toFoundBus ∈ (reconcile Registry.isSame r.buses busses).2 :=
  foldl_usbiAddBus _ _

/-- There are as many buses as the backend that was asked last reports. -/
theorem refreshBus_length : (r.refreshBus i (some busses)).buses.length = busses.length := by
  rw [← List.length_map UsbiBus.key, (refreshBus_spec r i busses).1, List.length_append, List.length_map,
    List.length_map]
  exact reconcile_length _ _ _

theorem refreshFrom_length (h : reports ≠ []) :
    (r.refreshFrom i (reports.map some)).buses.length = (reports.getLast h).length := by
  induction reports generalizing r i with
  | nil => exact absurd rfl h
  | cons busses rest ih =>
    by_cases hrest : rest = []
    · subst hrest
      exact refreshBus_length
    · rw [List.getLast_cons hrest]
      exact ih hrest

theorem length_reportedFrom : (reportedFrom i reports).length = (reports.map List.length).sum := by
  induction reports generalizing i with
  | nil => rfl
  | cons busses rest ih =>
    rw [reportedFrom, List.length_append, List.length_map, ih, List.map_cons, List.sum_cons]

/-! ## One backend -/

theorem isSame_iff {nibus : FoundBus} : Registry.isSame bus nibus = true ↔
    bus.busnum = nibus.busnum ∨ bus.sysPath = nibus.sysPath := by
  unfold Registry.isSame
  exact decide_eq_true_iff

theorem foundBus_ext {a b : FoundBus} (hnum : a.busnum = b.busnum) (hpath : a.sysPath = b.sysPath) : a = b := by
  cases a
  cases b
  exact congrArg₂ FoundBus.mk hnum hpath

/-- Two entries of a report that agree in one of the two are the same. -/
theorem eq_of_isSame {a b : FoundBus} (hnums : (busses.map FoundBus.busnum).Nodup)
    (hpaths : (busses.map FoundBus.sysPath).Nodup) (ha : a ∈ busses) (hb : b ∈ busses)
    (h : a.busnum = b.busnum ∨ a.sysPath = b.sysPath) : a = b := by
  rcases h with h | h
  · exact List.inj_on_of_nodup_map hnums ha hb h
  · exact List.inj_on_of_nodup_map hpaths ha hb h

/-- The list of a library with one backend. -/
structure OneBackend (r : Registry) : Prop where
  ops : ∀ bus ∈ r.buses, bus.ops = 0
  nums : (r.buses.map fun bus => bus.busnum).Nodup
  paths : (r.buses.map fun bus => bus.sysPath).Nodup

/-- If the list is the report afterwards, no two buses agree in only one of the two. -/
theorem OneBackend.separate (h : OneBackend r) (hnums : (busses.map FoundBus.busnum).Nodup)
    (hpaths : (busses.map FoundBus.sysPath).Nodup)
    (hunion : ((r.refreshBus 0 (some busses)).buses.map UsbiBus.key).Perm (busses.map (Prod.mk 0))) :
    Separate r [busses] := by
  have hkept : ∀ bus ∈ (reconcile Registry.isSame r.buses busses).1, bus.toFoundBus ∈ busses := by
    intro bus hbus
    have hkey := hunion.mem_iff.mp (List.mem_map_of_mem ((refreshBus_spec r 0 busses).2.1 bus hbus))
    obtain ⟨nibus, hnibus, heq⟩ := List.mem_map.mp hkey
    rw [← (Prod.mk.inj heq).2]
    exact hnibus
  have hboth : ∀ ibus ∈ r.buses, ∀ nibus ∈ busses, Registry.isSame ibus nibus = true → ibus.toFoundBus = nibus := by
    intro ibus hibus nibus hnibus hsame
    rcases reconcile_dropped Registry.isSame busses hibus with hin | hdropped
    · exact eq_of_isSame hnums hpaths (hkept ibus hin) hnibus (isSame_iff.mp hsame)
    · rcases reconcile_taken Registry.isSame r.buses hnibus with hleft | ⟨o, ho, hsame'⟩
      · exact absurd (hsame.symm.trans (hdropped nibus hleft)) nofun
      · have heq : o.toFoundBus = nibus := eq_of_isSame hnums hpaths (hkept o ho) hnibus (isSame_iff.mp hsame')
        have hibo : ibus = o := by
          have ho' := reconcile_kept ho
          rcases isSame_iff.mp hsame with hnum | hpath
          · exact List.inj_on_of_nodup_map h.nums hibus ho' (hnum.trans (congrArg FoundBus.busnum heq.symm))
          · exact List.inj_on_of_nodup_map h.paths hibus ho' (hpath.trans (congrArg FoundBus.sysPath heq.symm))
        rw [hibo]
        exact heq
  intro ibus hibus nibus hnibus
  constructor
  · intro hnum
    exact congrArg FoundBus.sysPath (hboth ibus hibus nibus hnibus (isSame_iff.mpr (.inl hnum)))
  · intro hpath
    exact congrArg FoundBus.busnum (hboth ibus hibus nibus hnibus (isSame_iff.mpr (.inr hpath)))

/-- If no two buses agree in only one of the two, the list is the report, and what stays keeps its id. -/
theorem OneBackend.isUnion (h : OneBackend r) (hnums : (busses.map FoundBus.busnum).Nodup)
    (hsep : Separate r [busses]) : IsUnion r [busses] := by
  have hsame : ∀ ibus ∈ r.buses, ∀ nibus ∈ busses, Registry.isSame ibus nibus = true → ibus.toFoundBus = nibus := by
    intro ibus hibus nibus hnibus htrue
    have hiff := hsep ibus hibus nibus hnibus
    rcases isSame_iff.mp htrue with hnum | hpath
    · exact foundBus_ext hnum (hiff.mp hnum)
    · exact foundBus_ext (hiff.mpr hpath) hpath
  obtain ⟨hkeys, -, hmem⟩ := refreshBus_spec r 0 busses
  refine ⟨?_, ?_, ?_⟩
  · show ((r.refreshBus 0 (some busses)).buses.map UsbiBus.key).Perm (busses.map (Prod.mk 0) ++ [])
    rw [hkeys, List.append_nil]
    have hkept : (reconcile Registry.isSame r.buses busses).1.map UsbiBus.key =
        ((reconcile Registry.isSame r.buses busses).1.map UsbiBus.toFoundBus).map (Prod.mk 0) := by
      rw [List.map_map]
      refine List.map_congr_left fun bus hbus => ?_
      exact congrArg (Prod.mk · bus.toFoundBus) (h.ops bus (reconcile_kept hbus))
    rw [hkept, ← List.map_append]
    exact (reconcile_perm hsame).map _
  · intro old hold bus hbus hkey
    have hfound : old.toFoundBus = bus.toFoundBus := (Prod.mk.inj hkey).2
    rcases hmem bus hbus with hin | hnew
    · have heq := List.inj_on_of_nodup_map h.nums hold (reconcile_kept hin) (congrArg FoundBus.busnum hfound)
      rw [heq]
    · have hnodup := hnums.of_map
      have hfalse := reconcile_fresh hsame hnodup hold hnew
      have htrue : Registry.isSame old bus.toFoundBus = true := isSame_iff.mpr (.inl (congrArg FoundBus.busnum hfound))
      exact absurd (htrue.symm.trans hfalse) nofun
  · exact ⟨fun bus hbus hops => absurd (h.ops bus hbus) hops, trivial⟩

/-! ## Several backends -/

/-- The lists before the last are empty when all of them have no more entries than the last. -/
theorem dropLast_empty (h : reports ≠ []) (hsum : (reports.map List.length).sum = (reports.getLast h).length) :
    ∀ b ∈ reports.dropLast, b = [] := by
  have hsplit : (reports.map List.length).sum =
      (reports.dropLast.map List.length).sum + (reports.getLast h).length := by
    conv_lhs => rw [← List.dropLast_append_getLast h]
    rw [List.map_append, List.sum_append, List.map_singleton, List.sum_singleton]
  have hzero : (reports.dropLast.map List.length).sum = 0 := by omega
  intro b hb
  exact List.length_eq_zero_iff.mp (List.sum_eq_zero_iff_forall_eq_nat.mp hzero _ (List.mem_map_of_mem hb))

/-- On an empty list only the last backend has something to add. -/
theorem refreshFrom_empty (hr : r.buses = []) (hempty : ∀ b ∈ reports.dropLast, b = []) :
    (r.refreshFrom i (reports.map some)).buses.map UsbiBus.key = reportedFrom i reports ∧ LeavesOthers r i reports := by
  induction reports generalizing r i with
  | nil =>
    refine ⟨?_, trivial⟩
    show r.buses.map UsbiBus.key = []
    rw [hr]
    rfl
  | cons busses rest ih =>
    by_cases hrest : rest = []
    · subst hrest
      refine ⟨?_, ?_, trivial⟩
      · show (r.refreshBus i (some busses)).buses.map UsbiBus.key = busses.map (Prod.mk i) ++ []
        rw [(refreshBus_spec r i busses).1, hr, List.append_nil]
        rfl
      · intro bus hbus
        rw [hr] at hbus
        exact absurd hbus List.not_mem_nil
    · rw [List.dropLast_cons_of_ne_nil hrest] at hempty
      obtain ⟨hbusses, hrestEmpty⟩ := List.forall_mem_cons.mp hempty
      subst hbusses
      have hbuses : (r.refreshBus i (some [])).buses = [] := List.length_eq_zero_iff.mp refreshBus_length
      obtain ⟨hkeys, hothers⟩ := ih (r := r.refreshBus i (some [])) (i := i + 1) hbuses hrestEmpty
      refine ⟨hkeys, ?_, hothers⟩
      intro bus hbus
      rw [hr] at hbus
      exact absurd hbus List.not_mem_nil

/-- What the list is between refreshes that keep it the union of the reports. -/
structure Follows (backends : ℕ) (r : Registry) : Prop where
  none : backends = 0 → r.buses = []
  one : backends = 1 → OneBackend r
  several : 2 ≤ backends → ∀ bus ∈ r.buses, bus.ops ≠ 0

theorem follows_start (backends : ℕ) : Follows backends .start where
  none _ := rfl
  one _ := ⟨fun _ h => absurd h List.not_mem_nil, List.nodup_nil, List.nodup_nil⟩
  several _ _ h := absurd h List.not_mem_nil

/-- With several backends the list is the union only when it was empty and only the last one reports. -/
theorem isUnion_several {b b' : List FoundBus} {rest : List (List FoundBus)} (hr : ∀ bus ∈ r.buses, bus.ops ≠ 0) :
    IsUnion r (b :: b' :: rest) ↔ Separate r (b :: b' :: rest) := by
  constructor
  · intro h
    have hne : b :: b' :: rest ≠ [] := List.cons_ne_nil _ _
    have hlen := h.union.length_eq
    rw [List.length_map, length_reportedFrom] at hlen
    have hempty := dropLast_empty hne (hlen.symm.trans (refreshFrom_length hne))
    refine ⟨?_, hempty⟩
    have hb : b = [] := hempty b (by simp)
    subst hb
    have hgone : (r.refreshBus 0 (some [])).buses = [] := List.length_eq_zero_iff.mp refreshBus_length
    apply List.eq_nil_iff_forall_not_mem.mpr
    intro bus hbus
    have hstays := h.others.1 bus hbus (hr bus hbus)
    rw [hgone] at hstays
    exact absurd hstays List.not_mem_nil
  · rintro ⟨hr, hempty⟩
    obtain ⟨hkeys, hothers⟩ := refreshFrom_empty (i := 0) hr hempty
    refine ⟨?_, ?_, hothers⟩
    · exact List.Perm.of_eq hkeys
    · intro old hold
      rw [hr] at hold
      exact absurd hold List.not_mem_nil

theorem isUnion_iff {backends : ℕ} (hr : Follows backends r) (hproper : ProperReports backends reports) :
    IsUnion r reports ↔ Separate r reports := by
  match reports, hproper with
  | [], hproper =>
    have hempty := hr.none hproper.length.symm
    refine iff_of_true ⟨?_, ?_, trivial⟩ trivial
    · show (r.buses.map UsbiBus.key).Perm []
      rw [hempty]
      exact List.Perm.refl _
    · intro old hold
      rw [hempty] at hold
      exact absurd hold List.not_mem_nil
  | [busses], hproper =>
    have hone := hr.one hproper.length.symm
    have hnums := hproper.nums busses (List.mem_singleton_self busses)
    constructor
    · intro h
      have hunion := h.union
      rw [reportedFrom, reportedFrom, List.append_nil] at hunion
      exact hone.separate hnums (hproper.paths busses (List.mem_singleton_self busses)) hunion
    · exact hone.isUnion hnums
  | b :: b' :: rest, hproper =>
    apply isUnion_several
    apply hr.several
    rw [← hproper.length]
    exact Nat.le_add_left 2 rest.length

theorem le_of_mem_reportedFrom {p : ℕ × FoundBus} (h : p ∈ reportedFrom i reports) : i ≤ p.1 := by
  induction reports generalizing i with
  | nil => exact absurd h List.not_mem_nil
  | cons busses rest ih =>
    rcases List.mem_append.mp h with h | h
    · obtain ⟨nibus, -, rfl⟩ := List.mem_map.mp h
      exact Nat.le_refl _
    · exact Nat.le_trans (Nat.le_succ i) (ih h)

/-- A refresh that keeps the list the union of the reports can be followed by another. -/
theorem Follows.step {backends : ℕ} (hproper : ProperReports backends reports) (h : IsUnion r reports)
    (hsep : Separate r reports) : Follows backends (r.usbiRefreshBusses (reports.map some)) where
  none h0 := by
    have hnil : reports = [] := List.length_eq_zero_iff.mp (hproper.length.trans h0)
    subst hnil
    exact List.map_eq_nil_iff.mp h.union.eq_nil
  one h1 := by
    obtain ⟨busses, rfl⟩ := List.length_eq_one_iff.mp (hproper.length.trans h1)
    have hunion := h.union
    rw [reportedFrom, reportedFrom, List.append_nil] at hunion
    have hfound := hunion.map Prod.snd
    rw [List.map_map, List.map_map, Function.comp_def, Function.comp_def] at hfound
    have hnums := hproper.nums busses (List.mem_singleton_self busses)
    have hpaths := hproper.paths busses (List.mem_singleton_self busses)
    refine ⟨?_, ?_, ?_⟩
    · intro bus hbus
      obtain ⟨nibus, -, heq⟩ := List.mem_map.mp (hunion.mem_iff.mp (List.mem_map_of_mem hbus))
      exact (Prod.mk.inj heq).1.symm
    · have hperm := hfound.map FoundBus.busnum
      rw [List.map_map, List.map_id'] at hperm
      exact hperm.nodup_iff.mpr hnums
    · have hperm := hfound.map FoundBus.sysPath
      rw [List.map_map, List.map_id'] at hperm
      exact hperm.nodup_iff.mpr hpaths
  several h2 := by
    intro bus hbus
    match reports, hproper, h, hsep with
    | [], hproper, _, _ => exact absurd (hproper.length.symm ▸ h2) (by simp)
    | [_], hproper, _, _ => exact absurd (hproper.length.symm ▸ h2) (by simp)
    | b :: b' :: rest, _, h, hsep =>
      have hb : b = [] := hsep.2 b (by simp)
      subst hb
      have hmem := h.union.mem_iff.mp (List.mem_map_of_mem hbus)
      exact Nat.one_le_iff_ne_zero.mp (le_of_mem_reportedFrom (i := 1) hmem)

/-- For any number of backends, the list is the union of the reports after every refresh of a history exactly when every
refresh finds the buses separate. -/
theorem registry_union_iff {backends : ℕ} {history : List (List (List FoundBus))} :
    Run RefreshStep (fun r reports => ProperReports backends reports ∧ IsUnion r reports) .start history r ↔
    Run RefreshStep (fun r reports => ProperReports backends reports ∧ Separate r reports) .start history r := by
  apply run_iff (I := Follows backends)
  · intro q reports _ hq _
    exact and_congr_right fun hproper => isUnion_iff hq hproper
  · rintro q reports _ hq ⟨hproper, hsep⟩ ⟨⟩
    exact .step hproper ((isUnion_iff hq hproper).mpr hsep) hsep
  · exact follows_start backends

/-- Two backends with one bus each: the refresh of the second takes the bus of the first off the list. -/
theorem registry_loses_bus : ∃ reports : List (List FoundBus), ProperReports 2 reports ∧ ¬ IsUnion .start reports := by
  refine ⟨[[⟨1, [1]⟩], [⟨2, [2]⟩]], ⟨rfl, by decide, by decide⟩, fun h => ?_⟩
  exact absurd h.union.length_eq (by decide)

end

end OpenUsb
