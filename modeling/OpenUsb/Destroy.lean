import OpenUsb.Lib.Release
import OpenUsb.Parser

/-!
# Destroy — `usbi_destroy_configuration` and the walks of a device

`usbiDestroyConfiguration dev` frees the tree of a device and clears its fields; it lists the tables it frees, or is
`none` when it leaves a table or frees one twice.  A tree whose counts stay within live tables, and cover what was
written, is walked and freed without a fault.
-/

namespace OpenUsb

open Release

/-! ## Tables -/

namespace Table

variable {α P : Type}

/-- Entry `k`, when it may be accessed; `calloc` left the entries that were not written zero. -/
def get? [Inhabited α] : Table α → ℕ → Option α
  | live cap es, k => if k < cap then some (es.getD k default) else none
  | _, _ => none

/-- `free` of the table that `p` names. -/
def release (p : P) : Table α → Option (List P)
  | absent => some []
  | live _ _ => some [p]
  | freed _ => none

def IsLive : Table α → Prop
  | live _ _ => True
  | _ => False

theorem releases_release {p : P} {t : Table α} (h : ¬ t.IsFreed) :
    Releases (t.release p) (fun q => q = p ∧ t.IsLive) := by
  cases t with
  | absent => exact releases_nil fun q hq => hq.2
  | live cap es => exact releases_one fun q => and_iff_left trivial
  | freed es => exact absurd trivial h

variable [Inhabited α]

theorem get?_of_lt {t : Table α} {k : ℕ} (h : k < t.liveCount) : ∃ e, t.get? k = some e := by
  cases t with
  | absent => exact absurd h (Nat.not_lt_zero k)
  | live cap es => exact ⟨_, if_pos h⟩
  | freed es => exact absurd h (Nat.not_lt_zero k)

/-- What holds of the entries written and of a zero entry holds of every entry. -/
theorem get?_all {t : Table α} {k : ℕ} {e : α} {p : α → Prop} (he : t.get? k = some e) (hes : ∀ e ∈ t.entries, p e)
    (hzero : p default) : p e := by
  cases t with
  | absent => cases he
  | freed es => cases he
  | live cap es =>
    rw [get?] at he
    split_ifs at he
    rw [Option.some.injEq, List.getD_eq_getElem?_getD] at he
    rcases Nat.lt_or_ge k es.length with hk | hk
    · rw [List.getElem?_eq_getElem hk, Option.getD_some] at he
      exact he ▸ hes _ (List.getElem_mem hk)
    · rw [List.getElem?_eq_none hk, Option.getD_none] at he
      exact he ▸ hzero

/-- An entry that was not written is zero. -/
theorem get?_of_length_le {t : Table α} {k : ℕ} {e : α} (he : t.get? k = some e) (h : t.entries.length ≤ k) :
    e = default := by
  cases t with
  | absent => cases he
  | freed es => cases he
  | live cap es =>
    rw [get?] at he
    split_ifs at he
    rw [Option.some.injEq, List.getD_eq_getElem?_getD, List.getElem?_eq_none (show es.length ≤ k from h),
      Option.getD_none] at he
    exact he.symm

end Table

instance : Inhabited UsbiEndpoint := ⟨{}⟩
instance : Inhabited UsbiAltsetting := ⟨{}⟩
instance : Inhabited UsbiInterface := ⟨{}⟩
instance : Inhabited UsbiConfig := ⟨{}⟩

/-! ## The device -/

/-- `struct usbi_raw_desc`. -/
structure UsbiRawDesc where
  data : Table UInt8 := .absent
  len : ℕ := 0
  deriving DecidableEq, Repr, Inhabited

/-- `struct usbi_descriptors`. -/
structure UsbiDescriptors where
  device_raw : UsbiRawDesc := {}
  num_configs : ℕ := 0
  configs_raw : Table UsbiRawDesc := .absent
  device : UsbDeviceDesc := {}
  configs : Table UsbiConfig := .absent
  deriving DecidableEq, Repr

/-- The tables of a device, named by the entry that points to them. -/
inductive DevTable where
  | deviceRaw
  | configsRaw
  | configs
  | rawData (c : ℕ)
  | config (c : ℕ) (s : Site)
  deriving DecidableEq, Repr

/-! ## `usbi_destroy_configuration` -/

def destroyEndpoint (i j k : ℕ) (ep : UsbiEndpoint) : Option (List Site) := ep.extra.release (.epExtra i j k)

def destroyAltsetting (i j : ℕ) (as : UsbiAltsetting) : Option (List Site) :=
  andThen (visit as.endpoints.get? (destroyEndpoint i j) as.num_endpoints) <|
    andThen (as.endpoints.release (.endpoints i j)) (as.extra.release (.altExtra i j))

def destroyInterface (i : ℕ) (intf : UsbiInterface) : Option (List Site) :=
  andThen (visit intf.altsettings.get? (destroyAltsetting i) intf.num_altsettings)
    (intf.altsettings.release (.altsettings i))

/-- The interfaces of a configuration; without a table the loop goes on to the next configuration. -/
def destroyInterfaces (cfg : UsbiConfig) : Option (List Site) :=
  match cfg.interfaces with
  | .absent => some []
  | _ => andThen (visit cfg.interfaces.get? destroyInterface cfg.num_interfaces) (cfg.interfaces.release .interfaces)

/-- A round of the loop over the configurations. -/
def destroyConfig (configs_raw : Table UsbiRawDesc) (c : ℕ) (cfg : UsbiConfig) : Option (List DevTable) :=
  andThen (cfg.extra.release (.config c .cfgExtra)) <|
    andThen ((configs_raw.get? c).bind fun raw => raw.data.release (.rawData c))
      ((destroyInterfaces cfg).map (List.map (.config c)))

/-- `usbi_destroy_configuration`: what it frees, and the fields it leaves. -/
def usbiDestroyConfiguration (dev : UsbiDescriptors) : Option (List DevTable) × UsbiDescriptors :=
  match dev.configs with
  | .absent => (some [], dev)
  | _ =>
    (andThen (visit dev.configs.get? (destroyConfig dev.configs_raw) dev.num_configs) <|
      andThen (dev.configs_raw.release .configsRaw) <|
      andThen (dev.configs.release .configs) (dev.device_raw.data.release .deviceRaw),
     { dev with
       configs_raw := .absent, configs := .absent, device_raw := { dev.device_raw with data := .absent } })

/-! ## Trees that can be freed -/

/-- The first `n` entries are there, and `p` holds of each. -/
def Table.Holds {α : Type} [Inhabited α] (t : Table α) (n : ℕ) (p : α → Prop) : Prop :=
  ∀ k < n, ∃ e, t.get? k = some e ∧ p e

def UsbiEndpoint.Freeable (ep : UsbiEndpoint) : Prop := ¬ ep.extra.IsFreed

/-- The counts stay within the tables, and no table was freed before. -/
def UsbiAltsetting.Freeable (as : UsbiAltsetting) : Prop :=
  as.endpoints.Holds as.num_endpoints UsbiEndpoint.Freeable ∧ ¬ as.endpoints.IsFreed ∧ ¬ as.extra.IsFreed

def UsbiInterface.Freeable (intf : UsbiInterface) : Prop :=
  intf.altsettings.Holds intf.num_altsettings UsbiAltsetting.Freeable ∧ ¬ intf.altsettings.IsFreed

def UsbiConfig.Freeable (cfg : UsbiConfig) : Prop :=
  ¬ cfg.extra.IsFreed ∧ (cfg.interfaces = .absent ∨
    cfg.interfaces.Holds cfg.num_interfaces UsbiInterface.Freeable ∧ ¬ cfg.interfaces.IsFreed)

/-- There are no configurations, or as many as announced, with their raw descriptors, and nothing was freed before. -/
def UsbiDescriptors.Freeable (dev : UsbiDescriptors) : Prop :=
  dev.configs = .absent ∨
    dev.configs.Holds dev.num_configs UsbiConfig.Freeable ∧
    dev.configs_raw.Holds dev.num_configs (fun raw => ¬ raw.data.IsFreed) ∧
    ¬ dev.configs_raw.IsFreed ∧ ¬ dev.configs.IsFreed ∧ ¬ dev.device_raw.data.IsFreed

theorem Table.isSome_release {α P : Type} {t : Table α} {p : P} : (t.release p).isSome ↔ ¬ t.IsFreed := by
  cases t with
  | absent => exact iff_of_true rfl not_false
  | live cap es => exact iff_of_true rfl not_false
  | freed es => exact iff_of_false (by rintro ⟨⟩) fun h => h trivial

theorem Table.isSome_visit {α P : Type} [Inhabited α] {t : Table α} {f : ℕ → α → Option (List P)} {n : ℕ} {p : α → Prop}
    (hf : ∀ k e, (f k e).isSome ↔ p e) : (visit t.get? f n).isSome ↔ t.Holds n p := by
  rw [Release.isSome_visit]
  simp only [hf, Table.Holds]

theorem destroyAltsetting_frees {i j : ℕ} {as : UsbiAltsetting} : (destroyAltsetting i j as).isSome ↔ as.Freeable := by
  rw [destroyAltsetting, isSome_andThen, isSome_andThen, Table.isSome_release, Table.isSome_release,
    Table.isSome_visit (f := destroyEndpoint i j) (p := UsbiEndpoint.Freeable) fun _ _ => Table.isSome_release]
  exact Iff.rfl

theorem destroyInterface_frees {i : ℕ} {intf : UsbiInterface} : (destroyInterface i intf).isSome ↔ intf.Freeable := by
  rw [destroyInterface, isSome_andThen, Table.isSome_release,
    Table.isSome_visit (f := destroyAltsetting i) fun _ _ => destroyAltsetting_frees]
  exact Iff.rfl

theorem destroyInterfaces_frees {cfg : UsbiConfig} : (destroyInterfaces cfg).isSome ↔ cfg.interfaces = .absent ∨
    cfg.interfaces.Holds cfg.num_interfaces UsbiInterface.Freeable ∧ ¬ cfg.interfaces.IsFreed := by
  have hall : (andThen (visit cfg.interfaces.get? destroyInterface cfg.num_interfaces)
      (cfg.interfaces.release Site.interfaces)).isSome ↔
        cfg.interfaces.Holds cfg.num_interfaces UsbiInterface.Freeable ∧ ¬ cfg.interfaces.IsFreed := by
    rw [isSome_andThen, Table.isSome_release,
      Table.isSome_visit (f := destroyInterface) fun _ _ => destroyInterface_frees]
  unfold destroyInterfaces
  cases hi : cfg.interfaces with
  | absent => exact iff_of_true rfl (Or.inl rfl)
  | live cap es =>
    rw [hi] at hall
    exact hall.trans (or_iff_right (by simp)).symm
  | freed es =>
    rw [hi] at hall
    exact hall.trans (or_iff_right (by simp)).symm

theorem destroyConfig_frees {raws : Table UsbiRawDesc} {c : ℕ} {cfg : UsbiConfig} :
    (destroyConfig raws c cfg).isSome ↔ cfg.Freeable ∧ ∃ raw, raws.get? c = some raw ∧ ¬ raw.data.IsFreed := by
  have hraw : ((raws.get? c).bind fun raw => raw.data.release (DevTable.rawData c)).isSome ↔
      ∃ raw, raws.get? c = some raw ∧ ¬ raw.data.IsFreed := by
    cases raws.get? c with
    | none => exact iff_of_false (by rintro ⟨⟩) fun ⟨raw, h, _⟩ => by cases h
    | some raw =>
      exact Table.isSome_release.trans ⟨fun h => ⟨raw, rfl, h⟩, fun ⟨raw', h', h⟩ => Option.some_inj.mp h' ▸ h⟩
  rw [destroyConfig, isSome_andThen, isSome_andThen, Table.isSome_release, hraw, Option.isSome_map,
    destroyInterfaces_frees, UsbiConfig.Freeable, and_assoc]
  exact and_congr_right fun _ => and_comm

/-- `usbi_destroy_configuration` runs through when the tree can be freed, and only then. -/
theorem usbi_destroy_configuration_frees {dev : UsbiDescriptors} :
    (usbiDestroyConfiguration dev).1.isSome ↔ dev.Freeable := by
  have hall : (andThen (visit dev.configs.get? (destroyConfig dev.configs_raw) dev.num_configs) <|
      andThen (dev.configs_raw.release .configsRaw) <|
      andThen (dev.configs.release .configs) (dev.device_raw.data.release .deviceRaw)).isSome ↔
        dev.configs.Holds dev.num_configs UsbiConfig.Freeable ∧
        dev.configs_raw.Holds dev.num_configs (fun raw => ¬ raw.data.IsFreed) ∧
        ¬ dev.configs_raw.IsFreed ∧ ¬ dev.configs.IsFreed ∧ ¬ dev.device_raw.data.IsFreed := by
    rw [isSome_andThen, isSome_andThen, isSome_andThen, Table.isSome_release, Table.isSome_release,
      Table.isSome_release, Release.isSome_visit]
    simp only [destroyConfig_frees, Table.Holds]
    constructor
    · rintro ⟨hrounds, htables⟩
      refine ⟨fun c hc => ?_, fun c hc => ?_, htables⟩
      · obtain ⟨cfg, hcfg, h, -⟩ := hrounds c hc
        exact ⟨cfg, hcfg, h⟩
      · obtain ⟨cfg, -, -, h⟩ := hrounds c hc
        exact h
    · rintro ⟨hcfgs, hraws, htables⟩
      refine ⟨fun c hc => ?_, htables⟩
      obtain ⟨cfg, hcfg, h⟩ := hcfgs c hc
      exact ⟨cfg, hcfg, h, hraws c hc⟩
  unfold usbiDestroyConfiguration UsbiDescriptors.Freeable
  cases hc : dev.configs with
  | absent => exact iff_of_true rfl (Or.inl rfl)
  | live cap es =>
    rw [hc] at hall
    exact hall.trans (or_iff_right (by simp)).symm
  | freed es =>
    rw [hc] at hall
    exact hall.trans (or_iff_right (by simp)).symm

/-- Counts that stay within a live table reach entries of which `p` holds. -/
theorem Table.holds_of_le {α : Type} [Inhabited α] {t : Table α} {n : ℕ} {p : α → Prop} (hn : n ≤ t.liveCount)
    (hes : ∀ e ∈ t.entries, p e) (hzero : p default) : t.Holds n p := fun _ hk => by
  obtain ⟨e, he⟩ := Table.get?_of_lt (Nat.lt_of_lt_of_le hk hn)
  exact ⟨e, he, Table.get?_all he hes hzero⟩

theorem UsbiAltsetting.Consistent.freeable {as : UsbiAltsetting} (h : as.Consistent) : as.Freeable :=
  ⟨Table.holds_of_le h.count_le h.entries UsbiEndpoint.consistent_zero, h.endpoints_live, h.extra_live⟩

theorem UsbiInterface.Consistent.freeable {intf : UsbiInterface} (h : intf.Consistent) : intf.Freeable :=
  ⟨Table.holds_of_le h.count_le (fun as has => (h.entries as has).freeable)
    (UsbiAltsetting.sound_zero {}).toConsistent.freeable, h.altsettings_live⟩

/-- A consistent tree can be freed. -/
theorem UsbiConfig.Consistent.freeable {cfg : UsbiConfig} (h : cfg.Consistent) : cfg.Freeable :=
  ⟨h.extra_live, Or.inr ⟨Table.holds_of_le h.count_le (fun intf hi => (h.entries intf hi).freeable)
    UsbiInterface.consistent_zero.freeable, h.interfaces_live⟩⟩

/-! ## What a tree owns -/

def UsbiEndpoint.Owns (i j k : ℕ) (ep : UsbiEndpoint) (p : Site) : Prop := p = .epExtra i j k ∧ ep.extra.IsLive

/-- The live tables of an altsetting, whether its counts cover them or not. -/
def UsbiAltsetting.Owns (i j : ℕ) (as : UsbiAltsetting) (p : Site) : Prop :=
  (∃ k ep, as.endpoints.get? k = some ep ∧ ep.Owns i j k p) ∨ (p = .endpoints i j ∧ as.endpoints.IsLive) ∨
    (p = .altExtra i j ∧ as.extra.IsLive)

def UsbiInterface.Owns (i : ℕ) (intf : UsbiInterface) (p : Site) : Prop :=
  (∃ j as, intf.altsettings.get? j = some as ∧ as.Owns i j p) ∨ (p = .altsettings i ∧ intf.altsettings.IsLive)

def UsbiConfig.Owns (cfg : UsbiConfig) (p : Site) : Prop :=
  (p = .cfgExtra ∧ cfg.extra.IsLive) ∨ (∃ i intf, cfg.interfaces.get? i = some intf ∧ intf.Owns i p) ∨
    (p = .interfaces ∧ cfg.interfaces.IsLive)

def UsbiDescriptors.Owns (dev : UsbiDescriptors) (p : DevTable) : Prop :=
  (∃ c cfg s, dev.configs.get? c = some cfg ∧ cfg.Owns s ∧ p = .config c s) ∨
    (∃ c raw, dev.configs_raw.get? c = some raw ∧ raw.data.IsLive ∧ p = .rawData c) ∨
    (p = .configsRaw ∧ dev.configs_raw.IsLive) ∨ (p = .configs ∧ dev.configs.IsLive) ∨
    (p = .deviceRaw ∧ dev.device_raw.data.IsLive)

/-! ## Sound trees are freed -/

/-- The counts of the interface cover every altsetting that was written. -/
structure UsbiInterface.Sound (intf : UsbiInterface) : Prop extends intf.Consistent where
  counted : intf.altsettings.entries.length ≤ intf.num_altsettings
  alts : ∀ as ∈ intf.altsettings.entries, as.Sound

structure UsbiConfig.Sound (cfg : UsbiConfig) : Prop extends cfg.Consistent where
  counted : cfg.interfaces.entries.length ≤ cfg.num_interfaces
  intfs : ∀ intf ∈ cfg.interfaces.entries, intf.Sound

/-- The rule for a table whose entries own different pointers, and whose count covers the entries written. -/
theorem releases_entries {α P : Type} [Inhabited α] {t : Table α} {f : ℕ → α → Option (List P)} {own : ℕ → α → P → Prop}
    {n : ℕ} (hn : n ≤ t.liveCount) (hcounted : t.entries.length ≤ n)
    (hf : ∀ k e, t.get? k = some e → Releases (f k e) (own k e)) (hzero : ∀ k p, ¬ own k default p)
    (hdisj : ∀ k k' e e' p, own k e p → own k' e' p → k = k') :
    Releases (visit t.get? f n) (fun p => ∃ k e, t.get? k = some e ∧ own k e p) := by
  have hvisit : Releases (visit t.get? f n) (fun p => ∃ k < n, ∃ e, t.get? k = some e ∧ own k e p) := by
    refine releases_visit (fun k hk => ?_) ?_
    · obtain ⟨e, he⟩ := Table.get?_of_lt (Nat.lt_of_lt_of_le hk hn)
      refine ⟨e, he, (hf k e he).congr fun p => ⟨fun h => ⟨e, he, h⟩, ?_⟩⟩
      rintro ⟨e', he', h⟩
      rw [he, Option.some.injEq] at he'
      exact he' ▸ h
    · rintro k k' p ⟨e, -, h⟩ ⟨e', -, h'⟩
      exact hdisj k k' e e' p h h'
  refine hvisit.congr fun p => ⟨fun ⟨k, _, h⟩ => ⟨k, h⟩, ?_⟩
  rintro ⟨k, e, he, h⟩
  refine ⟨k, Nat.lt_of_not_le fun hk => ?_, e, he, h⟩
  rw [Table.get?_of_length_le he (hcounted.trans hk)] at h
  exact hzero k p h

/-- The interface to which an entry belongs. -/
def Site.intf : Site → Option ℕ
  | .altsettings i => some i
  | .altExtra i _ => some i
  | .endpoints i _ => some i
  | .epExtra i _ _ => some i
  | _ => none

/-- The altsetting to which an entry belongs. -/
def Site.alt : Site → Option ℕ
  | .altExtra _ j => some j
  | .endpoints _ j => some j
  | .epExtra _ j _ => some j
  | _ => none

theorem UsbiAltsetting.Owns.coords {i j : ℕ} {as : UsbiAltsetting} {p : Site} (h : as.Owns i j p) :
    p.intf = some i ∧ p.alt = some j := by
  rcases h with ⟨k, ep, -, rfl, -⟩ | ⟨rfl, -⟩ | ⟨rfl, -⟩
  · exact ⟨rfl, rfl⟩
  · exact ⟨rfl, rfl⟩
  · exact ⟨rfl, rfl⟩

theorem UsbiInterface.Owns.coord {i : ℕ} {intf : UsbiInterface} {p : Site} (h : intf.Owns i p) : p.intf = some i := by
  rcases h with ⟨j, as, -, h⟩ | ⟨rfl, -⟩
  · exact h.coords.1
  · rfl

theorem UsbiAltsetting.not_owns_zero (i j : ℕ) (p : Site) : ¬ (default : UsbiAltsetting).Owns i j p := by
  rintro (⟨k, ep, h, -⟩ | ⟨-, h⟩ | ⟨-, h⟩)
  · cases h
  · exact h
  · exact h

theorem UsbiInterface.not_owns_zero (i : ℕ) (p : Site) : ¬ (default : UsbiInterface).Owns i p := by
  rintro (⟨j, as, h, -⟩ | ⟨-, h⟩)
  · cases h
  · exact h

theorem UsbiConfig.not_owns_zero (p : Site) : ¬ (default : UsbiConfig).Owns p := by
  rintro (⟨-, h⟩ | ⟨i, intf, h, -⟩ | ⟨-, h⟩)
  · exact h
  · cases h
  · exact h

theorem destroyAltsetting_releases {i j : ℕ} {as : UsbiAltsetting} (h : as.Sound) :
    Releases (destroyAltsetting i j as) (as.Owns i j) := by
  refine Releases.andThen (releases_entries h.count_le h.counted ?_ ?_ ?_)
    (Releases.andThen (Table.releases_release h.endpoints_live) (Table.releases_release h.extra_live) ?_) ?_
  · intro k ep he
    exact Table.releases_release (Table.get?_all (p := UsbiEndpoint.Consistent) he h.entries UsbiEndpoint.consistent_zero)
  · exact fun k p hp => hp.2
  · rintro k k' e e' p ⟨rfl, -⟩ ⟨hp, -⟩
    cases hp
    rfl
  · rintro p ⟨rfl, -⟩ ⟨hp, -⟩
    cases hp
  · rintro p ⟨k, ep, -, rfl, -⟩ (⟨hp, -⟩ | ⟨hp, -⟩)
    · cases hp
    · cases hp

theorem destroyInterface_releases {i : ℕ} {intf : UsbiInterface} (h : intf.Sound) :
    Releases (destroyInterface i intf) (intf.Owns i) := by
  refine Releases.andThen (releases_entries h.count_le h.counted ?_ (UsbiAltsetting.not_owns_zero i) ?_)
    (Table.releases_release h.altsettings_live) ?_
  · intro j as he
    exact destroyAltsetting_releases (Table.get?_all he h.alts (UsbiAltsetting.sound_zero {}))
  · intro j j' as as' p hp hp'
    exact Option.some_inj.mp (hp.coords.2.symm.trans hp'.coords.2)
  · rintro p ⟨j, as, -, hp⟩ ⟨rfl, -⟩
    cases hp.coords.2

theorem UsbiInterface.sound_zero : (default : UsbiInterface).Sound :=
  ⟨UsbiInterface.consistent_zero, le_rfl, fun _ h => absurd h List.not_mem_nil⟩

theorem destroyInterfaces_releases {cfg : UsbiConfig} (h : cfg.Sound) : Releases (destroyInterfaces cfg)
    (fun p => (∃ i intf, cfg.interfaces.get? i = some intf ∧ intf.Owns i p) ∨ (p = .interfaces ∧ cfg.interfaces.IsLive)) := by
  have hall : Releases (andThen (visit cfg.interfaces.get? destroyInterface cfg.num_interfaces)
      (cfg.interfaces.release .interfaces)) (fun p => (∃ i intf, cfg.interfaces.get? i = some intf ∧ intf.Owns i p) ∨
        (p = .interfaces ∧ cfg.interfaces.IsLive)) := by
    refine Releases.andThen (releases_entries h.count_le h.counted ?_ UsbiInterface.not_owns_zero ?_)
      (Table.releases_release h.interfaces_live) ?_
    · intro i intf he
      exact destroyInterface_releases (Table.get?_all he h.intfs UsbiInterface.sound_zero)
    · intro i i' intf intf' p hp hp'
      exact Option.some_inj.mp (hp.coord.symm.trans hp'.coord)
    · rintro p ⟨i, intf, -, hp⟩ ⟨rfl, -⟩
      cases hp.coord
  unfold destroyInterfaces
  cases hi : cfg.interfaces with
  | absent =>
    refine releases_nil ?_
    rintro p (⟨i, intf, he, -⟩ | ⟨-, hl⟩)
    · cases he
    · exact hl
  | live cap es => rwa [hi] at hall
  | freed es => exact absurd h.interfaces_live (by rw [hi]; exact fun h => h trivial)

/-- A walk over the interfaces, altsettings and endpoints that the counts announce indexes live entries only. -/
def UsbiConfig.Walks (cfg : UsbiConfig) : Prop :=
  ∀ i < cfg.num_interfaces, ∃ intf, cfg.interfaces.get? i = some intf ∧
    ∀ j < intf.num_altsettings, ∃ as, intf.altsettings.get? j = some as ∧
      ∀ k < as.num_endpoints, ∃ ep, as.endpoints.get? k = some ep

theorem UsbiConfig.Consistent.walks {cfg : UsbiConfig} (h : cfg.Consistent) : cfg.Walks := by
  intro i hi
  obtain ⟨intf, hintf⟩ := Table.get?_of_lt (Nat.lt_of_lt_of_le hi h.count_le)
  have hi' : intf.Consistent := Table.get?_all hintf h.entries UsbiInterface.consistent_zero
  refine ⟨intf, hintf, fun j hj => ?_⟩
  obtain ⟨as, has⟩ := Table.get?_of_lt (Nat.lt_of_lt_of_le hj hi'.count_le)
  have ha' : as.Consistent := Table.get?_all has hi'.entries (UsbiAltsetting.sound_zero {}).toConsistent
  exact ⟨as, has, fun k hk => Table.get?_of_lt (Nat.lt_of_lt_of_le hk ha'.count_le)⟩

/-! ## Devices -/

/-- The device has the same number of sound configurations and of raw descriptors. -/
structure UsbiDescriptors.Sound (dev : UsbiDescriptors) : Prop where
  configs_le : dev.num_configs ≤ dev.configs.liveCount
  raw_le : dev.num_configs ≤ dev.configs_raw.liveCount
  configs_live : ¬ dev.configs.IsFreed
  configs_raw_live : ¬ dev.configs_raw.IsFreed
  configs_counted : dev.configs.entries.length ≤ dev.num_configs
  raw_counted : dev.configs_raw.entries.length ≤ dev.num_configs
  configs_sound : ∀ cfg ∈ dev.configs.entries, cfg.Sound
  raw_live : ∀ raw ∈ dev.configs_raw.entries, ¬ raw.data.IsFreed
  device_raw_live : ¬ dev.device_raw.data.IsFreed

theorem UsbiConfig.sound_zero : (default : UsbiConfig).Sound :=
  ⟨⟨le_rfl, not_false, not_false, fun _ h => absurd h List.not_mem_nil⟩, le_rfl, fun _ h => absurd h List.not_mem_nil⟩

theorem destroyConfig_releases {raws : Table UsbiRawDesc} {c : ℕ} {cfg : UsbiConfig} {raw : UsbiRawDesc}
    (hraw : raws.get? c = some raw) (hlive : ¬ raw.data.IsFreed) (h : cfg.Sound) :
    Releases (destroyConfig raws c cfg)
      (fun p => (∃ s, cfg.Owns s ∧ p = .config c s) ∨ (raw.data.IsLive ∧ p = .rawData c)) := by
  have hinj : Function.Injective (DevTable.config c) := fun s s' h => (DevTable.config.inj h).2
  have hbind : ((raws.get? c).bind fun raw => raw.data.release (DevTable.rawData c)) = raw.data.release (.rawData c) := by
    rw [hraw, Option.bind_some]
  rw [destroyConfig, hbind]
  refine ((Table.releases_release h.extra_live).andThen ((Table.releases_release hlive).andThen
    ((destroyInterfaces_releases h).map hinj) ?_) ?_).congr fun p => ?_
  · rintro p ⟨rfl, -⟩ ⟨s, -, hs⟩
    cases hs
  · rintro p ⟨rfl, -⟩ (⟨hp, -⟩ | ⟨s, hs, hp⟩)
    · cases hp
    · obtain rfl := hinj hp
      rcases hs with ⟨i, intf, -, hs⟩ | ⟨hs, -⟩
      · cases hs.coord
      · cases hs
  · unfold UsbiConfig.Owns
    constructor
    · rintro (⟨rfl, hl⟩ | ⟨rfl, hl⟩ | ⟨s, hs, rfl⟩)
      · exact Or.inl ⟨_, Or.inl ⟨rfl, hl⟩, rfl⟩
      · exact Or.inr ⟨hl, rfl⟩
      · exact Or.inl ⟨s, Or.inr hs, rfl⟩
    · rintro (⟨s, ⟨rfl, hl⟩ | hs, rfl⟩ | ⟨hl, rfl⟩)
      · exact Or.inl ⟨rfl, hl⟩
      · exact Or.inr (Or.inr ⟨s, hs, rfl⟩)
      · exact Or.inr (Or.inl ⟨rfl, hl⟩)

/-- `usbi_destroy_configuration` frees every table of a sound device once. -/
theorem usbi_destroy_configuration_releases {dev : UsbiDescriptors} (h : dev.Sound) (hconfigs : dev.configs.IsLive) :
    Releases (usbiDestroyConfiguration dev).1 dev.Owns := by
  have hrounds : Releases (visit dev.configs.get? (destroyConfig dev.configs_raw) dev.num_configs)
      (fun p => ∃ c < dev.num_configs, (∃ cfg s, dev.configs.get? c = some cfg ∧ cfg.Owns s ∧ p = .config c s) ∨
        ∃ raw, dev.configs_raw.get? c = some raw ∧ raw.data.IsLive ∧ p = .rawData c) := by
    refine releases_visit (fun c hc => ?_) ?_
    · obtain ⟨cfg, hcfg⟩ := Table.get?_of_lt (Nat.lt_of_lt_of_le hc h.configs_le)
      obtain ⟨raw, hraw⟩ := Table.get?_of_lt (Nat.lt_of_lt_of_le hc h.raw_le)
      have hlive : ¬ raw.data.IsFreed :=
        Table.get?_all (p := fun raw : UsbiRawDesc => ¬ raw.data.IsFreed) hraw h.raw_live not_false
      have hsound : cfg.Sound := Table.get?_all hcfg h.configs_sound UsbiConfig.sound_zero
      refine ⟨cfg, hcfg, (destroyConfig_releases hraw hlive hsound).congr fun p => or_congr ?_ ?_⟩
      · simp only [hcfg, Option.some.injEq, exists_and_left, exists_eq_left']
      · simp only [hraw, Option.some.injEq, exists_eq_left']
    · rintro c c' p (⟨cfg, s, -, -, rfl⟩ | ⟨raw, -, -, rfl⟩) (⟨cfg', s', -, -, hp⟩ | ⟨raw', -, -, hp⟩)
      · exact (DevTable.config.inj hp).1
      · cases hp
      · cases hp
      · exact DevTable.rawData.inj hp
  have htables := (Table.releases_release (p := DevTable.configsRaw) h.configs_raw_live).andThen
    ((Table.releases_release (p := DevTable.configs) h.configs_live).andThen
      (Table.releases_release (p := DevTable.deviceRaw) h.device_raw_live) (by rintro p ⟨rfl, -⟩ ⟨hp, -⟩; cases hp))
    (by rintro p ⟨rfl, -⟩ (⟨hp, -⟩ | ⟨hp, -⟩) <;> cases hp)
  have hall := hrounds.andThen htables (by
    rintro p ⟨c, -, ⟨cfg, s, -, -, rfl⟩ | ⟨raw, -, -, rfl⟩⟩ (⟨hp, -⟩ | ⟨hp, -⟩ | ⟨hp, -⟩) <;> cases hp)
  have hrun : (usbiDestroyConfiguration dev).1 =
      andThen (visit dev.configs.get? (destroyConfig dev.configs_raw) dev.num_configs) (andThen
        (dev.configs_raw.release .configsRaw) (andThen (dev.configs.release .configs)
          (dev.device_raw.data.release .deviceRaw))) := by
    unfold usbiDestroyConfiguration
    cases hc : dev.configs with
    | absent => rw [hc] at hconfigs; exact absurd hconfigs id
    | live cap es => rfl
    | freed es => rfl
  rw [hrun]
  refine hall.congr fun p => ?_
  constructor
  · rintro (⟨c, -, ⟨cfg, s, hcfg, hs, hp⟩ | ⟨raw, hraw, hl, hp⟩⟩ | hp)
    · exact Or.inl ⟨c, cfg, s, hcfg, hs, hp⟩
    · exact Or.inr (Or.inl ⟨c, raw, hraw, hl, hp⟩)
    · exact Or.inr (Or.inr hp)
  · -- an entry that owns something was written, and is counted
    rintro (⟨c, cfg, s, hcfg, hs, hp⟩ | ⟨c, raw, hraw, hl, hp⟩ | hp)
    · refine Or.inl ⟨c, Nat.lt_of_not_le fun hc => ?_, Or.inl ⟨cfg, s, hcfg, hs, hp⟩⟩
      rw [Table.get?_of_length_le hcfg (h.configs_counted.trans hc)] at hs
      exact UsbiConfig.not_owns_zero s hs
    · refine Or.inl ⟨c, Nat.lt_of_not_le fun hc => ?_, Or.inr ⟨raw, hraw, hl, hp⟩⟩
      rw [Table.get?_of_length_le hraw (h.raw_counted.trans hc)] at hl
      exact hl
    · exact Or.inr hp

end OpenUsb
