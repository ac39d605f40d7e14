import OpenUsb.AllOrNothing

/-!
# Consistency — the tree that a parse leaves

A function that gives up frees the interfaces under a pointer that stays; and the altsettings table of an interface,
which the counting pass sizes, is filled without a look at that size.  So the tree that `usbi_parse_configuration` leaves
is consistent exactly when it gives up before there are interfaces, or every interface that it reaches can be parsed to
its end and has no more alternate settings than were counted (`ConfigParses`).  `usbi_fetch_and_parse_descriptors`, which
goes on after a failure, leaves a consistent device exactly when this holds of every configuration.
-/

namespace OpenUsb

open Prog Release

/-! ## The condition on the blob -/

/-- If there is an interface at `q`, its alternate settings are no more than the counting pass makes them, modulo 256. -/
def TableLarge (env : Env) (q : ℕ × ℤ × ℕ) : Prop :=
  env.mem (q.2.1 + 1) = USB_DESC_TYPE_INTERFACE → ∀ l, Hops env.mem q.2.1 q.2.2 0 l →
    (interfaceAlts env q.1 q.2).length ≤ (1 + sameNumbers env.mem q.2.1 l) % 2 ^ 8

/-- The parser comes to the end of the interface at `q`, in a table that is large enough. -/
def InterfaceParses (env : Env) (q : ℕ × ℤ × ℕ) : Prop := (interfaceStop env q.1 q.2).isSome ∧ TableLarge env q

/-- If the parser enters a configuration of `L` bytes, its extras come to an end, and so do its interfaces. -/
def ConfigParses (env : Env) (L : ℕ) : Prop :=
  EntersConfig env {} L → (cfgStart env.mem L).isSome ∧ ∀ q ∈ reachedInterfaces env {} L, InterfaceParses env q

section Parser

variable {env : Env} {L : ℕ}

/-! ## Interfaces -/

theorem liveIntf_sound {cap : ℕ} {alts : List UsbiAltsetting} (halts : ∀ as ∈ alts, as.Sound) (h : alts.length ≤ cap) :
    (liveIntf cap alts).Sound :=
  ⟨⟨h, not_false, fun as has => (halts as has).toConsistent⟩, le_rfl, halts⟩

/-- The hops meet what the counting pass returns. -/
theorem tableLarge_of_count {q : ℕ × ℤ × ℕ} (hn : q.2.2 < 2 ^ 31) {altno : ℕ}
    (hcount : (usbiGetIntfAltno env q.2.1 q.2.2).Returns altno)
    (hle : (interfaceAlts env q.1 q.2).length ≤ altno % 2 ^ 8) : TableLarge env q := fun _ l hl => by
  rwa [← hcount.unique ((intf_altno_hops hn).mpr ⟨l, hl, rfl⟩)]

/-- The interface that is left is sound exactly when its table is large enough. -/
theorem parse_interface_sound (hz : ZeroSlack env.mem L) (hL31 : L < 2 ^ 31) {i : ℕ} {buf : ℤ} {n : ℕ}
    (hL : Left L buf n) (h0 : 0 < n) {r : ℤ × UsbiInterface} (hr : (usbiParseInterface env i {} buf n).Returns r)
    (hret : 0 ≤ r.1) :
    (TableLarge env (i, buf, n) → r.2.Sound) ∧ (r.2.Consistent → TableLarge env (i, buf, n)) := by
  have hn := hL.lt hL31
  obtain ⟨hfine, -, hintf⟩ := parse_interface_post hz hL31 hL h0 hr
  have hnum := (parse_interface_stops hz hL31 hL h0 hr).2
  rcases hintf (hfine.mpr hret) with hzero | ⟨altno, alts, haltno, hlive, halts⟩
  · rw [hzero] at hnum ⊢
    refine ⟨fun _ => UsbiInterface.sound_zero, fun _ _ l _ => ?_⟩
    rw [← hnum]
    exact Nat.zero_le _
  · have htype : env.mem (buf + 1) = USB_DESC_TYPE_INTERFACE := by
      by_contra htype
      rw [usbiParseInterface, if_neg (by omega), (returns_rd.mpr rfl).bind_iff, if_pos htype] at hr
      rw [← returns_pure.mp hr] at hlive
      exact absurd (congrArg UsbiInterface.altsettings hlive) (by simp [liveIntf])
    rw [hlive] at hnum ⊢
    constructor
    · intro h
      obtain ⟨l, hl, rfl⟩ := (intf_altno_hops hn).mp haltno
      have hle := h htype l hl
      rw [← hnum] at hle
      exact liveIntf_sound halts hle
    · intro h
      refine tableLarge_of_count (q := (i, buf, n)) hn haltno ?_
      rw [← hnum]
      exact h.count_le

/-- The interface loop gives up exactly when an interface that it reaches does not come to its end. -/
theorem parse_interfaces_post (hz : ZeroSlack env.mem L) (hL31 : L < 2 ^ 31) {k : ℕ} {s : IntfState}
    {r : Option ℤ × IntfState} (hr : (parseInterfaces env k s).Returns r) (hL : Left L s.buf s.buflen) :
    ((∀ q ∈ interfacesFrom env k s.intfs.length (s.buf, s.buflen), (interfaceStop env q.1 q.2).isSome) ↔ r.1 = none) ∧
      (r.1 = none → ∃ intfs, r.2.intfs = s.intfs ++ intfs ∧ intfs.length ≤ k ∧
        ((∀ q ∈ interfacesFrom env k s.intfs.length (s.buf, s.buflen), TableLarge env q) → ∀ intf ∈ intfs, intf.Sound) ∧
        ((∀ intf ∈ intfs, intf.Consistent) →
          ∀ q ∈ interfacesFrom env k s.intfs.length (s.buf, s.buflen), TableLarge env q)) := by
  induction k generalizing s with
  | zero =>
    rw [parseInterfaces, returns_pure] at hr
    subst hr
    refine ⟨iff_of_true (fun q hq => absurd hq List.not_mem_nil) rfl, fun _ => ⟨[], (List.append_nil _).symm, le_rfl, ?_, ?_⟩⟩
    · exact fun _ intf h => absurd h List.not_mem_nil
    · exact fun _ q hq => absurd hq List.not_mem_nil
  | succ k ih =>
    have hn := hL.lt hL31
    rw [parseInterfaces] at hr
    by_cases h0 : s.buflen = 0
    · rw [if_pos h0, returns_pure] at hr
      subst hr
      have hnil : interfacesFrom env (k + 1) s.intfs.length (s.buf, s.buflen) = [] := if_pos h0
      rw [hnil]
      refine ⟨iff_of_true (fun q hq => absurd hq List.not_mem_nil) rfl,
        fun _ => ⟨[], (List.append_nil _).symm, Nat.zero_le _, ?_, ?_⟩⟩
      · exact fun _ intf h => absurd h List.not_mem_nil
      · exact fun _ q hq => absurd hq List.not_mem_nil
    have hpos := Nat.pos_of_ne_zero h0
    rw [if_neg h0, Nat.mod_eq_of_lt (show s.buflen < 2 ^ 32 by omega)] at hr
    obtain ⟨a, ha, hr⟩ := returns_bind.mp hr
    have hle := (parse_interface_post hz hL31 hL hpos ha).2.1
    rw [interfacesFrom_cons h0, List.forall_mem_cons, List.forall_mem_cons, ← (parse_interface_stops hz hL31 hL hpos ha).1]
    dsimp only at hr ⊢
    by_cases hneg : a.1 < 0
    · rw [if_pos hneg, returns_pure] at hr
      subst hr
      rw [behind_neg hneg]
      exact ⟨iff_of_false (fun h => by cases h.1) (by simp), fun h => by cases h⟩
    · obtain ⟨hsound, hcons⟩ := parse_interface_sound hz hL31 hL hpos ha (not_lt.mp hneg)
      obtain ⟨m, hm⟩ := Int.eq_ofNat_of_zero_le (not_lt.mp hneg)
      rw [if_neg hneg, hm, Int.toNat_natCast, CInt.sub_of_le (by omega) (by omega), returns_emit_bind] at hr
      obtain ⟨ihnone, ihrest⟩ := ih hr (hL.step (by omega))
      rw [List.length_append] at ihnone ihrest
      rw [hm, behind_natCast, Option.map_some, Option.getD_some]
      refine ⟨(and_iff_right rfl).trans ihnone, fun hnone => ?_⟩
      obtain ⟨intfs, hintfs, hlen, hs, hc⟩ := ihrest hnone
      refine ⟨a.2 :: intfs, by rw [hintfs]; simp, by rw [List.length_cons]; omega, ?_, ?_⟩
      · rintro ⟨h1, h2⟩ intf hmem
        rcases List.mem_cons.mp hmem with rfl | hmem
        · exact hsound h1
        · exact hs h2 intf hmem
      · exact fun h => ⟨hcons (h _ List.mem_cons_self), hc fun intf hmem => h intf (List.mem_cons_of_mem _ hmem)⟩

/-! ## Configurations -/

/-- `p` leaves a sound configuration under `C`, and only then a consistent one. -/
def LeavesSound (p : Prog Ev (ℤ × UsbiConfig)) (C : Prop) : Prop :=
  ∀ r, p.Returns r → (C → r.2.Sound) ∧ (r.2.Consistent → C)

theorem leavesSound_pure {r : ℤ × UsbiConfig} {C : Prop} (h : r.2.Sound) (hC : C) : LeavesSound (pure r) C := by
  rintro r' hr
  rw [returns_pure] at hr
  exact ⟨fun _ => hr ▸ h, fun _ => hC⟩

/-- The interfaces of a configuration. -/
theorem cfg_interfaces_sound (hz : ZeroSlack env.mem L) (hL31 : L < 2 ^ 31) {cfg : UsbiConfig} {w : ℤ × ℕ}
    (hL : Left L w.1 w.2) (hextra : ¬ cfg.extra.IsFreed) : LeavesSound (cfgInterfaces env cfg w.1 w.2)
      (∀ q ∈ interfacesFrom env cfg.num_interfaces 0 w, InterfaceParses env q) := by
  intro r hr
  rw [cfgInterfaces, returns_bind] at hr
  obtain ⟨⟨x, s⟩, hx, hr⟩ := hr
  obtain ⟨hstops, hsound⟩ := parse_interfaces_post hz hL31 hx hL
  cases x with
  | some a =>
    rw [returns_pure] at hr
    subst hr
    refine ⟨fun h => ?_, fun h => absurd trivial h.interfaces_live⟩
    cases hstops.mp fun q hq => (h q hq).1
  | none =>
    rw [returns_pure] at hr
    subst hr
    obtain ⟨intfs, hintfs, hlen, hs, hc⟩ := hsound rfl
    rw [List.nil_append] at hintfs
    dsimp only at hintfs ⊢
    rw [hintfs]
    constructor
    · intro h
      have hall := hs fun q hq => (h q hq).2
      exact ⟨⟨le_rfl, not_false, hextra, fun intf hi => (hall intf hi).toConsistent⟩, hlen, hall⟩
    · exact fun h q hq => ⟨hstops.mpr rfl q hq, hc h.entries q hq⟩

theorem parse_configuration_sound (hz : ZeroSlack env.mem L) (hL31 : L < 2 ^ 31) :
    LeavesSound (usbiParseConfiguration env {} 0 L) (ConfigParses env L) := by
  obtain ⟨tail, ⟨hreturns, -⟩, htail⟩ := parse_configuration_tail (P := fun _ => True) hz hL31 (fun _ => trivial)
    (fun _ _ => trivial) (fun _ _ => trivial) (fun _ _ _ _ => trivial) {}
  intro r hr
  refine (?_ : LeavesSound tail (ConfigParses env L)) r ((hreturns r).mp hr)
  unfold ConfigParses
  cases htail with
  | before h ht hcfg =>
    refine leavesSound_pure ?_ fun hent => absurd hent h
    rw [hcfg]
    rcases ht with rfl | rfl <;>
      exact ⟨⟨le_rfl, not_false, not_false, fun _ h => absurd h List.not_mem_nil⟩, le_rfl,
        fun _ h => absurd h List.not_mem_nil⟩
  | malformed h hstart hfreed =>
    intro r hr
    rw [returns_pure] at hr
    subst hr
    refine ⟨fun hC => ?_, fun hcons => absurd hfreed hcons.interfaces_live⟩
    have hsome := (hC h).1
    rw [hstart] at hsome
    cases hsome
  | noMemory h hstart hkept hcfg =>
    refine leavesSound_pure ?_ fun _ => ⟨by rw [hstart]; rfl, fun q hq => ?_⟩
    · rw [hcfg]
      exact ⟨⟨le_rfl, not_false, not_false, fun _ h => absurd h List.not_mem_nil⟩, Nat.zero_le _,
        fun _ h => absurd h List.not_mem_nil⟩
    · rw [reachedInterfaces_lost h hstart hkept] at hq
      exact absurd hq List.not_mem_nil
  | interfaces h hstart hkept hL hnum hextra =>
    have hcfg := cfg_interfaces_sound hz hL31 hL hextra
    rw [hnum, ← reachedInterfaces_some h hstart hkept] at hcfg
    intro r hr
    obtain ⟨hs, hc⟩ := hcfg r hr
    exact ⟨fun hC => hs (hC h).2, fun hcons _ => ⟨by rw [hstart]; rfl, hc hcons⟩⟩

end Parser

/-! ## Devices -/

/-- The tables of the device are live, its counts stay within them, and every configuration is consistent. -/
structure UsbiDescriptors.Consistent (dev : UsbiDescriptors) : Prop where
  configs_le : dev.num_configs ≤ dev.configs.liveCount
  raw_le : dev.num_configs ≤ dev.configs_raw.liveCount
  configs : ∀ cfg ∈ dev.configs.entries, cfg.Consistent

section Device

variable {env : FetchEnv} {dev : UsbiDescriptors} {cs : List (UsbiRawDesc × UsbiConfig)}

theorem Stored.mem_configs (h : Stored env dev cs) {cfg : UsbiConfig} (hcfg : cfg ∈ dev.configs.entries) :
    ∃ c < dev.num_configs, ∃ x, (env.parseRun c).Returns x ∧ x.2 = cfg := by
  obtain ⟨-, hconfigs, hlen, -, hall⟩ := h
  rw [hconfigs] at hcfg
  change cfg ∈ cs.map Prod.snd at hcfg
  obtain ⟨c, hc, rfl⟩ := List.mem_iff_getElem.mp hcfg
  rw [List.length_map, hlen] at hc
  obtain ⟨x, hx, hget⟩ := hall c hc
  refine ⟨c, hc, x, hx, ?_⟩
  rw [List.getElem?_eq_getElem (by omega), Option.some.injEq] at hget
  simp [hget]

theorem Stored.configs_mem (h : Stored env dev cs) {c : ℕ} (hc : c < dev.num_configs) :
    ∃ x, (env.parseRun c).Returns x ∧ x.2 ∈ dev.configs.entries := by
  obtain ⟨-, hconfigs, -, -, hall⟩ := h
  obtain ⟨x, hx, hget⟩ := hall c hc
  rw [hconfigs]
  exact ⟨x, hx, List.mem_map.mpr ⟨_, List.mem_of_getElem? hget, rfl⟩⟩

theorem parseRun_sound (env : FetchEnv) (c : ℕ) :
    LeavesSound (env.parseRun c) (ConfigParses (env.parse c (env.data c)) (env.len c)) :=
  parse_configuration_sound (env.zeroSlack c) (Nat.lt_of_lt_of_le FetchEnv.len_lt (by decide))

/-- A device whose configurations could all be parsed is sound. -/
theorem Stored.sound (h : Stored env dev cs)
    (hall : ∀ c < dev.num_configs, ConfigParses (env.parse c (env.data c)) (env.len c)) : dev.Sound := by
  have hsound : ∀ cfg ∈ dev.configs.entries, cfg.Sound := fun cfg hcfg => by
    obtain ⟨c, hc, x, hx, rfl⟩ := h.mem_configs hcfg
    exact (parseRun_sound env c x hx).1 (hall c hc)
  obtain ⟨hraw, hconfigs, hlen, hdev, hget⟩ := h
  refine ⟨?_, ?_, ?_, ?_, ?_, ?_, hsound, ?_, hdev⟩
  · rw [hconfigs]; exact le_rfl
  · rw [hraw]; exact le_rfl
  · rw [hconfigs]; exact not_false
  · rw [hraw]; exact not_false
  · rw [hconfigs]; exact (List.length_map _).trans_le hlen.le
  · rw [hraw]; exact (List.length_map _).trans_le hlen.le
  · intro raw hmem
    rw [hraw] at hmem
    change raw ∈ cs.map Prod.fst at hmem
    obtain ⟨c, hc, rfl⟩ := List.mem_iff_getElem.mp hmem
    rw [List.length_map, hlen] at hc
    obtain ⟨x, -, hx⟩ := hget c hc
    rw [List.getElem?_eq_getElem (by omega), Option.some.injEq] at hx
    simp [hx, FetchEnv.raw, Table.IsFreed]

end Device

/-- What the parser leaves can be walked and holds no freed tables exactly when the configuration can be parsed; and after
`usbi_fetch_and_parse_descriptors`, which goes on when a parse fails, the device can be walked and is freed table by
table exactly when all its configurations can. -/
theorem failed_parse_consistent_iff (env : Env) (fetch : FetchEnv) :
    (∀ (L : ℕ) (r : ℤ × UsbiConfig), L < 2 ^ 31 → ZeroSlack env.mem L →
      (usbiParseConfiguration env {} 0 L).Returns r → (r.2.Consistent ∧ r.2.Walks ↔ ConfigParses env L)) ∧
    ∀ dev dev' : UsbiDescriptors, (usbiFetchAndParseDescriptors fetch dev).Returns (some (0, dev')) →
      (dev'.Consistent ∧ (∀ cfg ∈ dev'.configs.entries, cfg.Walks) ∧
          Releases (usbiDestroyConfiguration dev').1 dev'.Owns ↔
        ∀ c < dev'.num_configs, ConfigParses (fetch.parse c (fetch.data c)) (fetch.len c)) := by
  constructor
  · intro L r hL31 hz hr
    obtain ⟨hsound, hcons⟩ := parse_configuration_sound hz hL31 r hr
    exact ⟨fun h => hcons h.1, fun h => ⟨(hsound h).toConsistent, (hsound h).toConsistent.walks⟩⟩
  · intro dev dev' hr
    obtain ⟨cs, hst⟩ := fetch_stored hr
    constructor
    · rintro ⟨hc, -, -⟩ c hlt
      obtain ⟨x, hx, hmem⟩ := hst.configs_mem hlt
      exact (parseRun_sound fetch c x hx).2 (hc.configs _ hmem)
    · intro hall
      have hsound := hst.sound hall
      have hcons : ∀ cfg ∈ dev'.configs.entries, cfg.Consistent := fun cfg h => (hsound.configs_sound cfg h).toConsistent
      have hlive : dev'.configs.IsLive := by
        rw [hst.2.1]
        trivial
      exact ⟨⟨hsound.configs_le, hsound.raw_le, hcons⟩, fun cfg h => (hcons cfg h).walks,
        usbi_destroy_configuration_releases hsound hlive⟩

/-- `audioConfig`, without memory for its association descriptor. -/
def lostExtraEnv : Env := { blobEnv audioConfig.bytes with alloc := fun s => decide (s ≠ .cfgExtra) }

/-- A device with `audioConfig` twice; there is no memory for the association descriptor of the first one. -/
def twoAudioEnv : FetchEnv where
  reply
    | .device => .ok [18, 1, 0, 2, 0, 0, 0, 64, 0x6d, 4, 0x1c, 0xc3, 0, 1, 1, 2, 0, 2]
    | .header _ => .ok (audioConfig.bytes.take 8)
    | .full _ => .ok audioConfig.bytes
  alloc := fun t => decide (t ≠ .config 0 .cfgExtra)
  stack := fun _ => 0
  heap := fun _ _ => 0
  junk := fun _ _ => ⟨0, 0⟩

/-- The parse of the first configuration fails, and leaves an empty table of interfaces; the device is consistent, and is
freed table by table. -/
theorem failed_parse_consistent_iff_audio :
    (∃ r, (usbiParseConfiguration lostExtraEnv {} 0 58).Returns r ∧ r.1 < 0 ∧ r.2.Consistent ∧ r.2.Walks) ∧
    ∃ dev', (usbiFetchAndParseDescriptors twoAudioEnv {}).Returns (some (0, dev')) ∧ dev'.num_configs = 2 ∧
      dev'.Consistent ∧ (∀ cfg ∈ dev'.configs.entries, cfg.Walks) ∧
      Releases (usbiDestroyConfiguration dev').1 dev'.Owns := by
  have hiff := failed_parse_consistent_iff lostExtraEnv twoAudioEnv
  constructor
  · have hrun : ((usbiParseConfiguration lostExtraEnv {} 0 58).run 2).2.map Prod.fst = some OPENUSB_PARSE_ERROR := by
      decide +kernel
    obtain ⟨r, hr, hret⟩ := Option.map_eq_some_iff.mp hrun
    have hz : ZeroSlack lostExtraEnv.mem 58 := fun p hp =>
      blobMem_of_le (show ((audioConfig.bytes.length : ℕ) : ℤ) ≤ p from hp)
    have hnone : reachedInterfaces lostExtraEnv {} 58 = [] := by decide +kernel
    have hstart : (cfgStart lostExtraEnv.mem 58).isSome := by decide +kernel
    refine ⟨r, ⟨2, hr⟩, by rw [hret]; decide, (hiff.1 58 r (by decide) hz ⟨2, hr⟩).mpr fun _ => ⟨hstart, fun q hq => ?_⟩⟩
    rw [hnone] at hq
    exact absurd hq List.not_mem_nil
  · have hrun : ((usbiFetchAndParseDescriptors twoAudioEnv {}).run 9).2.map (Option.map fun x => (x.1, x.2.num_configs)) =
        some (some (0, 2)) := by decide +kernel
    obtain ⟨out, hout, hx⟩ := Option.map_eq_some_iff.mp hrun
    obtain ⟨⟨ret, dev'⟩, rfl, hpair⟩ := Option.map_eq_some_iff.mp hx
    obtain ⟨rfl, hnum⟩ := Prod.mk.inj hpair
    refine ⟨dev', ⟨9, hout⟩, hnum, (hiff.2 {} dev' ⟨9, hout⟩).mpr fun c hc => ?_⟩
    dsimp only at hnum
    rw [hnum] at hc
    interval_cases c
    · have hnone : reachedInterfaces (twoAudioEnv.parse 0 (twoAudioEnv.data 0)) {} (twoAudioEnv.len 0) = [] := by
        decide +kernel
      have hstart : (cfgStart (twoAudioEnv.parse 0 (twoAudioEnv.data 0)).mem (twoAudioEnv.len 0)).isSome := by decide +kernel
      refine fun _ => ⟨hstart, fun q hq => ?_⟩
      rw [hnone] at hq
      exact absurd hq List.not_mem_nil
    · have hone : reachedInterfaces (twoAudioEnv.parse 1 (twoAudioEnv.data 1)) {} (twoAudioEnv.len 1) = [(0, 17, 41)] := by
        decide +kernel
      have hstart : (cfgStart (twoAudioEnv.parse 1 (twoAudioEnv.data 1)).mem (twoAudioEnv.len 1)).isSome := by decide +kernel
      have hstop : (interfaceStop (twoAudioEnv.parse 1 (twoAudioEnv.data 1)) 0 (17, 41)).isSome := by decide +kernel
      have hcount : (usbiGetIntfAltno (twoAudioEnv.parse 1 (twoAudioEnv.data 1)) 17 41).Returns 2 := ⟨8, by decide +kernel⟩
      have htwo : (interfaceAlts (twoAudioEnv.parse 1 (twoAudioEnv.data 1)) 0 (17, 41)).length ≤ 2 % 2 ^ 8 := by
        decide +kernel
      refine fun _ => ⟨hstart, fun q hq => ?_⟩
      rw [hone] at hq
      obtain rfl := List.mem_singleton.mp hq
      exact ⟨hstop, tableLarge_of_count (by decide) hcount htwo⟩

/-- A configuration that announces an interface and goes on with a descriptor of length 0. -/
def danglingBlob : List UInt8 := [9, 2, 11, 0, 1, 1, 0, 0x80, 50, 0, 0]

/-- The parser fails on `danglingBlob` and leaves one interface in a table that it has freed. -/
theorem parse_dangling_inconsistent : ∃ r, (usbiParseConfiguration (blobEnv danglingBlob) {} 0 11).Returns r ∧
    r.1 < 0 ∧ ¬ r.2.Consistent := by
  have hr : (usbiParseConfiguration (blobEnv danglingBlob) {} 0 11).Returns
      (-1, { desc := ⟨9, 2, 11, 1, 1, 0, 0x80, 50⟩, num_interfaces := 1, interfaces := .freed [] }) :=
    ⟨1, by decide +kernel⟩
  exact ⟨_, hr, by decide, fun h => h.interfaces_live trivial⟩

end OpenUsb
