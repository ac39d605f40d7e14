import OpenUsb.Fetch
import OpenUsb.ParseReach

/-!
# AllOrNothing — what `usbi_fetch_and_parse_descriptors` leaves

A call is meant to deliver and store every descriptor, or to return a negative value and leave no configurations
(`AllOrNothing`).  `FetchClean` names the replies and the old trees for which it does: two reads are checked too loosely,
one exit forgets the number of configurations, the parser may not return, and a tree that an earlier parse left dangling
is freed twice.
-/

namespace OpenUsb

open Prog

variable (env : FetchEnv)

/-! ## What a call is meant to leave -/

/-- `wTotalLength` of a configuration descriptor. -/
def totalLength (h : List UInt8) : ℕ := (h.getD 2 0).toNat + 256 * (h.getD 3 0).toNat

/-- The header and the whole of configuration `c` were delivered, and `raw` holds exactly what was delivered. -/
def ConfigDelivered (c : ℕ) (raw : UsbiRawDesc) : Prop :=
  ∃ h b, env.reply (.header c) = .ok h ∧ 8 ≤ h.length ∧
    (totalLength h = 0 ∨ env.reply (.full c) = .ok b ∧ totalLength h ≤ b.length) ∧
    raw = { data := .live (totalLength h + 65536) (b.take (totalLength h)), len := totalLength h }

/-- The device descriptor and all of the 1 to 8 configurations that it announces were delivered and stored. -/
structure Delivered (dev : UsbiDescriptors) : Prop where
  device : ∃ d, env.reply .device = .ok d ∧ USBI_DEVICE_DESC_SIZE ≤ d.length ∧ dev.num_configs = (d.getD 17 0).toNat
  announced : 1 ≤ dev.num_configs ∧ dev.num_configs ≤ USBI_MAXCONFIG
  configs : ∀ c < dev.num_configs, ∃ raw, dev.configs_raw.get? c = some raw ∧ ConfigDelivered env c raw

/-- No configurations are left. -/
def NoConfigs (dev : UsbiDescriptors) : Prop := dev.num_configs = 0 ∧ dev.configs = .absent ∧ dev.configs_raw = .absent

/-- All or nothing. -/
def AllOrNothing (out : Option (ℤ × UsbiDescriptors)) : Prop :=
  ∃ ret dev, out = some (ret, dev) ∧ (ret = 0 ∧ Delivered env dev ∨ ret < 0 ∧ NoConfigs dev)

/-! ## One configuration -/

/-- `wTotalLength` as the device sent it. -/
def FetchEnv.len (c : ℕ) : ℕ :=
  match env.reply (.header c) with
  | .ok h => totalLength h
  | .error _ => 0

/-- The bytes that the second read leaves. -/
def FetchEnv.data (c : ℕ) : List UInt8 := (usbiGetDescriptor true (env.len c) (env.reply (.full c))).2

/-- The round of configuration `c` gets as far as the parser. -/
structure FetchEnv.Passes (c : ℕ) : Prop where
  header : ∃ h, env.reply (.header c) = .ok h ∧ 8 ≤ h.length
  alloc : env.alloc (.rawData c) = true
  full : ∀ b, env.reply (.full c) = .ok b → env.len c ≤ b.length

/-- The run of the parser on configuration `c`. -/
def FetchEnv.parseRun (c : ℕ) : Prog Ev (ℤ × UsbiConfig) :=
  usbiParseConfiguration (env.parse c (env.data c)) {} 0 (env.len c)

/-- The counting pass ends on every interface of configuration `c` that the parser reaches. -/
def FetchEnv.Parses (c : ℕ) : Prop :=
  ∀ q ∈ reachedInterfaces (env.parse c (env.data c)) {} (env.len c), Counted (env.parse c (env.data c)).mem q.2

/-- The raw descriptor that a round stores. -/
def FetchEnv.raw (c : ℕ) : UsbiRawDesc := { data := .live (env.len c + 65536) (env.data c), len := env.len c }

/-- `bNumConfigurations` as the code reads it: from the stack, when the reply `d` is too short. -/
def FetchEnv.announced (d : List UInt8) : ℕ := (bufMem (d.take USBI_DEVICE_DESC_SIZE) env.stack 17).toNat

/-- What the rounds of `n` configurations must do, when the device descriptor is `d`: each that is reached can be parsed,
and if none fails then the device descriptor was not short, and no read that asked for something failed. -/
def RoundsClean (d : List UInt8) (n : ℕ) : Prop :=
  (∀ c < n, (∀ i ≤ c, env.Passes i) → env.Parses c) ∧
    ((∀ c < n, env.Passes c) →
      USBI_DEVICE_DESC_SIZE ≤ d.length ∧ ∀ c < n, env.len c = 0 ∨ ∃ b, env.reply (.full c) = .ok b)

/-- The replies, allocations and old trees for which a call is all or nothing. -/
def FetchClean (dev : UsbiDescriptors) : Prop :=
  dev.Freeable ∧ match env.reply .device with
  | .error _ => dev.num_configs = 0 ∧ (dev.configs = .absent → dev.configs_raw = .absent)
  | .ok d => env.alloc .deviceRaw = true ∧
      (1 ≤ env.announced d → env.announced d ≤ USBI_MAXCONFIG → env.alloc .configsRaw = true →
        env.alloc .configs = true → RoundsClean env d (env.announced d))

section Rounds

variable {env : FetchEnv} {c : ℕ}

theorem totalLength_lt (h : List UInt8) : totalLength h < 2 ^ 16 := by
  have h2 := (h.getD 2 0).toNat_lt
  have h3 := (h.getD 3 0).toNat_lt
  unfold totalLength
  omega

theorem FetchEnv.len_lt : env.len c < 2 ^ 16 := by
  unfold FetchEnv.len
  split
  · exact totalLength_lt _
  · decide

/-- The first eight bytes are parsed to `wTotalLength`. -/
theorem parse_totalLength (h : List UInt8) :
    ((openusbParseData (bufMem (h.take 8) fun _ => 0) (some fmtTotalLength) (some 0) 8 (some 0) sizeofConfigDesc
      true).stores.foldl UsbConfigDesc.store {}).wTotalLength.toNat = totalLength h := by
  have hlt := totalLength_lt h
  simp [openusbParseData, parseChars, parseChar, parseField, fmtTotalLength, sizeofConfigDesc, UsbConfigDesc.store,
    leValue, bufMem, totalLength] at hlt ⊢
  exact hlt

theorem getDescriptor_zero {r : Reply} : usbiGetDescriptor true 0 r = (OPENUSB_BADARG, []) := if_pos (Or.inr rfl)

theorem getDescriptor_ok {n : ℕ} (hn : n ≠ 0) {b : List UInt8} :
    usbiGetDescriptor true n (.ok b) = (((b.take n).length : ℤ), b.take n) := if_neg (by simpa using hn)

theorem getDescriptor_error {n : ℕ} (hn : n ≠ 0) {b : List UInt8} :
    usbiGetDescriptor true n (.error b) = (-1, b.take n) := if_neg (by simpa using hn)

/-- The bytes behind what was delivered are zero. -/
theorem FetchEnv.zeroSlack (env : FetchEnv) (c : ℕ) : ZeroSlack (env.parse c (env.data c)).mem (env.len c) := by
  intro p hp
  have hlen : (env.data c).length ≤ env.len c := by
    unfold FetchEnv.data usbiGetDescriptor
    split
    · exact Nat.zero_le _
    · split
      · exact List.length_take_le _ _
      · exact List.length_take_le _ _
  show rawMem (env.data c) (env.heap c) p = 0
  rw [rawMem, if_neg (by omega), List.getD_eq_getElem?_getD, List.getElem?_eq_none (by omega), Option.getD_none]

/-- The parser returns on a configuration exactly when the counting pass ends on every interface. -/
theorem parseRun_halts_iff : (env.parseRun c).Halts ↔ env.Parses c :=
  parse_configuration_halts_iff (env.zeroSlack c) (Nat.lt_of_lt_of_le FetchEnv.len_lt (by decide)) {}

/-- The value of a full read is taken for short exactly when it delivered too few bytes; a failed read never is. -/
theorem getDescriptor_short {n : ℕ} (hn : n < 2 ^ 16) {r : Reply} :
    CInt.toU64 (usbiGetDescriptor true n r).1 < n ↔ ∃ b, r = .ok b ∧ b.length < n := by
  by_cases h0 : n = 0
  · refine iff_of_false (by omega) ?_
    rintro ⟨b, -, hb⟩
    omega
  cases r with
  | error b =>
    have hneg := CInt.toU64_of_neg (z := -1) (by decide) (by decide)
    rw [getDescriptor_error h0]
    refine iff_of_false (by dsimp only; omega) ?_
    rintro ⟨b, hb, -⟩
    cases hb
  | ok b =>
    rw [getDescriptor_ok h0, CInt.toU64_natCast (by rw [List.length_take]; omega), List.length_take]
    constructor
    · exact fun h => ⟨b, rfl, by omega⟩
    · rintro ⟨b', hb, h⟩
      cases hb
      omega

theorem FetchEnv.len_of_ok {h : List UInt8} (hr : env.reply (.header c) = .ok h) : env.len c = totalLength h := by
  rw [FetchEnv.len, hr]

/-- A round that gets to the parser stores what it returns, whatever its value. -/
theorem fetchConfig_passes (hp : env.Passes c) :
    fetchConfig env c = env.parseRun c >>= fun r => pure (some (env.raw c, r.2)) := by
  obtain ⟨h, hr, h8⟩ := hp.header
  have hlen := FetchEnv.len_of_ok hr
  have hget : usbiGetDescriptor true 8 (env.reply (.header c)) = ((8 : ℤ), h.take 8) := by
    rw [hr, getDescriptor_ok (by decide), List.length_take, Nat.min_eq_left h8]
    rfl
  have hfull : ¬ CInt.toU64 (usbiGetDescriptor true (env.len c) (env.reply (.full c))).1 < env.len c := fun hlt => by
    obtain ⟨b, hb, hshort⟩ := (getDescriptor_short FetchEnv.len_lt).mp hlt
    exact absurd (hp.full b hb) (by omega)
  unfold fetchConfig
  rw [hget]
  dsimp only
  rw [if_neg (by decide), parse_totalLength h, ← hlen, hp.alloc, if_neg (by decide), if_neg hfull]
  rfl

theorem fetchConfig_fails (hp : ¬ env.Passes c) : fetchConfig env c = pure none := by
  unfold fetchConfig
  cases hr : env.reply (.header c) with
  | error b => rfl
  | ok h =>
    have hlen := FetchEnv.len_of_ok hr
    rw [getDescriptor_ok (by decide)]
    dsimp only
    by_cases h8 : h.length < 8
    · rw [if_pos (by rw [List.length_take]; omega)]
    rw [if_neg (by rw [List.length_take]; omega), parse_totalLength h, ← hlen]
    cases hal : env.alloc (.rawData c) with
    | false => rw [if_pos (by simp)]
    | true =>
      have hshort : CInt.toU64 (usbiGetDescriptor true (env.len c) (env.reply (.full c))).1 < env.len c := by
        refine (getDescriptor_short FetchEnv.len_lt).mpr (by_contra fun hno => hp ⟨⟨h, hr, Nat.le_of_not_lt h8⟩, hal, ?_⟩)
        exact fun b hb => Nat.le_of_not_lt fun hlt => hno ⟨b, hb, hlt⟩
      rw [if_neg (by simp), if_pos hshort]

/-! ## All configurations -/

/-- A loop that comes to its end has stored, for each of its configurations, the raw descriptor and the parser's tree. -/
theorem fetchConfigs_returns {n : ℕ} {cs : List (UsbiRawDesc × UsbiConfig)}
    {r : Option (List (UsbiRawDesc × UsbiConfig))} (hr : (fetchConfigs env n cs).Returns r) :
    (r = none ∧ ∃ c < cs.length + n, cs.length ≤ c ∧ ¬ env.Passes c) ∨
      ∃ ds, r = some (cs ++ ds) ∧ ds.length = n ∧ ∀ k < n, env.Passes (cs.length + k) ∧
        ∃ x, (env.parseRun (cs.length + k)).Returns x ∧ ds[k]? = some (env.raw (cs.length + k), x.2) := by
  induction n generalizing cs with
  | zero =>
    rw [fetchConfigs, returns_pure] at hr
    exact Or.inr ⟨[], by simp [← hr], rfl, fun k hk => absurd hk (Nat.not_lt_zero k)⟩
  | succ n ih =>
    rw [fetchConfigs] at hr
    by_cases hp : env.Passes cs.length
    · rw [fetchConfig_passes hp, returns_bind] at hr
      obtain ⟨a, ha, hr⟩ := hr
      rw [returns_bind] at ha
      obtain ⟨x, hx, ha⟩ := ha
      rw [returns_pure] at ha
      subst ha
      rcases ih hr with ⟨rfl, c, hc, hle, hfail⟩ | ⟨ds, rfl, hds, hall⟩
      · rw [List.length_append, List.length_singleton] at hc hle
        exact Or.inl ⟨rfl, c, by omega, by omega, hfail⟩
      · refine Or.inr ⟨(env.raw cs.length, x.2) :: ds, by simp, by simp [hds], fun k hk => ?_⟩
        cases k with
        | zero => exact ⟨hp, x, hx, rfl⟩
        | succ k =>
          have hk' := hall k (by omega)
          rw [List.length_append, List.length_singleton, Nat.add_assoc, Nat.add_comm 1 k] at hk'
          exact hk'
    · rw [fetchConfig_fails hp, returns_bind] at hr
      obtain ⟨a, ha, hr⟩ := hr
      rw [returns_pure] at ha
      subst ha
      rw [returns_pure] at hr
      exact Or.inl ⟨hr.symm, cs.length, by omega, le_rfl, hp⟩

/-- The loop returns when, and only when, the parser returns on every configuration that it is called for. -/
theorem fetchConfigs_halts (env : FetchEnv) (n : ℕ) (cs : List (UsbiRawDesc × UsbiConfig)) :
    (fetchConfigs env n cs).Halts ↔
      ∀ k < n, (∀ i ≤ k, env.Passes (cs.length + i)) → (env.parseRun (cs.length + k)).Halts := by
  induction n generalizing cs with
  | zero => exact iff_of_true halts_pure fun k hk => absurd hk (Nat.not_lt_zero k)
  | succ n ih =>
    rw [fetchConfigs]
    by_cases hp : env.Passes cs.length
    · rw [fetchConfig_passes hp]
      have hlen : ∀ d, (cs ++ [d]).length = cs.length + 1 := fun d => by simp
      constructor
      · rintro ⟨r, hr⟩ k hk hpass
        rw [returns_bind] at hr
        obtain ⟨a, ha, hr⟩ := hr
        rw [returns_bind] at ha
        obtain ⟨x, hx, ha⟩ := ha
        rw [returns_pure] at ha
        subst ha
        cases k with
        | zero => exact ⟨x, hx⟩
        | succ k =>
          have hk' := (ih _).mp ⟨r, hr⟩ k (by omega) fun i hi => by
            rw [hlen, Nat.add_assoc, Nat.add_comm 1 i]
            exact hpass (i + 1) (by omega)
          rw [hlen, Nat.add_assoc, Nat.add_comm 1 k] at hk'
          exact hk'
      · intro h
        obtain ⟨x, hx⟩ := h 0 (Nat.succ_pos n) fun i hi => by rw [Nat.le_zero.mp hi]; exact hp
        obtain ⟨r, hr⟩ := (ih (cs ++ [(env.raw cs.length, x.2)])).mpr fun k hk hpass => by
          rw [hlen, Nat.add_assoc, Nat.add_comm 1 k]
          refine h (k + 1) (by omega) fun i hi => ?_
          cases i with
          | zero => exact hp
          | succ i =>
            have hi' := hpass i (by omega)
            rw [hlen, Nat.add_assoc, Nat.add_comm 1 i] at hi'
            exact hi'
        refine ⟨r, returns_bind.mpr ⟨some (env.raw cs.length, x.2), returns_bind.mpr ⟨x, hx, by simp⟩, hr⟩⟩
    · rw [fetchConfig_fails hp]
      refine iff_of_true ⟨none, returns_bind.mpr ⟨none, by simp, by simp⟩⟩ fun k hk hpass => ?_
      exact absurd (hpass 0 (Nat.zero_le k)) hp

end Rounds

/-! ## The call -/

section Call

variable {env : FetchEnv}

theorem allOrNothing_err (dev : UsbiDescriptors) : AllOrNothing env (some (fetchErr dev)) :=
  ⟨_, _, rfl, Or.inr ⟨by decide, rfl, rfl, rfl⟩⟩

/-- The raw descriptor of a round whose second read did not fail. -/
theorem configDelivered_raw {c : ℕ} (hp : env.Passes c) (hfull : env.len c = 0 ∨ ∃ b, env.reply (.full c) = .ok b) :
    ConfigDelivered env c (env.raw c) := by
  obtain ⟨h, hr, h8⟩ := hp.header
  have hlen := FetchEnv.len_of_ok hr
  unfold FetchEnv.raw FetchEnv.data
  by_cases h0 : env.len c = 0
  · refine ⟨h, [], hr, h8, Or.inl (hlen.symm.trans h0), ?_⟩
    rw [h0, getDescriptor_zero, List.take_nil, ← hlen, h0]
  · obtain ⟨b, hb⟩ := hfull.resolve_left h0
    refine ⟨h, b, hr, h8, Or.inr ⟨hb, hlen ▸ hp.full b hb⟩, ?_⟩
    rw [hb, getDescriptor_ok h0, hlen]

theorem delivered_full {c : ℕ} {raw : UsbiRawDesc} (h : ConfigDelivered env c raw) :
    env.len c = 0 ∨ ∃ b, env.reply (.full c) = .ok b := by
  obtain ⟨h, b, hr, -, hb, -⟩ := h
  rw [FetchEnv.len_of_ok hr]
  exact hb.imp id fun hb => ⟨b, hb.1⟩

/-- What the call returns after its rounds. -/
def fetchDone (dev : UsbiDescriptors) : Option (List (UsbiRawDesc × UsbiConfig)) → ℤ × UsbiDescriptors
  | none => fetchErr dev
  | some cs => (0, { dev with
      configs_raw := .live dev.num_configs (cs.map Prod.fst), configs := .live dev.num_configs (cs.map Prod.snd) })

/-- With a count in range and both tables, the configurations are fetched. -/
theorem fetchDevice_rounds {dev : UsbiDescriptors} {out : ℤ × UsbiDescriptors} (h8 : ¬ dev.num_configs > USBI_MAXCONFIG)
    (h1 : ¬ dev.num_configs < 1) (hraw : env.alloc .configsRaw = true) (hcfg : env.alloc .configs = true) :
    (fetchDevice env dev).Returns out ↔ ∃ r, (fetchConfigs env dev.num_configs []).Returns r ∧ out = fetchDone dev r := by
  unfold fetchDevice
  rw [if_neg h8, if_neg h1, if_neg (by simp [hraw]), if_neg (by simp [hcfg]), returns_bind]
  refine exists_congr fun r => and_congr_right fun _ => ?_
  cases r with
  | none => exact returns_pure.trans eq_comm
  | some cs => exact returns_pure.trans eq_comm

/-- A call that leaves all or nothing has met the conditions on its rounds. -/
theorem rounds_clean_of_all_or_nothing {d : List UInt8} (hd : env.reply .device = .ok d) {dev : UsbiDescriptors}
    {r : Option (List (UsbiRawDesc × UsbiConfig))} (hr : (fetchConfigs env dev.num_configs []).Returns r)
    (hall : AllOrNothing env (some (fetchDone dev r))) : RoundsClean env d dev.num_configs := by
  have hhalts := fetchConfigs_halts env dev.num_configs []
  simp only [List.length_nil, Nat.zero_add, parseRun_halts_iff] at hhalts
  refine ⟨hhalts.mp ⟨r, hr⟩, fun hpass => ?_⟩
  rcases fetchConfigs_returns hr with ⟨-, c, hc, -, hfail⟩ | ⟨ds, rfl, -, -⟩
  · rw [List.length_nil, Nat.zero_add] at hc
    exact absurd (hpass c hc) hfail
  · obtain ⟨ret, dev', hout, hall⟩ := hall
    obtain ⟨rfl, rfl⟩ := Prod.mk.inj (Option.some.inj hout)
    rcases hall with ⟨-, hdel⟩ | ⟨hneg, -⟩
    · obtain ⟨d', hd', hlen, -⟩ := hdel.device
      rw [hd] at hd'
      cases hd'
      refine ⟨hlen, fun c hc => ?_⟩
      obtain ⟨raw, -, hraw⟩ := hdel.configs c hc
      exact delivered_full hraw
    · exact absurd hneg (lt_irrefl 0)

/-- Rounds that meet the conditions leave every descriptor of the device, as delivered. -/
theorem RoundsClean.delivered {d : List UInt8} (hd : env.reply .device = .ok d) {dev : UsbiDescriptors}
    (hn : dev.num_configs = env.announced d) (h8 : ¬ dev.num_configs > USBI_MAXCONFIG) (h1 : ¬ dev.num_configs < 1)
    (hclean : RoundsClean env d dev.num_configs) {cs : List (UsbiRawDesc × UsbiConfig)}
    (hr : (fetchConfigs env dev.num_configs []).Returns (some cs)) :
    Delivered env { dev with
      configs_raw := .live dev.num_configs (cs.map Prod.fst), configs := .live dev.num_configs (cs.map Prod.snd) } := by
  rcases fetchConfigs_returns hr with ⟨hnone, -⟩ | ⟨ds, hds', hlen, hds⟩
  · exact absurd hnone nofun
  obtain rfl : cs = ds := by simpa using hds'
  simp only [List.length_nil, Nat.zero_add] at hds
  obtain ⟨hshort, hfull⟩ := hclean.2 fun c hc => (hds c hc).1
  refine ⟨?_, ?_, ?_⟩
  · refine ⟨d, hd, hshort, hn.trans ?_⟩
    have h17 : (d.take USBI_DEVICE_DESC_SIZE)[17]? = d[17]? := by simp [USBI_DEVICE_DESC_SIZE]
    have hget : d[17]? = some (d.get ⟨17, hshort⟩) := List.getElem?_eq_getElem hshort
    simp [FetchEnv.announced, bufMem, h17, hget]
  · exact ⟨Nat.le_of_not_lt h1, Nat.le_of_not_lt h8⟩
  · intro c hc
    obtain ⟨hp, x, -, hget⟩ := hds c hc
    refine ⟨env.raw c, ?_, configDelivered_raw hp (hfull c hc)⟩
    show (if c < dev.num_configs then _ else _) = _
    rw [if_pos hc, List.getD_eq_getElem?_getD]
    simp [hget]

/-- From the device descriptor on. -/
theorem fetchDevice_clean {d : List UInt8} (hd : env.reply .device = .ok d) {dev : UsbiDescriptors}
    (hn : dev.num_configs = env.announced d) :
    (∃ out, (fetchDevice env dev).Returns out ∧ AllOrNothing env (some out)) ↔
      (1 ≤ env.announced d → env.announced d ≤ USBI_MAXCONFIG → env.alloc .configsRaw = true →
        env.alloc .configs = true → RoundsClean env d (env.announced d)) := by
  rw [← hn]
  have herr (h : fetchDevice env dev = pure (fetchErr dev)) :
      ∃ out, (fetchDevice env dev).Returns out ∧ AllOrNothing env (some out) :=
    ⟨_, h ▸ returns_pure.mpr rfl, allOrNothing_err dev⟩
  by_cases h8 : dev.num_configs > USBI_MAXCONFIG
  · exact iff_of_true (herr (if_pos h8)) fun _ h => absurd h (Nat.not_le.mpr h8)
  by_cases h1 : dev.num_configs < 1
  · refine iff_of_true (herr ?_) fun h => absurd h (Nat.not_le.mpr h1)
    rw [fetchDevice, if_neg h8, if_pos h1]
  by_cases hraw : env.alloc .configsRaw = true
  swap
  · refine iff_of_true (herr ?_) fun _ _ h => absurd h hraw
    rw [fetchDevice, if_neg h8, if_neg h1, if_pos (by simpa using hraw)]
  by_cases hcfg : env.alloc .configs = true
  swap
  · refine iff_of_true (herr ?_) fun _ _ _ h => absurd h hcfg
    rw [fetchDevice, if_neg h8, if_neg h1, if_neg (by simp [hraw]), if_pos (by simpa using hcfg)]
  constructor
  · rintro ⟨out, hout, hall⟩ - - - -
    obtain ⟨r, hr, rfl⟩ := (fetchDevice_rounds h8 h1 hraw hcfg).mp hout
    exact rounds_clean_of_all_or_nothing hd hr hall
  · intro h
    have hclean := h (Nat.le_of_not_lt h1) (Nat.le_of_not_lt h8) hraw hcfg
    have hhalts := fetchConfigs_halts env dev.num_configs []
    simp only [List.length_nil, Nat.zero_add, parseRun_halts_iff] at hhalts
    obtain ⟨r, hr⟩ := hhalts.mpr hclean.1
    refine ⟨_, (fetchDevice_rounds h8 h1 hraw hcfg).mpr ⟨r, hr, rfl⟩, ?_⟩
    cases r with
    | none => exact allOrNothing_err dev
    | some cs => exact ⟨0, _, rfl, .inl ⟨rfl, hclean.delivered hd hn h8 h1 hr⟩⟩

/-- The eighteen bytes of a device descriptor are always parsed, wherever they come from. -/
theorem parse_device (mem : ℤ → UInt8) (d : UsbDeviceDesc) :
    let out := openusbParseData mem (some fmtDevice) (some 0) USBI_DEVICE_DESC_SIZE (some 0) sizeofDeviceDesc true
    out.ret = OPENUSB_SUCCESS ∧ out.count = some USBI_DEVICE_DESC_SIZE ∧
      (out.stores.foldl UsbDeviceDesc.store d).bNumConfigurations = mem 17 := by
  simp [openusbParseData, parseChars, parseChar, parseField, fmtDevice, sizeofDeviceDesc, USBI_DEVICE_DESC_SIZE,
    UsbDeviceDesc.store, leValue, CInt.toU32]

/-- The tables are gone after the old descriptors were freed. -/
theorem destroy_noConfigs (dev : UsbiDescriptors) : NoConfigs (usbiDestroyConfiguration dev).2 ↔
    dev.num_configs = 0 ∧ (dev.configs = .absent → dev.configs_raw = .absent) := by
  unfold usbiDestroyConfiguration NoConfigs
  cases hc : dev.configs with
  | absent => simp [hc]
  | live cap es => simp
  | freed es => simp

/-- A tree that can be freed is freed first. -/
theorem fetch_freed {dev : UsbiDescriptors} (h : dev.Freeable) :
    usbiFetchAndParseDescriptors env dev = fetchFreed env (usbiDestroyConfiguration dev).2 := by
  unfold usbiFetchAndParseDescriptors
  obtain ⟨l, hl⟩ := Option.isSome_iff_exists.mp (usbi_destroy_configuration_frees.mpr h)
  cases hd : usbiDestroyConfiguration dev with
  | mk o dev' =>
    rw [hd] at hl
    obtain rfl := hl
    rfl

/-- On a tree that cannot be freed the call faults. -/
theorem fetch_faults {dev : UsbiDescriptors} (h : ¬ dev.Freeable) : usbiFetchAndParseDescriptors env dev = pure none := by
  unfold usbiFetchAndParseDescriptors
  rw [← usbi_destroy_configuration_frees, Option.not_isSome_iff_eq_none] at h
  cases hd : usbiDestroyConfiguration dev with
  | mk o dev' =>
    rw [hd] at h
    obtain rfl := h
    rfl

end Call

/-- Once the old tree has been freed, a call returns and is all or nothing exactly when the replies are clean. -/
theorem fetchFreed_all_or_nothing (env : FetchEnv) (dev : UsbiDescriptors) :
    (∃ out, (fetchFreed env dev).Returns out ∧ AllOrNothing env out) ↔
      match env.reply .device with
      | .error _ => NoConfigs dev
      | .ok d => env.alloc .deviceRaw = true ∧
          (1 ≤ env.announced d → env.announced d ≤ USBI_MAXCONFIG → env.alloc .configsRaw = true →
            env.alloc .configs = true → RoundsClean env d (env.announced d)) := by
  unfold fetchFreed
  cases hd : env.reply .device with
  | error b =>
    rw [getDescriptor_error (by decide)]
    dsimp only
    rw [if_pos (by decide)]
    constructor
    · rintro ⟨out, hr, ret, dev', rfl, hall⟩
      rw [returns_pure, Option.some.injEq, Prod.mk.injEq] at hr
      obtain ⟨rfl, rfl⟩ := hr
      exact hall.elim (fun h => absurd h.1 (by decide)) And.right
    · exact fun h => ⟨_, returns_pure.mpr rfl, _, _, rfl, Or.inr ⟨by decide, h⟩⟩
  | ok d =>
    rw [getDescriptor_ok (by decide)]
    dsimp only
    rw [if_neg (by omega)]
    obtain ⟨hret, hcount, hnum⟩ := parse_device (bufMem (d.take USBI_DEVICE_DESC_SIZE) env.stack) dev.device
    rw [if_neg (by rw [hret, hcount]; decide)]
    cases hal : env.alloc .deviceRaw with
    | false =>
      rw [if_pos (by simp)]
      refine iff_of_false ?_ fun h => by cases h.1
      rintro ⟨out, hr, ret, dev', rfl, -⟩
      rw [returns_pure] at hr
      cases hr
    | true =>
      rw [if_neg (by simp)]
      generalize hdev : UsbiDescriptors.mk _ _ _ _ _ = dev'
      have hn : dev'.num_configs = env.announced d := by
        rw [← hdev, FetchEnv.announced, ← hnum]
      rw [and_iff_right rfl, ← fetchDevice_clean hd hn]
      constructor
      · rintro ⟨out, hr, hall⟩
        rw [returns_bind] at hr
        obtain ⟨x, hx, hr⟩ := hr
        rw [returns_pure] at hr
        exact ⟨x, hx, hr ▸ hall⟩
      · rintro ⟨x, hx, hall⟩
        exact ⟨some x, returns_bind.mpr ⟨x, hx, returns_pure.mpr rfl⟩, hall⟩

/-- A call of `usbi_fetch_and_parse_descriptors` returns and is all or nothing exactly when the old tree can be freed and
the replies are clean. -/
theorem fetch_all_or_nothing_iff (env : FetchEnv) (dev : UsbiDescriptors) :
    (∃ out, (usbiFetchAndParseDescriptors env dev).Returns out ∧ AllOrNothing env out) ↔ FetchClean env dev := by
  unfold FetchClean
  by_cases hfree : dev.Freeable
  swap
  · rw [fetch_faults hfree]
    refine iff_of_false ?_ fun h => hfree h.1
    rintro ⟨out, hr, ret, dev', rfl, -⟩
    cases returns_pure.mp hr
  rw [fetch_freed hfree, fetchFreed_all_or_nothing, and_iff_right hfree]
  cases env.reply .device with
  | error b => exact destroy_noConfigs dev
  | ok d => exact Iff.rfl

/-- What is stored when a call returns 0: for each configuration, the raw descriptor and what the parser left. -/
def Stored (env : FetchEnv) (dev : UsbiDescriptors) (cs : List (UsbiRawDesc × UsbiConfig)) : Prop :=
  dev.configs_raw = .live dev.num_configs (cs.map Prod.fst) ∧ dev.configs = .live dev.num_configs (cs.map Prod.snd) ∧
    cs.length = dev.num_configs ∧ ¬ dev.device_raw.data.IsFreed ∧
    ∀ c < dev.num_configs, ∃ x, (env.parseRun c).Returns x ∧ cs[c]? = some (env.raw c, x.2)

theorem fetchDevice_stored {env : FetchEnv} {dev dev' : UsbiDescriptors} (hraw : ¬ dev.device_raw.data.IsFreed)
    (hr : (fetchDevice env dev).Returns (0, dev')) : ∃ cs, Stored env dev' cs := by
  have herr : ¬ (pure (fetchErr dev) : Prog Ev (ℤ × UsbiDescriptors)).Returns (0, dev') := fun h => by
    have h0 : (-1 : ℤ) = 0 := congrArg Prod.fst (returns_pure.mp h)
    exact absurd h0 (by decide)
  unfold fetchDevice at hr
  split_ifs at hr
  iterate 4
    · exact absurd hr herr
  obtain ⟨r, hcfgs, hout⟩ := returns_bind.mp hr
  cases r with
  | none => exact absurd hout herr
  | some cs =>
    obtain rfl : _ = dev' := congrArg Prod.snd (returns_pure.mp hout)
    rcases fetchConfigs_returns hcfgs with ⟨h, -⟩ | ⟨ds, hcs, hlen, hds⟩
    · cases h
    · obtain rfl : cs = ds := Option.some_inj.mp hcs
      refine ⟨cs, rfl, rfl, hlen, hraw, fun c hc => ?_⟩
      obtain ⟨-, x, hx, hget⟩ := hds c hc
      rw [List.length_nil, Nat.zero_add] at hx hget
      exact ⟨x, hx, hget⟩

theorem fetchFreed_stored {env : FetchEnv} {dev dev' : UsbiDescriptors}
    (hr : (fetchFreed env dev).Returns (some (0, dev'))) : ∃ cs, Stored env dev' cs := by
  have herr : ∀ d, ¬ (pure (some (OPENUSB_PARSE_ERROR, d)) : Prog Ev (Option (ℤ × UsbiDescriptors))).Returns
      (some (0, dev')) := fun d h => by
    have h0 : OPENUSB_PARSE_ERROR = 0 := congrArg Prod.fst (Option.some_inj.mp (returns_pure.mp h))
    exact absurd h0 (by decide)
  unfold fetchFreed at hr
  dsimp only at hr
  split_ifs at hr
  · exact absurd hr (herr _)
  · exact absurd hr (herr _)
  · cases returns_pure.mp hr
  obtain ⟨out, hr, hout⟩ := returns_bind.mp hr
  obtain rfl := Option.some_inj.mp (returns_pure.mp hout)
  generalize hdev : UsbiDescriptors.mk _ _ _ _ _ = d at hr
  exact fetchDevice_stored (by rw [← hdev]; exact not_false) hr

theorem fetch_stored {env : FetchEnv} {dev dev' : UsbiDescriptors}
    (hr : (usbiFetchAndParseDescriptors env dev).Returns (some (0, dev'))) : ∃ cs, Stored env dev' cs := by
  by_cases hfree : dev.Freeable
  · rw [fetch_freed hfree] at hr
    exact fetchFreed_stored hr
  · rw [fetch_faults hfree] at hr
    cases returns_pure.mp hr

/-- A device whose configuration of 9 bytes cannot be read past its header. -/
def lostEnv : FetchEnv where
  reply
    | .device => .ok [18, 1, 0, 2, 0, 0, 0, 64, 0x6d, 4, 0x1c, 0xc3, 0, 1, 1, 2, 0, 1]
    | .header _ => .ok [9, 2, 9, 0, 0, 1, 0, 0x80]
    | .full _ => .error []
  alloc := fun _ => true
  stack := fun _ => 0
  heap := fun _ _ => 0
  junk := fun _ _ => ⟨0, 0⟩

theorem fetch_accepts_failed_read :
    ¬ ∃ out, (usbiFetchAndParseDescriptors lostEnv {}).Returns out ∧ AllOrNothing lostEnv out := by
  rintro ⟨out, hr, ret, dev, rfl, hall⟩
  have hrun : ((usbiFetchAndParseDescriptors lostEnv {}).run 1).2.map (Option.map Prod.fst) = some (some 0) := by
    decide +kernel
  obtain ⟨x, hx, hx0⟩ := Option.map_eq_some_iff.mp hrun
  obtain rfl := hr.unique ⟨1, hx⟩
  obtain rfl : ret = 0 := Option.some_inj.mp hx0
  rcases hall with ⟨-, hdel⟩ | ⟨hneg, -⟩
  · obtain ⟨raw, -, h, b, hh, -, hb, -⟩ := hdel.configs 0 hdel.announced.1
    obtain rfl := Reply.ok.inj hh
    rcases hb with hb | ⟨hb, -⟩
    · exact absurd hb (by decide)
    · cases hb
  · exact absurd hneg (lt_irrefl 0)

end OpenUsb
