import OpenUsb.Claim
import Mathlib.Data.Finset.Card
import Mathlib.Order.Interval.Finset.Nat

/-!
# Config — the configuration of a device and its cache on Linux

A device numbers its configurations twice: by their index among its descriptors and by their `bConfigurationValue`.
`openusb_set_configuration` takes a value but checks it as if it were an index from 1.  The cache holds both, and the
backend finds the index by reading the descriptors again.
-/

namespace OpenUsb

/-- A device with the values of its configuration descriptors, in their order. -/
structure ConfigDevice where
  values : List UInt8
  bNumConfigurations : UInt8
  count : values.length = bNumConfigurations.toNat
  distinct : values.Nodup

/-- `usbi_fetch_and_parse_descriptors` as the lookup sees it: its return code and the values in the table it leaves. -/
structure ConfigTable where
  ret : ℤ
  values : List UInt8
  deriving DecidableEq, Repr

/-- The loop of `usbi_get_cfg_index_by_value` from index `i`. -/
def cfgIndexFrom (cfgval : UInt8) : ℤ → List UInt8 → ℤ
  | _, [] => -1
  | i, v :: vs => if v = cfgval then i else cfgIndexFrom cfgval (i + 1) vs

/-- `usbi_get_cfg_index_by_value`. -/
def usbiGetCfgIndexByValue (table : ConfigTable) (cfgval : UInt8) : ℤ :=
  if table.ret = 0 then cfgIndexFrom cfgval 0 table.values else -1

/-- What the library caches of the current configuration. -/
structure ConfigCache where
  curConfigValue : UInt8
  curConfigIndex : ℤ
  deriving DecidableEq, Repr

/-- `linux_set_configuration`. -/
def linuxSetConfiguration (cache : ConfigCache) (cfg : UInt8) (sys : Syscall) (table : ConfigTable) : ℤ × ConfigCache :=
  if sys.ret < 0 then (translateErrno sys.errno, cache)
  else (OPENUSB_SUCCESS, { curConfigValue := cfg, curConfigIndex := usbiGetCfgIndexByValue table cfg })

/-- `linux_get_configuration`; `xfer` is what the control transfer returns and `current_cfg` the byte it leaves. -/
def linuxGetConfiguration (cache : ConfigCache) (xfer : ℤ) (current_cfg : UInt8) (table : ConfigTable) :
    ℤ × ConfigCache :=
  if xfer = OPENUSB_SUCCESS then
    (xfer, { curConfigValue := current_cfg, curConfigIndex := usbiGetCfgIndexByValue table current_cfg })
  else (xfer, cache)

/-- The checks of `openusb_set_configuration`: the error, or the value that it passes to the backend.  `parse` is what
`openusb_parse_device_desc` returns. -/
def openusbSetConfigurationArg (dev : ConfigDevice) (parse : ℤ) (cfg : UInt8) : Except ℤ UInt8 :=
  if parse ≠ 0 then .error parse
  else if cfg < 1 ∨ cfg > dev.bNumConfigurations then .error OPENUSB_BADARG
  else .ok cfg

/-- The calls on an open device, with what the system and the descriptors answer.  `buffer` says that the caller of
`openusb_get_configuration` passed an address. -/
inductive ConfigCall where
  | set (cfg : UInt8) (parse : ℤ) (sys : Syscall) (table : ConfigTable)
  | get (buffer : Bool) (xfer : ℤ) (current_cfg : UInt8) (table : ConfigTable)
  deriving DecidableEq, Repr

/-- The return code of a call and the cache after it: `openusb_set_configuration` and `openusb_get_configuration`. -/
def execConfig (dev : ConfigDevice) (cache : ConfigCache) : ConfigCall → ℤ × ConfigCache
  | .set cfg parse sys table => match openusbSetConfigurationArg dev parse cfg with
    | .error ret => (ret, cache)
    | .ok cfg => linuxSetConfiguration cache cfg sys table
  | .get buffer xfer current_cfg table =>
    if !buffer then (OPENUSB_BADARG, cache) else linuxGetConfiguration cache xfer current_cfg table

/-! ## Values and indices -/

/-- `openusb_set_configuration` passes on the values of the configuration descriptors and no others. -/
def PassesValues (dev : ConfigDevice) : Prop :=
  ∀ cfg, openusbSetConfigurationArg dev 0 cfg = .ok cfg ↔ cfg ∈ dev.values

/-- The cached index is that of the configuration descriptor with the cached value. -/
def ConfigCache.Coherent (dev : ConfigDevice) (cache : ConfigCache) : Prop :=
  ∃ i : ℕ, cache.curConfigIndex = i ∧ dev.values[i]? = some cache.curConfigValue

/-- The descriptors are read again, and the table has the value first where the device has it. -/
def Finds (dev : ConfigDevice) (table : ConfigTable) (cfg : UInt8) : Prop :=
  table.ret = 0 ∧ ∃ i : ℕ, dev.values[i]? = some cfg ∧ table.values[i]? = some cfg ∧
    ∀ j < i, table.values[j]? ≠ some cfg

/-- A call that sets the cache finds the new value in the table. -/
def CallFinds (dev : ConfigDevice) : ConfigCall → Prop
  | .set cfg parse sys table => openusbSetConfigurationArg dev parse cfg = .ok cfg → 0 ≤ sys.ret → Finds dev table cfg
  | .get buffer xfer current_cfg table => buffer = true → xfer = OPENUSB_SUCCESS → Finds dev table current_cfg

section

variable {dev : ConfigDevice} {cfg : UInt8}

theorem setConfigurationArg_ok {parse : ℤ} {cfg' : UInt8} :
    openusbSetConfigurationArg dev parse cfg = .ok cfg' ↔
      parse = 0 ∧ 1 ≤ cfg ∧ cfg ≤ dev.bNumConfigurations ∧ cfg' = cfg := by
  rw [openusbSetConfigurationArg]
  split_ifs with hparse hrange
  · exact iff_of_false nofun fun h => hparse h.1
  · exact iff_of_false nofun fun h => hrange.elim (UInt8.not_lt.mpr h.2.1) (UInt8.not_lt.mpr h.2.2.1)
  · rw [not_or, UInt8.not_lt, UInt8.not_lt] at hrange
    rw [Except.ok.injEq]
    exact ⟨fun h => ⟨not_not.mp hparse, hrange.1, hrange.2, h.symm⟩, fun h => h.2.2.2.symm⟩

/-- The check accepts exactly the values of the descriptors when these lie between 1 and their number. -/
theorem passesValues_iff : PassesValues dev ↔ ∀ v ∈ dev.values, 1 ≤ v ∧ v ≤ dev.bNumConfigurations := by
  have hok : ∀ cfg, openusbSetConfigurationArg dev 0 cfg = .ok cfg ↔ 1 ≤ cfg ∧ cfg ≤ dev.bNumConfigurations := by
    intro cfg
    rw [setConfigurationArg_ok]
    simp
  constructor
  · intro h v hv
    exact (hok v).mp ((h v).mpr hv)
  · intro hrange cfg
    rw [hok]
    refine ⟨fun hcfg => ?_, hrange cfg⟩
    -- `n` distinct values between 1 and `n` are all of them
    have hnodup : (dev.values.map UInt8.toNat).Nodup := dev.distinct.map fun _ _ h => UInt8.toNat_inj.mp h
    have hsub : (dev.values.map UInt8.toNat).toFinset ⊆ Finset.Icc 1 dev.bNumConfigurations.toNat := by
      intro n hn
      rw [List.mem_toFinset, List.mem_map] at hn
      obtain ⟨v, hv, rfl⟩ := hn
      rw [Finset.mem_Icc]
      exact ⟨UInt8.le_iff_toNat_le.mp (hrange v hv).1, UInt8.le_iff_toNat_le.mp (hrange v hv).2⟩
    have hcard : (Finset.Icc 1 dev.bNumConfigurations.toNat).card ≤ (dev.values.map UInt8.toNat).toFinset.card := by
      rw [List.toFinset_card_of_nodup hnodup, List.length_map, dev.count, Nat.card_Icc]
      omega
    have hall := Finset.eq_of_subset_of_card_le hsub hcard
    have hmem : cfg.toNat ∈ Finset.Icc 1 dev.bNumConfigurations.toNat :=
      Finset.mem_Icc.mpr ⟨UInt8.le_iff_toNat_le.mp hcfg.1, UInt8.le_iff_toNat_le.mp hcfg.2⟩
    rw [← hall, List.mem_toFinset, List.mem_map] at hmem
    obtain ⟨v, hv, heq⟩ := hmem
    rwa [← UInt8.toNat_inj.mp heq]

theorem cfgIndexFrom_range (vs : List UInt8) (i : ℤ) : cfgIndexFrom cfg i vs = -1 ∨ i ≤ cfgIndexFrom cfg i vs := by
  induction vs generalizing i with
  | nil => exact Or.inl rfl
  | cons v vs ih =>
    rw [cfgIndexFrom]
    split
    · exact Or.inr (le_refl i)
    · have := ih (i + 1)
      omega

/-- Where the loop finds a value. -/
theorem cfgIndexFrom_eq {vs : List UInt8} {i : ℤ} {k : ℕ} (hi : 0 ≤ i) :
    cfgIndexFrom cfg i vs = i + k ↔ vs[k]? = some cfg ∧ ∀ j < k, vs[j]? ≠ some cfg := by
  induction vs generalizing i k with
  | nil =>
    rw [cfgIndexFrom]
    exact iff_of_false (by omega) fun h => by simp at h
  | cons v vs ih =>
    rw [cfgIndexFrom]
    by_cases hv : v = cfg
    · rw [if_pos hv]
      cases k with
      | zero => simp [hv]
      | succ k => exact iff_of_false (by omega) fun h => h.2 0 (by omega) (by simp [hv])
    · rw [if_neg hv]
      cases k with
      | zero =>
        have hrange := @cfgIndexFrom_range cfg vs (i + 1)
        exact iff_of_false (by omega) fun h => hv (by simpa using h.1)
      | succ k =>
        rw [show i + ((k + 1 : ℕ) : ℤ) = i + 1 + k by omega, ih (by omega), List.getElem?_cons_succ]
        refine and_congr_right fun _ => ⟨fun h j hj => ?_, fun h j hj => h (j + 1) (by omega)⟩
        cases j with
        | zero => simpa using hv
        | succ j => exact h j (by omega)

/-- The lookup gives a coherent cache exactly when it finds the value. -/
theorem finds_iff {table : ConfigTable} : Finds dev table cfg ↔
    ConfigCache.Coherent dev { curConfigValue := cfg, curConfigIndex := usbiGetCfgIndexByValue table cfg } := by
  unfold Finds ConfigCache.Coherent usbiGetCfgIndexByValue
  dsimp only
  by_cases hret : table.ret = 0
  · rw [if_pos hret, and_iff_right hret]
    refine exists_congr fun i => ?_
    rw [← zero_add (i : ℤ), cfgIndexFrom_eq (le_refl 0), and_comm]
  · rw [if_neg hret]
    refine iff_of_false (fun h => hret h.1) ?_
    rintro ⟨i, hi, -⟩
    omega

/-- From a coherent cache a call leads to a coherent one exactly when it finds the value that it caches. -/
theorem execConfig_coherent {cache : ConfigCache} (h : cache.Coherent dev) (call : ConfigCall) :
    CallFinds dev call ↔ (execConfig dev cache call).2.Coherent dev := by
  cases call with
  | set cfg parse sys table =>
    unfold CallFinds execConfig
    dsimp only
    cases harg : openusbSetConfigurationArg dev parse cfg with
    | error ret => exact iff_of_true nofun h
    | ok cfg' =>
      obtain rfl := (setConfigurationArg_ok.mp harg).2.2.2
      dsimp only
      rw [forall_prop_of_true rfl, linuxSetConfiguration]
      split_ifs with hsys
      · exact iff_of_true (fun h => absurd h (not_le.mpr hsys)) h
      · rw [forall_prop_of_true (not_lt.mp hsys)]
        exact finds_iff
  | get buffer xfer current_cfg table =>
    unfold CallFinds execConfig
    dsimp only
    cases buffer with
    | false => exact iff_of_true nofun h
    | true =>
      rw [forall_prop_of_true rfl, if_neg (by decide), linuxGetConfiguration]
      split_ifs with hxfer
      · rw [forall_prop_of_true hxfer]
        exact finds_iff
      · exact iff_of_true (fun h => absurd h hxfer) h

/-- The calls on an open device. -/
def ConfigCalls (dev : ConfigDevice) (cache : ConfigCache) (call : ConfigCall) (cache' : ConfigCache) : Prop :=
  cache' = (execConfig dev cache call).2

/-- The check of `openusb_set_configuration` is right when the values lie between 1 and their number; and after an open,
whose own `openusb_get_configuration` has succeeded, the cache is coherent as long as the calls find their values. -/
theorem configuration_cache_iff (dev : ConfigDevice) :
    (PassesValues dev ↔ ∀ v ∈ dev.values, 1 ≤ v ∧ v ≤ dev.bNumConfigurations) ∧
      ∀ (cache cache' : ConfigCache) (current_cfg : UInt8) (table : ConfigTable) (calls : List ConfigCall),
        Run (ConfigCalls dev) (fun _ call => CallFinds dev call) cache (.get true OPENUSB_SUCCESS current_cfg table :: calls)
          cache' →
        cache'.Coherent dev ∧ ∀ call, CallFinds dev call ↔ (execConfig dev cache' call).2.Coherent dev := by
  refine ⟨passesValues_iff, fun cache cache' current_cfg table calls hrun => ?_⟩
  obtain ⟨hfirst, opened, hopen, hrest⟩ := run_cons.mp hrun
  have hstart : opened.Coherent dev := by
    rw [show opened = _ from hopen]
    exact finds_iff.mp (hfirst rfl rfl)
  have hinv := hrest.inv (I := fun cache => cache.Coherent dev)
    (fun s call t hs hG hstep => by
      rw [show t = (execConfig dev s call).2 from hstep]
      exact (execConfig_coherent hs call).mp hG) hstart
  exact ⟨hinv, execConfig_coherent hinv⟩

/-- A device with the configurations 1 and 2. -/
def twoConfigs : ConfigDevice := ⟨[1, 2], 2, rfl, by decide⟩

/-- The open finds configuration 1, and the device is then put into configuration 2. -/
theorem configuration_cache_iff_set : PassesValues twoConfigs ∧ ∃ cache,
    Run (ConfigCalls twoConfigs) (fun _ call => CallFinds twoConfigs call) ⟨0, 0⟩
      [.get true OPENUSB_SUCCESS 1 ⟨0, [1, 2]⟩, .set 2 0 ⟨0, 0⟩ ⟨0, [1, 2]⟩] cache ∧
    cache = ⟨2, 1⟩ ∧ cache.Coherent twoConfigs ∧
      ∀ call, CallFinds twoConfigs call ↔ (execConfig twoConfigs cache call).2.Coherent twoConfigs := by
  have hrun : Run (ConfigCalls twoConfigs) (fun _ call => CallFinds twoConfigs call) ⟨0, 0⟩
      [.get true OPENUSB_SUCCESS 1 ⟨0, [1, 2]⟩, .set 2 0 ⟨0, 0⟩ ⟨0, [1, 2]⟩] ⟨2, 1⟩ := by
    have hget : Finds twoConfigs ⟨0, [1, 2]⟩ 1 := ⟨rfl, 0, rfl, rfl, fun j hj => absurd hj (Nat.not_lt_zero j)⟩
    have hset : Finds twoConfigs ⟨0, [1, 2]⟩ 2 := by
      refine ⟨rfl, 1, rfl, rfl, fun j hj => ?_⟩
      obtain rfl := Nat.lt_one_iff.mp hj
      decide
    have hstep : (⟨2, 1⟩ : ConfigCache) = (execConfig twoConfigs ⟨1, 0⟩ (.set 2 0 ⟨0, 0⟩ ⟨0, [1, 2]⟩)).2 := by decide
    exact .cons (fun _ _ => hget) rfl (.cons (fun _ _ => hset) hstep (.nil _))
  obtain ⟨hpasses, hcache⟩ := configuration_cache_iff twoConfigs
  refine ⟨hpasses.mpr fun v hv => ?_, _, hrun, rfl, hcache _ _ _ _ _ hrun⟩
  rcases List.mem_pair.mp hv with rfl | rfl
  · exact ⟨by decide, by decide⟩
  · exact ⟨by decide, by decide⟩

/-- A device whose only configuration has the value 2. -/
def secondOnly : ConfigDevice := ⟨[2], 1, rfl, by decide⟩

/-- The value 2 of that device is rejected; and when the descriptors cannot be read after the open the index is -1. -/
theorem configuration_cache_fails : ¬ PassesValues secondOnly ∧
    ¬ (execConfig secondOnly ⟨0, 0⟩ (.get true OPENUSB_SUCCESS 2 ⟨-10, []⟩)).2.Coherent secondOnly := by
  constructor
  · intro h
    exact absurd (passesValues_iff.mp h 2 (by decide)).2 (by decide)
  · rintro ⟨i, hi, -⟩
    have hneg : (-1 : ℤ) = i := hi
    omega

end

end OpenUsb
