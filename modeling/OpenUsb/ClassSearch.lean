import OpenUsb.DeviceSearch
import OpenUsb.ConfigForm

/-!
# ClassSearch — the search for devices by class

`usbi_match_class` tests the device descriptor, and then the alternate settings of all interfaces in all configurations.  It
counts the settings of an interface itself, and tries the values below that count.

* `class_search_iff`: when the devices with a class, a subclass and a protocol are found.
-/

namespace OpenUsb

open Prog

/-! ## Class, subclass and protocol -/

/-- The locals of `usbi_get_num_altsettings`. -/
structure AltScan where
  sp : ℤ
  buflen : ℕ
  num_alt : UInt8
  deriving DecidableEq, Repr

/-- What `usbi_get_num_altsettings` returns at its end. -/
def altScanEnd (num_alt : UInt8) : ℤ := if num_alt > 0 then num_alt.toNat else -1

/-- The step over the descriptor at the cursor. -/
def altScanStep (env : Env) (w : AltScan) : Prog Ev (Round AltScan ℤ) := do
  let b ← rd env w.sp
  if b > 0 ∧ w.buflen ≥ b.toNat then do
    emit (.take w.buflen b.toNat)
    pure (.again { w with sp := w.sp + b.toNat, buflen := CInt.sub 16 w.buflen b.toNat })
  else pure (.leave (-1))

/-- A round of the loop of `usbi_get_num_altsettings`. -/
def altScanRound (env : Env) (infidx : UInt8) (w : AltScan) : Prog Ev (Round AltScan ℤ) :=
  if w.buflen ≥ 3 then do
    let t ← rd env (w.sp + 1)
    if t = USB_DESC_TYPE_INTERFACE then do
      let n ← rd env (w.sp + 2)
      if n = infidx then altScanStep env { w with num_alt := w.num_alt + 1 }
      else if n > infidx then pure (.leave (altScanEnd w.num_alt))
      else altScanStep env w
    else altScanStep env w
  else pure (.leave (altScanEnd w.num_alt))

/-- `usbi_get_num_altsettings`, of a buffer that is not NULL. -/
def usbiGetNumAltsettings (env : Env) (raw : RawDesc) (infidx : UInt8) : Prog Ev ℤ :=
  if raw.len = 0 then pure (-1)
  else loop (altScanRound env infidx) { sp := raw.buf, buflen := raw.len, num_alt := 0 }

/-- A class, a subclass and a protocol to look for. -/
structure ClassQuery where
  devclass : ℤ
  subclass : ℤ
  protocol : ℤ
  deriving DecidableEq, Repr

namespace ClassQuery

/-- All three values match. -/
def matchesValues (q : ClassQuery) (bClass bSubClass bProtocol : UInt8) : Bool :=
  wild q.devclass bClass.toNat && wild q.subclass bSubClass.toNat && wild q.protocol bProtocol.toNat

/-- `(devclass < -1) || (devclass > 0xff)`, and so on. -/
def outOfRange (q : ClassQuery) : Bool :=
  decide (q.devclass < -1 ∨ q.devclass > 0xff ∨ q.subclass < -1 ∨ q.subclass > 0xff ∨ q.protocol < -1 ∨ q.protocol > 0xff)

/-- The test of the device descriptor by `usbi_match_class`, and `protocol` after it: where it should be compared, it is
assigned to. -/
def deviceTest (q : ClassQuery) (dev_desc : UsbDeviceDesc) : Bool × ClassQuery :=
  if wild q.devclass dev_desc.bDeviceClass.toNat ∧ wild q.subclass dev_desc.bDeviceSubClass.toNat then
    if q.protocol = -1 then (true, q)
    else (decide (dev_desc.bDeviceProtocol ≠ 0), { q with protocol := dev_desc.bDeviceProtocol.toNat })
  else (false, q)

end ClassQuery

section

variable (idev : SearchDevice) (q : ClassQuery)

/-- The loop body for an alternate setting. -/
def altTest (raw : ℤ × RawDesc) (i a : ℕ) : Prog Ev Bool := do
  let (ret, ifc_desc) ←
    openusbParseInterfaceDesc idev.env true raw (some raw.2.buf) raw.2.len (UInt8.ofNat i) (UInt8.ofNat a) {}
  if ret < 0 then pure false
  else pure (q.matchesValues ifc_desc.bInterfaceClass ifc_desc.bInterfaceSubClass ifc_desc.bInterfaceProtocol)

/-- The loop body for an interface. -/
def interfaceTest (raw : ℤ × RawDesc) (i : ℕ) : Prog Ev Bool := do
  let num_alt ← usbiGetNumAltsettings idev.env raw.2 (UInt8.ofNat i)
  if num_alt < 0 then pure false
  else anyOf (altTest idev q raw i) num_alt.toNat 0

/-- The loop body for a configuration. -/
def configTest (c : ℕ) : Prog Ev Bool :=
  let raw := idev.config (UInt8.ofNat c)
  if raw.1 < 0 then pure false
  else do
    let (ret, cfg_desc) ← openusbParseConfigDesc idev.env true raw (some raw.2.buf) raw.2.len {}
    if ret < 0 then pure false
    else anyOf (interfaceTest idev q raw) cfg_desc.bNumInterfaces.toNat 0

/-- `usbi_match_class`. -/
def usbiMatchClass : Prog Ev Bool := do
  let (ret, dev_desc) ← openusbParseDeviceDesc idev.env true idev.device none 0 {}
  if ret < 0 then pure false
  else
    let (found, q) := q.deviceTest dev_desc
    if found then pure true
    else anyOf (configTest idev q) dev_desc.bNumConfigurations.toNat 0

end

/-- The loop of `openusb_get_devids_by_class`. -/
def classScan (q : ClassQuery) : List SearchDevice → Prog Ev (List ℕ)
  | [] => pure []
  | idev :: devices => do
    let found ← usbiMatchClass idev q
    let match_list ← classScan q devices
    if found then pure (idev.devid :: match_list) else pure match_list

/-- `openusb_get_devids_by_class`; it does not look at `*devids`. -/
def openusbGetDevidsByClass (call : SearchCall) (q : ClassQuery) (devices : List SearchDevice) : Prog Ev SearchResult :=
  if !call.num_devids ∨ !call.devids then pure { ret := OPENUSB_BADARG }
  else if !call.hdl then pure { ret := OPENUSB_INVALID_HANDLE }
  else if q.outOfRange then pure { ret := OPENUSB_BADARG }
  else do
    let match_list ← classScan q devices
    pure (searchEnd call.alloc match_list)

/-! ## Settings that the search comes to -/

section

variable (mem : ℤ → UInt8)

/-- The settings of interface `infidx` in front of the first one of an interface with a greater number. -/
def settingsInFront (infidx : UInt8) (l : List (ℤ × ℕ)) : ℕ :=
  (l.takeWhile fun w => !(isInterface mem w && decide (mem (w.1 + 2) > infidx))).countP fun w =>
    isInterface mem w && decide (mem (w.1 + 2) = infidx)

/-- The class, the subclass and the protocol of the setting match. -/
def settingMatches (q : ClassQuery) (w : ℤ × ℕ) : Bool :=
  isInterface mem w && q.matchesValues (mem (w.1 + 5)) (mem (w.1 + 6)) (mem (w.1 + 7))

/-- The search comes to this setting: its number is less than `bNumInterfaces`, and its value less than the number, cut to
eight bits, of the settings in front. -/
def withinReach (raw : RawDesc) (w : ℤ × ℕ) : Bool :=
  decide (mem (w.1 + 2) < mem (raw.buf + 4) ∧
    (mem (w.1 + 3)).toNat < settingsInFront mem (mem (w.1 + 2)) (chain mem raw.buf raw.len) % 256)

end

/-! ## Counting the alternate settings -/

section

variable {env : Env} {mem : ℤ → UInt8} {infidx : UInt8}

theorem settingsInFront_nil : settingsInFront mem infidx [] = 0 := rfl

theorem settingsInFront_stop {w : ℤ × ℕ} {l : List (ℤ × ℕ)} (hifc : isInterface mem w = true)
    (hgt : mem (w.1 + 2) > infidx) : settingsInFront mem infidx (w :: l) = 0 := by
  rw [settingsInFront, List.takeWhile_cons_of_neg (by simp [hifc, hgt]), List.countP_nil]

theorem settingsInFront_cons {w : ℤ × ℕ} {l : List (ℤ × ℕ)} (h : ¬ (isInterface mem w = true ∧ mem (w.1 + 2) > infidx)) :
    settingsInFront mem infidx (w :: l) =
      settingsInFront mem infidx l + if isInterface mem w = true ∧ mem (w.1 + 2) = infidx then 1 else 0 := by
  rw [settingsInFront, List.takeWhile_cons_of_pos (by simpa [imp_iff_not_or] using h), List.countP_cons, settingsInFront]
  simp only [Bool.and_eq_true, decide_eq_true_eq]

/-- The scan steps over a well-placed descriptor. -/
theorem returns_altScanStep {w : AltScan} (hplaced : WellPlaced env.mem (w.sp, w.buflen)) (hlt : w.buflen < 2 ^ 16) :
    (altScanStep env w).Returns
      (.again { w with sp := w.sp + (env.mem w.sp).toNat, buflen := w.buflen - (env.mem w.sp).toNat }) := by
  have h2 : 2 ≤ (env.mem w.sp).toNat := hplaced.two_le
  have hfits : (env.mem w.sp).toNat ≤ w.buflen := hplaced.fits
  have hpos : env.mem w.sp > 0 := UInt8.lt_iff_toNat_lt.mpr (Nat.lt_of_lt_of_le Nat.zero_lt_two h2)
  rw [altScanStep, (returns_rd.mpr rfl).bind_iff, if_pos ⟨hpos, hfits⟩, returns_emit_bind, CInt.sub_of_le hlt hfits,
    returns_pure]

/-- The round at a descriptor that is not of a later interface: it counts a setting of this one. -/
theorem altScanRound_on {w : AltScan} (h3 : w.buflen ≥ 3) (hplaced : WellPlaced env.mem (w.sp, w.buflen))
    (hlt : w.buflen < 2 ^ 16)
    (hon : ¬ (isInterface env.mem (w.sp, w.buflen) = true ∧ env.mem (w.sp + 2) > infidx)) :
    (altScanRound env infidx w).Returns (.again
      { sp := w.sp + (env.mem w.sp).toNat, buflen := w.buflen - (env.mem w.sp).toNat,
        num_alt := w.num_alt + UInt8.ofNat
          (if isInterface env.mem (w.sp, w.buflen) = true ∧ env.mem (w.sp + 2) = infidx then 1 else 0) }) := by
  have hifc : isInterface env.mem (w.sp, w.buflen) = true ↔ env.mem (w.sp + 1) = USB_DESC_TYPE_INTERFACE :=
    isType_iff.trans (and_iff_right (show 2 ≤ w.buflen by omega))
  have hskip : w.num_alt + UInt8.ofNat 0 = w.num_alt := UInt8.add_zero _
  rw [altScanRound, if_pos h3, (returns_rd.mpr rfl).bind_iff]
  by_cases ht : env.mem (w.sp + 1) = USB_DESC_TYPE_INTERFACE
  · rw [if_pos ht, (returns_rd.mpr rfl).bind_iff]
    by_cases heq : env.mem (w.sp + 2) = infidx
    · rw [if_pos heq, if_pos ⟨hifc.mpr ht, heq⟩]
      exact returns_altScanStep hplaced hlt
    · rw [if_neg heq, if_neg (fun h => hon ⟨hifc.mpr ht, h⟩), if_neg (fun h => heq h.2), hskip]
      exact returns_altScanStep hplaced hlt
  · rw [if_neg ht, if_neg (fun h => ht (hifc.mp h.1)), hskip]
    exact returns_altScanStep hplaced hlt

/-- The round at the first setting of a later interface. -/
theorem altScanRound_stop {w : AltScan} (h3 : w.buflen ≥ 3) (hifc : isInterface env.mem (w.sp, w.buflen) = true)
    (hgt : env.mem (w.sp + 2) > infidx) : (altScanRound env infidx w).Returns (.leave (altScanEnd w.num_alt)) := by
  have hne : env.mem (w.sp + 2) ≠ infidx := fun h => UInt8.lt_irrefl _ (h ▸ hgt)
  rw [altScanRound, if_pos h3, (returns_rd.mpr rfl).bind_iff, if_pos (isType_iff.mp hifc).2, (returns_rd.mpr rfl).bind_iff,
    if_neg hne, if_pos hgt, returns_pure]

/-- The scan counts the settings in front. -/
theorem returns_altScan (n : ℕ) (sp : ℤ) (hlt : n < 2 ^ 16) (hplaced : ∀ w ∈ chain env.mem sp n, WellPlaced env.mem w)
    (num_alt : UInt8) : (loop (altScanRound env infidx) { sp := sp, buflen := n, num_alt := num_alt }).Returns
      (altScanEnd (num_alt + UInt8.ofNat (settingsInFront env.mem infidx (chain env.mem sp n)))) := by
  have hskip (k : UInt8) : k + UInt8.ofNat 0 = k := UInt8.add_zero k
  induction n using Nat.strongRecOn generalizing sp num_alt with
  | ind n ih =>
    by_cases hzero : n = 0
    · subst hzero
      refine returns_loop.mpr (.inl ?_)
      rw [altScanRound, if_neg (by simp), chain_zero, settingsInFront_nil, hskip, returns_pure]
    obtain ⟨rest, hhead⟩ := @chain_head env.mem sp n hzero
    have hhere : WellPlaced env.mem (sp, n) := hplaced _ (by rw [hhead]; exact List.mem_cons_self)
    have h2 : 2 ≤ (env.mem sp).toNat := hhere.two_le
    have hfits : (env.mem sp).toNat ≤ n := hhere.fits
    have hchain := @chain_hop env.mem sp n ⟨by omega, hfits⟩
    rw [hchain]
    by_cases h3 : n ≥ 3
    · by_cases hstop : isInterface env.mem (sp, n) = true ∧ env.mem (sp + 2) > infidx
      · rw [settingsInFront_stop hstop.1 hstop.2, hskip]
        exact returns_loop.mpr (.inl (altScanRound_stop h3 hstop.1 hstop.2))
      · rw [settingsInFront_cons hstop, UInt8.ofNat_add, UInt8.add_comm (UInt8.ofNat _), ← UInt8.add_assoc]
        refine returns_loop.mpr (.inr ⟨_, altScanRound_on h3 hhere hlt hstop, ?_⟩)
        dsimp only
        exact ih _ (by omega) _ (by omega) (fun w hw => hplaced w (by rw [hchain]; exact List.mem_cons_of_mem _ hw)) _
    · -- two bytes at the end are no interface
      have hnot : ¬ isInterface env.mem (sp, n) = true := fun h => by
        have h9 : 9 ≤ (env.mem sp).toNat := hhere.interface h
        omega
      have hend : n - (env.mem sp).toNat = 0 := by omega
      rw [settingsInFront_cons (fun h => hnot h.1), if_neg (fun h => hnot h.1), hend, chain_zero, settingsInFront_nil,
        hskip]
      refine returns_loop.mpr (.inl ?_)
      rw [altScanRound, if_neg h3, returns_pure]

theorem returns_numAltsettings {raw : RawDesc} (hwf : WellFormed env.mem raw) :
    (usbiGetNumAltsettings env raw infidx).Returns
      (altScanEnd (UInt8.ofNat (settingsInFront env.mem infidx (chain env.mem raw.buf raw.len)))) := by
  have h9 := hwf.nine_le
  rw [usbiGetNumAltsettings, if_neg (by omega)]
  have h := @returns_altScan env infidx raw.len raw.buf hwf.small hwf.placed 0
  rwa [UInt8.zero_add] at h

end

/-! ## What the search by class comes to -/

section

variable {idev : SearchDevice} {q : ClassQuery} {raw : ℤ × RawDesc}

theorem decides_altTest (hwf : WellFormed idev.mem raw.2) (i a : ℕ) :
    Decides (altTest idev q raw i a) (∃ w ∈ chain idev.mem raw.2.buf raw.2.len, settingMatches idev.mem q w = true ∧
      idev.mem (w.1 + 2) = UInt8.ofNat i ∧ idev.mem (w.1 + 3) = UInt8.ofNat a) := by
  obtain ⟨⟨r, hr⟩, -, hanswers⟩ := @parse_interface_desc_exact idev.env raw.2.buf raw.2.len hwf.nine_le hwf.small raw
    (UInt8.ofNat i) (UInt8.ofNat a) {}
  have hans : Answers (interfaceAt idev.mem)
      (interfaceFound idev.mem (UInt8.ofNat i) (UInt8.ofNat a) raw.2.buf raw.2.len) r :=
    hanswers r hr
  refine hr.decides_bind ?_
  cases hfound : interfaceFound idev.mem (UInt8.ofNat i) (UInt8.ofNat a) raw.2.buf raw.2.len with
  | none =>
    rw [hfound] at hans
    obtain ⟨ret, d⟩ := r
    dsimp only
    rw [if_pos (show ret < 0 from hans)]
    refine decides_pure ⟨nofun, ?_⟩
    rintro ⟨w, hw, hmatch, hnum, hval⟩
    have hsome := (interfaceFound_iff hwf).mpr ⟨w, hw, rfl, (Bool.and_eq_true_iff.mp hmatch).1, hnum, hval⟩
    rw [hfound] at hsome
    cases hsome
  | some p =>
    rw [hfound] at hans
    obtain rfl : r = (OPENUSB_SUCCESS, interfaceAt idev.mem p) := hans
    dsimp only
    rw [if_neg (by decide)]
    refine decides_pure ⟨fun hmatch => ?_, ?_⟩
    · obtain ⟨w, hw, rfl, hifc, hnum, hval⟩ := (interfaceFound_iff hwf).mp hfound
      exact ⟨w, hw, Bool.and_eq_true_iff.mpr ⟨hifc, hmatch⟩, hnum, hval⟩
    · rintro ⟨w, hw, hmatch, hnum, hval⟩
      obtain ⟨hifc, hvalues⟩ := Bool.and_eq_true_iff.mp hmatch
      have hsome := (interfaceFound_iff hwf).mpr ⟨w, hw, rfl, hifc, hnum, hval⟩
      rw [hfound] at hsome
      rw [Option.some_inj.mp hsome]
      exact hvalues

theorem decides_interfaceTest (hwf : WellFormed idev.mem raw.2) {i : ℕ} (hi : i < 256) :
    Decides (interfaceTest idev q raw i) (∃ w ∈ chain idev.mem raw.2.buf raw.2.len, settingMatches idev.mem q w = true ∧
      (idev.mem (w.1 + 2)).toNat = i ∧ (idev.mem (w.1 + 3)).toNat <
        settingsInFront idev.mem (idev.mem (w.1 + 2)) (chain idev.mem raw.2.buf raw.2.len) % 256) := by
  have hnumber {b : UInt8} : b = UInt8.ofNat i ↔ b.toNat = i := by
    rw [← UInt8.toNat_inj, UInt8.toNat_ofNat', Nat.mod_eq_of_lt (by omega)]
  have hscan : (usbiGetNumAltsettings idev.env raw.2 (UInt8.ofNat i)).Returns
      (altScanEnd (UInt8.ofNat (settingsInFront idev.mem (UInt8.ofNat i) (chain idev.mem raw.2.buf raw.2.len)))) :=
    @returns_numAltsettings idev.env (UInt8.ofNat i) raw.2 hwf
  refine hscan.decides_bind ?_
  have hcount (w : ℤ × ℕ) (hw : (idev.mem (w.1 + 2)).toNat = i) :
      settingsInFront idev.mem (idev.mem (w.1 + 2)) (chain idev.mem raw.2.buf raw.2.len) =
        settingsInFront idev.mem (UInt8.ofNat i) (chain idev.mem raw.2.buf raw.2.len) := by rw [hnumber.mpr hw]
  generalize hk : settingsInFront idev.mem (UInt8.ofNat i) (chain idev.mem raw.2.buf raw.2.len) = k at hcount
  have hcut : (UInt8.ofNat k).toNat = k % 256 := UInt8.toNat_ofNat'
  unfold altScanEnd
  by_cases hpos : UInt8.ofNat k > 0
  · rw [if_pos hpos, if_neg (by omega), Int.toNat_natCast, hcut]
    refine (decides_anyOf fun a _ _ => decides_altTest hwf i a).congr ⟨?_, ?_⟩
    · rintro ⟨a, -, ha, w, hw, hmatch, hnum, hval⟩
      have h256 := Nat.mod_lt k (show 256 > 0 by decide)
      refine ⟨w, hw, hmatch, hnumber.mp hnum, ?_⟩
      rw [hcount w (hnumber.mp hnum), hval, UInt8.toNat_ofNat', Nat.mod_eq_of_lt (by omega)]
      omega
    · rintro ⟨w, hw, hmatch, hnum, hval⟩
      rw [hcount w hnum] at hval
      exact ⟨(idev.mem (w.1 + 3)).toNat, Nat.zero_le _, by omega, w, hw, hmatch, hnumber.mpr hnum, UInt8.ofNat_toNat.symm⟩
  · have hzero : k % 256 = 0 := by
      rw [← hcut]
      have hle := UInt8.le_iff_toNat_le.mp (UInt8.not_lt.mp hpos)
      exact Nat.le_zero.mp hle
    rw [if_neg hpos, if_pos (by decide)]
    refine decides_pure ⟨nofun, ?_⟩
    rintro ⟨w, -, -, hnum, hval⟩
    rw [hcount w hnum, hzero] at hval
    exact absurd hval (Nat.not_lt_zero _)

end

/-! ## The search by class -/

theorem returns_checkedConfig {env : Env} {buf : ℤ} {n : ℕ} (h : 9 ≤ n) {d : UsbConfigDesc} {r : ℤ × UsbConfigDesc} :
    (parseChecked env UsbConfigDesc.store fmtConfig sizeofConfigDesc USBI_CONFIG_DESC_SIZE buf n d).Returns r
      ↔ r = (OPENUSB_SUCCESS, configAt env.mem buf) := by
  rw [returns_parseChecked]
  obtain ⟨n, rfl⟩ := Nat.exists_eq_add_of_le' h
  have hsub : buf + 9 - buf = 9 := by omega
  have hcount : ¬ CInt.toU32 9 < 9 := by decide
  simp [openusbParseData, parseChars, parseChar, parseField, fmtConfig, sizeofConfigDesc, configAt, le16At,
    UsbConfigDesc.store, leValue, Int.add_assoc, OPENUSB_SUCCESS, USBI_CONFIG_DESC_SIZE, hsub, hcount]

section

variable (dev : SearchDevice) (q : ClassQuery)

/-- One of the configurations that the device hands out has a setting with property `P`. -/
def HasSetting (P : RawDesc → ℤ × ℕ → Bool) : Prop :=
  ∃ c, c < dev.desc.bNumConfigurations.toNat ∧ 0 ≤ (dev.config (UInt8.ofNat c)).1 ∧
    ∃ w ∈ chain dev.mem (dev.config (UInt8.ofNat c)).2.buf (dev.config (UInt8.ofNat c)).2.len,
      P (dev.config (UInt8.ofNat c)).2 w = true

/-- The descriptors of the device are well formed. -/
structure WellDescribed : Prop where
  readable : dev.Readable
  configs : ∀ c, c < dev.desc.bNumConfigurations.toNat → 0 ≤ (dev.config (UInt8.ofNat c)).1 →
    WellFormed dev.mem (dev.config (UInt8.ofNat c)).2

/-- One of its alternate settings matches. -/
def Offers : Prop := HasSetting dev fun _ => settingMatches dev.mem q

/-- One of those that the search comes to matches. -/
def OffersInReach : Prop := HasSetting dev fun raw w => settingMatches dev.mem q w && withinReach dev.mem raw w

/-- The device descriptor or an alternate setting matches all three values. -/
def MatchesClass : Prop :=
  q.matchesValues dev.desc.bDeviceClass dev.desc.bDeviceSubClass dev.desc.bDeviceProtocol = true ∨ Offers dev q

/-- When the test of a device is right.  Where class and subclass of the device match, its protocol replaces the one that
is looked for; elsewhere one of the matching settings must be within reach. -/
def ClassTestRight : Prop :=
  if wild q.devclass dev.desc.bDeviceClass.toNat ∧ wild q.subclass dev.desc.bDeviceSubClass.toNat then
    q.protocol = -1 ∨
      if dev.desc.bDeviceProtocol = 0 then OffersInReach dev { q with protocol := 0 } ↔ q.protocol = 0 ∨ Offers dev q
      else q.protocol = dev.desc.bDeviceProtocol.toNat ∨ Offers dev q
  else Offers dev q → OffersInReach dev q

instance (P : RawDesc → ℤ × ℕ → Bool) : Decidable (HasSetting dev P) := inferInstanceAs (Decidable (∃ c, c < _ ∧ _ ∧ _))

instance : Decidable (Offers dev q) := inferInstanceAs (Decidable (HasSetting _ _))

instance : Decidable (OffersInReach dev q) := inferInstanceAs (Decidable (HasSetting _ _))

instance : DecidablePred fun dev => MatchesClass dev q := fun _ => inferInstanceAs (Decidable (_ ∨ _))

end

section

variable {dev : SearchDevice} {q : ClassQuery} {devices : List SearchDevice}

theorem decides_configTest {c : ℕ}
    (hwf : 0 ≤ (dev.config (UInt8.ofNat c)).1 → WellFormed dev.mem (dev.config (UInt8.ofNat c)).2) :
    Decides (configTest dev q c) (0 ≤ (dev.config (UInt8.ofNat c)).1 ∧
      ∃ w ∈ chain dev.mem (dev.config (UInt8.ofNat c)).2.buf (dev.config (UInt8.ofNat c)).2.len,
        (settingMatches dev.mem q w && withinReach dev.mem (dev.config (UInt8.ofNat c)).2 w) = true) := by
  unfold configTest
  generalize dev.config (UInt8.ofNat c) = raw at hwf ⊢
  dsimp only
  by_cases hret : raw.1 < 0
  · rw [if_pos hret]
    exact decides_pure ⟨nofun, fun h => absurd h.1 (Int.not_le.mpr hret)⟩
  rw [if_neg hret]
  have hwf := hwf (Int.not_lt.mp hret)
  have hcfg : (openusbParseConfigDesc dev.env true raw (some raw.2.buf) raw.2.len {}).Returns
      (OPENUSB_SUCCESS, configAt dev.mem raw.2.buf) := by
    unfold openusbParseConfigDesc parseHead
    rw [if_neg (by decide)]
    show Returns (if raw.2.len < 9 then _ else _) _
    rw [if_neg (Nat.not_lt.mpr hwf.nine_le)]
    exact (returns_checkedConfig hwf.nine_le).mpr rfl
  refine hcfg.decides_bind ?_
  dsimp only
  rw [if_neg (by decide)]
  have hnum : (configAt dev.mem raw.2.buf).bNumInterfaces = dev.mem (raw.2.buf + 4) := rfl
  have hlt := (dev.mem (raw.2.buf + 4)).toNat_lt
  rw [hnum]
  refine (decides_anyOf fun i _ hi => decides_interfaceTest hwf (by omega)).congr ⟨?_, ?_⟩
  · rintro ⟨i, -, hi, w, hw, hmatch, hnumber, hval⟩
    refine ⟨Int.not_lt.mp hret, w, hw, Bool.and_eq_true_iff.mpr ⟨hmatch, ?_⟩⟩
    rw [withinReach, decide_eq_true_eq, UInt8.lt_iff_toNat_lt]
    exact ⟨by omega, hval⟩
  · rintro ⟨-, w, hw, h⟩
    obtain ⟨hmatch, hreach⟩ := Bool.and_eq_true_iff.mp h
    rw [withinReach, decide_eq_true_eq, UInt8.lt_iff_toNat_lt] at hreach
    exact ⟨(dev.mem (w.1 + 2)).toNat, Nat.zero_le _, by omega, w, hw, hmatch, rfl, hreach.2⟩

/-- The search through the configurations comes to the settings within reach. -/
theorem decides_configs (hwf : WellDescribed dev) :
    Decides (anyOf (configTest dev q) dev.desc.bNumConfigurations.toNat 0) (OffersInReach dev q) := by
  refine (decides_anyOf fun c _ hc => decides_configTest (hwf.configs c (by omega))).congr ⟨?_, ?_⟩
  · rintro ⟨c, -, hc, h⟩
    exact ⟨c, by omega, h⟩
  · rintro ⟨c, hc, h⟩
    exact ⟨c, Nat.zero_le c, by omega, h⟩

/-- The setting that was found is one of the device. -/
theorem OffersInReach.offers (h : OffersInReach dev q) : Offers dev q := by
  obtain ⟨c, hc, hret, w, hw, hmatch⟩ := h
  exact ⟨c, hc, hret, w, hw, (Bool.and_eq_true_iff.mp hmatch).1⟩

/-- The test of a device gives the right answer exactly under its condition. -/
theorem matchClass_right (hwf : WellDescribed dev) :
    ∃ b, (usbiMatchClass dev q).Returns b ∧ ((b = true ↔ MatchesClass dev q) ↔ ClassTestRight dev q) := by
  have hdesc := SearchDevice.returns_desc hwf.readable
  have hstart {b : Bool} : (usbiMatchClass dev q).Returns b ↔
      (if (q.deviceTest dev.desc).1 then pure true
        else anyOf (configTest dev (q.deviceTest dev.desc).2) dev.desc.bNumConfigurations.toNat 0 :
          Prog Ev Bool).Returns b := by
    rw [usbiMatchClass, hdesc.bind_iff]
    dsimp only
    rw [if_neg (by decide)]
  unfold MatchesClass ClassTestRight ClassQuery.matchesValues
  by_cases hclass : wild q.devclass dev.desc.bDeviceClass.toNat ∧ wild q.subclass dev.desc.bDeviceSubClass.toNat
  · rw [if_pos hclass, hclass.1, hclass.2, Bool.true_and, Bool.true_and]
    by_cases hany : q.protocol = -1
    · refine ⟨true, hstart.mpr ?_, ?_⟩
      · rw [ClassQuery.deviceTest, if_pos hclass, if_pos hany]
        exact returns_pure.mpr rfl
      · simp [wild, hany]
    · have htest : q.deviceTest dev.desc =
          (decide (dev.desc.bDeviceProtocol ≠ 0), { q with protocol := dev.desc.bDeviceProtocol.toNat }) := by
        rw [ClassQuery.deviceTest, if_pos hclass, if_neg hany]
      have hwild : wild q.protocol dev.desc.bDeviceProtocol.toNat = true ↔ q.protocol = dev.desc.bDeviceProtocol.toNat := by
        simp [wild, hany]
      rw [hwild, or_iff_right hany]
      by_cases hzero : dev.desc.bDeviceProtocol = 0
      · obtain ⟨b, hb, hb'⟩ := decides_configs (q := { q with protocol := 0 }) hwf
        refine ⟨b, hstart.mpr ?_, ?_⟩
        · rw [htest, hzero]
          exact hb
        · rw [if_pos hzero, hb', hzero]
          rfl
      · refine ⟨true, hstart.mpr ?_, ?_⟩
        · rw [htest, decide_eq_true hzero]
          exact returns_pure.mpr rfl
        · rw [if_neg hzero]
          simp
  · obtain ⟨b, hb, hb'⟩ := decides_configs (q := q) hwf
    refine ⟨b, hstart.mpr ?_, ?_⟩
    · rw [ClassQuery.deviceTest, if_neg hclass]
      exact hb
    · have hnot : ¬ (wild q.devclass dev.desc.bDeviceClass.toNat && wild q.subclass dev.desc.bDeviceSubClass.toNat &&
          wild q.protocol dev.desc.bDeviceProtocol.toNat) = true := fun h =>
        hclass (Bool.and_eq_true_iff.mp (Bool.and_eq_true_iff.mp h).1)
      rw [if_neg hclass, hb', or_iff_right hnot]
      exact ⟨fun h => h.mpr, fun h => ⟨OffersInReach.offers, h⟩⟩

/-- The loop keeps the devices for which the test says yes. -/
theorem returns_classScan (hwf : ∀ dev ∈ devices, WellDescribed dev) :
    ∃ found : SearchDevice → Bool,
      (classScan q devices).Returns ((devices.filter found).map SearchDevice.devid) ∧
        ∀ dev ∈ devices, (usbiMatchClass dev q).Returns (found dev) := by
  classical
  let found (dev : SearchDevice) : Bool := decide ((usbiMatchClass dev q).Returns true)
  have htest : ∀ dev ∈ devices, (usbiMatchClass dev q).Returns (found dev) := by
    intro dev hdev
    obtain ⟨b, hb, -⟩ := matchClass_right (q := q) (hwf dev hdev)
    have heq : found dev = b := by
      cases b with
      | true => exact decide_eq_true hb
      | false => exact decide_eq_false fun h => absurd (h.unique hb) nofun
    rwa [heq]
  refine ⟨found, ?_, htest⟩
  clear hwf
  induction devices with
  | nil => exact returns_pure.mpr rfl
  | cons dev devices ih =>
    have hrest := ih fun d hd => htest d (List.mem_cons_of_mem dev hd)
    rw [classScan, (htest dev List.mem_cons_self).bind_iff, hrest.bind_iff, List.filter_cons]
    by_cases hfound : found dev = true
    · rw [if_pos hfound, if_pos hfound]
      exact returns_pure.mpr rfl
    · rw [if_neg hfound, if_neg hfound]
      exact returns_pure.mpr rfl

end

/-- The search by class finds exactly the devices of the class when the test of every device on the list is right, and the
answer can be allocated. -/
theorem class_search_iff (alloc : Bool) (q : ClassQuery) (hrange : q.outOfRange = false) (devices : List SearchDevice)
    (hids : (devices.map SearchDevice.devid).Nodup) (hwf : ∀ dev ∈ devices, WellDescribed dev) :
    (∃ r, (openusbGetDevidsByClass { alloc := alloc } q devices).Returns r ∧
        FindsExactly devices (fun dev => MatchesClass dev q) r) ↔
      (∀ dev ∈ devices, ClassTestRight dev q) ∧ (alloc = true ∨ ∀ dev ∈ devices, ¬ MatchesClass dev q) := by
  obtain ⟨found, hscan, htest⟩ := returns_classScan (q := q) hwf
  have hreturns : (openusbGetDevidsByClass { alloc := alloc } q devices).Returns
      (searchEnd alloc ((devices.filter found).map SearchDevice.devid)) := by
    rw [openusbGetDevidsByClass, if_neg (by simp), if_neg (by simp), if_neg (by simp [hrange]), hscan.bind_iff]
    exact returns_pure.mpr rfl
  have hright : (∀ dev ∈ devices, found dev = true ↔ MatchesClass dev q) ↔ ∀ dev ∈ devices, ClassTestRight dev q := by
    refine forall_congr' fun dev => forall_congr' fun hdev => ?_
    obtain ⟨b, hb, hiff⟩ := matchClass_right (q := q) (hwf dev hdev)
    rwa [(htest dev hdev).unique hb]
  rw [← hright, ← searchEnd_iff alloc hids]
  constructor
  · rintro ⟨r, hr, hfinds⟩
    rwa [hreturns.unique hr]
  · exact fun hfinds => ⟨_, hreturns, hfinds⟩

/-- A hub of class 9 and protocol 1, with the device descriptor at 0 and its configuration at 18. -/
def hubBlob : List UInt8 :=
  [18, 1, 0, 2, 9, 0, 1, 64, 0x6b, 0x1d, 2, 0, 0, 1, 0, 0, 0, 1, 9, 2, 25, 0, 1, 1, 0, 0xe0, 0, 9, 4, 0, 0, 1, 9, 0, 0, 0,
    7, 5, 0x81, 3, 4, 0, 12]

def hub : SearchDevice :=
  { devid := 3, mem := blobMem hubBlob, device := (0, ⟨0, 18⟩), config := fun _ => (0, ⟨18, 25⟩) }

theorem hub_described : WellDescribed hub := by
  have hchain : chain hub.mem 18 25 = [(18, 25), (27, 16), (36, 7)] := by decide +kernel
  refine ⟨⟨le_rfl, le_rfl⟩, fun c _ _ => ⟨show 9 ≤ 25 by decide, show 25 < 2 ^ 16 by decide, fun w hw => ?_, ?_⟩⟩
  · change w ∈ chain hub.mem 18 25 at hw
    rw [hchain, List.mem_cons, List.mem_cons, List.mem_singleton] at hw
    obtain rfl | rfl | rfl := hw
    · exact ⟨by decide, by decide, by decide⟩
    · exact ⟨by decide, by decide, by decide⟩
    · exact ⟨by decide, by decide, by decide⟩
  · show (((chain hub.mem 18 25).filter (isInterface hub.mem)).map _).Nodup
    rw [hchain]
    decide

/-- The search for hubs of protocol 1 finds the hub. -/
theorem class_search_iff_hub : ∃ r, (openusbGetDevidsByClass {} ⟨9, 0, 1⟩ [hub]).Returns r ∧
    FindsExactly [hub] (fun dev => MatchesClass dev ⟨9, 0, 1⟩) r := by
  have hone {P : SearchDevice → Prop} (h : P hub) : ∀ dev ∈ [hub], P dev := fun dev hdev => by
    rwa [List.mem_singleton.mp hdev]
  refine (class_search_iff true ⟨9, 0, 1⟩ (by decide) [hub] (by decide) (hone hub_described)).mpr
    ⟨hone ?_, .inl rfl⟩
  rw [ClassTestRight, if_pos (by decide), if_neg (by decide)]
  exact .inr (.inl rfl)

/-- So does the search for hubs of protocol 2, although neither the hub nor its interface has that protocol. -/
theorem protocol_not_compared : WellDescribed hub ∧ ¬ MatchesClass hub ⟨9, 0, 2⟩ ∧
    (openusbGetDevidsByClass {} ⟨9, 0, 2⟩ [hub]).Returns { ret := OPENUSB_SUCCESS, devids := some [3], num_devids := 1 } ∧
    ¬ FindsExactly [hub] (fun dev => MatchesClass dev ⟨9, 0, 2⟩)
      { ret := OPENUSB_SUCCESS, devids := some [3], num_devids := 1 } :=
  ⟨hub_described, by decide +kernel, ⟨0, by decide +kernel⟩, by decide +kernel⟩

end OpenUsb
