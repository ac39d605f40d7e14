import OpenUsb.Claim

/-!
# SolarisClaim — who holds which interface of a device on Solaris

A claim is recorded twice: `info.claimed_interfaces` of the device names the handle that holds an interface, and
`claimed_ifs` of the handle says what it holds.  The handles are those open on one device, by their addresses, and an
address may be used again after its handle is closed.

* `claims_exclusive`: the two records agree after every history of calls.
-/

namespace OpenUsb

namespace Solaris

/-! ## The device and its handles -/

/-- Both tables have `USBI_MAXINTERFACES` entries.  `opened` are the handles on `usbi_dev_handles`. -/
structure Device where
  claimedInterfaces : UInt8 → Option ℕ
  opened : ℕ → Bool
  claimedIfs : ℕ → UInt8 → InterfaceSet

namespace Device

variable (d : Device) (hdev : ℕ) (ifc : UInt8)

def setOwner (owner : Option ℕ) : Device :=
  { d with claimedInterfaces := Function.update d.claimedInterfaces ifc owner }

def mark (clm altsetting : ℤ) : Device :=
  { d with claimedIfs :=
      Function.update d.claimedIfs hdev (Function.update (d.claimedIfs hdev) ifc ⟨clm, altsetting⟩) }

/-- The handle has claimed the interface, by its own record. -/
def Claimed : Prop := (d.claimedIfs hdev ifc).clm = USBI_IFC_CLAIMED

instance : Decidable (d.Claimed hdev ifc) := inferInstanceAs (Decidable (_ = _))

end Device

/-! ## The Solaris backend -/

section

variable (d : Device) (hdev : ℕ)

/-- `solaris_claim_interface`. -/
def solarisClaimInterface (interface : UInt8) (_flags : InitFlag) : ℤ × Device :=
  if d.claimedInterfaces interface = some hdev then (OPENUSB_SUCCESS, d)
  else if d.claimedInterfaces interface ≠ none then (OPENUSB_BUSY, d)
  else if (d.claimedIfs hdev interface).clm ≠ -1 then (OPENUSB_BUSY, d)
  else (OPENUSB_SUCCESS, (d.mark hdev interface USBI_IFC_CLAIMED 0).setOwner interface (some hdev))

/-- `solaris_release_interface`. -/
def solarisReleaseInterface (interface : UInt8) : ℤ × Device :=
  if (d.claimedIfs hdev interface).clm ≠ USBI_IFC_CLAIMED then (OPENUSB_BADARG, d)
  else if d.claimedInterfaces interface ≠ some hdev then (OPENUSB_PLATFORM_FAILURE, d)
  else (OPENUSB_SUCCESS, (d.setOwner interface none).mark hdev interface (-1) (-1))

/-- `solaris_set_altinterface`. -/
def solarisSetAltinterface (ifc alt : UInt8) : ℤ × Device :=
  if d.claimedInterfaces ifc ≠ some hdev then (OPENUSB_PLATFORM_FAILURE, d)
  else (OPENUSB_SUCCESS, d.mark hdev ifc (d.claimedIfs hdev ifc).clm alt.toNat)

/-- The loop of `solaris_close`, up to interface `n`. -/
def releaseBelow (n : ℕ) : Device :=
  (List.range n).foldl (fun d i => (solarisReleaseInterface d hdev (UInt8.ofNat i)).2) d

/-- `solaris_close`, as far as the interfaces go. -/
def solarisClose : ℤ × Device := (OPENUSB_SUCCESS, releaseBelow d hdev USBI_MAXINTERFACES)

/-! ## The calls of the application -/

/-- `openusb_open_device` up to its success; `after` is what lies behind the table of the new handle. -/
def openusbOpenDevice (after : UInt8 → InterfaceSet) : ℤ × Device :=
  (OPENUSB_SUCCESS, { d with
    opened := Function.update d.opened hdev true
    claimedIfs := Function.update d.claimedIfs hdev
      fun i => if i.toNat < USBI_MAXINTERFACES then ⟨-1, -1⟩ else after i })

/-- `openusb_claim_interface`. -/
def openusbClaimInterface (ifc : UInt8) (flags : InitFlag) (refresh : Refresh) : ℤ × Device :=
  if ifc.toNat > USBI_MAXINTERFACES then (OPENUSB_BADARG, d)
  else if !d.opened hdev then (OPENUSB_UNKNOWN_DEVICE, d)
  else if refresh.ret ≠ 0 then (OPENUSB_BADARG, d)
  else if ifc.toNat ≥ USBI_MAXINTERFACES ∨ ifc.toNat ≥ refresh.numInterfaces then (OPENUSB_BADARG, d)
  else
    let (ret, d) := solarisClaimInterface d hdev ifc flags
    (ret, if ret = 0 then d.mark hdev ifc USBI_IFC_CLAIMED 0 else d)

/-- `openusb_is_interface_claimed`. -/
def openusbIsInterfaceClaimed (ifc : UInt8) : ℤ :=
  if ifc.toNat > USBI_MAXINTERFACES then OPENUSB_BADARG
  else if !d.opened hdev then OPENUSB_BADARG
  else if (d.claimedIfs hdev ifc).clm = USBI_IFC_CLAIMED then 1 else 0

/-- `openusb_release_interface`. -/
def openusbReleaseInterface (ifc : UInt8) : ℤ × Device :=
  if ifc.toNat > USBI_MAXINTERFACES then (OPENUSB_BADARG, d)
  else if !d.opened hdev then (OPENUSB_UNKNOWN_DEVICE, d)
  else if openusbIsInterfaceClaimed d hdev ifc ≠ 1 then (OPENUSB_BADARG, d)
  else solarisReleaseInterface d hdev ifc

/-- `openusb_set_altsetting`. -/
def openusbSetAltsetting (ifc alt : UInt8) (refresh : Refresh) : ℤ × Device :=
  if !d.opened hdev then (OPENUSB_UNKNOWN_DEVICE, d)
  else if ifc.toNat > USBI_MAXINTERFACES then (OPENUSB_BADARG, d)
  else if refresh.ret ≠ 0 then (OPENUSB_PARSE_ERROR, d)
  else if refresh.curConfigIndex < 0 then (OPENUSB_PARSE_ERROR, d)
  else if ifc.toNat > refresh.numInterfaces ∨ ifc.toNat > USBI_MAXINTERFACES ∨
      (d.claimedIfs hdev ifc).clm ≠ USBI_IFC_CLAIMED ∨ alt.toNat ≥ refresh.numAltsettings ifc then (OPENUSB_BADARG, d)
  else if (alt.toNat : ℤ) = (d.claimedIfs hdev ifc).altsetting then (0, d)
  else solarisSetAltinterface d hdev ifc alt

/-- `openusb_close_device`: the backend's close, and off `usbi_dev_handles`. -/
def openusbCloseDevice : ℤ × Device :=
  if !d.opened hdev then (OPENUSB_UNKNOWN_DEVICE, d)
  else
    let (ret, d) := solarisClose d hdev
    (ret, { d with opened := Function.update d.opened hdev false })

/-- A call for the handle, with what it finds in the descriptors. -/
inductive Call where
  | openDevice (after : UInt8 → InterfaceSet)
  | claim (ifc : UInt8) (flags : InitFlag) (refresh : Refresh)
  | release (ifc : UInt8)
  | setAltsetting (ifc alt : UInt8) (refresh : Refresh)
  | close

/-- The return code of a call and the device after it. -/
def exec : Call → ℤ × Device
  | .openDevice after => openusbOpenDevice d hdev after
  | .claim ifc flags refresh => openusbClaimInterface d hdev ifc flags refresh
  | .release ifc => openusbReleaseInterface d hdev ifc
  | .setAltsetting ifc alt refresh => openusbSetAltsetting d hdev ifc alt refresh
  | .close => openusbCloseDevice d hdev

end

/-- A call for a handle takes the device to the one after it; a new handle has an address that no open one has. -/
inductive Calls : Device → ℕ × Call → Device → Prop where
  | call {d : Device} {hdev : ℕ} {call : Call} (hnew : ∀ after, call = .openDevice after → d.opened hdev = false) :
      Calls d (hdev, call) (exec d hdev call).2

/-- The interface of a call is an entry of the tables.  The tests of the code let `USBI_MAXINTERFACES` itself through. -/
def ValidInterface (_ : Device) (l : ℕ × Call) : Prop :=
  match l.2 with
  | .release ifc => ifc.toNat < USBI_MAXINTERFACES
  | .setAltsetting ifc _ _ => ifc.toNat < USBI_MAXINTERFACES
  | _ => True

/-- A device that nobody has opened yet; `freed` is what lies where handles will be. -/
def Device.new (freed : ℕ → UInt8 → InterfaceSet) : Device where
  claimedInterfaces _ := none
  opened _ := false
  claimedIfs := freed

/-! ## The two records -/

section

variable {d d' : Device} {hdev h h' : ℕ} {ifc i : UInt8} {clm altsetting : ℤ} {owner : Option ℕ}

/-- The device names a handle for an interface exactly when the handle is open and has it claimed. -/
def Device.Agrees (d : Device) : Prop :=
  ∀ i : UInt8, i.toNat < USBI_MAXINTERFACES → ∀ h,
    d.claimedInterfaces i = some h ↔ d.opened h = true ∧ d.Claimed h i

@[simp] theorem setOwner_opened : (d.setOwner ifc owner).opened = d.opened := rfl

@[simp] theorem setOwner_claimedIfs : (d.setOwner ifc owner).claimedIfs = d.claimedIfs := rfl

@[simp] theorem setOwner_self : (d.setOwner ifc owner).claimedInterfaces ifc = owner := Function.update_self ..

@[simp] theorem mark_opened : (d.mark hdev ifc clm altsetting).opened = d.opened := rfl

@[simp] theorem mark_claimedInterfaces : (d.mark hdev ifc clm altsetting).claimedInterfaces = d.claimedInterfaces := rfl

theorem setOwner_of_ne (hne : i ≠ ifc) : (d.setOwner ifc owner).claimedInterfaces i = d.claimedInterfaces i :=
  Function.update_of_ne hne ..

@[simp] theorem mark_self : (d.mark hdev ifc clm altsetting).claimedIfs hdev ifc = ⟨clm, altsetting⟩ := by
  simp only [Device.mark, Function.update_self]

theorem mark_of_ne (hne : h ≠ hdev ∨ i ≠ ifc) :
    (d.mark hdev ifc clm altsetting).claimedIfs h i = d.claimedIfs h i := by
  simp only [Device.mark]
  by_cases hh : h = hdev
  · subst hh
    rw [Function.update_self, Function.update_of_ne (hne.resolve_left (· rfl))]
  · rw [Function.update_of_ne hh]

theorem mark_mark {clm' altsetting' : ℤ} :
    (d.mark hdev ifc clm altsetting).mark hdev ifc clm' altsetting' = d.mark hdev ifc clm' altsetting' := by
  unfold Device.mark
  simp only [Function.update_self, Function.update_idem]

/-- What `openusb_claim_interface` does: nothing that counts, or it takes an interface that nobody holds. -/
theorem claim_cases (d : Device) (hdev : ℕ) (ifc : UInt8) (flags : InitFlag) (refresh : Refresh) :
    (openusbClaimInterface d hdev ifc flags refresh).2 = d ∨
    (d.claimedInterfaces ifc = some hdev ∧
      (openusbClaimInterface d hdev ifc flags refresh).2 = d.mark hdev ifc USBI_IFC_CLAIMED 0) ∨
    (d.opened hdev = true ∧ ifc.toNat < USBI_MAXINTERFACES ∧ d.claimedInterfaces ifc = none ∧
      (openusbClaimInterface d hdev ifc flags refresh).2 =
        (d.mark hdev ifc USBI_IFC_CLAIMED 0).setOwner ifc (some hdev)) := by
  unfold openusbClaimInterface
  split_ifs with hmax hopen hret hvalid
  · exact .inl rfl
  · exact .inl rfl
  · exact .inl rfl
  · exact .inl rfl
  · unfold solarisClaimInterface
    split_ifs with hmine hother hclm
    · exact .inr (.inl ⟨hmine, rfl⟩)
    · exact .inl rfl
    · exact .inl rfl
    · refine .inr (.inr ⟨by simpa using hopen, by omega, not_not.mp hother, ?_⟩)
      show ((d.mark hdev ifc _ 0).setOwner ifc (some hdev)).mark hdev ifc _ 0 = _
      exact congrArg (·.setOwner ifc (some hdev)) mark_mark

/-- What `solaris_release_interface` does: nothing, or it gives back what the handle holds. -/
theorem solarisRelease_cases (d : Device) (hdev : ℕ) (ifc : UInt8) :
    ((solarisReleaseInterface d hdev ifc).1 ≠ OPENUSB_SUCCESS ∧ (solarisReleaseInterface d hdev ifc).2 = d ∧
      (d.claimedInterfaces ifc = some hdev → ¬ d.Claimed hdev ifc)) ∨
    (d.claimedInterfaces ifc = some hdev ∧
      solarisReleaseInterface d hdev ifc =
        (OPENUSB_SUCCESS, (d.setOwner ifc none).mark hdev ifc (-1) (-1))) := by
  unfold solarisReleaseInterface
  split_ifs with hclm howner
  · exact .inl ⟨show OPENUSB_BADARG ≠ OPENUSB_SUCCESS by decide, rfl, fun _ => hclm⟩
  · exact .inl ⟨show OPENUSB_PLATFORM_FAILURE ≠ OPENUSB_SUCCESS by decide, rfl, fun heq => absurd heq howner⟩
  · exact .inr ⟨not_not.mp howner, rfl⟩

theorem release_eq_or (d : Device) (hdev : ℕ) (ifc : UInt8) :
    ((openusbReleaseInterface d hdev ifc).1 ≠ OPENUSB_SUCCESS ∧ (openusbReleaseInterface d hdev ifc).2 = d) ∨
    openusbReleaseInterface d hdev ifc = solarisReleaseInterface d hdev ifc := by
  unfold openusbReleaseInterface
  split_ifs
  · exact .inl ⟨show OPENUSB_BADARG ≠ OPENUSB_SUCCESS by decide, rfl⟩
  · exact .inl ⟨show OPENUSB_UNKNOWN_DEVICE ≠ OPENUSB_SUCCESS by decide, rfl⟩
  · exact .inl ⟨show OPENUSB_BADARG ≠ OPENUSB_SUCCESS by decide, rfl⟩
  · exact .inr rfl

/-- What `openusb_set_altsetting` does: it never touches who holds what. -/
theorem setAltsetting_cases (d : Device) (hdev : ℕ) (ifc alt : UInt8) (refresh : Refresh) :
    (openusbSetAltsetting d hdev ifc alt refresh).2 = d ∨
    (openusbSetAltsetting d hdev ifc alt refresh).2 = d.mark hdev ifc (d.claimedIfs hdev ifc).clm alt.toNat := by
  unfold openusbSetAltsetting solarisSetAltinterface
  split_ifs
  all_goals first | exact .inl rfl | exact .inr rfl

/-- An entry of the handle is written, and `clm` stays as it was. -/
theorem Device.Agrees.mark_same (hd : d.Agrees) (hclm : clm = (d.claimedIfs hdev ifc).clm) :
    (d.mark hdev ifc clm altsetting).Agrees := by
  intro i hi h
  rw [mark_claimedInterfaces, mark_opened, hd i hi h]
  unfold Device.Claimed
  by_cases hat : h = hdev ∧ i = ifc
  · rw [hat.1, hat.2, mark_self, hclm]
  · rw [mark_of_ne (not_and_or.mp hat)]

theorem Device.Agrees.claim (hd : d.Agrees) (hdev : ℕ) (ifc : UInt8) (flags : InitFlag) (refresh : Refresh) :
    (openusbClaimInterface d hdev ifc flags refresh).2.Agrees := by
  rcases claim_cases d hdev ifc flags refresh with heq | ⟨hmine, heq⟩ | ⟨hopen, hifc, hfree, heq⟩ <;> rw [heq]
  · exact hd
  · by_cases hifc : ifc.toNat < USBI_MAXINTERFACES
    · exact hd.mark_same ((hd ifc hifc hdev).mp hmine).2.symm
    · intro i hi h
      have hne : i ≠ ifc := fun heq => hifc (heq ▸ hi)
      unfold Device.Claimed
      rw [mark_of_ne (.inr hne)]
      exact hd i hi h
  · intro i hi h
    by_cases hne : i = ifc
    · subst hne
      rw [setOwner_self, setOwner_opened, mark_opened]
      unfold Device.Claimed
      rw [setOwner_claimedIfs]
      by_cases hh : h = hdev
      · rw [hh, mark_self]
        exact ⟨fun _ => ⟨hopen, rfl⟩, fun _ => rfl⟩
      · rw [mark_of_ne (.inl hh)]
        refine ⟨fun heq => absurd (Option.some.inj heq).symm hh, fun hc => ?_⟩
        exact absurd (hfree.symm.trans ((hd i hi h).mpr hc)) nofun
    · rw [setOwner_of_ne hne]
      unfold Device.Claimed
      rw [setOwner_claimedIfs, mark_of_ne (.inr hne)]
      exact hd i hi h

theorem Device.Agrees.solarisRelease (hd : d.Agrees) : (solarisReleaseInterface d hdev ifc).2.Agrees := by
  rcases solarisRelease_cases d hdev ifc with ⟨-, heq, -⟩ | ⟨hmine, heq⟩ <;> rw [heq]
  · exact hd
  · intro i hi h
    unfold Device.Claimed
    rw [mark_claimedInterfaces, mark_opened, setOwner_opened]
    by_cases hne : i = ifc
    · subst hne
      rw [setOwner_self]
      refine ⟨nofun, ?_⟩
      rintro ⟨hopen, hclm⟩
      by_cases hh : h = hdev
      · rw [hh, mark_self] at hclm
        exact absurd hclm (by decide)
      · rw [mark_of_ne (.inl hh)] at hclm
        exact absurd (Option.some.inj (hmine.symm.trans ((hd i hi h).mpr ⟨hopen, hclm⟩))).symm hh
    · rw [setOwner_of_ne hne, mark_of_ne (.inr hne)]
      exact hd i hi h

@[simp] theorem solarisRelease_opened : (solarisReleaseInterface d hdev ifc).2.opened = d.opened := by
  rcases solarisRelease_cases d hdev ifc with ⟨-, heq, -⟩ | ⟨-, heq⟩
  · rw [heq]
  · rw [heq]
    rfl

/-- A release gives no interface to anybody, and takes none from another handle. -/
theorem solarisRelease_owner (d : Device) (hdev : ℕ) (ifc i : UInt8) :
    (solarisReleaseInterface d hdev ifc).2.claimedInterfaces i = d.claimedInterfaces i ∨
    (i = ifc ∧ d.claimedInterfaces i = some hdev ∧ (solarisReleaseInterface d hdev ifc).2.claimedInterfaces i = none) := by
  rcases solarisRelease_cases d hdev ifc with ⟨-, heq, -⟩ | ⟨hmine, heq⟩ <;> rw [heq]
  · exact .inl rfl
  · rw [mark_claimedInterfaces]
    by_cases hne : i = ifc
    · subst hne
      exact .inr ⟨rfl, hmine, setOwner_self⟩
    · exact .inl (setOwner_of_ne hne)

/-- After a release the handle does not hold the interface. -/
theorem Device.Agrees.not_owner (hd : d.Agrees) (hifc : ifc.toNat < USBI_MAXINTERFACES) :
    (solarisReleaseInterface d hdev ifc).2.claimedInterfaces ifc ≠ some hdev := by
  rcases solarisRelease_cases d hdev ifc with ⟨-, heq, hclm⟩ | ⟨-, heq⟩ <;> rw [heq]
  · intro howner
    exact hclm howner ((hd ifc hifc hdev).mp howner).2
  · rw [mark_claimedInterfaces, setOwner_self]
    nofun

theorem releaseBelow_succ (n : ℕ) :
    releaseBelow d hdev (n + 1) = (solarisReleaseInterface (releaseBelow d hdev n) hdev (UInt8.ofNat n)).2 := by
  unfold releaseBelow
  rw [List.range_succ, List.foldl_append]
  rfl

/-- The loop of `solaris_close` gives back what the handle holds, and leaves the others alone. -/
theorem Device.Agrees.releaseBelow (hd : d.Agrees) (hdev : ℕ) {n : ℕ} (hn : n ≤ USBI_MAXINTERFACES) :
    (releaseBelow d hdev n).Agrees ∧ (releaseBelow d hdev n).opened = d.opened ∧
    (∀ i, (Solaris.releaseBelow d hdev n).claimedInterfaces i = d.claimedInterfaces i ∨
      d.claimedInterfaces i = some hdev ∧ (Solaris.releaseBelow d hdev n).claimedInterfaces i = none) ∧
    ∀ i : UInt8, i.toNat < n → (Solaris.releaseBelow d hdev n).claimedInterfaces i ≠ some hdev := by
  induction n with
  | zero => exact ⟨hd, rfl, fun _ => .inl rfl, fun _ hi => absurd hi (Nat.not_lt_zero _)⟩
  | succ n ih =>
    obtain ⟨hagrees, hopened, howner, hgone⟩ := ih (by omega)
    have hlt : n < USBI_MAXINTERFACES := by omega
    have htoNat : (UInt8.ofNat n).toNat = n := by
      apply UInt8.toNat_ofNat_of_lt'
      exact lt_trans hlt (by decide)
    rw [releaseBelow_succ]
    refine ⟨hagrees.solarisRelease, solarisRelease_opened.trans hopened, ?_, ?_⟩
    · intro i
      rcases solarisRelease_owner (Solaris.releaseBelow d hdev n) hdev (UInt8.ofNat n) i
        with heq | ⟨-, hmine, heq⟩
      · rw [heq]
        exact howner i
      · refine .inr ⟨?_, heq⟩
        rcases howner i with h | ⟨h, -⟩
        · exact h.symm.trans hmine
        · exact h
    · intro i hi
      by_cases hin : i = UInt8.ofNat n
      · rw [hin]
        exact hagrees.not_owner (htoNat.trans_lt hlt)
      · have hne : i.toNat ≠ n := fun heq => hin (UInt8.toNat_inj.mp (heq.trans htoNat.symm))
        have hlt' : i.toNat < n := by omega
        rcases solarisRelease_owner (Solaris.releaseBelow d hdev n) hdev (UInt8.ofNat n) i
          with heq | ⟨-, -, heq⟩ <;> rw [heq]
        · exact hgone i hlt'
        · nofun

/-- A new handle holds nothing yet. -/
theorem Device.Agrees.openDevice {after : UInt8 → InterfaceSet} (hd : d.Agrees) (hnew : d.opened hdev = false) :
    (openusbOpenDevice d hdev after).2.Agrees := by
  intro i hi h
  show d.claimedInterfaces i = some h ↔ Function.update d.opened hdev true h = true ∧
    (Function.update d.claimedIfs hdev _ h i).clm = USBI_IFC_CLAIMED
  by_cases hh : h = hdev
  · subst hh
    rw [hd i hi h, Function.update_self, Function.update_self, if_pos hi, hnew]
    refine ⟨fun hc => absurd hc.1 nofun, fun hc => ?_⟩
    exact absurd hc.2 (by decide)
  · rw [Function.update_of_ne hh, Function.update_of_ne hh]
    exact hd i hi h

theorem Device.Agrees.close (hd : d.Agrees) : (openusbCloseDevice d hdev).2.Agrees := by
  unfold openusbCloseDevice
  split_ifs
  · exact hd
  · obtain ⟨hagrees, -, -, hgone⟩ := hd.releaseBelow hdev le_rfl
    simp only [solarisClose]
    generalize Solaris.releaseBelow d hdev USBI_MAXINTERFACES = d1 at hagrees hgone ⊢
    intro i hi h
    show d1.claimedInterfaces i = some h ↔ Function.update d1.opened hdev false h = true ∧ d1.Claimed h i
    by_cases hh : h = hdev
    · subst hh
      rw [Function.update_self]
      exact ⟨fun howner => absurd howner (hgone i hi), fun hc => absurd hc.1 nofun⟩
    · rw [Function.update_of_ne hh]
      exact hagrees i hi h

theorem Device.Agrees.step {l : ℕ × Call} (hd : d.Agrees) (hl : ValidInterface d l) (hstep : Calls d l d') :
    d'.Agrees := by
  cases hstep with
  | @call hdev call hnew =>
    cases call with
    | openDevice after => exact hd.openDevice (hnew after rfl)
    | claim ifc flags refresh => exact hd.claim hdev ifc flags refresh
    | release ifc =>
      show (openusbReleaseInterface d hdev ifc).2.Agrees
      rcases release_eq_or d hdev ifc with ⟨-, heq⟩ | heq <;> rw [heq]
      · exact hd
      · exact hd.solarisRelease
    | setAltsetting ifc alt refresh =>
      show (openusbSetAltsetting d hdev ifc alt refresh).2.Agrees
      rcases setAltsetting_cases d hdev ifc alt refresh with heq | heq <;> rw [heq]
      · exact hd
      · exact hd.mark_same rfl
    | close => exact hd.close

/-- An interface leaves its holder only by the holder's own release or close. -/
theorem Device.Agrees.taken_by_holder {l : ℕ × Call} (hd : d.Agrees) (hstep : Calls d l d')
    (howner : d.claimedInterfaces i = some h) (hgone : d'.claimedInterfaces i ≠ some h) :
    l = (h, .release i) ∨ l = (h, .close) := by
  cases hstep with
  | @call hdev call hnew =>
    cases call with
    | openDevice after => exact absurd howner hgone
    | claim ifc flags refresh =>
      rcases claim_cases d hdev ifc flags refresh with heq | ⟨-, heq⟩ | ⟨-, -, hfree, heq⟩
      · exact absurd ((congrArg (Device.claimedInterfaces · i) heq).trans howner) hgone
      · exact absurd ((congrArg (Device.claimedInterfaces · i) heq).trans howner) hgone
      · have hne : i ≠ ifc := by
          rintro rfl
          exact absurd (hfree.symm.trans howner) nofun
        have hsame := (congrArg (Device.claimedInterfaces · i) heq).trans (setOwner_of_ne hne)
        exact absurd (hsame.trans howner) hgone
    | release ifc =>
      rcases release_eq_or d hdev ifc with ⟨-, heq⟩ | heq
      · exact absurd ((congrArg (Device.claimedInterfaces · i) heq).trans howner) hgone
      · have heq' := congrArg (fun r : ℤ × Device => r.2.claimedInterfaces i) heq
        rcases solarisRelease_owner d hdev ifc i with hsame | ⟨hi, hmine, -⟩
        · exact absurd (heq'.trans (hsame.trans howner)) hgone
        · rw [hi, Option.some.inj (howner.symm.trans hmine)]
          exact .inl rfl
    | setAltsetting ifc alt refresh =>
      rcases setAltsetting_cases d hdev ifc alt refresh with heq | heq
      · exact absurd ((congrArg (Device.claimedInterfaces · i) heq).trans howner) hgone
      · exact absurd ((congrArg (Device.claimedInterfaces · i) heq).trans howner) hgone
    | close =>
      change (openusbCloseDevice d hdev).2.claimedInterfaces i ≠ some h at hgone
      unfold openusbCloseDevice at hgone
      split_ifs at hgone
      · exact absurd howner hgone
      · obtain ⟨-, -, hothers, -⟩ := hd.releaseBelow hdev le_rfl
        simp only [solarisClose] at hgone
        generalize Solaris.releaseBelow d hdev USBI_MAXINTERFACES = d1 at hothers hgone
        rcases hothers i with hsame | ⟨hmine, -⟩
        · exact absurd (hsame.trans howner) hgone
        · rw [Option.some.inj (howner.symm.trans hmine)]
          exact .inr rfl

/-- After every history of calls by any handles of a device, the two records agree.  So an interface has one holder at most,
only the holder gives it back, a release by another handle fails and changes nothing, and a closed handle holds nothing. -/
theorem claims_exclusive {freed : ℕ → UInt8 → InterfaceSet} {ls : List (ℕ × Call)}
    (h : Run Calls ValidInterface (.new freed) ls d) :
    d.Agrees ∧
    (∀ i : UInt8, i.toNat < USBI_MAXINTERFACES → ∀ h h', d.opened h = true → d.opened h' = true →
      d.Claimed h i → d.Claimed h' i → h = h') ∧
    (∀ i h l d', d.claimedInterfaces i = some h → Calls d l d' → d'.claimedInterfaces i ≠ some h →
      l = (h, .release i) ∨ l = (h, .close)) ∧
    (∀ i h, d.claimedInterfaces i ≠ some h → (openusbReleaseInterface d h i).1 ≠ OPENUSB_SUCCESS ∧
      (openusbReleaseInterface d h i).2 = d) ∧
    ∀ i : UInt8, i.toNat < USBI_MAXINTERFACES → ∀ h, d.opened h = false → d.claimedInterfaces i ≠ some h := by
  have hd : d.Agrees := by
    apply h.inv (fun _ _ _ hd hl hstep => hd.step hl hstep)
    intro i _ h
    exact ⟨nofun, fun hc => absurd hc.1 nofun⟩
  refine ⟨hd, ?_, ?_, ?_, ?_⟩
  · intro i hi h h' hopen hopen' hclm hclm'
    have howner := (hd i hi h).mpr ⟨hopen, hclm⟩
    exact Option.some.inj (howner.symm.trans ((hd i hi h').mpr ⟨hopen', hclm'⟩))
  · intro i h l d' howner hstep hgone
    exact hd.taken_by_holder hstep howner hgone
  · intro i h hnot
    rcases release_eq_or d h i with hfail | heq
    · exact hfail
    · rw [heq]
      rcases solarisRelease_cases d h i with ⟨hret, hsame, -⟩ | ⟨hmine, -⟩
      · exact ⟨hret, hsame⟩
      · exact absurd hmine hnot
  · intro i hi h hclosed howner
    rw [((hd i hi h).mp howner).1] at hclosed
    exact absurd hclosed nofun

/-- Two handles: the first claims an interface, and the second is refused and cannot release it. -/
theorem claims_exclusive_two : ∃ d : Device, d.opened 2 = true ∧ d.claimedInterfaces 0 = some 1 ∧ d.Agrees ∧
    (openusbReleaseInterface d 2 0).1 ≠ OPENUSB_SUCCESS := by
  have hrun : Run Calls ValidInterface (.new fun _ _ => ⟨0, 0⟩) [(1, .openDevice fun _ => ⟨0, 0⟩),
      (2, .openDevice fun _ => ⟨0, 0⟩), (1, .claim 0 .default ⟨0, 0, 1, fun _ => 1⟩),
      (2, .claim 0 .default ⟨0, 0, 1, fun _ => 1⟩)] _ :=
    .cons trivial (.call fun _ _ => rfl) (.cons trivial (.call fun _ _ => rfl) (.cons trivial (.call nofun)
      (.cons trivial (.call nofun) (.nil _))))
  have hall := claims_exclusive hrun
  exact ⟨_, rfl, rfl, hall.1, (hall.2.2.2.1 0 2 (by decide)).1⟩

end

end Solaris

end OpenUsb
