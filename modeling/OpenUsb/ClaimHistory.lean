import OpenUsb.Claim

/-!
# ClaimHistory — what holds over histories of claims, releases and alternate settings

Each call of the application has a lemma with its possible outcomes (`claim_cases`, `release_cases`, `set_cases`); the
three results on histories follow by cases.  One outcome is behind two of them: a claim whose `IOCTL_USB_CLAIMINTF` fails
and whose detach succeeds returns success without having claimed anything, whatever the flags.
-/

namespace OpenUsb

/-! ## Marks and system calls -/

section Fields

variable (hdev : DevHandle) (ifc : UInt8) (c a : ℤ) (f : Kernel → Kernel)

@[simp] theorem mark_kernel : (hdev.mark ifc c a).kernel = hdev.kernel := rfl

@[simp] theorem mark_opened : (hdev.mark ifc c a).opened = hdev.opened := rfl

@[simp] theorem mark_reattachdrv : (hdev.mark ifc c a).reattachdrv = hdev.reattachdrv := rfl

@[simp] theorem mark_claimedIfs : (hdev.mark ifc c a).claimedIfs = Function.update hdev.claimedIfs ifc ⟨c, a⟩ := rfl

@[simp] theorem mark_mark (c' a' : ℤ) : (hdev.mark ifc c a).mark ifc c' a' = hdev.mark ifc c' a' := by
  simp [DevHandle.mark]

@[simp] theorem ioctl_kernel : (hdev.ioctl f).kernel = f hdev.kernel := rfl

@[simp] theorem ioctl_opened : (hdev.ioctl f).opened = hdev.opened := rfl

@[simp] theorem ioctl_reattachdrv : (hdev.ioctl f).reattachdrv = hdev.reattachdrv := rfl

@[simp] theorem ioctl_claimedIfs : (hdev.ioctl f).claimedIfs = hdev.claimedIfs := rfl

variable {k : Kernel} {n : ℕ} {sys : Syscall}

theorem claimIntf_failed (h : sys.ret < 0) : k.claimIntf n sys = k := if_pos h

theorem claimIntf_done (h : 0 ≤ sys.ret) :
    k.claimIntf n sys = { k with granted := Function.update k.granted n true } := if_neg (not_lt.mpr h)

theorem releaseIntf_failed (h : sys.ret < 0) : k.releaseIntf n sys = k := if_pos h

theorem releaseIntf_done (h : 0 ≤ sys.ret) : k.releaseIntf n sys =
    { k with granted := Function.update k.granted n false, alt := Function.update k.alt n 0 } := if_neg (not_lt.mpr h)

theorem setIntf_failed {a : ℕ} (h : sys.ret < 0) : k.setIntf n sys a = k := if_pos h

theorem setIntf_done {a : ℕ} (h : 0 ≤ sys.ret) : k.setIntf n sys a = { k with alt := Function.update k.alt n a } :=
  if_neg (not_lt.mpr h)

@[simp] theorem disconnect_granted : (k.disconnect n sys).granted = k.granted := by
  unfold Kernel.disconnect
  split <;> rfl

@[simp] theorem disconnect_alt : (k.disconnect n sys).alt = k.alt := by
  unfold Kernel.disconnect
  split <;> rfl

theorem disconnect_driver_of_ne {m : ℕ} (h : m ≠ n) : (k.disconnect n sys).driver m = k.driver m := by
  unfold Kernel.disconnect
  split
  · rfl
  · exact Function.update_of_ne h _ _

end Fields

/-! ## The outcomes of the calls -/

section Cases

variable {hdev : DevHandle} {ifc alt : UInt8} {flags : InitFlag} {refresh : Refresh}

/-- The claim passes the checks of `openusb_claim_interface`. -/
structure Valid (hdev : DevHandle) (ifc : UInt8) (refresh : Refresh) : Prop where
  opened : hdev.opened = true
  fetched : refresh.ret = 0
  range : ifc.toNat < USBI_MAXINTERFACES
  present : ifc.toNat < refresh.numInterfaces

/-- The outcomes of a claim. -/
inductive ClaimOutcome (hdev : DevHandle) (ifc : UInt8) (refresh : Refresh) (sys : ClaimCalls) :
    ℤ × DevHandle → Prop where
  | rejected {ret : ℤ} (hret : ret < 0) (hvalid : ¬ Valid hdev ifc refresh) : ClaimOutcome hdev ifc refresh sys (ret, hdev)
  | again (hvalid : Valid hdev ifc refresh) (hclm : (hdev.claimedIfs ifc).clm = USBI_IFC_CLAIMED) :
      ClaimOutcome hdev ifc refresh sys (OPENUSB_SUCCESS, hdev.mark ifc USBI_IFC_CLAIMED 0)
  | granted (hvalid : Valid hdev ifc refresh) (hclm : (hdev.claimedIfs ifc).clm ≠ USBI_IFC_CLAIMED)
      (hclaim : 0 ≤ sys.claim.ret) : ClaimOutcome hdev ifc refresh sys
        (sys.claim.ret, (hdev.ioctl (·.claimIntf ifc.toNat sys.claim)).mark ifc USBI_IFC_CLAIMED 0)
  | refused {ret : ℤ} (hvalid : Valid hdev ifc refresh) (hclm : (hdev.claimedIfs ifc).clm ≠ USBI_IFC_CLAIMED)
      (hclaim : sys.claim.ret < 0) (hdetach : sys.detach.ret ≠ 0) (hret : ret < 0) :
      ClaimOutcome hdev ifc refresh sys (ret, hdev.ioctl (·.disconnect ifc.toNat sys.detach))
  | phantom (hvalid : Valid hdev ifc refresh) (hclm : (hdev.claimedIfs ifc).clm ≠ USBI_IFC_CLAIMED)
      (hclaim : sys.claim.ret < 0) (hdetach : sys.detach.ret = 0) : ClaimOutcome hdev ifc refresh sys
        (OPENUSB_SUCCESS, (hdev.ioctl (·.disconnect ifc.toNat sys.detach)).mark ifc USBI_IFC_CLAIMED 0)

theorem linux_claim_failed {sys : ClaimCalls} (hclm : (hdev.claimedIfs ifc).clm ≠ USBI_IFC_CLAIMED)
    (hclaim : sys.claim.ret < 0) : linuxClaimInterface hdev ifc flags sys =
      (if sys.detach.ret ≠ 0 then translateErrno sys.detach.errno else OPENUSB_SUCCESS,
        hdev.ioctl (·.disconnect ifc.toNat sys.detach)) := by
  have hioctl : hdev.ioctl (·.claimIntf ifc.toNat sys.claim) = hdev := by
    rw [DevHandle.ioctl, claimIntf_failed hclaim]
  rw [linuxClaimInterface, if_neg hclm]
  dsimp only
  rw [if_pos hclaim, if_pos (Or.inr (by decide)), hioctl, linuxDetachKernelDriver]
  dsimp only
  refine if_neg ?_
  split
  · exact not_lt.mpr (translateErrno_neg _).le
  · decide

theorem claim_cases (hdev : DevHandle) (ifc : UInt8) (flags : InitFlag) (refresh : Refresh) (sys : ClaimCalls) :
    ClaimOutcome hdev ifc refresh sys (openusbClaimInterface hdev ifc flags refresh sys) := by
  rw [openusbClaimInterface]
  by_cases hmax : ifc.toNat > USBI_MAXINTERFACES
  · rw [if_pos hmax]
    exact .rejected (by decide) fun h => absurd h.range (by omega)
  rw [if_neg hmax]
  by_cases hopen : hdev.opened = true
  swap
  · rw [if_pos (by simp [hopen])]
    exact .rejected (by decide) fun h => hopen h.opened
  rw [if_neg (by simp [hopen])]
  by_cases hfetch : refresh.ret = 0
  swap
  · rw [if_pos hfetch]
    exact .rejected (by decide) fun h => hfetch h.fetched
  rw [if_neg (not_not.mpr hfetch)]
  by_cases hrange : ifc.toNat ≥ USBI_MAXINTERFACES ∨ ifc.toNat ≥ refresh.numInterfaces
  · rw [if_pos hrange]
    exact .rejected (by decide) fun h => hrange.elim (not_le.mpr h.range) (not_le.mpr h.present)
  rw [if_neg hrange]
  rw [not_or, not_le, not_le] at hrange
  have hvalid : Valid hdev ifc refresh := ⟨hopen, hfetch, hrange.1, hrange.2⟩
  dsimp only
  by_cases hclm : (hdev.claimedIfs ifc).clm = USBI_IFC_CLAIMED
  · rw [linuxClaimInterface, if_pos hclm]
    exact .again hvalid hclm
  by_cases hclaim : sys.claim.ret < 0
  · rw [linux_claim_failed hclm hclaim]
    dsimp only
    by_cases hdetach : sys.detach.ret = 0
    · rw [if_neg (not_not.mpr hdetach), if_pos (show OPENUSB_SUCCESS = 0 from rfl)]
      exact .phantom hvalid hclm hclaim hdetach
    · rw [if_pos hdetach, if_neg (translateErrno_neg _).ne]
      exact .refused hvalid hclm hclaim hdetach (translateErrno_neg _)
  · rw [linuxClaimInterface, if_neg hclm]
    dsimp only
    rw [if_neg hclaim]
    dsimp only
    rw [mark_mark, ite_self]
    exact .granted hvalid hclm (not_lt.mp hclaim)

/-- The outcomes of a release, when no driver is noted for reattachment. -/
inductive ReleaseOutcome (hdev : DevHandle) (ifc : UInt8) (release : Syscall) : ℤ × DevHandle → Prop where
  | refused {ret : ℤ} (hret : ret < 0) : ReleaseOutcome hdev ifc release (ret, hdev)
  | released (hopen : hdev.opened = true) (hclm : (hdev.claimedIfs ifc).clm = USBI_IFC_CLAIMED) (hrel : 0 ≤ release.ret) :
      ReleaseOutcome hdev ifc release
        (OPENUSB_SUCCESS, (hdev.ioctl (·.releaseIntf ifc.toNat release)).mark ifc (-1) (-1))

theorem release_cases (hatt : hdev.reattachdrv = 0) (ifc : UInt8) (release attach : Syscall) :
    ReleaseOutcome hdev ifc release (openusbReleaseInterface hdev ifc release attach) := by
  rw [openusbReleaseInterface]
  by_cases hmax : ifc.toNat > USBI_MAXINTERFACES
  · rw [if_pos hmax]
    exact .refused (by decide)
  rw [if_neg hmax]
  by_cases hopen : (!hdev.opened) = true
  · rw [if_pos hopen]
    exact .refused (by decide)
  rw [if_neg hopen, openusbIsInterfaceClaimed, if_neg hmax, if_neg hopen]
  by_cases hclm : (hdev.claimedIfs ifc).clm = USBI_IFC_CLAIMED
  swap
  · rw [if_neg hclm, if_pos (by decide)]
    exact .refused (by decide)
  rw [if_pos hclm, if_neg (by decide), linuxReleaseInterface]
  dsimp only
  by_cases hrel : release.ret < 0
  · rw [if_pos hrel, DevHandle.ioctl, releaseIntf_failed hrel]
    exact .refused (translateErrno_neg _)
  · rw [if_neg hrel, mark_reattachdrv, ioctl_reattachdrv, if_neg (not_not.mpr hatt)]
    exact .released (by simpa using hopen) hclm (not_lt.mp hrel)

/-- The outcomes of setting an alternate setting. -/
inductive SetOutcome (hdev : DevHandle) (ifc alt : UInt8) (sys : Syscall) : ℤ × DevHandle → Prop where
  | refused {ret : ℤ} (hret : ret < 0) : SetOutcome hdev ifc alt sys (ret, hdev)
  | same (hopen : hdev.opened = true) (hclm : (hdev.claimedIfs ifc).clm = USBI_IFC_CLAIMED)
      (halt : (alt.toNat : ℤ) = (hdev.claimedIfs ifc).altsetting) : SetOutcome hdev ifc alt sys (0, hdev)
  | set (hopen : hdev.opened = true) (hclm : (hdev.claimedIfs ifc).clm = USBI_IFC_CLAIMED) (hsys : 0 ≤ sys.ret) :
      SetOutcome hdev ifc alt sys (OPENUSB_SUCCESS, (hdev.ioctl (·.setIntf ifc.toNat sys alt.toNat)).mark ifc USBI_IFC_CLAIMED alt.toNat)

theorem set_cases (hdev : DevHandle) (ifc alt : UInt8) (refresh : Refresh) (sys : Syscall) :
    SetOutcome hdev ifc alt sys (openusbSetAltsetting hdev ifc alt refresh sys) := by
  rw [openusbSetAltsetting]
  split_ifs with hopen _ _ _ hcheck hsame
  · exact .refused (by decide)
  · exact .refused (by decide)
  · exact .refused (by decide)
  · exact .refused (by decide)
  · exact .refused (by decide)
  · rw [not_or, not_or, not_or, not_not] at hcheck
    exact .same (by simpa using hopen) hcheck.2.2.1 hsame
  · rw [not_or, not_or, not_or, not_not] at hcheck
    have hclm := hcheck.2.2.1
    rw [linuxSetAltsetting, if_neg (not_not.mpr hclm)]
    dsimp only
    by_cases hsys : sys.ret < 0
    · rw [if_pos hsys, DevHandle.ioctl, setIntf_failed hsys]
      exact .refused (translateErrno_neg _)
    · rw [if_neg hsys, ioctl_claimedIfs, hclm]
      exact .set (by simpa using hopen) hclm (not_lt.mp hsys)

variable {r : ℤ × DevHandle} {sys : Syscall}

theorem ClaimOutcome.reattachdrv {sys : ClaimCalls} (h : ClaimOutcome hdev ifc refresh sys r) :
    r.2.reattachdrv = hdev.reattachdrv := by
  cases h <;> rfl

theorem ReleaseOutcome.reattachdrv (h : ReleaseOutcome hdev ifc sys r) : r.2.reattachdrv = hdev.reattachdrv := by
  cases h <;> rfl

theorem SetOutcome.reattachdrv (h : SetOutcome hdev ifc alt sys r) : r.2.reattachdrv = hdev.reattachdrv := by
  cases h <;> rfl

/-- No call ever notes a driver for reattachment. -/
theorem exec_reattachdrv (h : hdev.reattachdrv = 0) (call : Call) : (exec hdev call).2.reattachdrv = 0 := by
  cases call with
  | claim ifc flags refresh sys =>
    exact (claim_cases hdev ifc flags refresh sys).reattachdrv.trans h
  | release ifc release attach =>
    exact (release_cases h ifc release attach).reattachdrv.trans h
  | setAltsetting ifc alt refresh sys =>
    exact (set_cases hdev ifc alt refresh sys).reattachdrv.trans h
  | getAltsetting ifc => exact h
  | close =>
    show (openusbCloseDevice hdev).2.reattachdrv = 0
    rw [openusbCloseDevice]
    split <;> exact h

end Cases

/-- A handle starts without claims. -/
theorem openDevice_clm (driver : ℕ → Bool) (after : UInt8 → InterfaceSet) {ifc : UInt8}
    (hifc : ifc.toNat < USBI_MAXINTERFACES) :
    ((DevHandle.openDevice driver after).claimedIfs ifc).clm ≠ USBI_IFC_CLAIMED := by
  show (if ifc.toNat < USBI_MAXINTERFACES then (⟨-1, -1⟩ : InterfaceSet) else after ifc).clm ≠ USBI_IFC_CLAIMED
  rw [if_pos hifc]
  decide

/-! ## The books and the kernel -/

/-- The handle's claims are those that the kernel grants. -/
def BooksMatch (hdev : DevHandle) : Prop :=
  hdev.opened = true → ∀ ifc : UInt8, ifc.toNat < USBI_MAXINTERFACES →
    ((hdev.claimedIfs ifc).clm = USBI_IFC_CLAIMED ↔ hdev.kernel.granted ifc.toNat = true)

/-- A claim that returns success has its interface granted: an `IOCTL_USB_CLAIMINTF` that names it has succeeded since it
was last released. -/
def SuccessIsGranted (hdev : DevHandle) : Call → Prop
  | .claim ifc flags refresh sys => (openusbClaimInterface hdev ifc flags refresh sys).1 = OPENUSB_SUCCESS →
      (openusbClaimInterface hdev ifc flags refresh sys).2.kernel.granted ifc.toNat = true
  | _ => True

/-- A claim of an interface that the handle does not hold: the kernel refuses it, and detaching a driver succeeds. -/
def DetachAfterRefusal (hdev : DevHandle) : Call → Prop
  | .claim ifc _ refresh sys => Valid hdev ifc refresh ∧ (hdev.claimedIfs ifc).clm ≠ USBI_IFC_CLAIMED ∧
      sys.claim.ret < 0 ∧ sys.detach.ret = 0
  | _ => False

section Books

variable {hdev : DevHandle} {ifc : UInt8}

/-- Books and kernel stay in step when both change at one interface. -/
theorem update_iff {f : UInt8 → InterfaceSet} {g : ℕ → Bool} {x : InterfaceSet} {b : Bool} {j : UInt8} (ifc : UInt8)
    (h : (f j).clm = USBI_IFC_CLAIMED ↔ g j.toNat = true) (hx : x.clm = USBI_IFC_CLAIMED ↔ b = true) :
    (Function.update f ifc x j).clm = USBI_IFC_CLAIMED ↔ Function.update g ifc.toNat b j.toNat = true := by
  by_cases hj : j = ifc
  · rw [hj, Function.update_self, Function.update_self]
    exact hx
  · rw [Function.update_of_ne hj, Function.update_of_ne fun h => hj (UInt8.toNat_inj.mp h)]
    exact h

theorem claim_books {flags : InitFlag} {refresh : Refresh} {sys : ClaimCalls} (h : BooksMatch hdev) :
    ¬ DetachAfterRefusal hdev (.claim ifc flags refresh sys) ↔
      BooksMatch (exec hdev (.claim ifc flags refresh sys)).2 ∧
        SuccessIsGranted hdev (.claim ifc flags refresh sys) := by
  have hcases := claim_cases hdev ifc flags refresh sys
  unfold DetachAfterRefusal SuccessIsGranted exec
  dsimp only
  generalize openusbClaimInterface hdev ifc flags refresh sys = r at hcases ⊢
  cases hcases with
  | rejected hret hvalid =>
    refine iff_of_true (fun hbad => hvalid hbad.1) ⟨h, fun h0 => ?_⟩
    exact absurd h0 hret.ne
  | again hvalid hclm =>
    have hgrant := (h hvalid.opened ifc hvalid.range).mp hclm
    refine iff_of_true (fun hbad => hbad.2.1 hclm) ⟨fun hopen j hj => ?_, fun _ => hgrant⟩
    have hone : (⟨USBI_IFC_CLAIMED, 0⟩ : InterfaceSet).clm = USBI_IFC_CLAIMED ↔ true = true := iff_of_true rfl rfl
    have hupd := update_iff ifc (h hopen j hj) hone
    have hself : Function.update hdev.kernel.granted ifc.toNat true = hdev.kernel.granted :=
      Function.update_eq_self_iff.mpr hgrant.symm
    rwa [hself] at hupd
  | granted hvalid hclm hclaim =>
    refine iff_of_true (fun hbad => absurd hclaim (not_le.mpr hbad.2.2.1)) ⟨fun hopen j hj => ?_, fun _ => ?_⟩
    · rw [mark_claimedIfs, ioctl_claimedIfs, mark_kernel, ioctl_kernel, claimIntf_done hclaim]
      exact update_iff ifc (h hopen j hj) (iff_of_true rfl rfl)
    · rw [mark_kernel, ioctl_kernel, claimIntf_done hclaim]
      exact Function.update_self _ _ _
  | refused hvalid hclm hclaim hdetach hret =>
    refine iff_of_true (fun hbad => hdetach hbad.2.2.2) ⟨fun hopen j hj => ?_, fun h0 => absurd h0 hret.ne⟩
    rw [ioctl_claimedIfs, ioctl_kernel, disconnect_granted]
    exact h hopen j hj
  | phantom hvalid hclm hclaim hdetach =>
    refine iff_of_false (not_not.mpr ⟨hvalid, hclm, hclaim, hdetach⟩) fun hgood => ?_
    have hgrant := hgood.2 rfl
    rw [mark_kernel, ioctl_kernel, disconnect_granted] at hgrant
    exact hclm ((h hvalid.opened ifc hvalid.range).mpr hgrant)

/-- A call keeps the books and its word exactly when it is not a claim with a detach after a refusal. -/
theorem exec_books (hatt : hdev.reattachdrv = 0) (h : BooksMatch hdev) (call : Call) :
    ¬ DetachAfterRefusal hdev call ↔ BooksMatch (exec hdev call).2 ∧ SuccessIsGranted hdev call := by
  cases call with
  | claim ifc flags refresh sys => exact claim_books h
  | release ifc release attach =>
    refine iff_of_true (fun hbad => hbad) ⟨?_, trivial⟩
    have hcases := release_cases hatt ifc release attach
    unfold exec
    dsimp only
    generalize openusbReleaseInterface hdev ifc release attach = r at hcases ⊢
    cases hcases with
    | refused hret => exact h
    | released hopen hclm hrel =>
      intro _ j hj
      rw [mark_claimedIfs, ioctl_claimedIfs, mark_kernel, ioctl_kernel, releaseIntf_done hrel]
      exact update_iff ifc (h hopen j hj) (iff_of_false (by decide) (by decide))
  | setAltsetting ifc alt refresh sys =>
    refine iff_of_true (fun hbad => hbad) ⟨?_, trivial⟩
    have hcases := set_cases hdev ifc alt refresh sys
    unfold exec
    dsimp only
    generalize openusbSetAltsetting hdev ifc alt refresh sys = r at hcases ⊢
    cases hcases with
    | refused hret => exact h
    | same hopen hclm halt => exact h
    | set _ hclm hsys =>
      intro hopen j hj
      rw [mark_claimedIfs, ioctl_claimedIfs, mark_kernel, ioctl_kernel, setIntf_done hsys, ← h hopen j hj]
      by_cases hji : j = ifc
      · rw [hji, Function.update_self, hclm]
      · rw [Function.update_of_ne hji]
  | getAltsetting ifc => exact iff_of_true (fun hbad => hbad) ⟨h, trivial⟩
  | close =>
    refine iff_of_true (fun hbad => hbad) ⟨?_, trivial⟩
    show BooksMatch (openusbCloseDevice hdev).2
    rw [openusbCloseDevice]
    split
    · exact h
    · exact fun hopen => absurd hopen Bool.false_ne_true

/-- As long as no driver is detached after a refusal the books match the kernel's, and such a detach breaks them. -/
theorem books_match_kernel (driver : ℕ → Bool) (after : UInt8 → InterfaceSet) (calls : List Call) (hdev : DevHandle)
    (hrun : Run Calls (fun s call => ¬ DetachAfterRefusal s call) (DevHandle.openDevice driver after) calls hdev) :
    BooksMatch hdev ∧ ∀ call, ¬ DetachAfterRefusal hdev call ↔
      BooksMatch (exec hdev call).2 ∧ SuccessIsGranted hdev call := by
  have hinv := hrun.inv (I := fun s => s.reattachdrv = 0 ∧ BooksMatch s)
    (fun s call t hs hG hstep => by
      rw [show t = (exec s call).2 from hstep]
      exact ⟨exec_reattachdrv hs.1 call, ((exec_books hs.1 hs.2 call).mp hG).1⟩)
    ⟨rfl, fun _ ifc hifc => iff_of_false (openDevice_clm driver after hifc) Bool.false_ne_true⟩
  exact ⟨hinv.2, exec_books hinv.1 hinv.2⟩

/-- Interface 0 is the only one, with two alternate settings. -/
def oneInterface : Refresh := ⟨0, 0, 1, fun _ => 2⟩

/-- A fresh handle of a device with kernel drivers attached. -/
def freshHandle : DevHandle := .openDevice (fun _ => true) fun _ => ⟨0, 0⟩

/-- A claim of interface 0 that the kernel grants. -/
def claimFree (flags : InitFlag) : Call := .claim 0 flags oneInterface { claim := ⟨0, 0⟩ }

/-- A claim of interface 0 that the kernel refuses with `EBUSY`; detaching the driver would succeed. -/
def claimBusy (flags : InitFlag) : Call := .claim 0 flags oneInterface { claim := ⟨-1, 16⟩, detach := ⟨0, 0⟩ }

/-- Put interface 0 in alternate setting 1. -/
def setOne : Call := .setAltsetting 0 1 oneInterface ⟨0, 0⟩

theorem books_match_kernel_free : BooksMatch (exec freshHandle (claimFree .default)).2 ∧
    ∀ call, ¬ DetachAfterRefusal (exec freshHandle (claimFree .default)).2 call ↔
      BooksMatch (exec (exec freshHandle (claimFree .default)).2 call).2 ∧
        SuccessIsGranted (exec freshHandle (claimFree .default)).2 call :=
  books_match_kernel (fun _ => true) (fun _ => ⟨0, 0⟩) [claimFree .default] (exec freshHandle (claimFree .default)).2
    (.cons (fun h => absurd h.2.2.1 (by decide)) rfl (.nil _))

/-- A default claim of a busy interface returns success, and the kernel grants nothing. -/
theorem claim_busy_phantom : ¬ (BooksMatch (exec freshHandle (claimBusy .default)).2 ∧
    SuccessIsGranted freshHandle (claimBusy .default)) := by
  intro h
  have hgrant : (exec freshHandle (claimBusy .default)).2.kernel.granted 0 = true := h.2 (by decide)
  exact absurd hgrant (by decide)

end Books

/-! ## Kernel drivers -/

/-- A claim without the non-reversible flag that detaches the kernel driver of its interface. -/
def DetachesDriver (hdev : DevHandle) : Call → Prop
  | .claim ifc flags refresh sys => flags ≠ .nonReversible ∧ Valid hdev ifc refresh ∧
      (hdev.claimedIfs ifc).clm ≠ USBI_IFC_CLAIMED ∧ sys.claim.ret < 0 ∧ 0 ≤ sys.detach.ret ∧
      hdev.kernel.driver ifc.toNat = true
  | _ => False

/-- The call gives the interface back: a release of it that succeeds, or the close of the handle. -/
def EndsClaim (hdev : DevHandle) (ifc : UInt8) : Call → Prop
  | .release i release attach => i = ifc ∧ (openusbReleaseInterface hdev i release attach).1 = OPENUSB_SUCCESS
  | .close => True
  | _ => False

section Drivers

variable {hdev : DevHandle} {ifc : UInt8} {flags : InitFlag} {refresh : Refresh} {sys : ClaimCalls}

theorem disconnect_driver (k : Kernel) (n : ℕ) (sys : Syscall) :
    (k.disconnect n sys).driver = k.driver ↔ ¬ (0 ≤ sys.ret ∧ k.driver n = true) := by
  unfold Kernel.disconnect
  split
  next h => exact iff_of_true rfl fun hbad => absurd hbad.1 (not_le.mpr h)
  next h =>
    rw [Function.update_eq_self_iff, not_and, Bool.not_eq_true, eq_comm]
    exact ⟨fun h _ => h, fun h' => h' (not_lt.mp h)⟩

/-- A claim changes the drivers exactly when it is refused and detaches one. -/
theorem claim_driver : (openusbClaimInterface hdev ifc flags refresh sys).2.kernel.driver = hdev.kernel.driver ↔
    ¬ (Valid hdev ifc refresh ∧ (hdev.claimedIfs ifc).clm ≠ USBI_IFC_CLAIMED ∧ sys.claim.ret < 0 ∧
      0 ≤ sys.detach.ret ∧ hdev.kernel.driver ifc.toNat = true) := by
  have hcases := claim_cases hdev ifc flags refresh sys
  generalize openusbClaimInterface hdev ifc flags refresh sys = r at hcases ⊢
  cases hcases with
  | rejected hret hvalid => exact iff_of_true rfl fun hbad => hvalid hbad.1
  | again hvalid hclm => exact iff_of_true rfl fun hbad => hbad.2.1 hclm
  | granted hvalid hclm hclaim =>
    refine iff_of_true ?_ fun hbad => absurd hclaim (not_le.mpr hbad.2.2.1)
    rw [mark_kernel, ioctl_kernel, claimIntf_done hclaim]
  | refused hvalid hclm hclaim hdetach hret =>
    rw [ioctl_kernel, disconnect_driver]
    simp only [hvalid, hclm, hclaim, ne_eq, not_false_eq_true, true_and]
  | phantom hvalid hclm hclaim hdetach =>
    rw [mark_kernel, ioctl_kernel, disconnect_driver]
    simp only [hvalid, hclm, hclaim, ne_eq, not_false_eq_true, true_and]

/-- A claim leaves the drivers of the other interfaces alone. -/
theorem claim_driver_of_ne {n : ℕ} (h : n ≠ ifc.toNat) :
    (openusbClaimInterface hdev ifc flags refresh sys).2.kernel.driver n = hdev.kernel.driver n := by
  have hcases := claim_cases hdev ifc flags refresh sys
  generalize openusbClaimInterface hdev ifc flags refresh sys = r at hcases ⊢
  cases hcases with
  | rejected hret hvalid => rfl
  | again hvalid hclm => rfl
  | granted hvalid hclm hclaim => rw [mark_kernel, ioctl_kernel, claimIntf_done hclaim]
  | refused hvalid hclm hclaim hdetach hret => exact disconnect_driver_of_ne h
  | phantom hvalid hclm hclaim hdetach => exact disconnect_driver_of_ne h

/-- No other call changes the drivers. -/
theorem exec_driver (hatt : hdev.reattachdrv = 0) {call : Call}
    (hcall : ∀ ifc flags refresh sys, call ≠ .claim ifc flags refresh sys) :
    (exec hdev call).2.kernel.driver = hdev.kernel.driver := by
  cases call with
  | claim ifc flags refresh sys => exact absurd rfl (hcall ifc flags refresh sys)
  | release ifc release attach =>
    have hcases := release_cases hatt ifc release attach
    unfold exec
    dsimp only
    generalize openusbReleaseInterface hdev ifc release attach = r at hcases ⊢
    cases hcases with
    | refused hret => rfl
    | released hopen hclm hrel => rw [mark_kernel, ioctl_kernel, releaseIntf_done hrel]
  | setAltsetting ifc alt refresh sys =>
    have hcases := set_cases hdev ifc alt refresh sys
    unfold exec
    dsimp only
    generalize openusbSetAltsetting hdev ifc alt refresh sys = r at hcases ⊢
    cases hcases with
    | refused hret => rfl
    | same hopen hclm halt => rfl
    | set hopen hclm hsys => rw [mark_kernel, ioctl_kernel, setIntf_done hsys]
  | getAltsetting ifc => rfl
  | close =>
    show (openusbCloseDevice hdev).2.kernel.driver = hdev.kernel.driver
    rw [openusbCloseDevice]
    split <;> rfl

/-- A claim of another interface, or a claim again, leaves a claimed interface claimed. -/
theorem claim_held {i : UInt8} (hheld : (hdev.claimedIfs ifc).clm = USBI_IFC_CLAIMED) :
    ((openusbClaimInterface hdev i flags refresh sys).2.claimedIfs ifc).clm = USBI_IFC_CLAIMED := by
  have hmark : ∀ a, (Function.update hdev.claimedIfs i ⟨USBI_IFC_CLAIMED, a⟩ ifc).clm = USBI_IFC_CLAIMED := by
    intro a
    by_cases hi : ifc = i
    · rw [hi, Function.update_self]
    · rw [Function.update_of_ne hi, hheld]
  have hcases := claim_cases hdev i flags refresh sys
  generalize openusbClaimInterface hdev i flags refresh sys = r at hcases ⊢
  cases hcases with
  | rejected hret hvalid => exact hheld
  | again hvalid hclm => exact hmark 0
  | granted hvalid hclm hclaim => exact hmark 0
  | refused hvalid hclm hclaim hdetach hret => exact hheld
  | phantom hvalid hclm hclaim hdetach => exact hmark 0

/-- A claim that returns success leaves its interface claimed. -/
theorem claim_success (h : (openusbClaimInterface hdev ifc flags refresh sys).1 = OPENUSB_SUCCESS) :
    ((openusbClaimInterface hdev ifc flags refresh sys).2.claimedIfs ifc).clm = USBI_IFC_CLAIMED := by
  have hmark : ∀ a, (Function.update hdev.claimedIfs ifc ⟨USBI_IFC_CLAIMED, a⟩ ifc).clm = USBI_IFC_CLAIMED := by
    intro a
    rw [Function.update_self]
  have hcases := claim_cases hdev ifc flags refresh sys
  generalize openusbClaimInterface hdev ifc flags refresh sys = r at hcases h ⊢
  cases hcases with
  | rejected hret hvalid => exact absurd h hret.ne
  | again hvalid hclm => exact hmark 0
  | granted hvalid hclm hclaim => exact hmark 0
  | refused hvalid hclm hclaim hdetach hret => exact absurd h hret.ne
  | phantom hvalid hclm hclaim hdetach => exact hmark 0

/-- Until a claim ends, its interface stays claimed and its driver as it is. -/
theorem exec_held (hatt : hdev.reattachdrv = 0) (hheld : (hdev.claimedIfs ifc).clm = USBI_IFC_CLAIMED) {call : Call}
    (hcall : ¬ EndsClaim hdev ifc call) : ((exec hdev call).2.claimedIfs ifc).clm = USBI_IFC_CLAIMED ∧
      (exec hdev call).2.kernel.driver ifc.toNat = hdev.kernel.driver ifc.toNat := by
  cases call with
  | claim i flags refresh sys =>
    refine ⟨claim_held hheld, ?_⟩
    by_cases hi : i = ifc
    · rw [hi]
      exact congrFun (claim_driver.mpr fun hbad => hbad.2.1 hheld) _
    · exact claim_driver_of_ne fun h => hi (UInt8.toNat_inj.mp h).symm
  | release i release attach =>
    refine ⟨?_, congrFun (exec_driver hatt fun _ _ _ _ h => by cases h) _⟩
    have hcases := release_cases hatt i release attach
    unfold EndsClaim at hcall
    unfold exec
    dsimp only at hcall ⊢
    generalize openusbReleaseInterface hdev i release attach = r at hcases hcall ⊢
    cases hcases with
    | refused hret => exact hheld
    | released hopen hclm hrel =>
      rw [mark_claimedIfs, Function.update_of_ne fun h => hcall ⟨h.symm, rfl⟩]
      exact hheld
  | setAltsetting i alt refresh sys =>
    refine ⟨?_, congrFun (exec_driver hatt fun _ _ _ _ h => by cases h) _⟩
    have hcases := set_cases hdev i alt refresh sys
    unfold exec
    dsimp only
    generalize openusbSetAltsetting hdev i alt refresh sys = r at hcases ⊢
    cases hcases with
    | refused hret => exact hheld
    | same hopen hclm halt => exact hheld
    | set hopen hclm hsys =>
      rw [mark_claimedIfs]
      by_cases hi : ifc = i
      · rw [hi, Function.update_self]
      · rw [Function.update_of_ne hi]
        exact hheld
  | getAltsetting i => exact ⟨hheld, rfl⟩
  | close => exact absurd trivial hcall

theorem endsClaim_driver (hatt : hdev.reattachdrv = 0) {call : Call} (h : EndsClaim hdev ifc call) :
    (exec hdev call).2.kernel.driver = hdev.kernel.driver :=
  exec_driver hatt fun _ _ _ _ hc => by rw [hc] at h; exact h

/-- As long as no claim without the non-reversible flag detaches a driver: a claim with the default or the fail-fast flag
leaves the drivers alone exactly if it does not detach one itself; and when an interface claimed with the reversible flag
is given back, its driver is as it was before the claim. -/
theorem init_flags_honoured (driver : ℕ → Bool) (after : UInt8 → InterfaceSet) (calls : List Call) (hdev : DevHandle)
    (hrun : Run Calls (fun s call => ¬ DetachesDriver s call) (DevHandle.openDevice driver after) calls hdev)
    (ifc : UInt8) (refresh : Refresh) (sys : ClaimCalls) :
    (∀ flags, flags = .default ∨ flags = .failFast →
      ((exec hdev (.claim ifc flags refresh sys)).2.kernel.driver = hdev.kernel.driver ↔
        ¬ DetachesDriver hdev (.claim ifc flags refresh sys))) ∧
    (¬ DetachesDriver hdev (.claim ifc .reversible refresh sys) →
      (exec hdev (.claim ifc .reversible refresh sys)).1 = OPENUSB_SUCCESS →
      ∀ mid hdev' last, Run Calls (fun s call => ¬ DetachesDriver s call ∧ ¬ EndsClaim s ifc call)
        (exec hdev (.claim ifc .reversible refresh sys)).2 mid hdev' → EndsClaim hdev' ifc last →
        (exec hdev' last).2.kernel.driver ifc.toNat = hdev.kernel.driver ifc.toNat) := by
  have hatt := hrun.inv (I := fun s => s.reattachdrv = 0)
    (fun s call t hs _ hstep => by
      rw [show t = (exec s call).2 from hstep]
      exact exec_reattachdrv hs call) rfl
  constructor
  · intro flags hflags
    refine claim_driver.trans (not_congr ⟨fun hbad => ⟨?_, hbad⟩, fun hbad => hbad.2⟩)
    rcases hflags with rfl | rfl <;> exact nofun
  · intro hkeep hsuccess mid hdev' last hmid hlast
    have hsame : (exec hdev (.claim ifc .reversible refresh sys)).2.kernel.driver = hdev.kernel.driver :=
      claim_driver.mpr fun hbad => hkeep ⟨nofun, hbad⟩
    have hinv := hmid.inv (I := fun s => s.reattachdrv = 0 ∧ (s.claimedIfs ifc).clm = USBI_IFC_CLAIMED ∧
        s.kernel.driver ifc.toNat = hdev.kernel.driver ifc.toNat)
      (fun s call t hs hG hstep => by
        rw [show t = (exec s call).2 from hstep]
        obtain ⟨hclm, hdrv⟩ := exec_held hs.1 hs.2.1 hG.2
        exact ⟨exec_reattachdrv hs.1 call, hclm, hdrv.trans hs.2.2⟩)
      ⟨exec_reattachdrv hatt _, claim_success hsuccess, congrFun hsame _⟩
    rw [endsClaim_driver hinv.1 hlast]
    exact hinv.2.2

/-- The interface is claimed and released; then it is claimed with the reversible flag, set and closed. -/
theorem init_flags_honoured_again : ∃ hdev hdev' : DevHandle,
    Run Calls (fun s call => ¬ DetachesDriver s call) freshHandle [claimFree .default, .release 0 ⟨0, 0⟩ ⟨0, 0⟩] hdev ∧
      (exec hdev (claimFree .default)).2.kernel.driver = hdev.kernel.driver ∧
      Run Calls (fun s call => ¬ DetachesDriver s call ∧ ¬ EndsClaim s 0 call) (exec hdev (claimFree .reversible)).2
        [setOne] hdev' ∧
      hdev'.kernel.alt 0 = 1 ∧ (exec hdev' .close).2.kernel.driver 0 = hdev.kernel.driver 0 := by
  have hrun : Run Calls (fun s call => ¬ DetachesDriver s call) freshHandle
      [claimFree .default, .release 0 ⟨0, 0⟩ ⟨0, 0⟩] _ :=
    .cons (fun hbad => absurd hbad.2.2.2.1 (by decide)) rfl (.cons (fun hbad => hbad) rfl (.nil _))
  have hmid : Run Calls (fun s call => ¬ DetachesDriver s call ∧ ¬ EndsClaim s 0 call)
      (exec (exec (exec freshHandle (claimFree .default)).2 (.release 0 ⟨0, 0⟩ ⟨0, 0⟩)).2 (claimFree .reversible)).2
      [setOne] _ := .cons ⟨fun hbad => hbad, fun hends => hends⟩ rfl (.nil _)
  have h := init_flags_honoured (fun _ => true) (fun _ => ⟨0, 0⟩) _ _ hrun 0 oneInterface { claim := ⟨0, 0⟩ }
  refine ⟨_, _, hrun, ?_, hmid, by decide, ?_⟩
  · exact (h.1 .default (Or.inl rfl)).mpr fun hbad => absurd hbad.2.2.2.1 (by decide)
  · exact h.2 (fun hbad => absurd hbad.2.2.2.1 (by decide)) (by decide) [setOne] _ .close hmid trivial

/-- A default claim of a busy interface detaches its driver. -/
theorem claim_busy_detaches :
    (exec freshHandle (claimBusy .default)).2.kernel.driver ≠ freshHandle.kernel.driver := by
  intro h
  have hdrv := congrFun h 0
  exact absurd hdrv (by decide)

end Drivers

/-! ## Alternate settings -/

/-- The cached alternate setting of each claimed interface is the device's. -/
def CacheMatches (hdev : DevHandle) : Prop :=
  hdev.opened = true → ∀ ifc : UInt8, ifc.toNat < USBI_MAXINTERFACES → (hdev.claimedIfs ifc).clm = USBI_IFC_CLAIMED →
    (hdev.claimedIfs ifc).altsetting = hdev.kernel.alt ifc.toNat

/-- The interfaces that are not claimed are in alternate setting 0. -/
def IdleAtZero (hdev : DevHandle) : Prop :=
  hdev.opened = true → ∀ ifc : UInt8, ifc.toNat < USBI_MAXINTERFACES → (hdev.claimedIfs ifc).clm ≠ USBI_IFC_CLAIMED →
    hdev.kernel.alt ifc.toNat = 0

/-- Setting an alternate setting with success leaves the device in it. -/
def SuccessIsSet (hdev : DevHandle) : Call → Prop
  | .setAltsetting ifc alt refresh sys => ifc.toNat < USBI_MAXINTERFACES →
      (openusbSetAltsetting hdev ifc alt refresh sys).1 = OPENUSB_SUCCESS →
      (openusbSetAltsetting hdev ifc alt refresh sys).2.kernel.alt ifc.toNat = alt.toNat
  | _ => True

/-- A claim of an interface that the handle holds in an alternate setting other than 0. -/
def ReclaimsSet (hdev : DevHandle) : Call → Prop
  | .claim ifc _ refresh _ => Valid hdev ifc refresh ∧ (hdev.claimedIfs ifc).clm = USBI_IFC_CLAIMED ∧
      (hdev.claimedIfs ifc).altsetting ≠ 0
  | _ => False

section Altsettings

variable {hdev : DevHandle} {ifc : UInt8} {flags : InitFlag} {refresh : Refresh}

/-- Both halves of the invariant at one interface. -/
def AltAt (x : InterfaceSet) (a : ℕ) : Prop :=
  (x.clm = USBI_IFC_CLAIMED → x.altsetting = a) ∧ (x.clm ≠ USBI_IFC_CLAIMED → a = 0)

theorem altAt_iff : CacheMatches hdev ∧ IdleAtZero hdev ↔
    (hdev.opened = true → ∀ ifc : UInt8, ifc.toNat < USBI_MAXINTERFACES →
      AltAt (hdev.claimedIfs ifc) (hdev.kernel.alt ifc.toNat)) :=
  ⟨fun h hopen ifc hifc => ⟨h.1 hopen ifc hifc, h.2 hopen ifc hifc⟩,
    fun h => ⟨fun hopen ifc hifc => (h hopen ifc hifc).1, fun hopen ifc hifc => (h hopen ifc hifc).2⟩⟩

theorem altAt_update {f : UInt8 → InterfaceSet} {g : ℕ → ℕ} {x : InterfaceSet} {a : ℕ} {j : UInt8} (ifc : UInt8)
    (h : AltAt (f j) (g j.toNat)) (hx : AltAt x a) :
    AltAt (Function.update f ifc x j) (Function.update g ifc.toNat a j.toNat) := by
  by_cases hj : j = ifc
  · rw [hj, Function.update_self, Function.update_self]
    exact hx
  · rw [Function.update_of_ne hj, Function.update_of_ne fun h => hj (UInt8.toNat_inj.mp h)]
    exact h

theorem altAt_mark {f : UInt8 → InterfaceSet} {g : ℕ → ℕ} {j : UInt8} (h : AltAt (f j) (g j.toNat))
    (hx : g ifc.toNat = 0) : AltAt (Function.update f ifc ⟨USBI_IFC_CLAIMED, 0⟩ j) (g j.toNat) := by
  have hzero : AltAt ⟨USBI_IFC_CLAIMED, 0⟩ 0 := ⟨fun _ => rfl, fun h => absurd rfl h⟩
  have hupd := altAt_update ifc h hzero
  have hself : Function.update g ifc.toNat 0 = g := Function.update_eq_self_iff.mpr hx.symm
  rwa [hself] at hupd

theorem altAt_keep {hdev' : DevHandle} {p q : Prop} (hp : p) (hq : q)
    (h : hdev'.opened = true → ∀ j : UInt8, j.toNat < USBI_MAXINTERFACES →
      AltAt (hdev'.claimedIfs j) (hdev'.kernel.alt j.toNat)) :
    (p ↔ CacheMatches hdev' ∧ q) ∧ IdleAtZero hdev' :=
  ⟨iff_of_true hp ⟨(altAt_iff.mpr h).1, hq⟩, (altAt_iff.mpr h).2⟩

theorem claim_alt {sys : ClaimCalls} (hcache : CacheMatches hdev) (hidle : IdleAtZero hdev) :
    (¬ ReclaimsSet hdev (.claim ifc flags refresh sys) ↔ CacheMatches (exec hdev (.claim ifc flags refresh sys)).2 ∧
      SuccessIsSet hdev (.claim ifc flags refresh sys)) ∧
      IdleAtZero (exec hdev (.claim ifc flags refresh sys)).2 := by
  have hboth := altAt_iff.mp ⟨hcache, hidle⟩
  have hcases := claim_cases hdev ifc flags refresh sys
  unfold exec
  dsimp only
  generalize openusbClaimInterface hdev ifc flags refresh sys = r at hcases ⊢
  cases hcases with
  | rejected hret hvalid => exact altAt_keep (fun hbad => hvalid hbad.1) trivial hboth
  | again hvalid hclm =>
    have halt := hcache hvalid.opened ifc hvalid.range hclm
    by_cases hzero : (hdev.claimedIfs ifc).altsetting = 0
    · refine altAt_keep (fun hbad => hbad.2.2 hzero) trivial fun hopen j hj => ?_
      exact altAt_mark (hboth hopen j hj) (Int.natCast_eq_zero.mp (halt.symm.trans hzero))
    · constructor
      · refine iff_of_false (not_not.mpr ⟨hvalid, hclm, hzero⟩) fun hbad => hzero ?_
        have hset := hbad.1 hvalid.opened ifc hvalid.range
        rw [mark_claimedIfs, Function.update_self] at hset
        rw [halt]
        exact (hset rfl).symm
      · intro hopen j hj hfree
        rw [mark_claimedIfs] at hfree
        by_cases hji : j = ifc
        · rw [hji, Function.update_self] at hfree
          exact absurd rfl hfree
        · rw [Function.update_of_ne hji] at hfree
          exact hidle hopen j hj hfree
  | granted hvalid hclm hclaim =>
    refine altAt_keep (fun hbad => hclm hbad.2.1) trivial fun hopen j hj => ?_
    rw [mark_claimedIfs, ioctl_claimedIfs, mark_kernel, ioctl_kernel, claimIntf_done hclaim]
    exact altAt_mark (hboth hopen j hj) (hidle hopen ifc hvalid.range hclm)
  | refused hvalid hclm hclaim hdetach hret =>
    refine altAt_keep (fun hbad => hclm hbad.2.1) trivial fun hopen j hj => ?_
    rw [ioctl_claimedIfs, ioctl_kernel, disconnect_alt]
    exact hboth hopen j hj
  | phantom hvalid hclm hclaim hdetach =>
    refine altAt_keep (fun hbad => hclm hbad.2.1) trivial fun hopen j hj => ?_
    rw [mark_claimedIfs, ioctl_claimedIfs, mark_kernel, ioctl_kernel, disconnect_alt]
    exact altAt_mark (hboth hopen j hj) (hidle hopen ifc hvalid.range hclm)

/-- A call keeps the cache and its word exactly when it does not claim again an interface that is set. -/
theorem exec_alt (hatt : hdev.reattachdrv = 0) (hcache : CacheMatches hdev) (hidle : IdleAtZero hdev) (call : Call) :
    (¬ ReclaimsSet hdev call ↔ CacheMatches (exec hdev call).2 ∧ SuccessIsSet hdev call) ∧
      IdleAtZero (exec hdev call).2 := by
  have hboth := altAt_iff.mp ⟨hcache, hidle⟩
  cases call with
  | claim ifc flags refresh sys => exact claim_alt hcache hidle
  | release ifc release attach =>
    have hcases := release_cases hatt ifc release attach
    unfold exec
    dsimp only
    generalize openusbReleaseInterface hdev ifc release attach = r at hcases ⊢
    cases hcases with
    | refused hret => exact altAt_keep (fun hbad => hbad) trivial hboth
    | released hopen hclm hrel =>
      refine altAt_keep (fun hbad => hbad) trivial fun hopen j hj => ?_
      rw [mark_claimedIfs, ioctl_claimedIfs, mark_kernel, ioctl_kernel, releaseIntf_done hrel]
      exact altAt_update ifc (hboth hopen j hj) ⟨fun h => absurd h (by decide), fun _ => rfl⟩
  | setAltsetting ifc alt refresh sys =>
    have hcases := set_cases hdev ifc alt refresh sys
    unfold exec SuccessIsSet
    dsimp only
    generalize openusbSetAltsetting hdev ifc alt refresh sys = r at hcases ⊢
    cases hcases with
    | refused hret => exact altAt_keep (fun hbad => hbad) (fun _ h => absurd h hret.ne) hboth
    | same hopen hclm halt =>
      refine altAt_keep (fun hbad => hbad) (fun hifc _ => ?_) hboth
      exact Int.natCast_inj.mp ((halt.trans (hcache hopen ifc hifc hclm)).symm)
    | set hopen hclm hsys =>
      refine altAt_keep (fun hbad => hbad) (fun _ _ => ?_) fun hopen j hj => ?_
      · rw [mark_kernel, ioctl_kernel, setIntf_done hsys]
        exact Function.update_self _ _ _
      · rw [mark_claimedIfs, ioctl_claimedIfs, mark_kernel, ioctl_kernel, setIntf_done hsys]
        exact altAt_update ifc (hboth hopen j hj) ⟨fun _ => rfl, fun h => absurd rfl h⟩
  | getAltsetting ifc => exact altAt_keep (fun hbad => hbad) trivial hboth
  | close =>
    refine altAt_keep (fun hbad => hbad) trivial ?_
    show (openusbCloseDevice hdev).2.opened = true → _
    unfold exec
    dsimp only
    rw [openusbCloseDevice]
    split
    · exact hboth
    · exact fun hopen => absurd hopen Bool.false_ne_true

/-- As long as no interface is claimed again outside alternate setting 0, the cached alternate settings are the device's,
and such a claim breaks this. -/
theorem altsetting_cache_coherent (driver : ℕ → Bool) (after : UInt8 → InterfaceSet) (calls : List Call)
    (hdev : DevHandle)
    (hrun : Run Calls (fun s call => ¬ ReclaimsSet s call) (DevHandle.openDevice driver after) calls hdev) :
    CacheMatches hdev ∧
      ∀ call, ¬ ReclaimsSet hdev call ↔ CacheMatches (exec hdev call).2 ∧ SuccessIsSet hdev call := by
  have hopen : CacheMatches (DevHandle.openDevice driver after) ∧ IdleAtZero (DevHandle.openDevice driver after) :=
    ⟨fun _ ifc hifc hclm => absurd hclm (openDevice_clm driver after hifc), fun _ _ _ _ => rfl⟩
  have hinv := hrun.inv (I := fun s => s.reattachdrv = 0 ∧ CacheMatches s ∧ IdleAtZero s)
    (fun s call t hs hG hstep => by
      rw [show t = (exec s call).2 from hstep]
      obtain ⟨hiff, hidle⟩ := exec_alt hs.1 hs.2.1 hs.2.2 call
      exact ⟨exec_reattachdrv hs.1 call, (hiff.mp hG).1, hidle⟩)
    ⟨rfl, hopen⟩
  exact ⟨hinv.2.1, fun call => (exec_alt hinv.1 hinv.2.1 hinv.2.2 call).1⟩

/-- After claiming and setting, both the cache and the device say 1. -/
theorem altsetting_cache_coherent_set : ∃ hdev : DevHandle,
    Run Calls (fun s call => ¬ ReclaimsSet s call) freshHandle [claimFree .default, setOne, .getAltsetting 0] hdev ∧
      (hdev.claimedIfs 0).altsetting = 1 ∧ hdev.kernel.alt 0 = 1 ∧ CacheMatches hdev ∧
      ∀ call, ¬ ReclaimsSet hdev call ↔ CacheMatches (exec hdev call).2 ∧ SuccessIsSet hdev call := by
  have hrun : Run Calls (fun s call => ¬ ReclaimsSet s call) freshHandle [claimFree .default, setOne, .getAltsetting 0] _ :=
    .cons (fun hbad => absurd hbad.2.1 (by decide)) rfl (.cons (fun hbad => hbad) rfl (.cons (fun hbad => hbad) rfl (.nil _)))
  exact ⟨_, hrun, by decide, by decide, altsetting_cache_coherent (fun _ => true) (fun _ => ⟨0, 0⟩) _ _ hrun⟩

/-- After claiming, setting and claiming again, the cache says 0 and the device is in alternate setting 1. -/
theorem claim_again_stale : ¬ CacheMatches (exec (exec (exec freshHandle (claimFree .default)).2 setOne).2
    (claimFree .default)).2 := by
  intro h
  exact absurd (h (by decide) 0 (by decide) (by decide)) (by decide)

end Altsettings

end OpenUsb
