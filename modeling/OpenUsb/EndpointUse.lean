import OpenUsb.FilesHeld

/-!
# EndpointUse — which files the transfers on Solaris use, and how

The files of an endpoint are named after the configuration, the interface and its alternate setting, and stay open when
these change behind them, save by `solaris_set_altinterface`.

* `Inv.exec_current`: a proper call keeps the open endpoints under the names of their current settings.
* `transfers_reach_setting`: a transfer that is let through has the files of the current setting.
-/

namespace OpenUsb

namespace Solaris

namespace EndpointFiles

section

variable {ugen : Ugen} {s t : EndpointFiles} {hdev h i j : ℕ} {fd : ℤ} {b : Bool} {ifc epAddr : UInt8} {epType : EpType}
  {calls : EndpointOpen} {request : EndpointRequest} {call : FileCall}

/-! ## The names -/

/-- The name of the file that a descriptor stands for. -/
def nameOf (files : ℤ → Option OpenFile) (fd : ℤ) : Option String := (files fd).map OpenFile.name

/-- The name that the data file or the status file of an endpoint should have. -/
def endpointName (ugen : Ugen) (s : EndpointFiles) (h : ℕ) (ifc epAddr : UInt8) (stat : Bool) : String :=
  if stat then statfilename (s.filename ugen h ifc epAddr) else s.filename ugen h ifc epAddr

/-- The endpoints that a handle may use and has open are open under their current names. -/
def Current (ugen : Ugen) (s : EndpointFiles) : Prop :=
  ∀ h, s.device.opened h = true → ∀ ifc epAddr, EndpointAddress epAddr → s.Admits h ifc epAddr → ∀ b,
    s.slot (h, usbEpIndex epAddr, b) ≠ -1 →
      nameOf s.files (s.slot (h, usbEpIndex epAddr, b)) = some (s.endpointName ugen h ifc epAddr b)

/-- A handle takes an interface while it has no endpoint open, or has it already with setting 0; another configuration is set,
also by the open of the device, while no endpoint is open at all, or none of the two is in the names. -/
def Settled (s : EndpointFiles) (hdev : ℕ) : FileCall → Prop
  | .openDevice _ _ => s.curConfigIndex ≤ 0 ∨ ∀ k, s.slot k = -1
  | .claim ifc _ _ => s.device.claimedIfs hdev ifc = ⟨USBI_IFC_CLAIMED, 0⟩ ∨ ∀ i b, s.slot (hdev, i, b) = -1
  | .setConfiguration _ _ index => s.curConfigIndex ≤ 0 ∧ index ≤ 0 ∨ ∀ k, s.slot k = -1
  | _ => True

/-- The close of an endpoint leaves the files of the others. -/
theorem closeFiles_of_slot {slot : ℕ × ℕ × Bool → ℤ} {files : ℤ → Option OpenFile} (hs : Descriptors.Sound slot files)
    (hat : ¬ (hdev = h ∧ j = i)) (hk : slot (hdev, j, b) ≠ -1) :
    closeFiles slot files h i (slot (hdev, j, b)) = files (slot (hdev, j, b)) := by
  have hne : ∀ b', slot (hdev, j, b) ≠ slot (h, i, b') := by
    intro b' heq
    have hkey := hs.one _ _ hk heq
    exact hat ⟨congrArg Prod.fst hkey, congrArg (·.2.1) hkey⟩
  unfold closeFiles
  rw [Function.update_of_ne (hne true), Function.update_of_ne (hne false)]

/-- The names of the files that the open of an endpoint leaves. -/
theorem openedEndpoint_name (hs : s.Inv) (h1 : s.device.opened hdev = true) (hi : usbEpIndex epAddr ≠ 0)
    (hcalls : calls.Promised s.files) (hopens : Opens epAddr epType calls) :
    nameOf (s.openedEndpoint ugen hdev ifc epAddr calls).files
      ((s.openedEndpoint ugen hdev ifc epAddr calls).slot (h, i, b)) =
      if h = hdev ∧ i = usbEpIndex epAddr then some (s.endpointName ugen hdev ifc epAddr b)
      else nameOf s.files (s.slot (h, i, b)) := by
  obtain ⟨-, hfree⟩ := hcalls.data.resolve_left hopens.data
  obtain ⟨-, hfree', hne⟩ := hcalls.stat.resolve_left hopens.stat
  rw [openedEndpoint_slot h1 hi, storeSlots_apply]
  show (Function.update (Function.update s.files calls.data (some ⟨s.filename ugen hdev ifc epAddr, []⟩)) calls.stat
    (some ⟨statfilename (s.filename ugen hdev ifc epAddr), []⟩) _).map OpenFile.name = _
  by_cases hat : h = hdev ∧ i = usbEpIndex epAddr
  · rw [if_pos hat, if_pos hat]
    cases b with
    | true =>
      rw [if_pos rfl, Function.update_self]
      rfl
    | false =>
      rw [if_neg Bool.false_ne_true, Function.update_of_ne hne.symm, Function.update_self]
      rfl
  · rw [if_neg hat, if_neg hat, Function.update_of_ne (hs.sound.not_in_slot hopens.stat hfree' _),
      Function.update_of_ne (hs.sound.not_in_slot hopens.data hfree _)]
    rfl

/-- A file that is open after a call was open before under the same name, or the call is a transfer that has opened it. -/
theorem Inv.exec_names (hs : s.Inv) (hpossible : call.Possible s hdev) (hk : (s.exec ugen hdev call).slot (h, i, b) ≠ -1) :
    (s.slot (h, i, b) ≠ -1 ∧ nameOf (s.exec ugen hdev call).files ((s.exec ugen hdev call).slot (h, i, b)) =
      nameOf s.files (s.slot (h, i, b))) ∨
    ∃ ifc epAddr calls request, call = .transfer ifc epAddr calls request ∧ h = hdev ∧ i = usbEpIndex epAddr ∧
      s.Admits hdev ifc epAddr ∧ nameOf (s.exec ugen hdev call).files ((s.exec ugen hdev call).slot (h, i, b)) =
        some (s.endpointName ugen hdev ifc epAddr b) := by
  refine (hs.exec_keeps (P := fun slot files => Descriptors.Sound slot files ∧ ∀ h i b, slot (h, i, b) ≠ -1 →
    (s.slot (h, i, b) ≠ -1 ∧ nameOf files (slot (h, i, b)) = nameOf s.files (s.slot (h, i, b))) ∨
    ∃ ifc epAddr calls request, call = .transfer ifc epAddr calls request ∧ h = hdev ∧ i = usbEpIndex epAddr ∧
      s.Admits hdev ifc epAddr ∧ nameOf files (slot (h, i, b)) = some (s.endpointName ugen hdev ifc epAddr b))
    ?_ (fun _ _ hk => hk.1.no_file) ?_ hpossible ⟨hs.sound, fun h i b hk => .inl ⟨hk, rfl⟩⟩ ?_).2 h i b hk
  · rintro slot files h' i' ⟨hsound, hnames⟩
    refine ⟨sound_close hsound, fun h i b hk => ?_⟩
    rw [storeSlots_apply, ite_self] at hk ⊢
    by_cases hat : h = h' ∧ i = i'
    · exact absurd (if_pos hat) hk
    · rw [if_neg hat] at hk ⊢
      unfold nameOf
      rw [closeFiles_of_slot hsound hat hk]
      exact hnames h i b hk
  · rintro slot files files' hfiles ⟨hsound, hnames⟩
    refine ⟨hsound.congr (none_of_name hfiles), fun h i b hk => ?_⟩
    rw [show nameOf files' (slot (h, i, b)) = nameOf files (slot (h, i, b)) from hfiles _]
    exact hnames h i b hk
  · rintro ifc epAddr calls request rfl hadmits - hopens -
    obtain ⟨h1, -, haddr, hcalls⟩ := hpossible
    have hi := usbEpIndex_ne_zero haddr
    refine ⟨(Kept.opened hs h1 hi hcalls hopens).sound, fun h i b hk => ?_⟩
    rw [openedEndpoint_name hs h1 hi hcalls hopens]
    by_cases hat : h = hdev ∧ i = usbEpIndex epAddr
    · exact .inr ⟨ifc, epAddr, calls, request, rfl, hat.1, hat.2, hadmits, if_pos hat⟩
    · rw [openedEndpoint_slot h1 hi, storeSlots_apply, if_neg hat] at hk
      exact .inl ⟨hk, if_neg hat⟩

/-- What a handle may use of an interface, and under which names, is the same in both states. -/
structure SameUse (ugen : Ugen) (h : ℕ) (ifc : UInt8) (s t : EndpointFiles) : Prop where
  claimedIfs : t.device.claimedIfs h ifc = s.device.claimedIfs h ifc
  epInterface : (t.endpoints h).epInterface = (s.endpoints h).epInterface
  config : ∀ altsetting epAddr, ugen.filename t.curConfigIndex t.curConfigValue ifc altsetting epAddr =
    ugen.filename s.curConfigIndex s.curConfigValue ifc altsetting epAddr

theorem SameUse.admits (hsame : SameUse ugen h ifc s t) (hadmits : t.Admits h ifc epAddr) : s.Admits h ifc epAddr := by
  obtain ⟨hclm, halt, hslot⟩ := hadmits
  rw [hsame.claimedIfs] at hclm halt
  rw [hsame.epInterface] at hslot
  exact ⟨hclm, halt, hslot⟩

theorem SameUse.name (hsame : SameUse ugen h ifc s t) :
    t.endpointName ugen h ifc epAddr b = s.endpointName ugen h ifc epAddr b := by
  unfold endpointName EndpointFiles.filename
  rw [hsame.claimedIfs, hsame.config]

theorem SameUse.trans {u : EndpointFiles} (h1 : SameUse ugen h ifc s t) (h2 : SameUse ugen h ifc t u) :
    SameUse ugen h ifc s u :=
  ⟨h2.claimedIfs.trans h1.claimedIfs, h2.epInterface.trans h1.epInterface,
    fun altsetting epAddr => (h2.config altsetting epAddr).trans (h1.config altsetting epAddr)⟩

theorem SameUse.refl : SameUse ugen h ifc s s := ⟨rfl, rfl, fun _ _ => rfl⟩

theorem ClosedEps.sameUse {l : List ℕ} (hclosed : ClosedEps hdev l s t) (hne : h ≠ hdev) : SameUse ugen h ifc s t :=
  ⟨by rw [hclosed.device], by rw [hclosed.other h hne], fun _ _ => by rw [hclosed.config.1, hclosed.config.2]⟩

/-- What is written of a handle is not its map. -/
theorem setEndpoints_use {e : Endpoints} (hmap : e.epInterface = (s.endpoints hdev).epInterface) :
    SameUse ugen h ifc s (s.setEndpoints hdev e) := by
  refine ⟨rfl, ?_, fun _ _ => rfl⟩
  by_cases hne : h = hdev
  · rw [hne, setEndpoints_self]
    exact hmap
  · rw [setEndpoints_of_ne hne]

theorem withFiles_use {files : ℤ → Option OpenFile} : SameUse ugen h ifc s { s with files := files } :=
  ⟨rfl, rfl, fun _ _ => rfl⟩

/-- A configuration with index 0 is not in the names. -/
theorem filename_of_le {index index' : ℤ} {value value' : UInt8} {altsetting : ℤ} (hle : index ≤ 0) (hle' : index' ≤ 0) :
    ugen.filename index value ifc altsetting epAddr = ugen.filename index' value' ifc altsetting epAddr := by
  unfold Ugen.filename
  rw [if_neg (not_lt.mpr hle), if_neg (not_lt.mpr hle')]

theorem setMap_epInterface {m : EndpointMap} : ((s.setMap hdev m).endpoints hdev).epInterface = m.epInterface := by
  unfold setMap
  rw [setEndpoints_self]

theorem setMap_use {m : EndpointMap} (hm : m.device.claimedIfs h ifc = s.device.claimedIfs h ifc)
    (hmap : h = hdev → m.epInterface = (s.endpoints hdev).epInterface) : SameUse ugen h ifc s (s.setMap hdev m) := by
  refine ⟨hm, ?_, fun _ _ => rfl⟩
  by_cases hne : h = hdev
  · subst hne
    exact setMap_epInterface.trans (hmap rfl)
  · unfold setMap
    rw [setEndpoints_of_ne hne]

theorem withDevice_use {d : Device} (hd : d.claimedIfs h ifc = s.device.claimedIfs h ifc) :
    SameUse ugen h ifc s { s with device := d } := ⟨hd, rfl, fun _ _ => rfl⟩

/-- A claim writes one entry of the handle. -/
theorem claim_other {m : EndpointMap} {ifcs : Interfaces} (flags : InitFlag) {refresh : Refresh} (hne : h ≠ hdev) :
    (m.openusbClaimInterface ifcs hdev ifc flags refresh).2.device.claimedIfs h = m.device.claimedIfs h := by
  have hmark : ∀ d : Device, (d.mark hdev ifc USBI_IFC_CLAIMED 0).claimedIfs h = d.claimedIfs h :=
    fun d => Function.update_of_ne hne ..
  unfold EndpointMap.openusbClaimInterface EndpointMap.solarisClaimInterface
  split_ifs
  all_goals first | rfl | exact hmark _ | exact (hmark _).trans (hmark _)

/-- An interface that the handle has with setting 0 is not claimed anew. -/
theorem claim_again {m : EndpointMap} {ifcs : Interfaces} (flags : InitFlag) {refresh : Refresh}
    (hclaimed : m.device.claimedIfs hdev ifc = ⟨USBI_IFC_CLAIMED, 0⟩) :
    (m.openusbClaimInterface ifcs hdev ifc flags refresh).2 = m := by
  have hmark : m.device.mark hdev ifc USBI_IFC_CLAIMED 0 = m.device := by
    unfold Device.mark
    rw [← hclaimed, Function.update_eq_self, Function.update_eq_self]
  have hclm : (m.device.claimedIfs hdev ifc).clm ≠ -1 := by
    rw [hclaimed]
    decide
  unfold EndpointMap.openusbClaimInterface EndpointMap.solarisClaimInterface
  split_ifs
  all_goals first | rfl | skip
  exact congrArg (fun d => EndpointMap.mk d m.epInterface) hmark

/-- A release writes one entry of the handle: it marks the interface as not claimed. -/
theorem release_entry {d : Device} (ifc' : UInt8) (hclm : ((solarisReleaseInterface d hdev ifc).2.claimedIfs h ifc').clm ≠ -1) :
    (solarisReleaseInterface d hdev ifc).2.claimedIfs h ifc' = d.claimedIfs h ifc' := by
  rcases solarisRelease_cases d hdev ifc with ⟨-, heq, -⟩ | ⟨-, heq⟩ <;> rw [heq] at hclm ⊢
  by_cases hat : h = hdev ∧ ifc' = ifc
  · rw [hat.1, hat.2, mark_self] at hclm
    exact absurd rfl hclm
  · rw [mark_of_ne (not_and_or.mp hat)]
    rfl

/-- The endpoints of a handle that are closed by an alternate setting, and the others. -/
theorem Inv.setAltsetting_use {ifc' alt : UInt8} {refresh : Refresh} (hs : s.Inv)
    (hk' : (s.openusbSetAltsetting ugen hdev ifc' alt refresh).2.slot (h, i, b) ≠ -1) :
    SameUse ugen h ifc s (s.openusbSetAltsetting ugen hdev ifc' alt refresh).2 := by
  unfold openusbSetAltsetting at hk' ⊢
  split_ifs at hk' ⊢ with hopened
  all_goals try exact .refl
  unfold solarisSetAltinterface at hk' ⊢
  split_ifs at hk' ⊢
  · exact .refl
  have h1 : s.device.opened hdev = true := by simpa using hopened
  obtain ⟨hclosed, -⟩ := usbCloseAllEps_spec (fun _ _ h i hk => hk.close h i) (fun _ _ hk => hk.sound.no_file) h1 hs
  have hne : h ≠ hdev := by
    rintro rfl
    dsimp only at hk'
    rw [setMap_slot rfl] at hk'
    exact hk' ((congrFun (withDevice_slot (s := s.usbCloseAllEps h) rfl) _).trans (hs.closed_slot h1 hclosed))
  have hmarked : ((s.usbCloseAllEps hdev).device.mark hdev ifc'
      ((s.usbCloseAllEps hdev).device.claimedIfs hdev ifc').clm alt.toNat).claimedIfs h ifc =
      (s.usbCloseAllEps hdev).device.claimedIfs h ifc := mark_of_ne (.inl hne)
  exact ((hclosed.sameUse hne).trans (withDevice_use hmarked)).trans (setMap_use rfl fun heq => absurd heq hne)

/-- What a release leaves of the handle. -/
theorem map_release {m : EndpointMap} :
    (m.openusbReleaseInterface hdev ifc).2.epInterface = m.epInterface ∧
      ((m.openusbReleaseInterface hdev ifc).2.device = m.device ∨
        (m.openusbReleaseInterface hdev ifc).2.device = (solarisReleaseInterface m.device hdev ifc).2) := by
  unfold EndpointMap.openusbReleaseInterface EndpointMap.solarisReleaseInterface
  split_ifs
  · exact ⟨rfl, .inl rfl⟩
  · exact ⟨rfl, .inl rfl⟩
  · exact ⟨rfl, .inl rfl⟩
  · exact ⟨rfl, .inr rfl⟩

/-- A transfer changes neither the setting nor the map. -/
theorem submit_use {ifc' : UInt8} (hcalls : calls.Promised s.files) :
    SameUse ugen h ifc' s (s.submit ugen hdev ifc epAddr calls request) := by
  refine submit_keeps (P := SameUse ugen h ifc' s) hcalls (fun _ => .refl) ?_ ?_ ?_ ?_
  · exact fun _ _ _ _ => (withFiles_use.trans withFiles_use).trans (setEndpoints_use rfl)
  · exact fun u fd op hu => hu.trans withFiles_use
  · exact fun u hu => hu.trans (setEndpoints_use rfl)
  · exact fun u hu => (hu.trans (withFiles_use.trans withFiles_use)).trans (setEndpoints_use rfl)

/-- An endpoint that stays open stays in use as it was. -/
theorem Inv.exec_use (hs : s.Inv) (hpossible : call.Possible s hdev) (hsettled : s.Settled hdev call)
    (hk : s.slot (h, i, b) ≠ -1) (hk' : (s.exec ugen hdev call).slot (h, i, b) ≠ -1)
    (hadmits : (s.exec ugen hdev call).Admits h ifc epAddr) : SameUse ugen h ifc s (s.exec ugen hdev call) := by
  have hopened : s.device.opened h = true := by
    by_contra hnot
    exact hk (slot_not_opened (Bool.eq_false_iff.mpr hnot))
  cases call with
  | openDevice after ep0 =>
    have hne : h ≠ hdev := by
      rintro rfl
      exact absurd (hopened.symm.trans hpossible) nofun
    rcases hsettled with hle | hempty
    · refine ⟨congrFun (Function.update_of_ne hne ..) ifc, ?_, fun _ _ => filename_of_le le_rfl hle⟩
      exact congrArg Endpoints.epInterface (Function.update_of_ne hne ..)
    · exact absurd (hempty _) hk
  | claim ifc' flags refresh =>
    by_cases hne : h = hdev
    · subst hne
      rcases hsettled with hclaimed | hempty
      · have hmap : ((s.map h).openusbClaimInterface (ugen.configs s.curConfigIndex) h ifc' flags refresh).2 = s.map h :=
          claim_again flags hclaimed
        exact setMap_use (congrArg (fun m => m.device.claimedIfs h ifc) hmap) fun _ => congrArg EndpointMap.epInterface hmap
      · exact absurd (hempty _ _) hk
    · exact setMap_use (congrFun (claim_other flags hne) ifc) fun heq => absurd heq hne
  | release ifc' =>
    obtain ⟨hmap, hdevice⟩ := @map_release hdev ifc' (s.map hdev)
    show SameUse ugen h ifc s (s.setMap hdev ((s.map hdev).openusbReleaseInterface hdev ifc').2)
    refine setMap_use ?_ fun _ => hmap
    have hclm : (((s.map hdev).openusbReleaseInterface hdev ifc').2.device.claimedIfs h ifc).clm ≠ -1 := hadmits.claimed
    rcases hdevice with heq | heq <;> rw [heq] at hclm ⊢
    · rfl
    · exact release_entry ifc hclm
  | setAltsetting ifc' alt refresh => exact hs.setAltsetting_use hk'
  | setConfiguration cfg numConfigurations index =>
    rcases hsettled with ⟨hle, hle'⟩ | hempty
    · show SameUse ugen h ifc s (s.openusbSetConfiguration hdev cfg numConfigurations index).2
      unfold openusbSetConfiguration
      split_ifs
      · exact .refl
      · exact .refl
      · exact ⟨rfl, rfl, fun _ _ => filename_of_le hle' hle⟩
    · exact absurd (hempty _) hk
  | transfer ifc' epAddr' calls request => exact submit_use hpossible.2.2.2
  | close =>
    show SameUse ugen h ifc s (s.openusbCloseDevice hdev).2
    replace hk' : (s.openusbCloseDevice hdev).2.slot (h, i, b) ≠ -1 := hk'
    by_cases h1 : s.device.opened hdev = true
    · obtain ⟨d, -, hother, hclosed⟩ := hs.solarisClose_closed h1
      rw [openusbCloseDevice_eq h1] at hk' ⊢
      generalize (s.solarisClose hdev).2 = u at hclosed hk' ⊢
      have hne : h ≠ hdev := by
        rintro rfl
        exact hk' (slot_not_opened (Function.update_self ..))
      exact ((withDevice_use (congrFun (hother h hne) ifc)).trans (hclosed.sameUse hne)).trans (withDevice_use rfl)
    · unfold openusbCloseDevice
      rw [if_pos (by simpa using h1)]
      exact .refl

/-- What is open under its current name stays so. -/
theorem Inv.exec_current (hs : s.Inv) (hcurrent : s.Current ugen) (hpossible : call.Possible s hdev)
    (hsettled : s.Settled hdev call) : (s.exec ugen hdev call).Current ugen := by
  intro h _ ifc epAddr haddr hadmits b hk'
  rcases hs.exec_names hpossible hk' with ⟨hk, hname⟩ | ⟨ifc', epAddr', calls, request, rfl, rfl, hi, hadmits', hname⟩
  · have huse := hs.exec_use hpossible hsettled hk hk' hadmits
    have hopened : s.device.opened h = true := by
      by_contra hnot
      exact hk (slot_not_opened (Bool.eq_false_iff.mpr hnot))
    rw [hname, hcurrent h hopened ifc epAddr haddr (huse.admits hadmits) b hk, huse.name]
  · obtain rfl : epAddr = epAddr' := usbEpIndex_inj haddr.2 hpossible.2.2.1.2 hi
    have huse : SameUse ugen h ifc s (s.exec ugen h (.transfer ifc' epAddr calls request)) := submit_use hpossible.2.2.2
    -- the endpoint is that of one interface
    have hifc : ifc.toNat = ifc'.toNat := by
      exact_mod_cast (huse.admits hadmits).slot.symm.trans hadmits'.slot
    obtain rfl := UInt8.toNat_inj.mp hifc
    rw [hname, huse.name]

theorem BothOpen.slot_ne (hboth : s.BothOpen hdev epAddr) (h1 : s.device.opened hdev = true) (hi : usbEpIndex epAddr ≠ 0) :
    s.slot (hdev, usbEpIndex epAddr, b) ≠ -1 := by
  obtain ⟨hdata, hstat⟩ := hboth
  cases b with
  | true =>
    rw [slot_stat h1 hi]
    omega
  | false =>
    rw [slot_data h1 hi]
    omega

/-- An endpoint that a transfer may use has the files of the current setting. -/
theorem Inv.check_current (hs : s.Inv) (hcurrent : s.Current ugen) (h1 : s.device.opened hdev = true)
    (haddr : EndpointAddress epAddr) (hcalls : calls.Promised s.files) (hshort : ¬ ShortWrite epAddr epType calls)
    (hret : (s.usbCheckDeviceAndStatusOpen ugen hdev ifc epAddr epType calls).1 = 0) {u : EndpointFiles}
    (hu : u = (s.usbCheckDeviceAndStatusOpen ugen hdev ifc epAddr epType calls).2) :
    nameOf u.files (u.slot (hdev, usbEpIndex epAddr, b)) = some (s.endpointName ugen hdev ifc epAddr b) := by
  have hi := usbEpIndex_ne_zero haddr
  rcases check_cases hcalls with ⟨⟨-, -, hopens⟩, heq⟩ | ⟨-, heq, hret'⟩
  · rw [heq] at hu
    rw [hu, openedEndpoint_name hs h1 hi hcalls hopens, if_pos ⟨rfl, rfl⟩]
  · rw [heq] at hu
    subst hu
    obtain ⟨hadmits, hopen⟩ := hret' hret
    exact hcurrent hdev h1 ifc epAddr haddr hadmits b ((hopen.resolve_right hshort).slot_ne h1 hi)

theorem current_new {freed : ℕ → UInt8 → InterfaceSet} {freedEndpoints : ℕ → Endpoints} :
    (new freed freedEndpoints).Current ugen := fun _ h1 => absurd h1 Bool.false_ne_true

end

end EndpointFiles

section

variable {ugen : Ugen} {freed : ℕ → UInt8 → InterfaceSet} {freedEndpoints : ℕ → Endpoints} {ls : List (ℕ × FileCall)}
  {s t : EndpointFiles}

/-- In a history in which settings change only while nothing is open under the old ones, every transfer that
`usb_check_device_and_status_open` lets through has the files of the configuration and the alternate setting that its handle
has then; unless the write to the status file of an interrupt IN endpoint is short and leaves `errno` at 0. -/
theorem transfers_reach_setting
    (hrun : Run (FileCalls ugen) (fun s l => s.Settled l.1 l.2) (.new freed freedEndpoints) ls t) {hdev : ℕ}
    {ifc epAddr : UInt8} {epType : EpType} {calls : EndpointOpen} (h1 : t.device.opened hdev = true)
    (haddr : EndpointAddress epAddr) (hcalls : calls.Promised t.files) (hshort : ¬ EndpointFiles.ShortWrite epAddr epType calls)
    (hret : (t.usbCheckDeviceAndStatusOpen ugen hdev ifc epAddr epType calls).1 = 0) (b : Bool) :
    EndpointFiles.nameOf (t.usbCheckDeviceAndStatusOpen ugen hdev ifc epAddr epType calls).2.files
      ((t.usbCheckDeviceAndStatusOpen ugen hdev ifc epAddr epType calls).2.slot (hdev, usbEpIndex epAddr, b)) =
        some (t.endpointName ugen hdev ifc epAddr b) := by
  have hinv : t.Inv ∧ t.Current ugen := by
    refine hrun.inv (I := fun t => t.Inv ∧ t.Current ugen) ?_ ⟨EndpointFiles.inv_new, EndpointFiles.current_new⟩
    rintro s l t ⟨hs, hcurrent⟩ hsettled hstep
    cases hstep with
    | call hpossible => exact ⟨hs.exec hpossible, hs.exec_current hcurrent hpossible hsettled⟩
  exact hinv.1.check_current hinv.2 h1 haddr hcalls hshort hret rfl

theorem modem_settled : Run (FileCalls modemUgen) (fun s l => s.Settled l.1 l.2) modemFiles
    [(7, .openDevice (fun _ => ⟨0, 0⟩) ⟨3, 4⟩), (7, .claim 0 .default ⟨0, 0, 2, fun _ => 2⟩)] modemClaimed := by
  refine .cons (.inl le_rfl) (.call rfl) (.cons (.inr fun i b => ?_) (.call trivial) (.nil _))
  exact (congrFun (EndpointFiles.openDevice_slot (s := modemFiles) rfl) _).trans (EndpointFiles.slot_not_opened rfl)

/-- The first transfer, an interrupt IN one, opens the data file of setting 0. -/
theorem transfers_reach_setting_modem : EndpointFiles.nameOf
    (modemClaimed.usbCheckDeviceAndStatusOpen modemUgen 7 0 0x83 .interrupt ⟨5, 1, 0, 5, 0, 6, 0⟩).2.files 5 =
      some (modemClaimed.endpointName modemUgen 7 0 0x83 false) := by
  obtain ⟨-, -, haddr, -, hdata, hstat, hdataErrno, hstatErrno⟩ := modem_possible
  have hcalls : EndpointOpen.Promised ⟨5, 1, 0, 5, 0, 6, 0⟩ modemClaimed.files :=
    ⟨.inr ⟨by decide, rfl⟩, hdata, hstat, hdataErrno, hstatErrno⟩
  exact transfers_reach_setting modem_settled rfl haddr hcalls (fun hshort => hshort.written rfl) rfl false

end

end Solaris

end OpenUsb
