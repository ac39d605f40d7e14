import OpenUsb.EndpointFiles
import OpenUsb.Lib.Runs

/-!
# FilesHeld — no endpoint file is lost on Solaris

The slots of all open handles are held against the files that are open.  `usb_check_device_and_status_open` takes an endpoint
for closed when one of its descriptors is 0, and opens it again.

* `files_held_iff`: after which calls every open file is in one slot, and every slot has an open file.
* `no_file_left`: when the last handle is closed.
-/

namespace OpenUsb

namespace Solaris

namespace EndpointFiles

section

variable {ugen : Ugen} {s t : EndpointFiles} {hdev h i j : ℕ} {fd : ℤ} {b : Bool} {ifc epAddr : UInt8} {epType : EpType}
  {calls : EndpointOpen} {request : EndpointRequest}

/-! ## The calls -/

theorem usbEpIndex_ne_zero (h : EndpointAddress epAddr) : usbEpIndex epAddr ≠ 0 := by
  intro hzero
  exact h.1 (usbEpIndex_inj h.2 (show (0 : UInt8) &&& 0x70 = 0 by decide) (hzero.trans (show 0 = usbEpIndex 0 by decide)))

theorem releaseBelow_opened {d : Device} (n : ℕ) : (releaseBelow d hdev n).opened = d.opened := by
  induction n with
  | zero => rfl
  | succ n ih => rw [releaseBelow_succ, solarisRelease_opened, ih]

theorem releaseBelow_other {d : Device} (hne : h ≠ hdev) (n : ℕ) : (releaseBelow d hdev n).claimedIfs h = d.claimedIfs h := by
  induction n with
  | zero => rfl
  | succ n ih =>
    rw [releaseBelow_succ, ← ih]
    rcases solarisRelease_cases (releaseBelow d hdev n) hdev (UInt8.ofNat n) with ⟨-, heq, -⟩ | ⟨-, heq⟩ <;> rw [heq]
    exact Function.update_of_ne hne ..

theorem solarisClose_opened {d : Device} : (Solaris.solarisClose d hdev).2.opened = d.opened := by
  unfold Solaris.solarisClose
  exact releaseBelow_opened _

/-- A call for a data file leaves all names. -/
theorem doIo_name {op : FileOp} {gd : ℤ} :
    ((s.doIo fd op).files gd).map OpenFile.name = (s.files gd).map OpenFile.name := by
  show (Function.update s.files fd _ gd).map OpenFile.name = _
  by_cases hgd : gd = fd
  · rw [hgd, Function.update_self, Option.map_map]
    rfl
  · rw [Function.update_of_ne hgd]

theorem none_of_name {files files' : ℤ → Option OpenFile}
    (h : ∀ fd, (files' fd).map OpenFile.name = (files fd).map OpenFile.name) (fd : ℤ) :
    files' fd = none ↔ files fd = none := by
  rw [← Option.map_eq_none_iff (f := OpenFile.name), h, Option.map_eq_none_iff]

theorem openedEndpoint_slot (h1 : s.device.opened hdev = true) (hi : usbEpIndex epAddr ≠ 0) :
    (s.openedEndpoint ugen hdev ifc epAddr calls).slot =
      storeSlots s.slot hdev (usbEpIndex epAddr) calls.data calls.stat := setEp_slot h1 hi

theorem setMap_ep {m : EndpointMap} : (s.setMap hdev m).ep h j = s.ep h j := by
  unfold setMap EndpointFiles.ep
  by_cases hh : h = hdev
  · rw [hh, setEndpoints_self]
  · rw [setEndpoints_of_ne hh]

theorem setMap_slot {m : EndpointMap} (hm : m.device.opened = s.device.opened) : (s.setMap hdev m).slot = s.slot := by
  funext k
  unfold slot
  rw [setMap_ep, show (s.setMap hdev m).device.opened = s.device.opened from hm]

theorem claim_opened {m : EndpointMap} {ifcs : Interfaces} (flags : InitFlag) {refresh : Refresh} :
    (m.openusbClaimInterface ifcs hdev ifc flags refresh).2.device.opened = m.device.opened := by
  unfold EndpointMap.openusbClaimInterface EndpointMap.solarisClaimInterface
  split_ifs <;> rfl

theorem release_opened {m : EndpointMap} : (m.openusbReleaseInterface hdev ifc).2.device.opened = m.device.opened := by
  unfold EndpointMap.openusbReleaseInterface EndpointMap.solarisReleaseInterface
  split_ifs
  · rfl
  · rfl
  · rfl
  · exact solarisRelease_opened

/-- A new handle has no files, and neither had its address before. -/
theorem openDevice_slot {after : UInt8 → InterfaceSet} {ep0 : Ep} (hnew : s.device.opened hdev = false) :
    (s.openusbOpenDevice hdev after ep0).2.slot = s.slot := by
  funext ⟨h, j, b⟩
  by_cases hh : h = hdev
  · subst hh
    rw [slot_not_opened hnew]
    unfold slot
    split_ifs with hc hb
    · show (((Function.update s.endpoints h _) h).eps j).statfd = -1
      rw [Function.update_self]
      exact congrArg Ep.statfd (if_neg hc.2)
    · show (((Function.update s.endpoints h _) h).eps j).datafd = -1
      rw [Function.update_self]
      exact congrArg Ep.datafd (if_neg hc.2)
    · rfl
  · have hopened : (s.openusbOpenDevice hdev after ep0).2.device.opened h = s.device.opened h := Function.update_of_ne hh ..
    have hep : (s.openusbOpenDevice hdev after ep0).2.ep h j = s.ep h j := by
      show ((Function.update s.endpoints hdev _) h).eps j = _
      rw [Function.update_of_ne hh]
      rfl
    exact slot_congr hopened hep

/-- `usb_close_all_eps`. -/
theorem usbCloseAllEps_spec {P : (ℕ × ℕ × Bool → ℤ) → (ℤ → Option OpenFile) → Prop}
    (hclose : ∀ slot files h i, P slot files → P (storeSlots slot h i (-1) (-1)) (closeFiles slot files h i))
    (hP : ∀ slot files, P slot files → files (-1) = none) (h1 : s.device.opened hdev = true) (h : P s.slot s.files) :
    ClosedEps hdev (List.range' 1 (USBI_MAXENDPOINTS - 1)) s (s.usbCloseAllEps hdev) ∧
      P (s.usbCloseAllEps hdev).slot (s.usbCloseAllEps hdev).files :=
  foldl_usbCloseEp hclose hP (by decide) h1 h

/-- Then the handle has no files of endpoints. -/
theorem Inv.closed_slot (hs : s.Inv) (h1 : s.device.opened hdev = true)
    (hclosed : ClosedEps hdev (List.range' 1 (USBI_MAXENDPOINTS - 1)) s t) : t.slot (hdev, i, b) = -1 := by
  have h1' : t.device.opened hdev = true := hclosed.device ▸ h1
  by_cases hi : i = 0
  · exact if_neg fun hc => hc.2 hi
  by_cases hlow : i < USBI_MAXENDPOINTS
  · have hmem : i ∈ List.range' 1 (USBI_MAXENDPOINTS - 1) := by
      rw [List.mem_range'_1]
      unfold USBI_MAXENDPOINTS at hlow ⊢
      omega
    have hep : t.ep hdev i = ⟨-1, -1⟩ := by rw [hclosed.eps, if_pos hmem]
    cases b with
    | true => rw [slot_stat h1' hi, hep]
    | false => rw [slot_data h1' hi, hep]
  · have hep : t.ep hdev i = s.ep hdev i := by
      rw [hclosed.eps, if_neg]
      rw [List.mem_range'_1]
      unfold USBI_MAXENDPOINTS at hlow ⊢
      omega
    rw [slot_congr (h1'.trans h1.symm) hep]
    exact hs.high hdev i b (not_lt.mp hlow)

theorem withDevice_slot {d : Device} (hd : d.opened = s.device.opened) :
    ({ s with device := d } : EndpointFiles).slot = s.slot := by
  funext k
  unfold slot
  rw [hd]
  rfl

theorem Inv.withDevice (hs : s.Inv) {d : Device} (hd : d.opened = s.device.opened) :
    ({ s with device := d } : EndpointFiles).Inv := by
  unfold Inv
  rw [withDevice_slot hd]
  exact hs

/-- A handle is closed: its endpoints, and then it is off the list. -/
theorem Inv.close_keeps {P : (ℕ × ℕ × Bool → ℤ) → (ℤ → Option OpenFile) → Prop} (hs : s.Inv)
    (hclose : ∀ slot files h i, P slot files → P (storeSlots slot h i (-1) (-1)) (closeFiles slot files h i))
    (hno : ∀ slot files, P slot files → files (-1) = none) (h1 : s.device.opened hdev = true) {d : Device}
    (hd : d.opened = s.device.opened) (h : P s.slot s.files) {u : EndpointFiles}
    (hu : u = ({ s with device := d } : EndpointFiles).usbCloseAllEps hdev) :
    P ({ u with device := { u.device with opened := Function.update u.device.opened hdev false } } : EndpointFiles).slot
      u.files := by
  have h1' : d.opened hdev = true := by rw [hd, h1]
  have hP' : P ({ s with device := d } : EndpointFiles).slot s.files := by rwa [withDevice_slot hd]
  obtain ⟨hclosed, hP⟩ := usbCloseAllEps_spec hclose hno h1' hP'
  rw [← hu] at hclosed hP
  have hslot : ({ u with device := { u.device with opened := Function.update u.device.opened hdev false } } :
      EndpointFiles).slot = u.slot := by
    funext ⟨h, i, b⟩
    by_cases hh : h = hdev
    · rw [hh, (hs.withDevice hd).closed_slot h1' hclosed]
      exact slot_not_opened (Function.update_self ..)
    · exact slot_congr (Function.update_of_ne hh ..) rfl
  rw [hslot]
  exact hP

/-- Beside the transfers that open an endpoint, the calls only close descriptors. -/
theorem Inv.exec_keeps {P : (ℕ × ℕ × Bool → ℤ) → (ℤ → Option OpenFile) → Prop} (hs : s.Inv) {call : FileCall}
    (hclose : ∀ slot files h i, P slot files → P (storeSlots slot h i (-1) (-1)) (closeFiles slot files h i))
    (hno : ∀ slot files, P slot files → files (-1) = none)
    (hcongr : ∀ slot files files', (∀ fd, (files' fd).map OpenFile.name = (files fd).map OpenFile.name) →
      P slot files → P slot files')
    (hpossible : call.Possible s hdev) (h : P s.slot s.files)
    (hopen : ∀ ifc epAddr calls request, call = .transfer ifc epAddr calls request → s.Admits hdev ifc epAddr →
      ¬ s.BothOpen hdev epAddr → Opens epAddr request.epType calls → request.Accepted →
      P (s.openedEndpoint ugen hdev ifc epAddr calls).slot (s.openedEndpoint ugen hdev ifc epAddr calls).files) :
    P (s.exec ugen hdev call).slot (s.exec ugen hdev call).files := by
  cases call with
  | openDevice after ep0 =>
    show P (s.openusbOpenDevice hdev after ep0).2.slot s.files
    rw [openDevice_slot hpossible]
    exact h
  | claim ifc flags refresh =>
    show P (s.setMap hdev _).slot s.files
    rw [setMap_slot (claim_opened flags)]
    exact h
  | release ifc =>
    show P (s.setMap hdev _).slot s.files
    rw [setMap_slot release_opened]
    exact h
  | setAltsetting ifc alt refresh =>
    show P (s.openusbSetAltsetting ugen hdev ifc alt refresh).2.slot (s.openusbSetAltsetting ugen hdev ifc alt refresh).2.files
    unfold openusbSetAltsetting
    split_ifs with hopened
    all_goals try exact h
    unfold solarisSetAltinterface
    split_ifs
    · exact h
    · obtain ⟨-, hP⟩ := usbCloseAllEps_spec hclose hno (by simpa using hopened) h
      dsimp only
      rw [setMap_slot rfl]
      exact hP
  | setConfiguration cfg numConfigurations index =>
    show P (s.openusbSetConfiguration hdev cfg numConfigurations index).2.slot
      (s.openusbSetConfiguration hdev cfg numConfigurations index).2.files
    unfold openusbSetConfiguration
    split_ifs <;> exact h
  | transfer ifc epAddr calls request =>
    obtain ⟨h1, -, haddr, hcalls⟩ := hpossible
    have hi := usbEpIndex_ne_zero haddr
    refine @submit_keeps ugen s hdev ifc epAddr calls request
      (fun u => u.device.opened hdev = true ∧ P u.slot u.files) hcalls (fun _ => ⟨h1, h⟩) ?_ ?_ ?_ ?_ |>.2
    · exact fun hadmits hboth hopens haccepted => ⟨h1, hopen ifc epAddr calls request rfl hadmits hboth hopens haccepted⟩
    · exact fun u fd op hu => ⟨hu.1, hcongr _ _ _ (fun _ => doIo_name) hu.2⟩
    · intro u hu
      rw [setInited_slot]
      exact hu
    · intro u hu
      rw [closeEndpoint_slot hu.1 hi, closeEndpoint_files hu.1 hi]
      exact ⟨hu.1, hclose _ _ _ _ hu.2⟩
  | close =>
    show P (s.openusbCloseDevice hdev).2.slot (s.openusbCloseDevice hdev).2.files
    unfold openusbCloseDevice
    split_ifs with hopened
    · exact h
    have h1 : s.device.opened hdev = true := by simpa using hopened
    have hrel : (Solaris.solarisClose s.device hdev).2.opened = s.device.opened := solarisClose_opened
    exact hs.close_keeps hclose hno h1 hrel h rfl

/-! ## Every file in one slot -/

/-- The close of an endpoint is that of its two slots. -/
theorem closeFiles_eq {slot : ℕ × ℕ × Bool → ℤ} {files : ℤ → Option OpenFile} : closeFiles slot files h i =
    Function.update (Function.update files (slot (h, i, false)) none)
      (Function.update slot (h, i, false) (-1) (h, i, true)) none := by
  rw [Function.update_of_ne (by simp)]
  rfl

theorem sound_close {slot : ℕ × ℕ × Bool → ℤ} {files : ℤ → Option OpenFile} (hs : Descriptors.Sound slot files) :
    Descriptors.Sound (storeSlots slot h i (-1) (-1)) (closeFiles slot files h i) := by
  rw [closeFiles_eq]
  exact hs.clear.clear

theorem held_close {slot : ℕ × ℕ × Bool → ℤ} {files : ℤ → Option OpenFile} (hs : Descriptors.Held slot files) :
    Descriptors.Held (storeSlots slot h i (-1) (-1)) (closeFiles slot files h i) := by
  rw [closeFiles_eq]
  exact hs.clear.clear

theorem lost_close {slot : ℕ × ℕ × Bool → ℤ} {files : ℤ → Option OpenFile} (hs : Descriptors.Lost slot files fd)
    (hfd : fd ≠ -1) : Descriptors.Lost (storeSlots slot h i (-1) (-1)) (closeFiles slot files h i) fd := by
  rw [closeFiles_eq]
  exact (hs.clear hfd).clear hfd

theorem Kept.close {slot : ℕ × ℕ × Bool → ℤ} {files : ℤ → Option OpenFile} (hs : Kept slot files) (h i : ℕ) :
    Kept (storeSlots slot h i (-1) (-1)) (closeFiles slot files h i) := by
  refine ⟨sound_close hs.sound, fun h' i' => ?_, fun ⟨h', i', b⟩ => ?_, fun h' i' b hi' => ?_⟩
  · rw [storeSlots_apply, storeSlots_apply, ite_self, ite_self]
    split_ifs
    · exact Iff.rfl
    · exact hs.paired h' i'
  · rw [storeSlots_apply, ite_self]
    split_ifs
    · exact le_rfl
    · exact hs.nonneg _
  · rw [storeSlots_apply, ite_self, hs.high h' i' b hi', ite_self]

/-- The close of a handle without its control endpoint: the interfaces are given back and the endpoints are closed. -/
theorem Inv.solarisClose_closed (hs : s.Inv) (h1 : s.device.opened hdev = true) :
    ∃ d : Device, d.opened = s.device.opened ∧ (∀ h, h ≠ hdev → d.claimedIfs h = s.device.claimedIfs h) ∧
      ClosedEps hdev (List.range' 1 (USBI_MAXENDPOINTS - 1)) { s with device := d } (s.solarisClose hdev).2 := by
  have hrel : (Solaris.solarisClose s.device hdev).2.opened = s.device.opened := solarisClose_opened
  have hother : ∀ h, h ≠ hdev → (Solaris.solarisClose s.device hdev).2.claimedIfs h = s.device.claimedIfs h := by
    intro h hne
    simp only [Solaris.solarisClose]
    generalize hn : USBI_MAXINTERFACES = n
    exact releaseBelow_other hne n
  have hclose : (s.solarisClose hdev).2 =
      ({ s with device := (Solaris.solarisClose s.device hdev).2 } : EndpointFiles).usbCloseAllEps hdev := rfl
  rw [hclose]
  generalize (Solaris.solarisClose s.device hdev).2 = d at hrel hother ⊢
  have h1' : d.opened hdev = true := by rw [hrel, h1]
  obtain ⟨hclosed, -⟩ := usbCloseAllEps_spec (P := Kept) (fun _ _ h i hk => hk.close h i)
    (fun _ _ hk => hk.sound.no_file) h1' (hs.withDevice hrel)
  exact ⟨d, hrel, hother, hclosed⟩

theorem openusbCloseDevice_eq (h1 : s.device.opened hdev = true) : (s.openusbCloseDevice hdev).2 =
    { (s.solarisClose hdev).2 with
      device := { (s.solarisClose hdev).2.device with
        opened := Function.update (s.solarisClose hdev).2.device.opened hdev false } } := by
  unfold openusbCloseDevice
  rw [if_neg (by simp [h1])]

theorem usbEpIndex_lt : usbEpIndex epAddr < USBI_MAXENDPOINTS := by
  have hlow : (epAddr &&& 0x0f).toNat ≤ 15 := by
    rw [UInt8.toNat_and]
    exact Nat.and_le_right
  unfold usbEpIndex USBI_MAXENDPOINTS
  split_ifs <;> omega

/-- Both files of an endpoint are opened into its slots. -/
theorem Kept.opened (hs : s.Inv) (h1 : s.device.opened hdev = true) (hi : usbEpIndex epAddr ≠ 0)
    (hcalls : calls.Promised s.files) (hopens : Opens epAddr epType calls) :
    (s.openedEndpoint ugen hdev ifc epAddr calls).Inv := by
  obtain ⟨hdata, hfree⟩ := hcalls.data.resolve_left hopens.data
  obtain ⟨hstat, hfree', hne⟩ := hcalls.stat.resolve_left hopens.stat
  unfold Inv
  rw [openedEndpoint_slot h1 hi]
  refine ⟨?_, fun h' i' => ?_, fun ⟨h', i', b⟩ => ?_, fun h' i' b hi' => ?_⟩
  · exact (hs.sound.store hopens.data hfree).store hopens.stat ((Function.update_of_ne hne ..).trans hfree')
  · rw [storeSlots_apply, storeSlots_apply, if_neg Bool.false_ne_true, if_pos rfl]
    by_cases hat : h' = hdev ∧ i' = usbEpIndex epAddr
    · rw [if_pos hat, if_pos hat]
      exact iff_of_false hopens.data hopens.stat
    · rw [if_neg hat, if_neg hat]
      exact hs.paired h' i'
  · rw [storeSlots_apply]
    split_ifs
    · omega
    · omega
    · exact hs.nonneg _
  · rw [storeSlots_apply, if_neg, hs.high h' i' b hi']
    rintro ⟨-, rfl⟩
    exact absurd usbEpIndex_lt (not_lt.mpr hi')

/-- The calls keep what a handle always keeps. -/
theorem Inv.exec (hs : s.Inv) {call : FileCall} (hpossible : call.Possible s hdev) : (s.exec ugen hdev call).Inv := by
  refine hs.exec_keeps (fun _ _ h i hk => hk.close h i) (fun _ _ hk => hk.sound.no_file) ?_ hpossible hs ?_
  · exact fun slot files files' hfiles hk => ⟨hk.sound.congr (none_of_name hfiles), hk.paired, hk.nonneg, hk.high⟩
  · rintro ifc epAddr calls request rfl - - hopens -
    obtain ⟨h1, -, haddr, hcalls⟩ := hpossible
    exact Kept.opened hs h1 (usbEpIndex_ne_zero haddr) hcalls hopens

/-! ## The files that are lost -/

/-- A transfer opens the files of an endpoint whose slots have descriptors already: one of them is 0, which the test of the
code takes for a closed one. -/
def Reopens (s : EndpointFiles) (hdev : ℕ) : FileCall → Prop
  | .transfer ifc epAddr calls request => request.Accepted ∧ s.Admits hdev ifc epAddr ∧
      ((s.ep hdev (usbEpIndex epAddr)).datafd = 0 ∨ (s.ep hdev (usbEpIndex epAddr)).statfd = 0) ∧
      Opens epAddr request.epType calls
  | _ => False

/-- A file is lost for good. -/
theorem lost_submit (h1 : s.device.opened hdev = true) (hi : usbEpIndex epAddr ≠ 0) (hcalls : calls.Promised s.files)
    (hfd : fd ≠ -1) (haccepted : request.Accepted) (hadmits : s.Admits hdev ifc epAddr)
    (hboth : ¬ s.BothOpen hdev epAddr) (hopens : Opens epAddr request.epType calls)
    (hlost : Descriptors.Lost (s.openedEndpoint ugen hdev ifc epAddr calls).slot
      (s.openedEndpoint ugen hdev ifc epAddr calls).files fd) :
    Descriptors.Lost (s.submit ugen hdev ifc epAddr calls request).slot
      (s.submit ugen hdev ifc epAddr calls request).files fd := by
  refine (@submit_keeps ugen s hdev ifc epAddr calls request
    (fun u => u.device.opened hdev = true ∧ Descriptors.Lost u.slot u.files fd) hcalls ?_ ?_ ?_ ?_ ?_).2
  · exact fun hnot => absurd ⟨haccepted, hadmits, hboth, hopens⟩ hnot
  · exact fun _ _ _ _ => ⟨h1, hlost⟩
  · exact fun u _ op hu => ⟨hu.1, hu.2.congr (none_of_name fun _ => doIo_name)⟩
  · intro u hu
    rw [setInited_slot]
    exact hu
  · intro u hu
    rw [closeEndpoint_slot hu.1 hi, closeEndpoint_files hu.1 hi]
    exact ⟨hu.1, lost_close hu.2 hfd⟩

/-- The test of the code, and the slots. -/
theorem Inv.bothOpen_or (hs : s.Inv) (h1 : s.device.opened hdev = true) (hi : usbEpIndex epAddr ≠ 0) :
    s.BothOpen hdev epAddr ∨ (s.ep hdev (usbEpIndex epAddr)).datafd = 0 ∨ (s.ep hdev (usbEpIndex epAddr)).statfd = 0 ∨
      (s.slot (hdev, usbEpIndex epAddr, false) = -1 ∧ s.slot (hdev, usbEpIndex epAddr, true) = -1) := by
  have hpair := hs.paired hdev (usbEpIndex epAddr)
  have hdata := hs.nonneg (hdev, usbEpIndex epAddr, false)
  have hstat := hs.nonneg (hdev, usbEpIndex epAddr, true)
  rw [slot_data h1 hi, slot_stat h1 hi] at *
  unfold BothOpen
  omega

/-- Every open file stays in one slot, unless the files of an endpoint are opened again. -/
theorem Inv.held_iff (hs : s.Inv) (hheld : Descriptors.Held s.slot s.files) {call : FileCall}
    (hpossible : call.Possible s hdev) :
    Descriptors.Held (s.exec ugen hdev call).slot (s.exec ugen hdev call).files ↔ ¬ s.Reopens hdev call := by
  constructor
  · intro hafter hreopens
    cases call with
    | transfer ifc epAddr calls request =>
      obtain ⟨haccepted, hadmits, hzero, hopens⟩ := hreopens
      obtain ⟨h1, -, haddr, hcalls⟩ := hpossible
      have hi := usbEpIndex_ne_zero haddr
      have hboth : ¬ s.BothOpen hdev epAddr := by
        unfold BothOpen
        omega
      -- the data file that the slot has is lost
      have hdata : s.slot (hdev, usbEpIndex epAddr, false) ≠ -1 := by
        intro hdata
        have hstat := (hs.paired _ _).mp hdata
        rw [slot_data h1 hi] at hdata
        rw [slot_stat h1 hi] at hstat
        omega
      have hlost : Descriptors.Lost (s.openedEndpoint ugen hdev ifc epAddr calls).slot
          (s.openedEndpoint ugen hdev ifc epAddr calls).files (s.slot (hdev, usbEpIndex epAddr, false)) := by
        rw [openedEndpoint_slot h1 hi]
        obtain ⟨-, hfree⟩ := hcalls.data.resolve_left hopens.data
        obtain ⟨-, hfree', hne⟩ := hcalls.stat.resolve_left hopens.stat
        exact (hs.sound.store_lost hdata hfree).store ((Function.update_of_ne hne ..).trans hfree')
      exact (lost_submit h1 hi hcalls hdata haccepted hadmits hboth hopens hlost).not_held hafter
    | _ => exact hreopens
  · intro hnot
    refine hs.exec_keeps (fun _ _ _ _ hk => held_close hk) (fun _ _ hk => hk.no_file)
      (fun _ _ _ hfiles hk => hk.congr (none_of_name hfiles)) hpossible hheld ?_
    rintro ifc epAddr calls request rfl hadmits hboth hopens haccepted
    obtain ⟨h1, -, haddr, hcalls⟩ := hpossible
    have hi := usbEpIndex_ne_zero haddr
    have hempty : s.slot (hdev, usbEpIndex epAddr, false) = -1 ∧ s.slot (hdev, usbEpIndex epAddr, true) = -1 := by
      rcases hs.bothOpen_or h1 hi with h | h | h | h
      · exact absurd h hboth
      · exact absurd ⟨haccepted, hadmits, .inl h, hopens⟩ hnot
      · exact absurd ⟨haccepted, hadmits, .inr h, hopens⟩ hnot
      · exact h
    obtain ⟨-, hfree⟩ := hcalls.data.resolve_left hopens.data
    obtain ⟨-, hfree', hne⟩ := hcalls.stat.resolve_left hopens.stat
    rw [openedEndpoint_slot h1 hi]
    refine (hheld.store hempty.1 hopens.data hfree).store ?_ hopens.stat ((Function.update_of_ne hne ..).trans hfree')
    rw [Function.update_of_ne (by simp)]
    exact hempty.2

end

section

variable {freed : ℕ → UInt8 → InterfaceSet} {freedEndpoints : ℕ → Endpoints}

theorem held_new : Descriptors.Held (new freed freedEndpoints).slot (new freed freedEndpoints).files :=
  Descriptors.held_empty fun _ => slot_not_opened rfl

theorem inv_new : (new freed freedEndpoints).Inv := by
  have hempty : ∀ k, (new freed freedEndpoints).slot k = -1 := fun _ => slot_not_opened rfl
  refine ⟨held_new.toSound, fun h i => ?_, fun k => (hempty k).ge, fun h i b _ => hempty _⟩
  rw [hempty, hempty]

end

end EndpointFiles

section

variable {ugen : Ugen} {freed : ℕ → UInt8 → InterfaceSet} {freedEndpoints : ℕ → Endpoints} {ls : List (ℕ × FileCall)}
  {s t : EndpointFiles}

/-- A run keeps what a handle always keeps. -/
theorem EndpointFiles.Inv.run {G : EndpointFiles → ℕ × FileCall → Prop} (hs : s.Inv)
    (hrun : Run (FileCalls ugen) G s ls t) : t.Inv := by
  refine hrun.inv (fun s l t hs _ hstep => ?_) hs
  cases hstep with
  | call hpossible => exact hs.exec hpossible

/-- No file of an endpoint gets descriptor 0. -/
def FileCall.NotZero : FileCall → Prop
  | .transfer _ _ calls _ => calls.data ≠ 0 ∧ calls.stat ≠ 0
  | _ => True

/-- Then no slot has 0, and no endpoint is opened again. -/
theorem EndpointFiles.Inv.not_zero (hs : s.Inv) (hheld : Descriptors.Held s.slot s.files) (hzero : ∀ k, s.slot k ≠ 0)
    {hdev : ℕ} {call : FileCall} (hpossible : call.Possible s hdev) (hcall : call.NotZero) :
    Descriptors.Held (s.exec ugen hdev call).slot (s.exec ugen hdev call).files ∧
      ∀ k, (s.exec ugen hdev call).slot k ≠ 0 := by
  have hnot : ¬ s.Reopens hdev call := by
    intro hreopens
    cases call with
    | transfer ifc epAddr calls request =>
      obtain ⟨-, -, hor, -⟩ := hreopens
      obtain ⟨h1, -, haddr, -⟩ := hpossible
      have hi := EndpointFiles.usbEpIndex_ne_zero haddr
      rw [← EndpointFiles.slot_data h1 hi, ← EndpointFiles.slot_stat h1 hi] at hor
      exact hor.elim (hzero _) (hzero _)
    | _ => exact hreopens
  refine ⟨(hs.held_iff hheld hpossible).mpr hnot, ?_⟩
  refine (hs.exec_keeps (P := fun slot files => Descriptors.Sound slot files ∧ ∀ k, slot k ≠ 0) ?_
    (fun _ _ hk => hk.1.no_file) (fun _ _ _ hfiles hk => ⟨hk.1.congr (none_of_name hfiles), hk.2⟩) hpossible ⟨hs.sound, hzero⟩ ?_).2
  · rintro slot files h i ⟨hsound, hslot⟩
    refine ⟨EndpointFiles.sound_close hsound, fun ⟨h', i', b⟩ => ?_⟩
    rw [EndpointFiles.storeSlots_apply, ite_self]
    split_ifs
    · exact neg_ne_zero.mpr one_ne_zero
    · exact hslot _
  · rintro ifc epAddr calls request rfl - - hopens -
    obtain ⟨h1, -, haddr, hcalls⟩ := hpossible
    have hi := EndpointFiles.usbEpIndex_ne_zero haddr
    refine ⟨(EndpointFiles.Kept.opened hs h1 hi hcalls hopens).sound, fun ⟨h', i', b⟩ => ?_⟩
    rw [EndpointFiles.openedEndpoint_slot h1 hi, EndpointFiles.storeSlots_apply]
    split_ifs
    · exact hcall.2
    · exact hcall.1
    · exact hzero _

def modemUgen : Ugen := ⟨"/dev/usb/modem", fun _ => modemInterfaces⟩

def modemFiles : EndpointFiles :=
  .new (fun _ _ => ⟨0, 0⟩) fun _ => ⟨fun _ => ⟨0, 0⟩, fun _ => true, fun _ => 0⟩

def modemOpened : EndpointFiles := modemFiles.exec modemUgen 7 (.openDevice (fun _ => ⟨0, 0⟩) ⟨3, 4⟩)

def modemClaimed : EndpointFiles := modemOpened.exec modemUgen 7 (.claim 0 .default ⟨0, 0, 2, fun _ => 2⟩)

theorem modem_possible : (FileCall.transfer 0 0x83 ⟨-1, 0, 0, 5, 0, 6, 0⟩ (.bulk 8)).Possible modemClaimed 7 :=
  ⟨rfl, by decide, by decide, .inl rfl, .inr ⟨by decide, rfl⟩, .inr ⟨by decide, rfl, by decide⟩,
    fun h => absurd h (by decide), fun h => absurd h (by decide)⟩

end

end Solaris

end OpenUsb
