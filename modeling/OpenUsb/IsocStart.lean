import OpenUsb.EndpointUse

/-!
# IsocStart — when isochronous endpoints are started on Solaris

The first isochronous IN transfer writes a request to the data file that starts the endpoint, and sets a flag in `epflags`.
Later ones only read.  The flag is not that of the file: an interrupt IN transfer closes the file and leaves the flag.

* `polled_once`: no file is started twice.
* `read_after_poll`: when isochronous transfers read a file only after it has been started, and no others do.
-/

namespace OpenUsb

namespace Solaris

namespace EndpointFiles

section

variable {ugen : Ugen} {s t u : EndpointFiles} {hdev h i j : ℕ} {fd : ℤ} {b : Bool} {ifc epAddr : UInt8} {epType : EpType}
  {calls : EndpointOpen} {request : EndpointRequest} {call : FileCall} {R : List FileOp → Bool → Prop}

/-! ## Calls that are not transfers -/

/-- A handle has the endpoints that it had. -/
structure SameHandle (s t : EndpointFiles) (h : ℕ) : Prop where
  opened : t.device.opened h = s.device.opened h
  slot : ∀ i b, t.slot (h, i, b) = s.slot (h, i, b)
  inited : (t.endpoints h).isocInInited = (s.endpoints h).isocInInited

/-- A handle has no endpoint open, and none is started. -/
structure NoEndpoints (t : EndpointFiles) (h : ℕ) : Prop where
  slot : ∀ i b, t.slot (h, i, b) = -1
  inited : t.device.opened h = true → ∀ i, i ≠ 0 → i < USBI_MAXENDPOINTS → (t.endpoints h).isocInInited i = false

/-- Files are closed, and with them all endpoints of a handle. -/
structure Leaves (s t : EndpointFiles) : Prop where
  files : ∀ fd f, t.files fd = some f → s.files fd = some f
  handle : ∀ h, SameHandle s t h ∨ NoEndpoints t h

theorem Leaves.refl : Leaves s s := ⟨fun _ _ hf => hf, fun _ => .inl ⟨rfl, fun _ _ => rfl, rfl⟩⟩

theorem Leaves.trans (h1 : Leaves s t) (h2 : Leaves t u) : Leaves s u := by
  refine ⟨fun fd f hf => h1.files fd f (h2.files fd f hf), fun h => ?_⟩
  rcases h2.handle h with hsame | hnone
  · rcases h1.handle h with hsame' | hnone'
    · exact .inl ⟨hsame.opened.trans hsame'.opened, fun i b => (hsame.slot i b).trans (hsame'.slot i b),
        hsame.inited.trans hsame'.inited⟩
    · refine .inr ⟨fun i b => (hsame.slot i b).trans (hnone'.slot i b), fun hopened i hi hlt => ?_⟩
      rw [hsame.inited]
      exact hnone'.inited (hsame.opened.symm.trans hopened) i hi hlt
  · exact .inr hnone

theorem withDevice_leaves {d : Device} (hd : d.opened = s.device.opened) : Leaves s { s with device := d } :=
  ⟨fun _ _ hf => hf, fun h => .inl ⟨congrFun hd h, fun _ _ => congrFun (withDevice_slot hd) _, rfl⟩⟩

theorem setMap_leaves {m : EndpointMap} (hm : m.device.opened = s.device.opened) : Leaves s (s.setMap hdev m) := by
  refine ⟨fun _ _ hf => hf, fun h => .inl ⟨congrFun hm h, fun i b => congrFun (setMap_slot hm) _, ?_⟩⟩
  unfold setMap
  by_cases hh : h = hdev
  · rw [hh, setEndpoints_self]
  · rw [setEndpoints_of_ne hh]

theorem closeFiles_some {slot : ℕ × ℕ × Bool → ℤ} {files : ℤ → Option OpenFile} {f : OpenFile}
    (hf : closeFiles slot files h i fd = some f) : files fd = some f := by
  unfold closeFiles at hf
  rw [Function.update_apply, Function.update_apply] at hf
  split_ifs at hf
  exact hf

theorem Inv.closeAllEps_leaves (hs : s.Inv) (h1 : s.device.opened hdev = true) : Leaves s (s.usbCloseAllEps hdev) := by
  obtain ⟨hclosed, -, hfiles⟩ := usbCloseAllEps_spec
    (P := fun slot files => Kept slot files ∧ ∀ fd f, files fd = some f → s.files fd = some f)
    (fun _ _ h i hk => ⟨hk.1.close h i, fun fd f hf => hk.2 fd f (closeFiles_some hf)⟩) (fun _ _ hk => hk.1.sound.no_file) h1
    ⟨hs, fun _ _ hf => hf⟩
  refine ⟨hfiles, fun h => ?_⟩
  by_cases hh : h = hdev
  · subst hh
    refine .inr ⟨fun i b => hs.closed_slot h1 hclosed, fun _ i hi hlt => ?_⟩
    rw [hclosed.inited, if_pos]
    rw [List.mem_range'_1]
    unfold USBI_MAXENDPOINTS at hlt ⊢
    omega
  · refine .inl ⟨by rw [hclosed.device], fun i b => slot_congr (by rw [hclosed.device]) ?_, by rw [hclosed.other h hh]⟩
    unfold EndpointFiles.ep
    rw [hclosed.other h hh]

/-- A handle that is off the list has no endpoints. -/
theorem closed_leaves : Leaves s { s with device := { s.device with opened := Function.update s.device.opened hdev false } } := by
  refine ⟨fun _ _ hf => hf, fun h => ?_⟩
  by_cases hh : h = hdev
  · subst hh
    have hopened : Function.update s.device.opened h false h = false := Function.update_self ..
    exact .inr ⟨fun _ _ => slot_not_opened hopened, fun hc => absurd (hopened.symm.trans hc) Bool.false_ne_true⟩
  · exact .inl ⟨Function.update_of_ne hh .., fun _ _ => slot_congr (Function.update_of_ne hh ..) rfl, rfl⟩

/-- A call that is not a transfer leaves the endpoints of a handle, or closes all of them. -/
theorem Inv.exec_leaves (hs : s.Inv) (hpossible : call.Possible s hdev)
    (hcall : ∀ ifc epAddr calls request, call ≠ .transfer ifc epAddr calls request) :
    Leaves s (s.exec ugen hdev call) := by
  cases call with
  | openDevice after ep0 =>
    have hslot := @openDevice_slot s hdev after ep0 hpossible
    refine ⟨fun _ _ hf => hf, fun h => ?_⟩
    by_cases hh : h = hdev
    · subst hh
      refine .inr ⟨fun i b => (congrFun hslot _).trans (slot_not_opened hpossible), fun _ i _ _ => ?_⟩
      show (Function.update s.endpoints h _ h).isocInInited i = false
      rw [Function.update_self]
    · refine .inl ⟨Function.update_of_ne hh .., fun i b => congrFun hslot _, ?_⟩
      exact congrArg Endpoints.isocInInited (Function.update_of_ne hh ..)
  | claim ifc flags refresh => exact setMap_leaves (claim_opened flags)
  | release ifc => exact setMap_leaves release_opened
  | setAltsetting ifc alt refresh =>
    show Leaves s (s.openusbSetAltsetting ugen hdev ifc alt refresh).2
    unfold openusbSetAltsetting
    split_ifs with hopened
    all_goals try exact .refl
    unfold solarisSetAltinterface
    split_ifs
    · exact .refl
    · have hclosed := hs.closeAllEps_leaves (by simpa using hopened)
      exact (hclosed.trans (withDevice_leaves rfl)).trans (setMap_leaves rfl)
  | setConfiguration cfg numConfigurations index =>
    show Leaves s (s.openusbSetConfiguration hdev cfg numConfigurations index).2
    unfold openusbSetConfiguration
    split_ifs
    · exact .refl
    · exact .refl
    · exact ⟨fun _ _ hf => hf, fun _ => .inl ⟨rfl, fun _ _ => rfl, rfl⟩⟩
  | transfer ifc epAddr calls request => exact absurd rfl (hcall ifc epAddr calls request)
  | close =>
    show Leaves s (s.openusbCloseDevice hdev).2
    by_cases h1 : s.device.opened hdev = true
    · have hrel : (Solaris.solarisClose s.device hdev).2.opened = s.device.opened := solarisClose_opened
      have hclosed := (withDevice_leaves hrel).trans (@closeAllEps_leaves _ hdev (hs.withDevice hrel) (by rw [hrel, h1]))
      rw [openusbCloseDevice_eq h1]
      exact hclosed.trans closed_leaves
    · unfold openusbCloseDevice
      rw [if_pos (by simpa using h1)]
      exact .refl

/-! ## Transfers -/

theorem setInited_inited : ((s.setInited hdev i b).endpoints h).isocInInited j =
    if h = hdev ∧ j = i then b else (s.endpoints h).isocInInited j := by
  unfold setInited
  by_cases hh : h = hdev
  · subst hh
    rw [setEndpoints_self]
    by_cases hj : j = i
    · rw [hj, if_pos ⟨rfl, rfl⟩]
      exact Function.update_self ..
    · rw [if_neg fun hc => hj hc.2]
      exact Function.update_of_ne hj ..
  · rw [setEndpoints_of_ne hh, if_neg fun hc => hh hc.1]

theorem setEp_inited {ep : Ep} : ((s.setEp hdev i ep).endpoints h).isocInInited = (s.endpoints h).isocInInited := by
  unfold setEp
  by_cases hh : h = hdev
  · rw [hh, setEndpoints_self]
  · rw [setEndpoints_of_ne hh]

theorem setInited_eq_self (hb : (s.endpoints hdev).isocInInited i = b) : s.setInited hdev i b = s := by
  unfold setInited setEndpoints
  rw [← hb, Function.update_eq_self, Function.update_eq_self]

theorem readData_endpoints {length : UInt32} : (s.readData hdev epAddr length).endpoints = s.endpoints := by
  unfold readData
  split_ifs <;> rfl

theorem check_inited (hcalls : calls.Promised s.files) :
    ((s.usbCheckDeviceAndStatusOpen ugen hdev ifc epAddr epType calls).2.endpoints h).isocInInited =
      (s.endpoints h).isocInInited := by
  rcases check_cases hcalls with ⟨-, heq⟩ | ⟨-, heq, -⟩ <;> rw [heq]
  exact setEp_inited

/-- What a transfer does once `usb_check_device_and_status_open` has let it through: an isochronous IN one starts the endpoint,
if it is not started, and reads; another IN one reads, and closes the endpoint if it is an interrupt transfer. -/
theorem submit_cases {P : EndpointFiles → Prop} (hcalls : calls.Promised s.files) (hs : P s)
    (hcheck : P (s.usbCheckDeviceAndStatusOpen ugen hdev ifc epAddr request.epType calls).2)
    (hdata : request.epType ≠ .isochronous → epAddr &&& 0x80 ≠ 0 → ∀ u, P u →
      (u.endpoints hdev).isocInInited = (s.endpoints hdev).isocInInited →
      P (u.doIo (u.ep hdev (usbEpIndex epAddr)).datafd .read))
    (hclose : request.epType ≠ .isochronous → epAddr &&& 0x80 ≠ 0 → ∀ u, P u →
      (u.endpoints hdev).isocInInited = (s.endpoints hdev).isocInInited → P (u.closeEndpoint hdev (usbEpIndex epAddr)))
    (hpoll : ∀ u, P u → (u.ep hdev (usbEpIndex epAddr)).datafd ≠ -1 →
      (u.endpoints hdev).isocInInited (usbEpIndex epAddr) = false →
      P ((u.doIo (u.ep hdev (usbEpIndex epAddr)).datafd .poll).setInited hdev (usbEpIndex epAddr) true))
    (hread : ∀ u, P u → (u.endpoints hdev).isocInInited (usbEpIndex epAddr) = true →
      P (u.doIo (u.ep hdev (usbEpIndex epAddr)).datafd .isocRead)) :
    P (s.submit ugen hdev ifc epAddr calls request) := by
  have hreadData : request.epType ≠ .isochronous → ∀ u length, P u →
      (u.endpoints hdev).isocInInited = (s.endpoints hdev).isocInInited → P (u.readData hdev epAddr length) := by
    intro htype u length hu hinited
    unfold readData
    split_ifs with hnot
    · exact hu
    · exact hdata htype (fun hin => hnot (.inl hin)) u hu hinited
  have hbulk : ∀ length, request.epType = .bulk → P (s.solarisSubmitBulk ugen hdev ifc epAddr calls length) := by
    intro length htype
    rw [htype] at hcheck hreadData
    unfold solarisSubmitBulk
    dsimp only
    split_ifs
    · exact hcheck
    · exact hreadData (by decide) _ _ hcheck (check_inited hcalls)
  cases request with
  | ctrl length => exact hbulk length rfl
  | bulk length => exact hbulk length rfl
  | intr length =>
    have hne : EndpointRequest.epType (.intr length) ≠ .isochronous := fun h => by cases h
    have hinited : ((EndpointFiles.readData (s.usbCheckDeviceAndStatusOpen ugen hdev ifc epAddr .interrupt calls).2 hdev epAddr
        length).endpoints hdev).isocInInited = (s.endpoints hdev).isocInInited :=
      (congrArg (fun e => (e hdev).isocInInited) readData_endpoints).trans (check_inited hcalls)
    show P (s.solarisSubmitIntr ugen hdev ifc epAddr calls length)
    unfold solarisSubmitIntr
    dsimp only
    split_ifs with hret hin
    · exact hcheck
    · exact hclose hne hin _ (hreadData hne _ _ hcheck (check_inited hcalls)) hinited
    · exact hreadData hne _ _ hcheck (check_inited hcalls)
  | isoc isoc =>
    have hreadIsoc : ∀ u, P u → (u.endpoints hdev).isocInInited (usbEpIndex epAddr) = true →
        P (u.readIsoc (u.ep hdev (usbEpIndex epAddr)).datafd isoc) := by
      intro u hu hinited
      unfold readIsoc
      split_ifs
      · exact hu
      · exact hu
      · exact hread u hu hinited
    have hfd : (s.usbCheckDeviceAndStatusOpen ugen hdev ifc epAddr .isochronous calls).1 = 0 →
        ((s.usbCheckDeviceAndStatusOpen ugen hdev ifc epAddr .isochronous calls).2.ep hdev (usbEpIndex epAddr)).datafd ≠ -1 := by
      intro hret
      rcases @check_cases ugen s hdev ifc epAddr .isochronous calls hcalls with ⟨⟨-, -, hopens⟩, heq⟩ | ⟨-, heq, hret'⟩
      · rw [heq]
        show ((EndpointFiles.setEp _ hdev _ _).ep hdev _).datafd ≠ -1
        rw [setEp_self]
        exact hopens.data
      · rw [heq]
        rcases (hret' hret).2 with hboth | ⟨h, -⟩
        · have := hboth.1
          omega
        · cases h.1
    show P (s.solarisSubmitIsoc ugen hdev ifc epAddr calls isoc)
    unfold solarisSubmitIsoc
    replace hcheck : P (s.usbCheckDeviceAndStatusOpen ugen hdev ifc epAddr .isochronous calls).2 := hcheck
    generalize s.usbCheckDeviceAndStatusOpen ugen hdev ifc epAddr .isochronous calls = r at hcheck hfd
    obtain ⟨ret, u⟩ := r
    dsimp only at hcheck hfd ⊢
    split_ifs with hflags hret hlen halloc hin hinited hwrite
    · exact hs
    · exact hcheck
    · exact hcheck
    · exact hcheck
    · exact hcheck
    · exact hreadIsoc u hcheck hinited
    all_goals have hstart := hpoll u hcheck (hfd (not_not.mp hret)) (Bool.eq_false_iff.mpr hinited)
    · exact hstart
    · have hep : ((u.doIo (u.ep hdev (usbEpIndex epAddr)).datafd .poll).setInited hdev (usbEpIndex epAddr) true).ep hdev
          (usbEpIndex epAddr) = u.ep hdev (usbEpIndex epAddr) := setInited_ep
      have hdone := hreadIsoc _ hstart (by rw [setInited_inited, if_pos ⟨rfl, rfl⟩])
      rw [hep] at hdone
      exact hdone

/-! ## What is done to a file -/

/-- The operations on a file, with the flag of its endpoint. -/
structure Protocol (R : List FileOp → Bool → Prop) : Prop where
  new : R [] false
  poll : ∀ ops, R ops false → R (ops ++ [.poll]) true
  read : ∀ ops, R ops true → R (ops ++ [.isocRead]) true

/-- The data files of all handles obey a protocol, and files that are lost did. -/
structure Obeys (R : List FileOp → Bool → Prop) (s : EndpointFiles) : Prop where
  data : ∀ h i f, s.files (s.slot (h, i, false)) = some f → R f.ops ((s.endpoints h).isocInInited i)
  lost : ∀ fd f, s.files fd = some f → ∃ b, R f.ops b

theorem Obeys.leaves (hobeys : Obeys R s) (hno : t.files (-1) = none) (hleaves : Leaves s t) : Obeys R t := by
  refine ⟨fun h i f hf => ?_, fun fd f hf => hobeys.lost fd f (hleaves.files fd f hf)⟩
  rcases hleaves.handle h with hsame | hnone
  · rw [hsame.slot] at hf
    rw [hsame.inited]
    exact hobeys.data h i f (hleaves.files _ f hf)
  · rw [hnone.slot, hno] at hf
    exact absurd hf.symm (Option.some_ne_none f)

theorem Obeys.opened (hR : Protocol R) (hobeys : Obeys R s) (hs : s.Inv) (h1 : s.device.opened hdev = true)
    (hi : usbEpIndex epAddr ≠ 0) (hcalls : calls.Promised s.files) (hopens : Opens epAddr epType calls)
    (hflag : R [] ((s.endpoints hdev).isocInInited (usbEpIndex epAddr))) :
    Obeys R (s.openedEndpoint ugen hdev ifc epAddr calls) := by
  obtain ⟨-, hfree⟩ := hcalls.data.resolve_left hopens.data
  obtain ⟨-, hfree', hne⟩ := hcalls.stat.resolve_left hopens.stat
  have hfiles : (s.openedEndpoint ugen hdev ifc epAddr calls).files = Function.update (Function.update s.files calls.data
      (some ⟨s.filename ugen hdev ifc epAddr, []⟩)) calls.stat (some ⟨statfilename (s.filename ugen hdev ifc epAddr), []⟩) := rfl
  refine ⟨fun h i f hf => ?_, fun fd f hf => ?_⟩
  · have hinited : ((s.openedEndpoint ugen hdev ifc epAddr calls).endpoints h).isocInInited =
        (s.endpoints h).isocInInited := setEp_inited
    rw [hfiles, openedEndpoint_slot h1 hi, storeSlots_apply, if_neg Bool.false_ne_true] at hf
    rw [hinited]
    by_cases hat : h = hdev ∧ i = usbEpIndex epAddr
    · rw [if_pos hat, Function.update_of_ne hne.symm, Function.update_self] at hf
      obtain ⟨rfl, rfl⟩ := hat
      exact Option.some.inj hf ▸ hflag
    · rw [if_neg hat, Function.update_of_ne (hs.sound.not_in_slot hopens.stat hfree' _),
        Function.update_of_ne (hs.sound.not_in_slot hopens.data hfree _)] at hf
      exact hobeys.data h i f hf
  · rw [hfiles, Function.update_apply, Function.update_apply] at hf
    split_ifs at hf
    · exact ⟨false, Option.some.inj hf ▸ hR.new⟩
    · exact ⟨false, Option.some.inj hf ▸ hR.new⟩
    · exact hobeys.lost fd f hf

theorem Obeys.closed (hobeys : Obeys R s) (hno : s.files (-1) = none) (h1 : s.device.opened hdev = true) (hi : i ≠ 0) :
    Obeys R (s.closeEndpoint hdev i) := by
  refine ⟨fun h j f hf => ?_, fun fd f hf => ?_⟩ <;> rw [closeEndpoint_files h1 hi] at hf
  · have hinited : ((s.closeEndpoint hdev i).endpoints h).isocInInited = (s.endpoints h).isocInInited := setEp_inited
    rw [closeEndpoint_slot h1 hi, storeSlots_apply, ite_self] at hf
    rw [hinited]
    split_ifs at hf
    · exact absurd ((closeFiles_some hf).symm.trans hno) (Option.some_ne_none f)
    · exact hobeys.data h j f (closeFiles_some hf)
  · exact hobeys.lost fd f (closeFiles_some hf)

/-- The data file of an endpoint is used, and the flag is set to match. -/
theorem Obeys.doIo_setInited {op : FileOp} (hobeys : Obeys R s) (hs : Descriptors.Sound s.slot s.files)
    (h1 : s.device.opened hdev = true) (hi : i ≠ 0)
    (hop : ∀ ops, R ops ((s.endpoints hdev).isocInInited i) → R (ops ++ [op]) b) :
    Obeys R ((s.doIo (s.ep hdev i).datafd op).setInited hdev i b) := by
  have hfiles : ((s.doIo (s.ep hdev i).datafd op).setInited hdev i b).files = Function.update s.files
      (s.slot (hdev, i, false)) ((s.files (s.slot (hdev, i, false))).map fun f => { f with ops := f.ops ++ [op] }) := by
    rw [slot_data h1 hi]
    rfl
  -- the file itself obeys, if there is one
  have hself : ∀ f, (s.files (s.slot (hdev, i, false))).map (fun f => { f with ops := f.ops ++ [op] }) = some f →
      R f.ops b := by
    intro f hf
    obtain ⟨g, hg, rfl⟩ := Option.map_eq_some_iff.mp hf
    exact hop _ (hobeys.data hdev i g hg)
  refine ⟨fun h j f hf => ?_, fun fd f hf => ?_⟩ <;> rw [hfiles, Function.update_apply] at hf
  · rw [setInited_slot] at hf
    rw [setInited_inited]
    replace hf : (if s.slot (h, j, false) = s.slot (hdev, i, false) then
      (s.files (s.slot (hdev, i, false))).map fun f => { f with ops := f.ops ++ [op] }
      else s.files (s.slot (h, j, false))) = some f := hf
    split_ifs at hf with hslot
    · by_cases hfd : s.slot (hdev, i, false) = -1
      · rw [hfd, hs.no_file] at hf
        exact absurd hf.symm (Option.some_ne_none f)
      · have hkey := hs.one _ _ hfd hslot.symm
        rw [if_pos ⟨(congrArg Prod.fst hkey).symm, (congrArg (·.2.1) hkey).symm⟩]
        exact hself f hf
    · rw [if_neg]
      · exact hobeys.data h j f hf
      · rintro ⟨rfl, rfl⟩
        exact hslot rfl
  · split_ifs at hf
    · exact ⟨b, hself f hf⟩
    · exact hobeys.lost fd f hf

/-- The data file is used, and the flag stays. -/
theorem Obeys.doIo {op : FileOp} (hobeys : Obeys R s) (hs : Descriptors.Sound s.slot s.files)
    (h1 : s.device.opened hdev = true) (hi : i ≠ 0)
    (hop : ∀ ops, R ops ((s.endpoints hdev).isocInInited i) → R (ops ++ [op]) ((s.endpoints hdev).isocInInited i)) :
    Obeys R (s.doIo (s.ep hdev i).datafd op) := by
  have hself : (s.doIo (s.ep hdev i).datafd op).setInited hdev i ((s.endpoints hdev).isocInInited i) =
      s.doIo (s.ep hdev i).datafd op := setInited_eq_self rfl
  exact hself ▸ hobeys.doIo_setInited hs h1 hi hop

/-- A transfer obeys the protocol, if an endpoint that it opens obeys it as a new one, and other reads than isochronous ones
are no harm. -/
theorem Obeys.submit (hR : Protocol R) (hobeys : Obeys R s) (hs : s.Inv) (h1 : s.device.opened hdev = true)
    (hi : usbEpIndex epAddr ≠ 0) (hcalls : calls.Promised s.files)
    (hflag : s.Admits hdev ifc epAddr → ¬ s.BothOpen hdev epAddr → Opens epAddr request.epType calls →
      R [] ((s.endpoints hdev).isocInInited (usbEpIndex epAddr)))
    (hother : request.epType ≠ .isochronous → epAddr &&& 0x80 ≠ 0 → ∀ ops,
      R ops ((s.endpoints hdev).isocInInited (usbEpIndex epAddr)) →
        R (ops ++ [.read]) ((s.endpoints hdev).isocInInited (usbEpIndex epAddr))) :
    Obeys R (s.submit ugen hdev ifc epAddr calls request) := by
  have hcheck : (s.usbCheckDeviceAndStatusOpen ugen hdev ifc epAddr request.epType calls).2.device.opened hdev = true ∧
      Descriptors.Sound (s.usbCheckDeviceAndStatusOpen ugen hdev ifc epAddr request.epType calls).2.slot
        (s.usbCheckDeviceAndStatusOpen ugen hdev ifc epAddr request.epType calls).2.files ∧
      Obeys R (s.usbCheckDeviceAndStatusOpen ugen hdev ifc epAddr request.epType calls).2 := by
    rcases check_cases hcalls with ⟨⟨hadmits, hboth, hopens⟩, heq⟩ | ⟨-, heq, -⟩ <;> rw [heq]
    · exact ⟨h1, (Kept.opened hs h1 hi hcalls hopens).sound,
        hobeys.opened hR hs h1 hi hcalls hopens (hflag hadmits hboth hopens)⟩
    · exact ⟨h1, hs.sound, hobeys⟩
  refine (submit_cases (P := fun u => u.device.opened hdev = true ∧ Descriptors.Sound u.slot u.files ∧ Obeys R u)
    hcalls ⟨h1, hs.sound, hobeys⟩ hcheck ?_ ?_ ?_ ?_).2.2
  · rintro htype hin u ⟨h1', hsound, hobeys'⟩ hinited
    refine ⟨h1', hsound.congr (none_of_name fun _ => doIo_name), hobeys'.doIo hsound h1' hi ?_⟩
    rw [hinited]
    exact hother htype hin
  · rintro - - u ⟨h1', hsound, hobeys'⟩ -
    refine ⟨h1', ?_, hobeys'.closed hsound.no_file h1' hi⟩
    rw [closeEndpoint_slot h1' hi, closeEndpoint_files h1' hi]
    exact sound_close hsound
  · rintro u ⟨h1', hsound, hobeys'⟩ - hinited
    refine ⟨h1', ?_, hobeys'.doIo_setInited hsound h1' hi (by rw [hinited]; exact hR.poll)⟩
    rw [setInited_slot]
    exact hsound.congr (none_of_name fun _ => doIo_name)
  · rintro u ⟨h1', hsound, hobeys'⟩ hinited
    refine ⟨h1', hsound.congr (none_of_name fun _ => doIo_name), hobeys'.doIo hsound h1' hi ?_⟩
    rw [hinited]
    exact hR.read

/-! ## The flag of endpoints that are closed -/

/-- An endpoint that is not open is not started. -/
def Idle (s : EndpointFiles) : Prop :=
  ∀ h, s.device.opened h = true → ∀ i, i ≠ 0 → i < USBI_MAXENDPOINTS → s.slot (h, i, false) = -1 →
    (s.endpoints h).isocInInited i = false

/-- No IN transfer of another kind goes to an endpoint that is started, which is one for isochronous transfers. -/
def Undisturbed (s : EndpointFiles) (hdev : ℕ) : FileCall → Prop
  | .transfer _ epAddr _ request => request.epType ≠ .isochronous → epAddr &&& 0x80 ≠ 0 →
    (s.endpoints hdev).isocInInited (usbEpIndex epAddr) = false
  | _ => True

theorem Idle.leaves (hidle : Idle s) (hleaves : Leaves s t) : Idle t := by
  intro h hopened i hi hlt hslot
  rcases hleaves.handle h with hsame | hnone
  · rw [hsame.inited]
    exact hidle h (hsame.opened.symm.trans hopened) i hi hlt ((hsame.slot i false).symm.trans hslot)
  · exact hnone.inited hopened i hi hlt

theorem Idle.submit (hidle : Idle s) (h1 : s.device.opened hdev = true) (hi : usbEpIndex epAddr ≠ 0)
    (hcalls : calls.Promised s.files) (hcall : s.Undisturbed hdev (.transfer ifc epAddr calls request)) :
    Idle (s.submit ugen hdev ifc epAddr calls request) := by
  have hinited : ∀ h, ((s.usbCheckDeviceAndStatusOpen ugen hdev ifc epAddr request.epType calls).2.endpoints h).isocInInited =
      (s.endpoints h).isocInInited := fun _ => check_inited hcalls
  have hcheck : (s.usbCheckDeviceAndStatusOpen ugen hdev ifc epAddr request.epType calls).2.device.opened hdev = true ∧
      Idle (s.usbCheckDeviceAndStatusOpen ugen hdev ifc epAddr request.epType calls).2 := by
    rcases check_cases hcalls with ⟨⟨-, -, hopens⟩, heq⟩ | ⟨-, heq, -⟩ <;> rw [heq] at hinited ⊢
    · refine ⟨h1, fun h hopened j hj hlt hslot => ?_⟩
      rw [openedEndpoint_slot h1 hi, storeSlots_apply, if_neg Bool.false_ne_true] at hslot
      rw [hinited]
      split_ifs at hslot
      · exact absurd hslot hopens.data
      · exact hidle h hopened j hj hlt hslot
    · exact ⟨h1, hidle⟩
  refine (submit_cases (P := fun u => u.device.opened hdev = true ∧ Idle u) hcalls ⟨h1, hidle⟩ hcheck
    (fun _ _ _ hu _ => hu) ?_ ?_ ?_).2
  · rintro htype hin u ⟨h1', hidle'⟩ hinited'
    refine ⟨h1', fun h hopened j hj hlt hslot => ?_⟩
    rw [closeEndpoint_slot h1' hi, storeSlots_apply, ite_self] at hslot
    show ((EndpointFiles.setEp _ hdev _ _).endpoints h).isocInInited j = false
    rw [setEp_inited]
    split_ifs at hslot with hat
    · rw [hat.1, hat.2]
      exact (congrFun hinited' _).trans (hcall htype hin)
    · exact hidle' h hopened j hj hlt hslot
  · rintro u ⟨h1', hidle'⟩ hfd -
    refine ⟨h1', fun h hopened j hj hlt hslot => ?_⟩
    rw [setInited_slot] at hslot
    rw [setInited_inited]
    split_ifs with hat
    · rw [hat.1, hat.2] at hslot
      exact absurd ((slot_data h1' hi).symm.trans hslot) hfd
    · exact hidle' h hopened j hj hlt hslot
  · exact fun u hu _ => hu

end

end EndpointFiles

section

variable {ugen : Ugen} {freed : ℕ → UInt8 → InterfaceSet} {freedEndpoints : ℕ → Endpoints} {ls : List (ℕ × FileCall)}
  {s t : EndpointFiles} {hdev : ℕ} {fd : ℤ} {f : OpenFile}

/-- A call obeys a protocol, if an endpoint that it opens obeys it as a new one, and other reads than isochronous ones are no
harm. -/
theorem EndpointFiles.Obeys.exec {R : List FileOp → Bool → Prop} (hR : EndpointFiles.Protocol R)
    (hobeys : EndpointFiles.Obeys R s) (hs : s.Inv) {call : FileCall} (hpossible : call.Possible s hdev)
    (hflag : ∀ ifc epAddr calls request, call = .transfer ifc epAddr calls request → s.Admits hdev ifc epAddr →
      ¬ s.BothOpen hdev epAddr → Opens epAddr request.epType calls →
      R [] ((s.endpoints hdev).isocInInited (usbEpIndex epAddr)))
    (hother : ∀ ifc epAddr calls request, call = .transfer ifc epAddr calls request → request.epType ≠ .isochronous →
      epAddr &&& 0x80 ≠ 0 → ∀ ops, R ops ((s.endpoints hdev).isocInInited (usbEpIndex epAddr)) →
        R (ops ++ [.read]) ((s.endpoints hdev).isocInInited (usbEpIndex epAddr))) :
    EndpointFiles.Obeys R (s.exec ugen hdev call) := by
  by_cases hcall : ∃ ifc epAddr calls request, call = .transfer ifc epAddr calls request
  · obtain ⟨ifc, epAddr, calls, request, rfl⟩ := hcall
    obtain ⟨h1, -, haddr, hcalls⟩ := hpossible
    exact hobeys.submit hR hs h1 (EndpointFiles.usbEpIndex_ne_zero haddr) hcalls (hflag ifc epAddr calls request rfl)
      (hother ifc epAddr calls request rfl)
  · refine hobeys.leaves (hs.exec hpossible).sound.no_file (hs.exec_leaves hpossible ?_)
    exact fun ifc epAddr calls request heq => hcall ⟨ifc, epAddr, calls, request, heq⟩

theorem EndpointFiles.obeys_new {R : List FileOp → Bool → Prop} :
    EndpointFiles.Obeys R (.new freed freedEndpoints) :=
  ⟨fun _ _ f hf => absurd hf.symm (Option.some_ne_none f), fun _ f hf => absurd hf.symm (Option.some_ne_none f)⟩

/-- A file is started once at most, and not before the flag is set. -/
def PolledOnce (ops : List FileOp) (inited : Bool) : Prop := ops.count .poll ≤ 1 ∧ (inited = false → .poll ∉ ops)

theorem polledOnce_nil {inited : Bool} : PolledOnce [] inited := ⟨by decide, fun _ => List.not_mem_nil⟩

theorem polledOnce_protocol : EndpointFiles.Protocol PolledOnce := by
  refine ⟨polledOnce_nil, fun ops hops => ⟨?_, fun h => absurd h.symm Bool.false_ne_true⟩,
    fun ops hops => ⟨?_, fun h => absurd h.symm Bool.false_ne_true⟩⟩
  · rw [List.count_append, List.count_eq_zero_of_not_mem (hops.2 rfl)]
    decide
  · rw [List.count_append]
    exact hops.1

theorem PolledOnce.read {ops : List FileOp} {inited : Bool} (hops : PolledOnce ops inited) :
    PolledOnce (ops ++ [.read]) inited := by
  refine ⟨?_, fun h => ?_⟩
  · rw [List.count_append]
    exact hops.1
  · rw [List.mem_append, List.mem_singleton]
    exact not_or.mpr ⟨hops.2 h, by decide⟩

/-- A file is started with the flag; from then on it has isochronous reads only, and none before. -/
def ReadAfterPoll (ops : List FileOp) (inited : Bool) : Prop :=
  ∃ m, if inited then ∃ n, ops = List.replicate m .read ++ .poll :: List.replicate n .isocRead
    else ops = List.replicate m .read

theorem readAfterPoll_nil : ReadAfterPoll [] false := ⟨0, rfl⟩

theorem readAfterPoll_protocol : EndpointFiles.Protocol ReadAfterPoll := by
  refine ⟨readAfterPoll_nil, ?_, ?_⟩
  · rintro ops ⟨m, rfl⟩
    exact ⟨m, 0, rfl⟩
  · rintro ops ⟨m, n, rfl⟩
    exact ⟨m, n + 1, by rw [List.replicate_succ']; simp⟩

theorem ReadAfterPoll.read {ops : List FileOp} (hops : ReadAfterPoll ops false) : ReadAfterPoll (ops ++ [.read]) false := by
  obtain ⟨m, rfl⟩ := hops
  exact ⟨m + 1, List.replicate_succ'.symm⟩

/-- No file of an endpoint gets the request that starts it twice, whatever is done with the handles. -/
theorem polled_once (hrun : Run (FileCalls ugen) (fun _ _ => True) (.new freed freedEndpoints) ls t)
    (hf : t.files fd = some f) : f.ops.count .poll ≤ 1 := by
  have hinv : t.Inv ∧ EndpointFiles.Obeys PolledOnce t := by
    refine hrun.inv (I := fun t => t.Inv ∧ EndpointFiles.Obeys PolledOnce t) ?_
      ⟨EndpointFiles.inv_new, EndpointFiles.obeys_new⟩
    rintro s l t ⟨hs, hobeys⟩ - hstep
    cases hstep with
    | call hpossible =>
      exact ⟨hs.exec hpossible, hobeys.exec polledOnce_protocol hs hpossible (fun _ _ _ _ _ _ _ _ => polledOnce_nil)
        fun _ _ _ _ _ _ _ _ hops => hops.read⟩
  obtain ⟨_, hcount, -⟩ := hinv.2.lost fd f hf
  exact hcount

/-! A bulk IN transfer of the modem opens the endpoint; two isochronous ones follow. -/

def modemRead : EndpointFiles :=
  ((modemClaimed.exec modemUgen 7 (.transfer 0 0x83 ⟨-1, 0, 0, 5, 0, 6, 0⟩ (.bulk 8))).exec
    modemUgen 7 (.transfer 0 0x83 ⟨-1, 0, 0, -1, EACCES, -1, EACCES⟩ (.isoc ⟨0, 1, 8, true, 1, true⟩))).exec
    modemUgen 7 (.transfer 0 0x83 ⟨-1, 0, 0, -1, EACCES, -1, EACCES⟩ (.isoc ⟨0, 1, 8, true, 1, true⟩))

theorem modem_read_run : Run (FileCalls modemUgen) (fun s l => l.2.NotZero ∧ s.Undisturbed l.1 l.2) modemFiles
    [(7, .openDevice (fun _ => ⟨0, 0⟩) ⟨3, 4⟩), (7, .claim 0 .default ⟨0, 0, 2, fun _ => 2⟩),
      (7, .transfer 0 0x83 ⟨-1, 0, 0, 5, 0, 6, 0⟩ (.bulk 8)),
      (7, .transfer 0 0x83 ⟨-1, 0, 0, -1, EACCES, -1, EACCES⟩ (.isoc ⟨0, 1, 8, true, 1, true⟩)),
      (7, .transfer 0 0x83 ⟨-1, 0, 0, -1, EACCES, -1, EACCES⟩ (.isoc ⟨0, 1, 8, true, 1, true⟩))] modemRead := by
  have hnone : ∀ files, EndpointOpen.Promised ⟨-1, 0, 0, -1, EACCES, -1, EACCES⟩ files := fun _ =>
    ⟨.inl rfl, .inl rfl, .inl rfl, fun _ => by decide, fun _ => by decide⟩
  obtain ⟨h1, hifc, haddr, hcalls⟩ := modem_possible
  refine .cons ⟨trivial, trivial⟩ (.call rfl) (.cons ⟨trivial, trivial⟩ (.call trivial)
    (.cons ⟨⟨by decide, by decide⟩, fun _ _ => rfl⟩ (.call modem_possible)
      (.cons ⟨⟨by decide, by decide⟩, fun h => absurd rfl h⟩ (.call ⟨h1, hifc, haddr, hnone _⟩)
        (.cons ⟨⟨by decide, by decide⟩, fun h => absurd rfl h⟩ (.call ⟨h1, hifc, haddr, hnone _⟩) (.nil _)))))

theorem modem_read_file : modemRead.files 5 =
    some ⟨modemClaimed.filename modemUgen 7 0 0x83, [.read, .poll, .isocRead, .isocRead]⟩ := rfl

theorem polled_once_modem : [FileOp.read, .poll, .isocRead, .isocRead].count .poll ≤ 1 :=
  polled_once (modem_read_run.mono fun _ _ _ => trivial) modem_read_file

/-- What a history keeps in which no file gets descriptor 0 and no other IN transfer goes to a started endpoint. -/
structure EndpointFiles.Started (s : EndpointFiles) : Prop where
  inv : s.Inv
  held : Descriptors.Held s.slot s.files
  not_zero : ∀ k, s.slot k ≠ 0
  idle : EndpointFiles.Idle s
  obeys : EndpointFiles.Obeys ReadAfterPoll s

theorem EndpointFiles.Started.exec (hs : s.Started) {call : FileCall} (hpossible : call.Possible s hdev)
    (hzero : call.NotZero) (hcall : s.Undisturbed hdev call) : (s.exec ugen hdev call).Started := by
  obtain ⟨hheld, hslot⟩ := hs.inv.not_zero hs.held hs.not_zero hpossible hzero
  refine ⟨hs.inv.exec hpossible, hheld, hslot, ?_, hs.obeys.exec readAfterPoll_protocol hs.inv hpossible ?_ ?_⟩
  · by_cases htransfer : ∃ ifc epAddr calls request, call = .transfer ifc epAddr calls request
    · obtain ⟨ifc, epAddr, calls, request, rfl⟩ := htransfer
      obtain ⟨h1, -, haddr, hcalls⟩ := hpossible
      exact hs.idle.submit h1 (EndpointFiles.usbEpIndex_ne_zero haddr) hcalls hcall
    · exact hs.idle.leaves (hs.inv.exec_leaves hpossible fun ifc epAddr calls request heq =>
        htransfer ⟨ifc, epAddr, calls, request, heq⟩)
  · rintro ifc epAddr calls request rfl - hboth -
    obtain ⟨h1, -, haddr, -⟩ := hpossible
    have hi := EndpointFiles.usbEpIndex_ne_zero haddr
    have hdata := hs.not_zero (hdev, usbEpIndex epAddr, false)
    have hstat := hs.not_zero (hdev, usbEpIndex epAddr, true)
    rw [EndpointFiles.slot_data h1 hi] at hdata
    rw [EndpointFiles.slot_stat h1 hi] at hstat
    rcases hs.inv.bothOpen_or h1 hi with h | h | h | h
    · exact absurd h hboth
    · exact absurd h hdata
    · exact absurd h hstat
    · rw [hs.idle hdev h1 _ hi EndpointFiles.usbEpIndex_lt h.1]
      exact readAfterPoll_nil
  · rintro ifc epAddr calls request rfl htype hin ops hops
    rw [hcall htype hin] at hops ⊢
    exact hops.read

/-- If no file gets descriptor 0 and no bulk, control or interrupt IN transfer goes to a started endpoint, a data file has the
reads of such transfers first, and then isochronous ones, behind one request that starts the endpoint. -/
theorem read_after_poll
    (hrun : Run (FileCalls ugen) (fun s l => l.2.NotZero ∧ s.Undisturbed l.1 l.2) (.new freed freedEndpoints) ls t)
    (hf : t.files fd = some f) : ∃ m, f.ops = List.replicate m .read ∨
      ∃ n, f.ops = List.replicate m .read ++ .poll :: List.replicate n .isocRead := by
  have hempty : ∀ k, (EndpointFiles.new freed freedEndpoints).slot k = -1 := fun _ => EndpointFiles.slot_not_opened rfl
  have hnew : (EndpointFiles.new freed freedEndpoints).Started := by
    refine ⟨EndpointFiles.inv_new, EndpointFiles.held_new, fun k => ?_, fun h h1 => absurd h1 Bool.false_ne_true,
      EndpointFiles.obeys_new⟩
    rw [hempty]
    decide
  have hinv : t.Started := by
    refine hrun.inv (fun s l t hs hl hstep => ?_) hnew
    cases hstep with
    | call hpossible => exact hs.exec hpossible hl.1 hl.2
  obtain ⟨b, m, hops⟩ := hinv.obeys.lost fd f hf
  cases b with
  | true => exact ⟨m, .inr hops⟩
  | false => exact ⟨m, .inl hops⟩

theorem read_after_poll_modem : ∃ m, [FileOp.read, .poll, .isocRead, .isocRead] = List.replicate m .read ∨
    ∃ n, [FileOp.read, .poll, .isocRead, .isocRead] = List.replicate m .read ++ .poll :: List.replicate n .isocRead :=
  read_after_poll modem_read_run modem_read_file

end

end Solaris

end OpenUsb
