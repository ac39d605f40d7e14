import OpenUsb.EndpointMap
import OpenUsb.ControlEndpoint
import OpenUsb.Lib.Descriptors

/-!
# EndpointFiles — the endpoint files that handles keep open on Solaris

An endpoint other than 0 has two files of `ugen`, for its data and for its status.  A handle opens them with the first
transfer and keeps the descriptors in `eps`; what closes them is another alternate setting, an interrupt IN transfer, or the
close of the handle.

* `check_cases`: what `usb_check_device_and_status_open` does with the files.
* `submit_keeps`: a transfer is made of four steps.
-/

namespace OpenUsb

namespace Solaris

/-! ## The names of the files -/

def PATH_MAX : ℕ := 1024

/-- `snprintf` into an array of `PATH_MAX` characters. -/
def snprintf (s : String) : String := .ofList (s.toList.take (PATH_MAX - 1))

/-- What does not change of a device: the directory of its files, and its configurations. -/
structure Ugen where
  path : String
  configs : ℤ → Interfaces

/-- `filename` of `usb_check_device_and_status_open`. -/
def Ugen.filename (ugen : Ugen) (curConfigIndex : ℤ) (curConfigValue ifc : UInt8) (altsetting : ℤ) (epAddr : UInt8) :
    String :=
  let cfgNum := if curConfigIndex > 0 then "cfg" ++ toString curConfigValue.toNat else ""
  let altNum := if altsetting > 0 then "." ++ toString altsetting else ""
  snprintf (ugen.path ++ "/" ++ cfgNum ++ "if" ++ toString ifc.toNat ++ altNum ++
    (if epAddr &&& 0x80 ≠ 0 then "in" else "out") ++ toString (epAddr &&& 0x0f).toNat)

/-- `statfilename`. -/
def statfilename (filename : String) : String := snprintf (filename ++ "stat")

/-! ## The device and its handles -/

/-- What IN transfers do with the data file: the read of a bulk, control or interrupt transfer; and the request that starts an
isochronous endpoint, and the read of an isochronous transfer. -/
inductive FileOp where
  | read
  | poll
  | isocRead
  deriving DecidableEq, Repr

/-- A file that is open, with what IN transfers did to it. -/
structure OpenFile where
  name : String
  ops : List FileOp
  deriving DecidableEq, Repr

/-- What a handle keeps of its endpoints; `isocInInited` is the flag of `epflags`. -/
structure Endpoints where
  eps : ℕ → Ep
  isocInInited : ℕ → Bool
  epInterface : ℕ → ℤ

/-- A device with its handles, and the endpoint files that are open. -/
structure EndpointFiles where
  device : Device
  curConfigIndex : ℤ
  curConfigValue : UInt8
  endpoints : ℕ → Endpoints
  files : ℤ → Option OpenFile

/-- `ep_type`. -/
inductive EpType where
  | bulk
  | interrupt
  | isochronous
  deriving DecidableEq, Repr

/-- How the calls end that open an endpoint: the status file for `USB_EP_INTR_ONE_XFER`, the write to it, the data file and
the status file, each with `errno`. -/
structure EndpointOpen where
  control : ℤ
  written : ℤ
  writtenErrno : ℤ
  data : ℤ
  dataErrno : ℤ
  stat : ℤ
  statErrno : ℤ
  deriving DecidableEq, Repr

/-- An isochronous request, as far as it decides what is done with the files: the sum `pkts_len`, is memory for the two
buffers there, and what the write of the request that starts the endpoint returns. -/
structure IsocFileRequest where
  flags : UInt32
  numPackets : UInt16
  pktsLen : UInt32
  alloc : Bool
  write : ℤ
  readAlloc : Bool
  deriving DecidableEq, Repr

/-- The requests on endpoints other than 0, with the number of bytes. -/
inductive EndpointRequest where
  | ctrl (length : UInt32)
  | bulk (length : UInt32)
  | intr (length : UInt32)
  | isoc (isoc : IsocFileRequest)
  deriving DecidableEq, Repr

namespace EndpointRequest

/-- The `ep_type` that a request passes on. -/
def epType : EndpointRequest → EpType
  | .ctrl _ | .bulk _ => .bulk
  | .intr _ => .interrupt
  | .isoc _ => .isochronous

/-- A request does something with the files: `flags` of an isochronous one is not 1. -/
def Accepted : EndpointRequest → Prop
  | .isoc request => request.flags ≠ 1
  | _ => True

end EndpointRequest

namespace EndpointFiles

section

variable (ugen : Ugen) (s : EndpointFiles) (hdev : ℕ)

def ep (i : ℕ) : Ep := (s.endpoints hdev).eps i

def setEndpoints (e : Endpoints) : EndpointFiles := { s with endpoints := Function.update s.endpoints hdev e }

def setEp (i : ℕ) (ep : Ep) : EndpointFiles :=
  s.setEndpoints hdev { s.endpoints hdev with eps := Function.update (s.endpoints hdev).eps i ep }

def setInited (i : ℕ) (inited : Bool) : EndpointFiles :=
  s.setEndpoints hdev
    { s.endpoints hdev with isocInInited := Function.update (s.endpoints hdev).isocInInited i inited }

/-- `open` that returns a descriptor. -/
def openFile (fd : ℤ) (name : String) : EndpointFiles :=
  { s with files := Function.update s.files fd (some ⟨name, []⟩) }

def closeFile (fd : ℤ) : EndpointFiles := { s with files := Function.update s.files fd none }

/-- A call for a data file. -/
def doIo (fd : ℤ) (op : FileOp) : EndpointFiles :=
  { s with files := Function.update s.files fd ((s.files fd).map fun f => { f with ops := f.ops ++ [op] }) }

/-- The records of the handle, with its map of endpoints. -/
def map : EndpointMap := ⟨s.device, (s.endpoints hdev).epInterface⟩

def setMap (m : EndpointMap) : EndpointFiles :=
  { s with device := m.device }.setEndpoints hdev { s.endpoints hdev with epInterface := m.epInterface }

/-! ### The backend -/

/-- Both files of an endpoint are closed. -/
def closeEndpoint (i : ℕ) : EndpointFiles :=
  let ep := s.ep hdev i
  ((s.closeFile ep.datafd).closeFile ep.statfd).setEp hdev i ⟨-1, -1⟩

/-- One round of the loop of `usb_close_all_eps`. -/
def usbCloseEp (i : ℕ) : EndpointFiles :=
  let s := if (s.ep hdev i).datafd ≠ -1 then
      (s.closeFile (s.ep hdev i).datafd).setEp hdev i { s.ep hdev i with datafd := -1 }
    else s
  let s := if (s.ep hdev i).statfd ≠ -1 then
      (s.closeFile (s.ep hdev i).statfd).setEp hdev i { s.ep hdev i with statfd := -1 }
    else s
  s.setInited hdev i false

/-- `usb_close_all_eps`. -/
def usbCloseAllEps : EndpointFiles :=
  (List.range' 1 (USBI_MAXENDPOINTS - 1)).foldl (fun s i => s.usbCloseEp hdev i) s

/-- The name of the data file of an endpoint. -/
def filename (ifc epAddr : UInt8) : String :=
  ugen.filename s.curConfigIndex s.curConfigValue ifc (s.device.claimedIfs hdev ifc).altsetting epAddr

/-- The control file of an interrupt IN endpoint is opened, written and closed.  A return code ends the open of the endpoint. -/
def enableOneXfer (statfilename : String) (calls : EndpointOpen) : Option ℤ × EndpointFiles :=
  if calls.control = -1 then (none, s)
  else
    let s := (s.openFile calls.control statfilename).closeFile calls.control
    (if calls.written ≠ 1 then some calls.writtenErrno else none, s)

/-- The part of `usb_check_device_and_status_open` that opens the files. -/
def openEndpoint (ifc epAddr : UInt8) (epType : EpType) (calls : EndpointOpen) : ℤ × EndpointFiles :=
  let filename := s.filename ugen hdev ifc epAddr
  let enabled := if epType = .interrupt ∧ epAddr &&& 0x80 ≠ 0 then s.enableOneXfer (statfilename filename) calls
    else (none, s)
  match enabled with
  | (some ret, s) => (ret, s)
  | (none, s) =>
    if calls.data = -1 then (calls.dataErrno, s)
    else
      let s := s.openFile calls.data filename
      if calls.stat = -1 then (calls.statErrno, s.closeFile calls.data)
      else
        let s := s.openFile calls.stat (statfilename filename)
        (0, s.setEp hdev (usbEpIndex epAddr) ⟨calls.data, calls.stat⟩)

/-- `usb_check_device_and_status_open`. -/
def usbCheckDeviceAndStatusOpen (ifc epAddr : UInt8) (epType : EpType) (calls : EndpointOpen) : ℤ × EndpointFiles :=
  if (s.device.claimedIfs hdev ifc).clm = -1 ∨ (s.device.claimedIfs hdev ifc).altsetting = -1 then (EACCES, s)
  else if (ifc.toNat : ℤ) ≠ (s.endpoints hdev).epInterface (usbEpIndex epAddr) then (EACCES, s)
  else if (s.ep hdev (usbEpIndex epAddr)).datafd > 0 ∧ (s.ep hdev (usbEpIndex epAddr)).statfd > 0 then (0, s)
  else s.openEndpoint ugen hdev ifc epAddr epType calls

/-- The read of an IN transfer, which one of no bytes does not get. -/
def readData (epAddr : UInt8) (length : UInt32) : EndpointFiles :=
  if epAddr &&& 0x80 = 0 ∨ length = 0 then s else s.doIo (s.ep hdev (usbEpIndex epAddr)).datafd .read

/-- What `solaris_submit_bulk` does with the files, and `solaris_submit_ctrl_non_default` does it, too. -/
def solarisSubmitBulk (ifc epAddr : UInt8) (calls : EndpointOpen) (length : UInt32) : EndpointFiles :=
  let (ret, s) := s.usbCheckDeviceAndStatusOpen ugen hdev ifc epAddr .bulk calls
  if ret ≠ 0 then s else s.readData hdev epAddr length

/-- What `solaris_submit_intr` does with the files. -/
def solarisSubmitIntr (ifc epAddr : UInt8) (calls : EndpointOpen) (length : UInt32) : EndpointFiles :=
  let (ret, s) := s.usbCheckDeviceAndStatusOpen ugen hdev ifc epAddr .interrupt calls
  if ret ≠ 0 then s
  else
    let s := s.readData hdev epAddr length
    if epAddr &&& 0x80 ≠ 0 then
      -- closed after the read, so that the endpoint is polled no more
      s.closeEndpoint hdev (usbEpIndex epAddr)
    else s

/-- The read of an isochronous IN transfer, which an empty buffer does not get. -/
def readIsoc (fd : ℤ) (isoc : IsocFileRequest) : EndpointFiles :=
  if !isoc.readAlloc then s
  else if isoc.pktsLen + 8 * isoc.numPackets.toUInt32 = 0 then s
  else s.doIo fd .isocRead

/-- What `solaris_submit_isoc` does with the files. -/
def solarisSubmitIsoc (ifc epAddr : UInt8) (calls : EndpointOpen) (isoc : IsocFileRequest) : EndpointFiles :=
  if isoc.flags = 1 then s
  else
    let i := usbEpIndex epAddr
    let (ret, s) := s.usbCheckDeviceAndStatusOpen ugen hdev ifc epAddr .isochronous calls
    let fd := (s.ep hdev i).datafd
    if ret ≠ 0 then s
    else if isoc.pktsLen = 0 then s
    else if !isoc.alloc then s
    else if epAddr &&& 0x80 = 0 then s
    else if (s.endpoints hdev).isocInInited i then s.readIsoc fd isoc
    else
      let s := (s.doIo fd .poll).setInited hdev i true
      if isoc.write < 0 then s else s.readIsoc fd isoc

/-- A request goes to the transfer function of its type. -/
def submit (ifc epAddr : UInt8) (calls : EndpointOpen) : EndpointRequest → EndpointFiles
  | .ctrl length | .bulk length => s.solarisSubmitBulk ugen hdev ifc epAddr calls length
  | .intr length => s.solarisSubmitIntr ugen hdev ifc epAddr calls length
  | .isoc isoc => s.solarisSubmitIsoc ugen hdev ifc epAddr calls isoc

/-- `solaris_set_altinterface`. -/
def solarisSetAltinterface (ifc alt : UInt8) : ℤ × EndpointFiles :=
  if s.device.claimedInterfaces ifc ≠ some hdev then (OPENUSB_PLATFORM_FAILURE, s)
  else
    let s := s.usbCloseAllEps hdev
    let s := { s with device := s.device.mark hdev ifc (s.device.claimedIfs hdev ifc).clm alt.toNat }
    (OPENUSB_SUCCESS, s.setMap hdev ((s.map hdev).usbSetEpIfaceAlts (ugen.configs s.curConfigIndex) ifc alt.toNat))

/-- `solaris_close`, without endpoint 0. -/
def solarisClose : ℤ × EndpointFiles :=
  let s := { s with device := (Solaris.solarisClose s.device hdev).2 }
  (OPENUSB_SUCCESS, s.usbCloseAllEps hdev)

/-! ### The calls for a handle -/

/-- `openusb_open_device` up to its success; `ep0` is what `usb_open_ep0` stores. -/
def openusbOpenDevice (after : UInt8 → InterfaceSet) (ep0 : Ep) : ℤ × EndpointFiles :=
  (OPENUSB_SUCCESS, { s with
    device := (Solaris.openusbOpenDevice s.device hdev after).2
    curConfigIndex := 0
    curConfigValue := 1
    endpoints := Function.update s.endpoints hdev
      { eps := fun i => if i = 0 then ep0 else ⟨-1, -1⟩
        isocInInited := fun _ => false
        epInterface := fun i => if i > 0 then -1 else 0 } })

/-- `openusb_claim_interface`, which opens and closes nothing. -/
def openusbClaimInterface (ifc : UInt8) (flags : InitFlag) (refresh : Refresh) : ℤ × EndpointFiles :=
  let (ret, m) := (s.map hdev).openusbClaimInterface (ugen.configs s.curConfigIndex) hdev ifc flags refresh
  (ret, s.setMap hdev m)

/-- `openusb_release_interface`, which opens and closes nothing. -/
def openusbReleaseInterface (ifc : UInt8) : ℤ × EndpointFiles :=
  let (ret, m) := (s.map hdev).openusbReleaseInterface hdev ifc
  (ret, s.setMap hdev m)

/-- `openusb_set_altsetting`. -/
def openusbSetAltsetting (ifc alt : UInt8) (refresh : Refresh) : ℤ × EndpointFiles :=
  if !s.device.opened hdev then (OPENUSB_UNKNOWN_DEVICE, s)
  else if ifc.toNat > USBI_MAXINTERFACES then (OPENUSB_BADARG, s)
  else if refresh.ret ≠ 0 then (OPENUSB_PARSE_ERROR, s)
  else if refresh.curConfigIndex < 0 then (OPENUSB_PARSE_ERROR, s)
  else if ifc.toNat > refresh.numInterfaces ∨ ifc.toNat > USBI_MAXINTERFACES ∨
      (s.device.claimedIfs hdev ifc).clm ≠ USBI_IFC_CLAIMED ∨ alt.toNat ≥ refresh.numAltsettings ifc then
    (OPENUSB_BADARG, s)
  else if (alt.toNat : ℤ) = (s.device.claimedIfs hdev ifc).altsetting then (0, s)
  else s.solarisSetAltinterface ugen hdev ifc alt

/-- `openusb_set_configuration`: the number of configurations, and the index that `usbi_get_cfg_index_by_value` finds. -/
def openusbSetConfiguration (cfg numConfigurations : UInt8) (index : ℤ) : ℤ × EndpointFiles :=
  if !s.device.opened hdev then (OPENUSB_UNKNOWN_DEVICE, s)
  else if cfg < 1 ∨ cfg > numConfigurations then (OPENUSB_BADARG, s)
  else (OPENUSB_SUCCESS, { s with curConfigValue := cfg, curConfigIndex := index })

/-- `openusb_close_device`. -/
def openusbCloseDevice : ℤ × EndpointFiles :=
  if !s.device.opened hdev then (OPENUSB_UNKNOWN_DEVICE, s)
  else
    let (ret, s) := s.solarisClose hdev
    (ret, { s with device := { s.device with opened := Function.update s.device.opened hdev false } })

end

end EndpointFiles

/-- A call for a handle.  A transfer is one that the checks of the frontend let through. -/
inductive FileCall where
  | openDevice (after : UInt8 → InterfaceSet) (ep0 : Ep)
  | claim (ifc : UInt8) (flags : InitFlag) (refresh : Refresh)
  | release (ifc : UInt8)
  | setAltsetting (ifc alt : UInt8) (refresh : Refresh)
  | setConfiguration (cfg numConfigurations : UInt8) (index : ℤ)
  | transfer (ifc epAddr : UInt8) (calls : EndpointOpen) (request : EndpointRequest)
  | close

/-- The state after a call. -/
def EndpointFiles.exec (ugen : Ugen) (s : EndpointFiles) (hdev : ℕ) : FileCall → EndpointFiles
  | .openDevice after ep0 => (s.openusbOpenDevice hdev after ep0).2
  | .claim ifc flags refresh => (s.openusbClaimInterface ugen hdev ifc flags refresh).2
  | .release ifc => (s.openusbReleaseInterface hdev ifc).2
  | .setAltsetting ifc alt refresh => (s.openusbSetAltsetting ugen hdev ifc alt refresh).2
  | .setConfiguration cfg numConfigurations index => (s.openusbSetConfiguration hdev cfg numConfigurations index).2
  | .transfer ifc epAddr calls request => s.submit ugen hdev ifc epAddr calls request
  | .close => (s.openusbCloseDevice hdev).2

/-- `open` returns `-1` with an error, or a descriptor that is not open. -/
structure EndpointOpen.Promised (calls : EndpointOpen) (files : ℤ → Option OpenFile) : Prop where
  control : calls.control = -1 ∨ 0 ≤ calls.control ∧ files calls.control = none
  data : calls.data = -1 ∨ 0 ≤ calls.data ∧ files calls.data = none
  stat : calls.stat = -1 ∨ 0 ≤ calls.stat ∧ files calls.stat = none ∧ calls.stat ≠ calls.data
  dataErrno : calls.data = -1 → calls.dataErrno ≠ 0
  statErrno : calls.stat = -1 → calls.statErrno ≠ 0

/-- A new handle has an address that no open one has.  Interfaces are entries of the tables, and transfers are for open handles
and for endpoints other than 0. -/
def FileCall.Possible (s : EndpointFiles) (hdev : ℕ) : FileCall → Prop
  | .openDevice _ _ => s.device.opened hdev = false
  | .claim _ _ _ => True
  | .release ifc => ifc.toNat < USBI_MAXINTERFACES
  | .setAltsetting ifc _ _ => ifc.toNat < USBI_MAXINTERFACES
  | .setConfiguration _ _ _ => True
  | .transfer ifc epAddr calls _ => s.device.opened hdev = true ∧ ifc.toNat < USBI_MAXINTERFACES ∧
      EndpointAddress epAddr ∧ calls.Promised s.files
  | .close => True

inductive FileCalls (ugen : Ugen) : EndpointFiles → ℕ × FileCall → EndpointFiles → Prop where
  | call {s : EndpointFiles} {hdev : ℕ} {call : FileCall} (h : call.Possible s hdev) :
      FileCalls ugen s (hdev, call) (s.exec ugen hdev call)

/-- A device that nobody has opened yet; `freed` is what lies where handles will be. -/
def EndpointFiles.new (freed : ℕ → UInt8 → InterfaceSet) (freedEndpoints : ℕ → Endpoints) : EndpointFiles where
  device := Device.new freed
  curConfigIndex := 0
  curConfigValue := 0
  endpoints := freedEndpoints
  files _ := none

/-! ## The slots -/

namespace EndpointFiles

section

variable {ugen : Ugen} {s t : EndpointFiles} {hdev h i j : ℕ} {fd : ℤ} {ep : Ep} {e : Endpoints} {b : Bool}

/-- The descriptors that the open handles have for their endpoints: the data file and the status file of each. -/
def slot (s : EndpointFiles) : ℕ × ℕ × Bool → ℤ := fun k =>
  if s.device.opened k.1 = true ∧ k.2.1 ≠ 0 then
    if k.2.2 then (s.ep k.1 k.2.1).statfd else (s.ep k.1 k.2.1).datafd
  else -1

/-- The two slots of an endpoint are written. -/
def storeSlots (slot : ℕ × ℕ × Bool → ℤ) (h i : ℕ) (data stat : ℤ) : ℕ × ℕ × Bool → ℤ :=
  Function.update (Function.update slot (h, i, false) data) (h, i, true) stat

theorem storeSlots_apply {slot : ℕ × ℕ × Bool → ℤ} {data stat : ℤ} : storeSlots slot h i data stat (hdev, j, b) =
    if hdev = h ∧ j = i then if b then stat else data else slot (hdev, j, b) := by
  unfold storeSlots
  by_cases hat : hdev = h ∧ j = i
  · rw [if_pos hat, hat.1, hat.2]
    cases b with
    | true => rw [Function.update_self, if_pos rfl]
    | false => rw [Function.update_of_ne (by simp), Function.update_self, if_neg (by simp)]
  · have hne : ∀ b', (hdev, j, b) ≠ (h, i, b') := fun b' heq => hat ⟨congrArg Prod.fst heq, congrArg (·.2.1) heq⟩
    rw [if_neg hat, Function.update_of_ne (hne true), Function.update_of_ne (hne false)]

theorem slot_data (h1 : s.device.opened h = true) (hi : i ≠ 0) : s.slot (h, i, false) = (s.ep h i).datafd := by
  rw [slot, if_pos ⟨h1, hi⟩]
  rfl

theorem slot_stat (h1 : s.device.opened h = true) (hi : i ≠ 0) : s.slot (h, i, true) = (s.ep h i).statfd := by
  rw [slot, if_pos ⟨h1, hi⟩]
  rfl

theorem slot_congr (ho : t.device.opened h = s.device.opened h) (he : t.ep h i = s.ep h i) :
    t.slot (h, i, b) = s.slot (h, i, b) := by
  simp only [slot, ho, he]

theorem slot_not_opened (h1 : s.device.opened h = false) : s.slot (h, i, b) = -1 := by
  have hnot : ¬ (s.device.opened h = true ∧ i ≠ 0) := fun hc => Bool.false_ne_true (h1.symm.trans hc.1)
  exact if_neg hnot

@[simp] theorem setEndpoints_device : (s.setEndpoints hdev e).device = s.device := rfl

@[simp] theorem setEndpoints_files : (s.setEndpoints hdev e).files = s.files := rfl

theorem setEndpoints_self : (s.setEndpoints hdev e).endpoints hdev = e := Function.update_self ..

theorem setEndpoints_of_ne (hne : h ≠ hdev) : (s.setEndpoints hdev e).endpoints h = s.endpoints h :=
  Function.update_of_ne hne ..

theorem setEp_ep : (s.setEp hdev i ep).ep h j = if h = hdev ∧ j = i then ep else s.ep h j := by
  unfold EndpointFiles.ep setEp
  by_cases hh : h = hdev
  · subst hh
    rw [setEndpoints_self]
    by_cases hj : j = i
    · rw [hj, if_pos ⟨rfl, rfl⟩]
      exact Function.update_self ..
    · rw [if_neg fun hc => hj hc.2]
      exact Function.update_of_ne hj ..
  · rw [setEndpoints_of_ne hh, if_neg fun hc => hh hc.1]

theorem setEp_self : (s.setEp hdev i ep).ep hdev i = ep := by
  rw [setEp_ep, if_pos ⟨rfl, rfl⟩]

theorem closeFile_setEp : (s.setEp hdev i ep).closeFile fd = (s.closeFile fd).setEp hdev i ep := rfl

/-- Both descriptors of an endpoint are written. -/
theorem setEp_slot (h1 : s.device.opened hdev = true) (hi : i ≠ 0) :
    (s.setEp hdev i ep).slot = storeSlots s.slot hdev i ep.datafd ep.statfd := by
  funext ⟨h, j, b⟩
  rw [storeSlots_apply]
  split_ifs with hat hb
  · obtain ⟨rfl, rfl⟩ := hat
    rw [hb, slot_stat (show (s.setEp h j ep).device.opened h = true from h1) hi, setEp_self]
  · obtain ⟨rfl, rfl⟩ := hat
    rw [Bool.eq_false_iff.mpr hb, slot_data (show (s.setEp h j ep).device.opened h = true from h1) hi, setEp_self]
  · exact slot_congr rfl (by rw [setEp_ep, if_neg hat])

/-! ### Closing -/

/-- `-1` is closed to no effect. -/
theorem closeFile_none (h : s.files fd = none) : s.closeFile fd = s := by
  unfold closeFile
  rw [← h, Function.update_eq_self]

theorem setEp_setEp {ep' : Ep} : (s.setEp hdev i ep).setEp hdev i ep' = s.setEp hdev i ep' := by
  unfold setEp
  rw [setEndpoints_self]
  simp only [setEndpoints, Function.update_idem]

theorem setEp_eq_self (h : s.ep hdev i = ep) : s.setEp hdev i ep = s := by
  unfold setEp setEndpoints
  rw [← h]
  unfold EndpointFiles.ep
  rw [Function.update_eq_self, Function.update_eq_self]

/-- The tests for `-1` make no difference. -/
theorem usbCloseEp_eq (hno : s.files (-1) = none) :
    s.usbCloseEp hdev i = (s.closeEndpoint hdev i).setInited hdev i false := by
  have hep : s.ep hdev i = ⟨(s.ep hdev i).datafd, (s.ep hdev i).statfd⟩ := rfl
  have hstat : ∀ d, (s.closeFile d).files (-1) = none := by
    intro d
    show Function.update s.files d none (-1) = none
    by_cases hd : -1 = d
    · rw [hd, Function.update_self]
    · rw [Function.update_of_ne hd, hno]
  unfold usbCloseEp closeEndpoint
  dsimp only
  by_cases hd : (s.ep hdev i).datafd = -1 <;> by_cases hst : (s.ep hdev i).statfd = -1
  · rw [if_neg (not_not.mpr hd), if_neg (not_not.mpr hst), hd, hst, closeFile_none hno, closeFile_none hno,
      setEp_eq_self (by rw [hep, hd, hst])]
  · rw [if_neg (not_not.mpr hd), if_pos hst, hd, closeFile_none hno]
  · rw [if_pos hd, setEp_self, if_neg (not_not.mpr hst), hst, closeFile_none (hstat _)]
  · rw [if_pos hd, setEp_self, if_pos hst, closeFile_setEp, setEp_setEp]

theorem setInited_ep : (s.setInited hdev i b).ep h j = s.ep h j := by
  unfold EndpointFiles.ep setInited
  by_cases hh : h = hdev
  · rw [hh, setEndpoints_self]
  · rw [setEndpoints_of_ne hh]

theorem setInited_slot : (s.setInited hdev i b).slot = s.slot := by
  funext k
  unfold slot
  rw [setInited_ep]
  rfl

/-- The files of the two slots of an endpoint are closed. -/
def closeFiles (slot : ℕ × ℕ × Bool → ℤ) (files : ℤ → Option OpenFile) (h i : ℕ) : ℤ → Option OpenFile :=
  Function.update (Function.update files (slot (h, i, false)) none) (slot (h, i, true)) none

theorem closeEndpoint_slot (h1 : s.device.opened hdev = true) (hi : i ≠ 0) :
    (s.closeEndpoint hdev i).slot = storeSlots s.slot hdev i (-1) (-1) := setEp_slot h1 hi

theorem closeEndpoint_files (h1 : s.device.opened hdev = true) (hi : i ≠ 0) :
    (s.closeEndpoint hdev i).files = closeFiles s.slot s.files hdev i := by
  unfold closeFiles
  rw [slot_data h1 hi, slot_stat h1 hi]
  rfl

/-- What changes when endpoints of a handle are closed. -/
structure ClosedEps (hdev : ℕ) (l : List ℕ) (s t : EndpointFiles) : Prop where
  device : t.device = s.device
  config : t.curConfigIndex = s.curConfigIndex ∧ t.curConfigValue = s.curConfigValue
  other : ∀ h, h ≠ hdev → t.endpoints h = s.endpoints h
  epInterface : (t.endpoints hdev).epInterface = (s.endpoints hdev).epInterface
  eps : ∀ j, t.ep hdev j = if j ∈ l then ⟨-1, -1⟩ else s.ep hdev j
  inited : ∀ j, (t.endpoints hdev).isocInInited j = if j ∈ l then false else (s.endpoints hdev).isocInInited j

theorem usbCloseEp_closed (hno : s.files (-1) = none) : ClosedEps hdev [i] s (s.usbCloseEp hdev i) := by
  rw [usbCloseEp_eq hno]
  unfold closeEndpoint
  refine ⟨rfl, ⟨rfl, rfl⟩, fun h hne => ?_, ?_, fun j => ?_, fun j => ?_⟩
  · unfold setInited setEp
    rw [setEndpoints_of_ne hne, setEndpoints_of_ne hne]
    rfl
  · unfold setInited setEp
    rw [setEndpoints_self, setEndpoints_self]
    rfl
  · rw [setInited_ep, setEp_ep]
    by_cases hj : j = i
    · rw [if_pos ⟨rfl, hj⟩, if_pos (List.mem_singleton.mpr hj)]
    · rw [if_neg fun hc => hj hc.2, if_neg fun hc => hj (List.mem_singleton.mp hc)]
      rfl
  · unfold setInited setEp
    rw [setEndpoints_self, setEndpoints_self]
    show Function.update (s.endpoints hdev).isocInInited i false j = _
    by_cases hj : j = i
    · rw [hj, Function.update_self, if_pos List.mem_cons_self]
    · rw [Function.update_of_ne hj, if_neg fun hc => hj (List.mem_singleton.mp hc)]

theorem ClosedEps.trans {u : EndpointFiles} {l l' : List ℕ} (h : ClosedEps hdev l s t) (h' : ClosedEps hdev l' t u) :
    ClosedEps hdev (l ++ l') s u := by
  refine ⟨h'.device.trans h.device, ⟨h'.config.1.trans h.config.1, h'.config.2.trans h.config.2⟩,
    fun i hi => (h'.other i hi).trans (h.other i hi), h'.epInterface.trans h.epInterface, fun j => ?_, fun j => ?_⟩
  · rw [h'.eps, h.eps]
    by_cases hj : j ∈ l <;> by_cases hj' : j ∈ l' <;> simp [hj, hj']
  · rw [h'.inited, h.inited]
    by_cases hj : j ∈ l <;> by_cases hj' : j ∈ l' <;> simp [hj, hj']

/-- What the close of an endpoint keeps, the close of a list of endpoints keeps. -/
theorem foldl_usbCloseEp {P : (ℕ × ℕ × Bool → ℤ) → (ℤ → Option OpenFile) → Prop}
    (hclose : ∀ slot files h i, P slot files → P (storeSlots slot h i (-1) (-1)) (closeFiles slot files h i))
    (hP : ∀ slot files, P slot files → files (-1) = none) {l : List ℕ} (hl : 0 ∉ l)
    (h1 : s.device.opened hdev = true) (h : P s.slot s.files) :
    ClosedEps hdev l s (l.foldl (fun s i => s.usbCloseEp hdev i) s) ∧
      P (l.foldl (fun s i => s.usbCloseEp hdev i) s).slot (l.foldl (fun s i => s.usbCloseEp hdev i) s).files := by
  induction l generalizing s with
  | nil => exact ⟨⟨rfl, ⟨rfl, rfl⟩, fun _ _ => rfl, rfl, fun _ => by simp, fun _ => by simp⟩, h⟩
  | cons i l ih =>
    obtain ⟨hi, hl'⟩ := not_or.mp (mt List.mem_cons.mpr hl)
    have hclosed := @usbCloseEp_closed s hdev i (hP _ _ h)
    have hkept : P (s.usbCloseEp hdev i).slot (s.usbCloseEp hdev i).files := by
      rw [usbCloseEp_eq (hP _ _ h), setInited_slot]
      rw [closeEndpoint_slot h1 (Ne.symm hi)]
      show P _ (s.closeEndpoint hdev i).files
      rw [closeEndpoint_files h1 (Ne.symm hi)]
      exact hclose _ _ _ _ h
    obtain ⟨hrest, hP'⟩ := ih hl' (hclosed.device ▸ h1) hkept
    exact ⟨hclosed.trans hrest, hP'⟩

/-! ## What a handle always keeps -/

/-- Every slot that is not empty has an open file of its own, and the files of an endpoint come in pairs. -/
structure Kept (slot : ℕ × ℕ × Bool → ℤ) (files : ℤ → Option OpenFile) : Prop where
  sound : Descriptors.Sound slot files
  paired : ∀ h i, slot (h, i, false) = -1 ↔ slot (h, i, true) = -1
  nonneg : ∀ k, -1 ≤ slot k
  high : ∀ h i b, USBI_MAXENDPOINTS ≤ i → slot (h, i, b) = -1

def Inv (s : EndpointFiles) : Prop := Kept s.slot s.files

/-- The endpoint's two files are open, by the test of the code. -/
def BothOpen (s : EndpointFiles) (hdev : ℕ) (epAddr : UInt8) : Prop :=
  (s.ep hdev (usbEpIndex epAddr)).datafd > 0 ∧ (s.ep hdev (usbEpIndex epAddr)).statfd > 0

/-- The handle may use the endpoint: the tests of `usb_check_device_and_status_open`. -/
structure Admits (s : EndpointFiles) (hdev : ℕ) (ifc epAddr : UInt8) : Prop where
  claimed : (s.device.claimedIfs hdev ifc).clm ≠ -1
  setting : (s.device.claimedIfs hdev ifc).altsetting ≠ -1
  slot : (s.endpoints hdev).epInterface (usbEpIndex epAddr) = ifc.toNat

/-- The calls that open an endpoint succeed. -/
structure Opens (epAddr : UInt8) (epType : EpType) (calls : EndpointOpen) : Prop where
  enabled : epType = .interrupt → epAddr &&& 0x80 ≠ 0 → calls.control ≠ -1 → calls.written = 1
  data : calls.data ≠ -1
  stat : calls.stat ≠ -1

/-- The byte for an interrupt IN endpoint is not written, with `errno` 0: the check returns 0, and has opened nothing. -/
structure ShortWrite (epAddr : UInt8) (epType : EpType) (calls : EndpointOpen) : Prop where
  interrupt : epType = .interrupt ∧ epAddr &&& 0x80 ≠ 0
  control : calls.control ≠ -1
  written : calls.written ≠ 1
  errno : calls.writtenErrno = 0

/-- The state after the files of an endpoint have been opened. -/
def openedEndpoint (ugen : Ugen) (s : EndpointFiles) (hdev : ℕ) (ifc epAddr : UInt8) (calls : EndpointOpen) :
    EndpointFiles :=
  ((s.openFile calls.data (s.filename ugen hdev ifc epAddr)).openFile calls.stat
    (statfilename (s.filename ugen hdev ifc epAddr))).setEp hdev (usbEpIndex epAddr) ⟨calls.data, calls.stat⟩

section

variable {ifc epAddr : UInt8} {epType : EpType} {calls : EndpointOpen} {request : EndpointRequest}

/-- A file that is opened and closed again. -/
theorem openFile_closeFile {name : String} (h : s.files fd = none) : (s.openFile fd name).closeFile fd = s := by
  unfold openFile closeFile
  dsimp only
  rw [Function.update_idem, ← h, Function.update_eq_self]

/-- The open of an endpoint without the files that are closed again. -/
theorem openEndpoint_eq (hcalls : calls.Promised s.files) : s.openEndpoint ugen hdev ifc epAddr epType calls =
    if (epType = .interrupt ∧ epAddr &&& 0x80 ≠ 0) ∧ calls.control ≠ -1 ∧ calls.written ≠ 1 then (calls.writtenErrno, s)
    else if calls.data = -1 then (calls.dataErrno, s)
    else if calls.stat = -1 then (calls.statErrno, s)
    else (0, s.openedEndpoint ugen hdev ifc epAddr calls) := by
  have hcontrol : calls.control ≠ -1 → s.files calls.control = none := fun hne => (hcalls.control.resolve_left hne).2
  have hdata : calls.data ≠ -1 → s.files calls.data = none := fun hne => (hcalls.data.resolve_left hne).2
  have hrest : (if calls.data = -1 then (calls.dataErrno, s)
      else if calls.stat = -1 then
        (calls.statErrno, (s.openFile calls.data (s.filename ugen hdev ifc epAddr)).closeFile calls.data)
      else (0, s.openedEndpoint ugen hdev ifc epAddr calls)) = (if calls.data = -1 then (calls.dataErrno, s)
      else if calls.stat = -1 then (calls.statErrno, s)
      else (0, s.openedEndpoint ugen hdev ifc epAddr calls)) := by
    split_ifs with hd hst
    · rfl
    · rw [openFile_closeFile (hdata hd)]
    · rfl
  unfold openEndpoint enableOneXfer
  dsimp only
  by_cases hintr : epType = .interrupt ∧ epAddr &&& 0x80 ≠ 0
  · by_cases hctrl : calls.control = -1
    · rw [if_pos hintr, if_pos hctrl, if_neg fun hc => hc.2.1 hctrl]
      exact hrest
    · rw [if_pos hintr, if_neg hctrl, openFile_closeFile (hcontrol hctrl)]
      by_cases hwritten : calls.written = 1
      · rw [if_neg (not_not.mpr hwritten), if_neg fun hc => hc.2.2 hwritten]
        exact hrest
      · rw [if_pos hwritten, if_pos ⟨hintr, hctrl, hwritten⟩]
  · rw [if_neg hintr, if_neg fun hc => hintr hc.1]
    exact hrest

/-- What `usb_check_device_and_status_open` does: it opens both files, or nothing that lasts. -/
theorem check_cases (hcalls : calls.Promised s.files) :
    ((s.Admits hdev ifc epAddr ∧ ¬ s.BothOpen hdev epAddr ∧ Opens epAddr epType calls) ∧
      s.usbCheckDeviceAndStatusOpen ugen hdev ifc epAddr epType calls =
        (0, s.openedEndpoint ugen hdev ifc epAddr calls)) ∨
    (¬ (s.Admits hdev ifc epAddr ∧ ¬ s.BothOpen hdev epAddr ∧ Opens epAddr epType calls) ∧
      (s.usbCheckDeviceAndStatusOpen ugen hdev ifc epAddr epType calls).2 = s ∧
      ((s.usbCheckDeviceAndStatusOpen ugen hdev ifc epAddr epType calls).1 = 0 → s.Admits hdev ifc epAddr ∧
        (s.BothOpen hdev epAddr ∨ ShortWrite epAddr epType calls))) := by
  unfold usbCheckDeviceAndStatusOpen
  split_ifs with hfree hslot hboth
  · exact .inr ⟨fun h => hfree.elim h.1.claimed h.1.setting, rfl, fun h => absurd h (show ¬ EACCES = 0 by decide)⟩
  · exact .inr ⟨fun h => hslot h.1.slot.symm, rfl, fun h => absurd h (show ¬ EACCES = 0 by decide)⟩
  · obtain ⟨hclm, halt⟩ := not_or.mp hfree
    exact .inr ⟨fun h => h.2.1 hboth, rfl, fun _ => ⟨⟨hclm, halt, (not_not.mp hslot).symm⟩, .inl hboth⟩⟩
  obtain ⟨hclm, halt⟩ := not_or.mp hfree
  have hadmits : s.Admits hdev ifc epAddr := ⟨hclm, halt, (not_not.mp hslot).symm⟩
  rw [openEndpoint_eq hcalls]
  split_ifs with hearly hdata hstat
  · refine .inr ⟨fun h => ?_, rfl, fun herrno => ⟨hadmits, .inr ⟨hearly.1, hearly.2.1, hearly.2.2, herrno⟩⟩⟩
    exact hearly.2.2 (h.2.2.enabled hearly.1.1 hearly.1.2 hearly.2.1)
  · exact .inr ⟨fun h => h.2.2.data hdata, rfl, fun h => absurd h (hcalls.dataErrno hdata)⟩
  · exact .inr ⟨fun h => h.2.2.stat hstat, rfl, fun h => absurd h (hcalls.statErrno hstat)⟩
  · refine .inl ⟨⟨hadmits, hboth, fun h1 h2 h3 => ?_, hdata, hstat⟩, rfl⟩
    by_contra hwritten
    exact hearly ⟨⟨h1, h2⟩, h3, hwritten⟩

/-- What a transfer does is made of these: it opens the endpoint, uses it, marks it as started, and closes it. -/
theorem submit_keeps {P : EndpointFiles → Prop} (hcalls : calls.Promised s.files)
    (hs : ¬ (request.Accepted ∧ s.Admits hdev ifc epAddr ∧ ¬ s.BothOpen hdev epAddr ∧
      Opens epAddr request.epType calls) → P s)
    (hopen : s.Admits hdev ifc epAddr → ¬ s.BothOpen hdev epAddr → Opens epAddr request.epType calls →
      request.Accepted → P (s.openedEndpoint ugen hdev ifc epAddr calls))
    (hio : ∀ u fd op, P u → P (u.doIo fd op)) (hflag : ∀ u, P u → P (u.setInited hdev (usbEpIndex epAddr) true))
    (hclose : ∀ u, P u → P (u.closeEndpoint hdev (usbEpIndex epAddr))) :
    P (s.submit ugen hdev ifc epAddr calls request) := by
  have hcheck : request.Accepted →
      P (s.usbCheckDeviceAndStatusOpen ugen hdev ifc epAddr request.epType calls).2 := by
    intro haccepted
    rcases check_cases hcalls with ⟨⟨hadmits, hboth, hopens⟩, heq⟩ | ⟨hnot, heq, -⟩
    · rw [heq]
      exact hopen hadmits hboth hopens haccepted
    · rw [heq]
      exact hs fun hc => hnot hc.2
  have hread : ∀ u fd isoc, P u → P (u.readIsoc fd isoc) := by
    intro u fd isoc hu
    unfold readIsoc
    split_ifs
    · exact hu
    · exact hu
    · exact hio u fd _ hu
  have hdata : ∀ u length, P u → P (u.readData hdev epAddr length) := by
    intro u length hu
    unfold readData
    split_ifs
    · exact hu
    · exact hio u _ _ hu
  have hbulk : ∀ length, request.epType = .bulk → request.Accepted →
      P (s.solarisSubmitBulk ugen hdev ifc epAddr calls length) := by
    intro length htype haccepted
    have hP := hcheck haccepted
    rw [htype] at hP
    unfold solarisSubmitBulk
    dsimp only
    split_ifs
    · exact hP
    · exact hdata _ _ hP
  cases request with
  | ctrl length => exact hbulk length rfl trivial
  | bulk length => exact hbulk length rfl trivial
  | intr length =>
    show P (s.solarisSubmitIntr ugen hdev ifc epAddr calls length)
    unfold solarisSubmitIntr
    dsimp only
    split_ifs
    · exact hcheck trivial
    · exact hclose _ (hdata _ _ (hcheck trivial))
    · exact hdata _ _ (hcheck trivial)
  | isoc isoc =>
    show P (s.solarisSubmitIsoc ugen hdev ifc epAddr calls isoc)
    unfold solarisSubmitIsoc
    dsimp only
    split_ifs with hflags
    · exact hs fun hc => hc.1 hflags
    all_goals have hP := hcheck (show EndpointRequest.Accepted (.isoc isoc) from hflags)
    · exact hP
    · exact hP
    · exact hP
    · exact hP
    · exact hread _ _ _ hP
    · exact hflag _ (hio _ _ _ hP)
    · exact hread _ _ _ (hflag _ (hio _ _ _ hP))

end

end

end EndpointFiles

end Solaris

end OpenUsb
