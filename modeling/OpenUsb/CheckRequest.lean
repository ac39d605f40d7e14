import OpenUsb.AllOrNothing
import OpenUsb.Claim
import OpenUsb.ConfigForm
import OpenUsb.Urbs

/-!
# CheckRequest — the two checks of a request

`check_req_valid` looks only at the mark of the interface, and from debug level 5 on at the descriptors of the device as
well.  For these it hands the value of the current configuration to `usbi_get_config_desc`, which takes an index.

* `check_req_valid_iff`: when the checks accept the right requests.
-/

namespace OpenUsb

open Prog

/-! ## The device and the handle -/

/-- A configuration is well formed with all its settings, and says how long it is. -/
structure ConfigFormed (c : List UInt8) : Prop where
  length : c.length = totalLength c
  formed : WellFormed (blobMem c) ⟨0, c.length⟩
  endpoints : ∀ w ∈ chain (blobMem c) 0 c.length, isInterface (blobMem c) w = true → EndpointsFormed (blobMem c) w

/-- A device with its configurations, in the order of their indices, and the current one. -/
structure ReqDevice where
  configs : List (List UInt8)
  current : Option (Fin configs.length)
  formed : ∀ c ∈ configs, ConfigFormed c

/-- The bytes of the current configuration. -/
def ReqDevice.currentConfig (dev : ReqDevice) : Option (List UInt8) := dev.current.map dev.configs.get

/-- What GET_CONFIGURATION answers: zero when the device is not configured. -/
def ReqDevice.currentValue (dev : ReqDevice) : UInt8 :=
  match dev.currentConfig with
  | none => 0
  | some c => c.getD 5 0

/-- The control transfers of the check. -/
inductive XferSite where
  | getConfiguration
  | header
  | body
  deriving DecidableEq, Repr

/-- What the check finds: the handle, the transfers that fail, with their errors, whether there is memory, and the stack. -/
structure CheckState where
  debug_level : UInt32
  hdev : DevHandle
  fails : XferSite → Option { e : ℤ // e < 0 } := fun _ => none
  alloc : Bool := true
  stack : ℕ → UInt8 := fun _ => 0

/-- The fields of a request that are checked. -/
structure CheckedReq where
  type : TransferType
  interface : UInt8
  endpoint : UInt8
  deriving DecidableEq, Repr

/-! ## The checks -/

section

variable (dev : ReqDevice) (s : CheckState)

/-- `openusb_get_configuration`, as far as its caller goes. -/
def openusbGetConfiguration : Except ℤ UInt8 :=
  if !s.hdev.opened then .error OPENUSB_UNKNOWN_DEVICE
  else match s.fails .getConfiguration with
    | some e => .error e
    | none => .ok dev.currentValue

/-- `usbi_get_config_desc`: the bytes in its buffer.  The device stalls the request for an index that it does not have. -/
def usbiGetConfigDesc (cfg : UInt8) : Except ℤ (List UInt8) :=
  match s.fails .header with
  | some e => .error e
  | none => match dev.configs[cfg.toNat]? with
    | none => .error OPENUSB_IO_STALL
    | some c =>
      let out := openusbParseData (bufMem (c.take 8) s.stack) (some fmtTotalLength) (some 0) 8 (some 0) sizeofConfigDesc true
      let cfg_desc := out.stores.foldl UsbConfigDesc.store {}
      let len := cfg_desc.wTotalLength.toNat
      if !s.alloc then .error OPENUSB_NO_RESOURCES
      else match s.fails .body with
        | some e => .error e
        | none => .ok ((c ++ List.replicate len 0).take len)

/-- The loop over the endpoints, with `n` rounds to go: an error, or the endpoint with that address, if there is one. -/
def endpointSearch (buf : List UInt8) (ifc alt endpoint : UInt8) :
    ℕ → ℕ → UsbEndpointDesc → Prog Ev (Except ℤ (Option UsbEndpointDesc))
  | 0, _, _ => pure (.ok none)
  | n + 1, i, ep_desc => do
    let (ret, ep_desc) ←
      openusbParseEndpointDesc (blobEnv buf) true (0, ⟨0, 0⟩) (some 0) buf.length ifc alt (UInt8.ofNat i) ep_desc
    if ret < 0 then pure (.error ret)
    else if endpoint = ep_desc.bEndpointAddress then pure (.ok (some ep_desc))
    else endpointSearch buf ifc alt endpoint n (i + 1) ep_desc

def USB_EP_TYPE_MASK : UInt8 := 0x03

/-- The switch on the type of the request. -/
def typeCheck (type : TransferType) (bmAttributes : UInt8) : ℤ :=
  match type with
  | .control => if bmAttributes &&& USB_EP_TYPE_MASK ≠ 0 then OPENUSB_INVALID_HANDLE else OPENUSB_SUCCESS
  | .interrupt => if bmAttributes &&& USB_EP_TYPE_MASK ≠ 3 then OPENUSB_INVALID_HANDLE else OPENUSB_SUCCESS
  | .bulk => if bmAttributes &&& USB_EP_TYPE_MASK ≠ 2 then OPENUSB_INVALID_HANDLE else OPENUSB_SUCCESS
  | .isochronous => if bmAttributes &&& USB_EP_TYPE_MASK ≠ 1 then OPENUSB_INVALID_HANDLE else OPENUSB_SUCCESS
  | .all | .last => OPENUSB_INVALID_HANDLE

/-- The end of `check_req_valid`, behind the search for the endpoint. -/
def searchAnswer (type : TransferType) : Except ℤ (Option UsbEndpointDesc) → ℤ
  | .error ret => ret
  | .ok none => OPENUSB_INVALID_HANDLE
  | .ok (some ep_desc) => typeCheck type ep_desc.bmAttributes

/-- The part of `check_req_valid` behind the descriptors, which are in `buf`. -/
def checkDescriptors (req : CheckedReq) (alt : UInt8) (buf : List UInt8) : Prog Ev ℤ := do
  let (ret, if_desc) ←
    openusbParseInterfaceDesc (blobEnv buf) true (0, ⟨0, 0⟩) (some 0) buf.length req.interface alt {}
  if ret < 0 then pure ret
  else do
    let found ← endpointSearch buf req.interface alt req.endpoint if_desc.bNumEndpoints.toNat 0 {}
    pure (searchAnswer req.type found)

/-- `check_req_valid`. -/
def checkReqValid (req : CheckedReq) : Prog Ev ℤ :=
  if req.endpoint = 0 ∧ req.type = .control then pure 0
  else if req.endpoint = 0 then pure (-1)
  else if s.debug_level < 5 then
    if openusbIsInterfaceClaimed s.hdev req.interface = 1 then pure 0 else pure (-1)
  else match openusbGetConfiguration dev s with
    | .error ret => pure ret
    | .ok cfg => match openusbGetAltsetting s.hdev req.interface with
      | (ret, alt) =>
        if ret < 0 then pure ret
        -- the value of the configuration stands where its index should
        else match usbiGetConfigDesc dev s cfg with
          | .error ret => pure ret
          | .ok buf => checkDescriptors req (alt.getD 0) buf

end

/-! ## Good requests -/

/-- The endpoint attribute of a transfer type. -/
def attributeOf : TransferType → Option UInt8
  | .control => some 0
  | .isochronous => some 1
  | .bulk => some 2
  | .interrupt => some 3
  | .all | .last => none

/-- The setting of the interface has an endpoint with that address, for transfers of that type. -/
def HasEndpoint (req : CheckedReq) (alt : UInt8) (c : List UInt8) : Prop :=
  ∃ w ∈ chain (blobMem c) 0 c.length, isInterface (blobMem c) w = true ∧ blobMem c (w.1 + 2) = req.interface ∧
    blobMem c (w.1 + 3) = alt ∧ ∃ e ∈ endpointsAt (blobMem c) w, blobMem c (e.1 + 2) = req.endpoint ∧
      attributeOf req.type = some (blobMem c (e.1 + 3) &&& USB_EP_TYPE_MASK)

section

variable (dev : ReqDevice) (s : CheckState) (req : CheckedReq)

/-- The setting of the interface that the handle keeps. -/
def currentAlt : UInt8 := UInt8.ofInt (s.hdev.claimedIfs req.interface).altsetting

/-- The mark of the interface says that it is claimed. -/
def Marked : Prop := s.hdev.opened = true ∧ req.interface.toNat ≤ USBI_MAXINTERFACES ∧
  (s.hdev.claimedIfs req.interface).clm = USBI_IFC_CLAIMED

/-- The request names endpoint 0 with a control transfer, or a claimed interface and an endpoint of its current setting whose
type matches. -/
def GoodRequest : Prop :=
  (req.endpoint = 0 ∧ req.type = .control) ∨
    (Marked s req ∧ req.interface.toNat < USBI_MAXINTERFACES ∧
      ∃ c, dev.currentConfig = some c ∧ HasEndpoint req (currentAlt s req) c)

/-- The transfers succeed, and there is memory for the descriptors. -/
def Fetches : Prop := (∀ site, s.fails site = none) ∧ s.alloc = true

/-- The configuration whose index is the value of the current one has the endpoint. -/
def IndexedHasEndpoint : Prop := ∃ c, dev.configs[dev.currentValue.toNat]? = some c ∧ HasEndpoint req (currentAlt s req) c

/-- Good requests pass, and from debug level 5 on no others do. -/
def AcceptsGood (ret : ℤ) : Prop :=
  (GoodRequest dev s req → 0 ≤ ret) ∧ (5 ≤ s.debug_level → 0 ≤ ret → GoodRequest dev s req)

end

/-! ## The search for the endpoint -/

/-- What the loop finds among these endpoint descriptors. -/
def SearchGives (mem : ℤ → UInt8) (endpoint : UInt8) (l : List (ℤ × ℕ)) (r : Except ℤ (Option UsbEndpointDesc)) : Prop :=
  match l.find? fun e => decide (mem (e.1 + 2) = endpoint) with
  | none => r = .ok none
  | some e => ∃ ep_desc, r = .ok (some ep_desc) ∧ ep_desc.bmAttributes = mem (e.1 + 3)

section

variable {buf : List UInt8} {ifc alt endpoint : UInt8} {w : ℤ × ℕ}

theorem returns_endpointSearch (hwf : WellFormed (blobMem buf) ⟨0, buf.length⟩)
    (hfound : altFound (blobMem buf) ifc alt 0 buf.length = some w) (hform : EndpointsFormed (blobMem buf) w) (n i : ℕ)
    (hsum : i + n = (blobMem buf (w.1 + 4)).toNat) (ep_desc : UsbEndpointDesc) :
    ∃ r, (endpointSearch buf ifc alt endpoint n i ep_desc).Returns r ∧
      SearchGives (blobMem buf) endpoint ((endpointsAt (blobMem buf) w).drop i) r := by
  have hlast := (blobMem buf (w.1 + 4)).toNat_lt
  induction n generalizing i ep_desc with
  | zero =>
    refine ⟨.ok none, returns_pure.mpr rfl, ?_⟩
    rw [SearchGives, List.drop_eq_nil_of_le (by rw [hform.count]; omega)]
    rfl
  | succ n ih =>
    have hidx : (UInt8.ofNat i).toNat = i := by
      rw [UInt8.toNat_ofNat', Nat.mod_eq_of_lt (by omega)]
    obtain ⟨e, hget, hept⟩ := @endpointFound_eq (blobMem buf) ⟨0, buf.length⟩ hwf ifc alt (UInt8.ofNat i) w hfound hform
      (by omega)
    rw [hidx] at hget
    obtain ⟨⟨r, hr⟩, -, hanswers⟩ := @parse_endpoint_desc_exact (blobEnv buf) 0 buf.length hwf.nine_le hwf.small (0, ⟨0, 0⟩)
      ifc alt (UInt8.ofNat i) ep_desc
    have hans : Answers (fun p => endpointOver (blobMem buf) p ep_desc)
        (endpointFound (blobMem buf) ifc alt (UInt8.ofNat i) 0 buf.length) r := hanswers r hr
    rw [hept] at hans
    obtain rfl : r = (OPENUSB_SUCCESS, endpointOver (blobMem buf) e.1 ep_desc) := hans
    have hdrop : (endpointsAt (blobMem buf) w).drop i = e :: (endpointsAt (blobMem buf) w).drop (i + 1) := by
      obtain ⟨hlt, heq⟩ := List.getElem?_eq_some_iff.mp hget
      rw [List.drop_eq_getElem_cons hlt, heq]
    have haddress : (endpointOver (blobMem buf) e.1 ep_desc).bEndpointAddress = blobMem buf (e.1 + 2) := rfl
    have hreturns {r : Except ℤ (Option UsbEndpointDesc)} :
        (endpointSearch buf ifc alt endpoint (n + 1) i ep_desc).Returns r ↔
        (if endpoint = blobMem buf (e.1 + 2) then pure (.ok (some (endpointOver (blobMem buf) e.1 ep_desc)))
          else endpointSearch buf ifc alt endpoint n (i + 1) (endpointOver (blobMem buf) e.1 ep_desc) :
            Prog Ev (Except ℤ (Option UsbEndpointDesc))).Returns r := by
      rw [endpointSearch, hr.bind_iff]
      dsimp only
      rw [if_neg (by decide), haddress]
    by_cases hhit : endpoint = blobMem buf (e.1 + 2)
    · refine ⟨_, hreturns.mpr (by rw [if_pos hhit]; exact returns_pure.mpr rfl), ?_⟩
      rw [SearchGives, hdrop, List.find?_cons_of_pos (by simpa using hhit.symm)]
      exact ⟨_, rfl, rfl⟩
    · obtain ⟨r, hr, hgives⟩ := ih (i + 1) (by omega) (endpointOver (blobMem buf) e.1 ep_desc)
      refine ⟨r, hreturns.mpr (by rwa [if_neg hhit]), ?_⟩
      rw [SearchGives, hdrop, List.find?_cons_of_neg (by simpa using Ne.symm hhit)]
      exact hgives

theorem typeCheck_iff {type : TransferType} {bmAttributes : UInt8} :
    0 ≤ typeCheck type bmAttributes ↔ attributeOf type = some (bmAttributes &&& USB_EP_TYPE_MASK) := by
  have hinvalid : ¬ 0 ≤ OPENUSB_INVALID_HANDLE := by decide
  have hcase {n : UInt8} : (0 ≤ if bmAttributes &&& USB_EP_TYPE_MASK ≠ n then OPENUSB_INVALID_HANDLE else OPENUSB_SUCCESS) ↔
      some n = some (bmAttributes &&& USB_EP_TYPE_MASK) := by
    rw [Option.some_inj]
    by_cases hn : bmAttributes &&& USB_EP_TYPE_MASK = n
    · rw [if_neg (not_not.mpr hn)]
      exact iff_of_true le_rfl hn.symm
    · rw [if_pos hn]
      exact iff_of_false hinvalid (Ne.symm hn)
  cases type with
  | control => exact hcase
  | interrupt => exact hcase
  | bulk => exact hcase
  | isochronous => exact hcase
  | all => exact iff_of_false hinvalid nofun
  | last => exact iff_of_false hinvalid nofun

/-- The switch behind the search accepts the type of the one endpoint with the address. -/
theorem searchAnswer_iff {mem : ℤ → UInt8} {l : List (ℤ × ℕ)} {found : Except ℤ (Option UsbEndpointDesc)}
    {type : TransferType} (hdistinct : (l.map fun e => mem (e.1 + 2)).Nodup) (hgives : SearchGives mem endpoint l found) :
    0 ≤ searchAnswer type found ↔
      ∃ e ∈ l, mem (e.1 + 2) = endpoint ∧ attributeOf type = some (mem (e.1 + 3) &&& USB_EP_TYPE_MASK) := by
  rw [SearchGives] at hgives
  cases hfind : l.find? fun e => decide (mem (e.1 + 2) = endpoint) with
  | none =>
    rw [hfind] at hgives
    subst hgives
    refine iff_of_false (show ¬ 0 ≤ OPENUSB_INVALID_HANDLE by decide) ?_
    rintro ⟨e, he, haddress, -⟩
    exact absurd (decide_eq_true haddress) (by simpa using List.find?_eq_none.mp hfind e he)
  | some e =>
    rw [hfind] at hgives
    obtain ⟨ep_desc, rfl, hattributes⟩ := hgives
    have he := List.mem_of_find?_eq_some hfind
    have haddress : mem (e.1 + 2) = endpoint := by simpa using List.find?_some hfind
    rw [searchAnswer, typeCheck_iff, hattributes]
    constructor
    · exact fun htype => ⟨e, he, haddress, htype⟩
    · rintro ⟨e', he', haddress', htype⟩
      have heq : e' = e := List.inj_on_of_nodup_map hdistinct he' he (haddress'.trans haddress.symm)
      rwa [heq] at htype

/-- The setting that the walkers find is the one to have the endpoint. -/
theorem hasEndpoint_iff (hwf : WellFormed (blobMem buf) ⟨0, buf.length⟩) (req : CheckedReq) :
    HasEndpoint req alt buf ↔ ∃ w, altFound (blobMem buf) req.interface alt 0 buf.length = some w ∧
      ∃ e ∈ endpointsAt (blobMem buf) w, blobMem buf (e.1 + 2) = req.endpoint ∧
        attributeOf req.type = some (blobMem buf (e.1 + 3) &&& USB_EP_TYPE_MASK) := by
  have halt {w : ℤ × ℕ} := @altFound_iff (blobMem buf) ⟨0, buf.length⟩ hwf req.interface alt w
  constructor
  · rintro ⟨w, hw, hifc, hnum, hval, he⟩
    exact ⟨w, halt.mpr ⟨hw, hifc, hnum, hval⟩, he⟩
  · rintro ⟨w, hfound, he⟩
    obtain ⟨hw, hifc, hnum, hval⟩ := halt.mp hfound
    exact ⟨w, hw, hifc, hnum, hval, he⟩

/-- The part behind the descriptors accepts the endpoints of the setting. -/
theorem returns_checkDescriptors (hc : ConfigFormed buf) (req : CheckedReq) (alt : UInt8) :
    ∃ ret, (checkDescriptors req alt buf).Returns ret ∧ (0 ≤ ret ↔ HasEndpoint req alt buf) := by
  have hwf := hc.formed
  obtain ⟨⟨r, hr⟩, -, hanswers⟩ := @parse_interface_desc_exact (blobEnv buf) 0 buf.length hwf.nine_le hwf.small (0, ⟨0, 0⟩)
    req.interface alt {}
  have hans : Answers (interfaceAt (blobMem buf)) (interfaceFound (blobMem buf) req.interface alt 0 buf.length) r :=
    hanswers r hr
  rw [hasEndpoint_iff hwf]
  cases hfound : altFound (blobMem buf) req.interface alt 0 buf.length with
  | none =>
    rw [interfaceFound, hfound] at hans
    have hneg : r.1 < 0 := hans
    refine ⟨r.1, ?_, iff_of_false (Int.not_le.mpr hneg) ?_⟩
    · rw [checkDescriptors, hr.bind_iff]
      dsimp only
      rw [if_pos hneg]
      exact returns_pure.mpr rfl
    · rintro ⟨w, hw, -⟩
      cases hw
  | some w =>
    obtain ⟨hw, hifc, -⟩ := (altFound_iff hwf).mp hfound
    rw [interfaceFound, hfound, Option.bind_some, if_pos (hwf.nine_le_left hw hifc)] at hans
    obtain rfl : r = (OPENUSB_SUCCESS, interfaceAt (blobMem buf) w.1) := hans
    have hform := hc.endpoints w hw hifc
    obtain ⟨found, hsearch, hgives⟩ := @returns_endpointSearch buf req.interface alt req.endpoint w hwf hfound hform
      (blobMem buf (w.1 + 4)).toNat 0 (Nat.zero_add _) {}
    have hreturns : (checkDescriptors req alt buf).Returns (searchAnswer req.type found) := by
      rw [checkDescriptors, hr.bind_iff]
      dsimp only
      rw [if_neg (by decide)]
      exact hsearch.bind_iff.mpr (returns_pure.mpr rfl)
    rw [List.drop_zero] at hgives
    refine ⟨_, hreturns, (searchAnswer_iff hform.distinct hgives).trans ⟨fun he => ⟨w, rfl, he⟩, ?_⟩⟩
    rintro ⟨w', hw', he⟩
    rwa [Option.some_inj.mp hw']

end

/-! ## The descriptors -/

/-- The first eight bytes of a configuration are parsed to its length. -/
theorem parse_header {c : List UInt8} (hlen : 4 ≤ c.length) (stack : ℕ → UInt8) :
    ((openusbParseData (bufMem (c.take 8) stack) (some fmtTotalLength) (some 0) 8 (some 0) sizeofConfigDesc
      true).stores.foldl UsbConfigDesc.store {}).wTotalLength.toNat = totalLength c := by
  have hlt := totalLength_lt c
  obtain ⟨a, b, l, u, rest, rfl⟩ : ∃ a b l u rest, c = a :: b :: l :: u :: rest := by
    match c, hlen with
    | a :: b :: l :: u :: rest, _ => exact ⟨a, b, l, u, rest, rfl⟩
  simp [openusbParseData, parseChars, parseChar, parseField, fmtTotalLength, sizeofConfigDesc, UsbConfigDesc.store,
    leValue, bufMem, totalLength] at hlt ⊢
  exact hlt

section

variable {dev : ReqDevice} {s : CheckState} {req : CheckedReq} {cfg : UInt8}

theorem openusbGetConfiguration_ok (h : s.hdev.opened = true ∧ s.fails .getConfiguration = none) :
    openusbGetConfiguration dev s = .ok dev.currentValue := by
  unfold openusbGetConfiguration
  rw [h.1, h.2]
  rfl

theorem openusbGetConfiguration_error (dev : ReqDevice) (h : ¬ (s.hdev.opened = true ∧ s.fails .getConfiguration = none)) :
    ∃ e < 0, openusbGetConfiguration dev s = .error e := by
  unfold openusbGetConfiguration
  cases hopened : s.hdev.opened with
  | false => exact ⟨_, by decide, rfl⟩
  | true =>
    cases hfirst : s.fails .getConfiguration with
    | some e => exact ⟨e, e.2, rfl⟩
    | none => exact absurd ⟨hopened, hfirst⟩ h

/-- The bytes are those of the configuration with that index. -/
theorem usbiGetConfigDesc_ok {c : List UInt8} (hfetch : Fetches s) (hget : dev.configs[cfg.toNat]? = some c) :
    usbiGetConfigDesc dev s cfg = .ok c := by
  have hc := dev.formed c (List.mem_of_getElem? hget)
  have hnine : 9 ≤ c.length := hc.formed.nine_le
  have htake : (c ++ List.replicate (totalLength c) 0).take (totalLength c) = c := by
    rw [← hc.length, List.take_left]
  unfold usbiGetConfigDesc
  rw [hfetch.1 .header]
  dsimp only
  rw [hget]
  dsimp only
  rw [parse_header (by omega), hfetch.2, hfetch.1 .body]
  exact congrArg Except.ok htake

/-- The function fails without that configuration, a transfer or memory. -/
theorem usbiGetConfigDesc_error (h : ¬ (Fetches s ∧ ∃ c, dev.configs[cfg.toNat]? = some c))
    (hfirst : s.fails .getConfiguration = none) : ∃ e < 0, usbiGetConfigDesc dev s cfg = .error e := by
  unfold usbiGetConfigDesc
  cases hheader : s.fails .header with
  | some e => exact ⟨e, e.2, rfl⟩
  | none =>
    cases hget : dev.configs[cfg.toNat]? with
    | none => exact ⟨_, by decide, rfl⟩
    | some c =>
      dsimp only
      cases halloc : s.alloc with
      | false => exact ⟨_, by decide, rfl⟩
      | true =>
        cases hbody : s.fails .body with
        | some e => exact ⟨e, e.2, rfl⟩
        | none =>
          refine absurd ⟨⟨fun site => ?_, halloc⟩, c, hget⟩ h
          cases site with
          | getConfiguration => exact hfirst
          | header => exact hheader
          | body => exact hbody

end

/-! ## The checks as a whole -/

section

variable (dev : ReqDevice) (s : CheckState) (req : CheckedReq)

/-- The tests that both functions begin with look for the mark. -/
theorem marked_guards {α : Type} {P : α → Prop} {a b c d : α} (ha : ¬ P a) (hb : ¬ P b) (hc : P c) (hd : ¬ P d) :
    P (if req.interface.toNat > USBI_MAXINTERFACES then a else if (!s.hdev.opened) = true then b
      else if (s.hdev.claimedIfs req.interface).clm = USBI_IFC_CLAIMED then c else d) ↔ Marked s req := by
  unfold Marked
  split_ifs with hifc hopened hclm
  · exact iff_of_false ha fun h => by omega
  · exact iff_of_false hb fun h => by simp [h.1] at hopened
  · exact iff_of_true hc ⟨by simpa using hopened, by omega, hclm⟩
  · exact iff_of_false hd fun h => hclm h.2.2

/-- The alternate setting is that of a marked interface. -/
theorem getAltsetting_iff : 0 ≤ (openusbGetAltsetting s.hdev req.interface).1 ↔ Marked s req := by
  unfold openusbGetAltsetting
  rw [ite_not]
  exact marked_guards s req (P := fun r : ℤ × Option UInt8 => 0 ≤ r.1) (by decide) (by decide) le_rfl (by decide)

theorem getAltsetting_alt (h : Marked s req) :
    openusbGetAltsetting s.hdev req.interface = (OPENUSB_SUCCESS, some (currentAlt s req)) := by
  obtain ⟨hopened, hifc, hclm⟩ := h
  unfold openusbGetAltsetting
  rw [if_neg (by omega), hopened, if_neg (by decide), if_neg (not_not.mpr hclm)]
  rfl

/-- The quick check looks at the mark. -/
theorem isInterfaceClaimed_iff : openusbIsInterfaceClaimed s.hdev req.interface = 1 ↔ Marked s req :=
  marked_guards s req (P := fun ret : ℤ => ret = 1) (by decide) (by decide) rfl (by decide)

/-- The full check, stage by stage. -/
theorem checkReqValid_full (hep : req.endpoint ≠ 0) (hdebug : 5 ≤ s.debug_level) :
    checkReqValid dev s req = match openusbGetConfiguration dev s with
      | .error ret => pure ret
      | .ok cfg =>
        if (openusbGetAltsetting s.hdev req.interface).1 < 0 then pure (openusbGetAltsetting s.hdev req.interface).1
        else match usbiGetConfigDesc dev s cfg with
          | .error ret => pure ret
          | .ok buf => checkDescriptors req ((openusbGetAltsetting s.hdev req.interface).2.getD 0) buf := by
  unfold checkReqValid
  rw [if_neg (fun h => hep h.1), if_neg hep, if_neg (by rwa [UInt32.not_lt])]

/-- The full check asks for the mark, and for the endpoint in the configuration with the wrong index. -/
theorem returns_fullCheck (hep : req.endpoint ≠ 0) (hdebug : 5 ≤ s.debug_level) :
    ∃ ret, (checkReqValid dev s req).Returns ret ∧
      (0 ≤ ret ↔ Marked s req ∧ Fetches s ∧ IndexedHasEndpoint dev s req) := by
  rw [checkReqValid_full dev s req hep hdebug]
  by_cases hfirst : s.hdev.opened = true ∧ s.fails .getConfiguration = none
  · rw [openusbGetConfiguration_ok hfirst]
    dsimp only
    by_cases hmarked : Marked s req
    · rw [getAltsetting_alt s req hmarked, if_neg (show ¬ OPENUSB_SUCCESS < 0 by decide)]
      by_cases hdesc : Fetches s ∧ ∃ c, dev.configs[dev.currentValue.toNat]? = some c
      · obtain ⟨hfetch, c, hget⟩ := hdesc
        obtain ⟨ret, hret, hacc⟩ :=
          returns_checkDescriptors (dev.formed c (List.mem_of_getElem? hget)) req (currentAlt s req)
        rw [usbiGetConfigDesc_ok hfetch hget]
        refine ⟨ret, hret, hacc.trans ⟨fun h => ⟨hmarked, hfetch, c, hget, h⟩, ?_⟩⟩
        rintro ⟨-, -, c', hget', h⟩
        rwa [Option.some_inj.mp (hget.symm.trans hget')]
      · obtain ⟨e, he, herror⟩ := usbiGetConfigDesc_error hdesc hfirst.2
        rw [herror]
        refine ⟨e, returns_pure.mpr rfl, iff_of_false (Int.not_le.mpr he) ?_⟩
        rintro ⟨-, hfetch, c, hget, -⟩
        exact hdesc ⟨hfetch, c, hget⟩
    · have hneg : ¬ 0 ≤ (openusbGetAltsetting s.hdev req.interface).1 := fun h => hmarked ((getAltsetting_iff s req).mp h)
      rw [if_pos (Int.not_le.mp hneg)]
      exact ⟨_, returns_pure.mpr rfl, iff_of_false hneg fun h => hmarked h.1⟩
  · obtain ⟨e, he, herror⟩ := openusbGetConfiguration_error dev hfirst
    rw [herror]
    refine ⟨e, returns_pure.mpr rfl, iff_of_false (Int.not_le.mpr he) ?_⟩
    rintro ⟨hmarked, hfetch, -⟩
    exact hfirst ⟨hmarked.1, hfetch.1 _⟩

/-- Good requests for endpoint 0 are control transfers. -/
theorem goodRequest_zero (hep : req.endpoint = 0) : GoodRequest dev s req ↔ req.type = .control := by
  constructor
  · rintro (⟨-, htype⟩ | ⟨-, -, c, hcur, w, hw, hifc, -, -, e, he, haddress, -⟩)
    · exact htype
    · obtain ⟨i, -, hget⟩ := Option.map_eq_some_iff.mp hcur
      have hc : ConfigFormed c := dev.formed c (hget ▸ List.get_mem _ _)
      exact absurd (haddress.trans hep) ((hc.endpoints w hw hifc).nonzero e he)
  · exact fun htype => .inl ⟨hep, htype⟩

theorem goodRequest_nonzero (hep : req.endpoint ≠ 0) : GoodRequest dev s req ↔
    Marked s req ∧ req.interface.toNat < USBI_MAXINTERFACES ∧
      ∃ c, dev.currentConfig = some c ∧ HasEndpoint req (currentAlt s req) c :=
  or_iff_right fun h => hep h.1

/-- The checks accept the right requests exactly when the configuration whose index is the current value can be read and
has the endpoint just as the current configuration does. -/
theorem check_req_valid_iff : (∃ ret, (checkReqValid dev s req).Returns ret ∧ AcceptsGood dev s req ret) ↔
    (req.endpoint ≠ 0 → 5 ≤ s.debug_level → Marked s req →
      ((req.interface.toNat < USBI_MAXINTERFACES ∧
          ∃ c, dev.currentConfig = some c ∧ HasEndpoint req (currentAlt s req) c) ↔
        Fetches s ∧ IndexedHasEndpoint dev s req)) := by
  by_cases hep : req.endpoint = 0
  · refine iff_of_true ?_ fun h => absurd hep h
    have hgood := goodRequest_zero dev s req hep
    unfold checkReqValid AcceptsGood
    rw [hgood]
    by_cases htype : req.type = .control
    · rw [if_pos ⟨hep, htype⟩]
      exact ⟨0, returns_pure.mpr rfl, fun _ => le_rfl, fun _ _ => htype⟩
    · rw [if_neg (fun h => htype h.2), if_pos hep]
      exact ⟨-1, returns_pure.mpr rfl, fun h => absurd h htype, fun _ h => absurd h (by decide)⟩
  have hgood := goodRequest_nonzero dev s req hep
  by_cases hdebug : 5 ≤ s.debug_level
  · obtain ⟨ret, hret, hacc⟩ := returns_fullCheck dev s req hep hdebug
    have hright : (∃ ret, (checkReqValid dev s req).Returns ret ∧ AcceptsGood dev s req ret) ↔
        (GoodRequest dev s req ↔ 0 ≤ ret) := by
      constructor
      · rintro ⟨ret', hret', hright⟩
        rw [← hret.unique hret'] at hright
        exact ⟨hright.1, hright.2 hdebug⟩
      · exact fun h => ⟨ret, hret, h.mp, fun _ => h.mpr⟩
    rw [hright, hgood, hacc, and_congr_right_iff]
    exact ⟨fun h _ _ => h, fun h => h hep hdebug⟩
  · refine iff_of_true ?_ fun _ h => absurd h hdebug
    unfold checkReqValid
    rw [if_neg (fun h => hep h.1), if_neg hep, if_pos (UInt32.not_le.mp hdebug)]
    by_cases hmarked : Marked s req
    · rw [if_pos ((isInterfaceClaimed_iff s req).mpr hmarked)]
      exact ⟨0, returns_pure.mpr rfl, fun _ => le_rfl, fun h => absurd h hdebug⟩
    · rw [if_neg (mt (isInterfaceClaimed_iff s req).mp hmarked)]
      exact ⟨-1, returns_pure.mpr rfl, fun h => absurd (hgood.mp h).1 hmarked, fun h => absurd h hdebug⟩

end

theorem keyboard_formed : ConfigFormed keyboardBlob := by
  have hchain : chain (blobMem keyboardBlob) 0 keyboardBlob.length = [(0, 34), (9, 25), (18, 16), (27, 7)] := by
    decide +kernel
  have hends : endpointsAt (blobMem keyboardBlob) (9, 25) = [(27, 7)] := by decide +kernel
  refine ⟨by decide, ⟨by decide, by decide, fun w hw => ?_, ?_⟩, fun w hw hifc => ?_⟩
  · change w ∈ chain (blobMem keyboardBlob) 0 keyboardBlob.length at hw
    rw [hchain] at hw
    simp only [List.mem_cons, List.not_mem_nil, or_false] at hw
    obtain rfl | rfl | rfl | rfl := hw
    · exact ⟨by decide, by decide, by decide⟩
    · exact ⟨by decide, by decide, by decide⟩
    · exact ⟨by decide, by decide, by decide⟩
    · exact ⟨by decide, by decide, by decide⟩
  · show (((chain (blobMem keyboardBlob) 0 keyboardBlob.length).filter (isInterface (blobMem keyboardBlob))).map _).Nodup
    rw [hchain]
    decide
  · rw [hchain] at hw
    simp only [List.mem_cons, List.not_mem_nil, or_false] at hw
    obtain rfl | rfl | rfl | rfl := hw
    · exact absurd hifc (by decide)
    · exact ⟨by rw [hends]; decide, by rw [hends]; decide, by rw [hends]; decide, by rw [hends]; decide⟩
    · exact absurd hifc (by decide)
    · exact absurd hifc (by decide)

theorem keyboards_formed : ∀ c ∈ [keyboardBlob], ConfigFormed c := fun c hc => by
  rw [List.mem_singleton.mp hc]
  exact keyboard_formed

/-- A keyboard, whose only configuration has the value 1. -/
def keyboardDevice : ReqDevice where
  configs := [keyboardBlob]
  current := some 0
  formed := keyboards_formed

/-- Its interface is claimed. -/
def keyboardCheck (debug_level : UInt32) : CheckState where
  debug_level := debug_level
  hdev := (DevHandle.openDevice (fun _ => false) fun _ => ⟨0, 0⟩).mark 0 USBI_IFC_CLAIMED 0

def keyboardReq : CheckedReq := { type := .interrupt, interface := 0, endpoint := 0x81 }

/-- The request for its keys passes at debug level 4.  At level 5 the device is asked for the configuration with index 1,
which it does not have. -/
theorem value_taken_for_index : GoodRequest keyboardDevice (keyboardCheck 5) keyboardReq ∧
    (checkReqValid keyboardDevice (keyboardCheck 4) keyboardReq).Returns 0 ∧
    (checkReqValid keyboardDevice (keyboardCheck 5) keyboardReq).Returns OPENUSB_IO_STALL ∧
    ¬ AcceptsGood keyboardDevice (keyboardCheck 5) keyboardReq OPENUSB_IO_STALL := by
  have hgood : GoodRequest keyboardDevice (keyboardCheck 5) keyboardReq := by
    refine .inr ⟨⟨rfl, by decide, rfl⟩, by decide, keyboardBlob, rfl, (9, 25), ?_, ?_, ?_, ?_, (27, 7), ?_, ?_, ?_⟩
    · decide +kernel
    · decide +kernel
    · decide
    · decide
    · decide +kernel
    · decide
    · decide
  refine ⟨hgood, ⟨0, by decide +kernel⟩, ⟨0, by decide +kernel⟩, fun h => ?_⟩
  exact absurd (h.1 hgood) (by decide)

end OpenUsb
