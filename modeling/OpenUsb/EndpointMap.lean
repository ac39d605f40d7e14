import OpenUsb.SolarisClaim

/-!
# EndpointMap — which interface an endpoint belongs to on Solaris

`ep_interface` of a handle has a slot for every endpoint of the device, with the interface that has the endpoint in its
current alternate setting.  One map serves all interfaces: claiming an interface or setting its alternate setting writes
every slot, and releasing it writes none.  A transfer is let through when the slot of its endpoint names its interface.

* `endpoints_followed_iff`: after which calls the map follows what the handle has claimed.
-/

namespace OpenUsb

namespace Solaris

def EACCES : ℤ := 13

/-- `usb_ep_index`. -/
def usbEpIndex (epAddr : UInt8) : ℕ := (epAddr &&& 0x0f).toNat + if epAddr &&& 0x80 ≠ 0 then 16 else 0

/-- The interfaces of the current configuration: the endpoint addresses of each alternate setting.  Bits 4 to 6 of an
address are reserved. -/
structure Interfaces where
  endpoints : UInt8 → ℕ → List UInt8
  reserved : ∀ ifc alt, ∀ a ∈ endpoints ifc alt, a &&& 0x70 = 0

/-- No endpoint belongs to two interfaces. -/
def Interfaces.Disjoint (ifcs : Interfaces) : Prop :=
  ∀ i j alt alt' a, a ∈ ifcs.endpoints i alt → a ∈ ifcs.endpoints j alt' → i = j

/-- A device with its handles, and `ep_interface` of one of them. -/
structure EndpointMap where
  device : Device
  epInterface : ℕ → ℤ

namespace EndpointMap

/-! ## The calls for the handle -/

section

variable (ifcs : Interfaces) (hdev : ℕ) (s : EndpointMap)

/-- `usb_set_ep_iface_alts`. -/
def usbSetEpIfaceAlts (interface : UInt8) (alt : ℕ) : EndpointMap :=
  { s with
    epInterface := (ifcs.endpoints interface alt).foldl
      (fun m epAddr => Function.update m (usbEpIndex epAddr) interface.toNat) fun _ => -1 }

/-- `solaris_claim_interface`. -/
def solarisClaimInterface (interface : UInt8) (_flags : InitFlag) : ℤ × EndpointMap :=
  if s.device.claimedInterfaces interface = some hdev then (OPENUSB_SUCCESS, s)
  else if s.device.claimedInterfaces interface ≠ none then (OPENUSB_BUSY, s)
  else if (s.device.claimedIfs hdev interface).clm ≠ -1 then (OPENUSB_BUSY, s)
  else
    let s := { s with device := (s.device.mark hdev interface USBI_IFC_CLAIMED 0).setOwner interface (some hdev) }
    (OPENUSB_SUCCESS, s.usbSetEpIfaceAlts ifcs interface 0)

/-- `solaris_release_interface`, which has no line for the map. -/
def solarisReleaseInterface (interface : UInt8) : ℤ × EndpointMap :=
  let (ret, device) := Solaris.solarisReleaseInterface s.device hdev interface
  (ret, { s with device := device })

/-- `solaris_set_altinterface`. -/
def solarisSetAltinterface (ifc alt : UInt8) : ℤ × EndpointMap :=
  if s.device.claimedInterfaces ifc ≠ some hdev then (OPENUSB_PLATFORM_FAILURE, s)
  else
    let s := { s with device := s.device.mark hdev ifc (s.device.claimedIfs hdev ifc).clm alt.toNat }
    (OPENUSB_SUCCESS, s.usbSetEpIfaceAlts ifcs ifc alt.toNat)

/-- `openusb_claim_interface`. -/
def openusbClaimInterface (ifc : UInt8) (flags : InitFlag) (refresh : Refresh) : ℤ × EndpointMap :=
  if ifc.toNat > USBI_MAXINTERFACES then (OPENUSB_BADARG, s)
  else if !s.device.opened hdev then (OPENUSB_UNKNOWN_DEVICE, s)
  else if refresh.ret ≠ 0 then (OPENUSB_BADARG, s)
  else if ifc.toNat ≥ USBI_MAXINTERFACES ∨ ifc.toNat ≥ refresh.numInterfaces then (OPENUSB_BADARG, s)
  else
    let (ret, s) := s.solarisClaimInterface ifcs hdev ifc flags
    (ret, if ret = 0 then { s with device := s.device.mark hdev ifc USBI_IFC_CLAIMED 0 } else s)

/-- `openusb_release_interface`. -/
def openusbReleaseInterface (ifc : UInt8) : ℤ × EndpointMap :=
  if ifc.toNat > USBI_MAXINTERFACES then (OPENUSB_BADARG, s)
  else if !s.device.opened hdev then (OPENUSB_UNKNOWN_DEVICE, s)
  else if openusbIsInterfaceClaimed s.device hdev ifc ≠ 1 then (OPENUSB_BADARG, s)
  else s.solarisReleaseInterface hdev ifc

/-- `openusb_set_altsetting`. -/
def openusbSetAltsetting (ifc alt : UInt8) (refresh : Refresh) : ℤ × EndpointMap :=
  if !s.device.opened hdev then (OPENUSB_UNKNOWN_DEVICE, s)
  else if ifc.toNat > USBI_MAXINTERFACES then (OPENUSB_BADARG, s)
  else if refresh.ret ≠ 0 then (OPENUSB_PARSE_ERROR, s)
  else if refresh.curConfigIndex < 0 then (OPENUSB_PARSE_ERROR, s)
  else if ifc.toNat > refresh.numInterfaces ∨ ifc.toNat > USBI_MAXINTERFACES ∨
      (s.device.claimedIfs hdev ifc).clm ≠ USBI_IFC_CLAIMED ∨ alt.toNat ≥ refresh.numAltsettings ifc then
    (OPENUSB_BADARG, s)
  else if (alt.toNat : ℤ) = (s.device.claimedIfs hdev ifc).altsetting then (0, s)
  else s.solarisSetAltinterface ifcs hdev ifc alt

/-- `usb_check_device_and_status_open`: `opened` is the return code of the part that opens the endpoint's files. -/
def usbCheckDeviceAndStatusOpen (ifc epAddr : UInt8) (opened : ℤ) : ℤ :=
  if (s.device.claimedIfs hdev ifc).clm = -1 ∨ (s.device.claimedIfs hdev ifc).altsetting = -1 then EACCES
  else if (ifc.toNat : ℤ) ≠ s.epInterface (usbEpIndex epAddr) then EACCES
  else opened

end

/-- `openusb_open_device` and `solaris_open`: the slots are `-1`, and the one of endpoint 0 is what `calloc` left. -/
def solarisOpen (d : Device) (hdev : ℕ) (after : UInt8 → InterfaceSet) : EndpointMap where
  device := (openusbOpenDevice d hdev after).2
  epInterface n := if n > 0 then -1 else 0

end EndpointMap

/-- A call for the handle that is about one of its interfaces. -/
inductive InterfaceCall where
  | claim (ifc : UInt8) (flags : InitFlag) (refresh : Refresh)
  | release (ifc : UInt8)
  | setAltsetting (ifc alt : UInt8) (refresh : Refresh)

/-- The same call without the map. -/
def InterfaceCall.toCall : InterfaceCall → Call
  | .claim ifc flags refresh => .claim ifc flags refresh
  | .release ifc => .release ifc
  | .setAltsetting ifc alt refresh => .setAltsetting ifc alt refresh

def EndpointMap.exec (ifcs : Interfaces) (hdev : ℕ) (s : EndpointMap) : InterfaceCall → ℤ × EndpointMap
  | .claim ifc flags refresh => s.openusbClaimInterface ifcs hdev ifc flags refresh
  | .release ifc => s.openusbReleaseInterface hdev ifc
  | .setAltsetting ifc alt refresh => s.openusbSetAltsetting ifcs hdev ifc alt refresh

/-- The interface of a call is an entry of the tables. -/
inductive InterfaceCalls (ifcs : Interfaces) (hdev : ℕ) : EndpointMap → InterfaceCall → EndpointMap → Prop where
  | call {s : EndpointMap} {call : InterfaceCall} (hvalid : ValidInterface s.device (hdev, call.toCall)) :
      InterfaceCalls ifcs hdev s call (s.exec ifcs hdev call).2

/-! ## What the map should say -/

/-- The address of an endpoint other than the default one. -/
def EndpointAddress (a : UInt8) : Prop := a ≠ 0 ∧ a &&& 0x70 = 0

instance (a : UInt8) : Decidable (EndpointAddress a) := inferInstanceAs (Decidable (_ ∧ _))

namespace EndpointMap

section

variable (ifcs : Interfaces) (hdev : ℕ) (s : EndpointMap)

/-- The handle has claimed the interface, and the endpoint belongs to its current alternate setting. -/
def Has (ifc a : UInt8) : Prop :=
  ifc.toNat < USBI_MAXINTERFACES ∧ s.device.Claimed hdev ifc ∧
    a ∈ ifcs.endpoints ifc (s.device.claimedIfs hdev ifc).altsetting.toNat

/-- The slot of every endpoint names the interface that has it, and no interface if none has it.  So a transfer is let through
exactly when its interface has its endpoint. -/
structure Follows : Prop where
  slot : ∀ a, EndpointAddress a → ∀ i : UInt8, i.toNat < USBI_MAXINTERFACES →
    (s.epInterface (usbEpIndex a) = i.toNat ↔ s.Has ifcs hdev i a)
  empty : ∀ a, EndpointAddress a → (s.epInterface (usbEpIndex a) = -1 ↔ ∀ i, ¬ s.Has ifcs hdev i a)
  admits : ∀ a, EndpointAddress a → ∀ i : UInt8, i.toNat < USBI_MAXINTERFACES →
    (s.usbCheckDeviceAndStatusOpen hdev i a 0 = 0 ↔ s.Has ifcs hdev i a)

/-- No other interface that the handle has claimed has an endpoint. -/
def NoOther (ifc : UInt8) : Prop := ∀ i, i ≠ ifc → ∀ a, EndpointAddress a → ¬ s.Has ifcs hdev i a

/-- An interface is taken, or gets another setting, only while no other claimed interface has endpoints.  An interface is
claimed again only if its current setting has the endpoints of setting 0, and released only if it has none. -/
def MapKept : InterfaceCall → Prop
  | .claim ifc _ refresh => refresh.ret = 0 → ifc.toNat < USBI_MAXINTERFACES → ifc.toNat < refresh.numInterfaces →
      (s.device.claimedInterfaces ifc = none → s.NoOther ifcs hdev ifc) ∧
      (s.device.Claimed hdev ifc → ∀ a, EndpointAddress a →
        (a ∈ ifcs.endpoints ifc 0 ↔ a ∈ ifcs.endpoints ifc (s.device.claimedIfs hdev ifc).altsetting.toNat))
  | .release ifc => s.device.Claimed hdev ifc → ∀ a, EndpointAddress a →
      a ∉ ifcs.endpoints ifc (s.device.claimedIfs hdev ifc).altsetting.toNat
  | .setAltsetting ifc alt refresh => s.device.Claimed hdev ifc → refresh.ret = 0 → 0 ≤ refresh.curConfigIndex →
      ifc.toNat ≤ refresh.numInterfaces → alt.toNat < refresh.numAltsettings ifc →
      (alt.toNat : ℤ) ≠ (s.device.claimedIfs hdev ifc).altsetting → s.NoOther ifcs hdev ifc

end

end EndpointMap

/-! ## The slots -/

section

variable {ifcs : Interfaces} {hdev : ℕ} {s t : EndpointMap} {call : InterfaceCall} {i ifc a b : UInt8} {alt : ℕ}

theorem foldl_update_const {α κ β : Type} [DecidableEq κ] (f : α → κ) (v : β) (l : List α) (m : κ → β) (k : κ) :
    l.foldl (fun m a => Function.update m (f a) v) m k = if k ∈ l.map f then v else m k := by
  induction l generalizing m with
  | nil => rfl
  | cons a l ih =>
    rw [List.foldl_cons, ih, List.map_cons]
    by_cases hmem : k ∈ l.map f
    · rw [if_pos hmem, if_pos (List.mem_cons_of_mem _ hmem)]
    · rw [if_neg hmem]
      by_cases hka : k = f a
      · rw [hka, Function.update_self, if_pos List.mem_cons_self]
      · rw [Function.update_of_ne hka, if_neg]
        exact fun hin => (List.mem_cons.mp hin).elim hka hmem

/-- The index of an endpoint has its number and its direction. -/
theorem ofNat_usbEpIndex (ha : a &&& 0x70 = 0) :
    UInt8.ofNat (if usbEpIndex a < 16 then usbEpIndex a else usbEpIndex a + 112) = a := by
  have hall : ∀ n < 256, UInt8.ofNat n &&& 0x70 = 0 →
      UInt8.ofNat (if usbEpIndex (.ofNat n) < 16 then usbEpIndex (.ofNat n) else usbEpIndex (.ofNat n) + 112) =
        UInt8.ofNat n := by
    decide +kernel
  have hofNat : UInt8.ofNat a.toNat = a := UInt8.ofNat_toNat
  have hspec := hall a.toNat a.toNat_lt
  rw [hofNat] at hspec
  exact hspec ha

theorem usbEpIndex_inj (ha : a &&& 0x70 = 0) (hb : b &&& 0x70 = 0) (h : usbEpIndex a = usbEpIndex b) : a = b := by
  rw [← ofNat_usbEpIndex ha, ← ofNat_usbEpIndex hb, h]

@[simp] theorem usbSetEpIfaceAlts_device : (s.usbSetEpIfaceAlts ifcs ifc alt).device = s.device := rfl

/-- What `usb_set_ep_iface_alts` leaves in the slot of an endpoint. -/
theorem usbSetEpIfaceAlts_slot (ha : EndpointAddress a) :
    (s.usbSetEpIfaceAlts ifcs ifc alt).epInterface (usbEpIndex a) =
      if a ∈ ifcs.endpoints ifc alt then (ifc.toNat : ℤ) else -1 := by
  have hmem : usbEpIndex a ∈ (ifcs.endpoints ifc alt).map usbEpIndex ↔ a ∈ ifcs.endpoints ifc alt := by
    refine ⟨fun hin => ?_, fun hin => List.mem_map_of_mem hin⟩
    obtain ⟨b, hb, hidx⟩ := List.mem_map.mp hin
    rw [← usbEpIndex_inj (ifcs.reserved ifc alt b hb) ha.2 hidx]
    exact hb
  unfold EndpointMap.usbSetEpIfaceAlts
  dsimp only
  rw [foldl_update_const, if_congr hmem rfl rfl]

/-! ## The map and the records -/

/-- The records of the handle: an interface it holds has a setting, and one that it does not hold is marked `-1`. -/
structure EndpointMap.Records (hdev : ℕ) (s : EndpointMap) : Prop where
  agrees : s.device.Agrees
  opened : s.device.opened hdev = true
  setting : ∀ i : UInt8, i.toNat < USBI_MAXINTERFACES → s.device.Claimed hdev i →
    0 ≤ (s.device.claimedIfs hdev i).altsetting
  free : ∀ i : UInt8, i.toNat < USBI_MAXINTERFACES → ¬ s.device.Claimed hdev i → s.device.claimedIfs hdev i = ⟨-1, -1⟩

theorem has_congr (h : t.device.claimedIfs hdev i = s.device.claimedIfs hdev i) :
    t.Has ifcs hdev i a ↔ s.Has ifcs hdev i a := by
  unfold EndpointMap.Has Device.Claimed
  rw [h]

/-- What a claimed interface has. -/
theorem has_of_claimed (hifc : ifc.toNat < USBI_MAXINTERFACES) (hclm : s.device.Claimed hdev ifc) :
    s.Has ifcs hdev ifc a ↔ a ∈ ifcs.endpoints ifc (s.device.claimedIfs hdev ifc).altsetting.toNat :=
  ⟨fun h => h.2.2, fun h => ⟨hifc, hclm, h⟩⟩

/-- The two tests of `usb_check_device_and_status_open`. -/
theorem usbCheckDeviceAndStatusOpen_eq_zero_iff : s.usbCheckDeviceAndStatusOpen hdev i a 0 = 0 ↔
    (s.device.claimedIfs hdev i).clm ≠ -1 ∧ (s.device.claimedIfs hdev i).altsetting ≠ -1 ∧
      s.epInterface (usbEpIndex a) = i.toNat := by
  unfold EndpointMap.usbCheckDeviceAndStatusOpen
  split_ifs with hfree hslot
  · refine iff_of_false (show ¬ EACCES = 0 by decide) ?_
    exact fun h => hfree.elim h.1 h.2.1
  · exact iff_of_false (show ¬ EACCES = 0 by decide) fun h => hslot h.2.2.symm
  · exact iff_of_true rfl ⟨fun h => hfree (.inl h), fun h => hfree (.inr h), (not_not.mp hslot).symm⟩

/-- It is enough that the slot of an endpoint names the interface that has it. -/
theorem EndpointMap.Records.follows (hs : s.Records hdev)
    (hhas : ∀ a, EndpointAddress a → ∀ i, s.Has ifcs hdev i a → s.epInterface (usbEpIndex a) = i.toNat)
    (hnone : ∀ a, EndpointAddress a → (∀ i, ¬ s.Has ifcs hdev i a) → s.epInterface (usbEpIndex a) = -1) :
    s.Follows ifcs hdev := by
  have hslot : ∀ a, EndpointAddress a → ∀ i : UInt8, i.toNat < USBI_MAXINTERFACES →
      (s.epInterface (usbEpIndex a) = i.toNat ↔ s.Has ifcs hdev i a) := by
    intro a ha i _
    refine ⟨fun heq => ?_, hhas a ha i⟩
    by_cases hsome : ∃ j, s.Has ifcs hdev j a
    · obtain ⟨j, hj⟩ := hsome
      have hij : (i.toNat : ℤ) = j.toNat := heq.symm.trans (hhas a ha j hj)
      rw [UInt8.toNat_inj.mp (Int.ofNat_inj.mp hij)]
      exact hj
    · have hempty := hnone a ha fun j hj => hsome ⟨j, hj⟩
      omega
  refine ⟨hslot, ?_, ?_⟩
  · intro a ha
    refine ⟨fun hempty i hi => ?_, hnone a ha⟩
    have hnamed := hhas a ha i hi
    omega
  · intro a ha i hi
    rw [usbCheckDeviceAndStatusOpen_eq_zero_iff, hslot a ha i hi]
    refine ⟨fun h => h.2.2, fun h => ⟨?_, ?_, h⟩⟩
    · rw [show (s.device.claimedIfs hdev i).clm = USBI_IFC_CLAIMED from h.2.1]
      decide
    · have hsetting := hs.setting i hi h.2.1
      omega

/-- A call that writes the entry of one interface, and not the map, must leave alone what the interface has. -/
theorem EndpointMap.Follows.same_map_iff (hs : s.Follows ifcs hdev) (ht : t.Records hdev)
    (hmap : t.epInterface = s.epInterface)
    (hother : ∀ i, i ≠ ifc → t.device.claimedIfs hdev i = s.device.claimedIfs hdev i) :
    t.Follows ifcs hdev ↔ ∀ a, EndpointAddress a → (t.Has ifcs hdev ifc a ↔ s.Has ifcs hdev ifc a) := by
  constructor
  · intro hf a ha
    by_cases hifc : ifc.toNat < USBI_MAXINTERFACES
    · rw [← hf.slot a ha ifc hifc, hmap, hs.slot a ha ifc hifc]
    · exact iff_of_false (fun h => hifc h.1) fun h => hifc h.1
  · intro hsame
    have hall : ∀ i a, EndpointAddress a → (t.Has ifcs hdev i a ↔ s.Has ifcs hdev i a) := by
      intro i a ha
      by_cases hne : i = ifc
      · rw [hne]
        exact hsame a ha
      · exact has_congr (hother i hne)
    apply ht.follows
    · intro a ha i hi
      rw [hmap]
      exact (hs.slot a ha i hi.1).mpr ((hall i a ha).mp hi)
    · intro a ha hnone
      rw [hmap]
      exact (hs.empty a ha).mpr fun i hi => hnone i ((hall i a ha).mpr hi)

/-- A call that writes the map for one interface forgets the endpoints of the others. -/
theorem EndpointMap.Records.written_map_iff (hs : s.Records hdev) (hifc : ifc.toNat < USBI_MAXINTERFACES)
    (hclm : s.device.Claimed hdev ifc) (halt : (s.device.claimedIfs hdev ifc).altsetting = alt) :
    (s.usbSetEpIfaceAlts ifcs ifc alt).Follows ifcs hdev ↔ s.NoOther ifcs hdev ifc := by
  have ht : (s.usbSetEpIfaceAlts ifcs ifc alt).Records hdev := ⟨hs.agrees, hs.opened, hs.setting, hs.free⟩
  have hmine : ∀ a, s.Has ifcs hdev ifc a ↔ a ∈ ifcs.endpoints ifc alt := by
    intro a
    rw [has_of_claimed hifc hclm, halt, Int.toNat_natCast]
  constructor
  · intro hf i hne a ha hi
    have hnamed := (hf.slot a ha i hi.1).mpr hi
    rw [usbSetEpIfaceAlts_slot ha] at hnamed
    by_cases hmem : a ∈ ifcs.endpoints ifc alt
    · rw [if_pos hmem] at hnamed
      exact hne (UInt8.toNat_inj.mp (Int.ofNat_inj.mp hnamed)).symm
    · rw [if_neg hmem] at hnamed
      omega
  · intro hno
    apply ht.follows
    · intro a ha i hi
      have heq : i = ifc := not_not.mp fun hne => hno i hne a ha hi
      subst heq
      rw [usbSetEpIfaceAlts_slot ha, if_pos ((hmine a).mp hi)]
    · intro a ha hnone
      rw [usbSetEpIfaceAlts_slot ha, if_neg fun hmem => hnone ifc ((hmine a).mpr hmem)]

/-! ## The calls -/

/-- The map is beside the records: without it these are the calls of any handle. -/
theorem exec_device :
    Prod.map id EndpointMap.device (s.exec ifcs hdev call) = Solaris.exec s.device hdev call.toCall := by
  cases call with
  | claim ifc flags refresh =>
    show Prod.map id EndpointMap.device (s.openusbClaimInterface ifcs hdev ifc flags refresh) =
      Solaris.openusbClaimInterface s.device hdev ifc flags refresh
    unfold EndpointMap.openusbClaimInterface Solaris.openusbClaimInterface EndpointMap.solarisClaimInterface
      Solaris.solarisClaimInterface
    split_ifs <;> rfl
  | release ifc =>
    show Prod.map id EndpointMap.device (s.openusbReleaseInterface hdev ifc) =
      Solaris.openusbReleaseInterface s.device hdev ifc
    unfold EndpointMap.openusbReleaseInterface Solaris.openusbReleaseInterface
    split_ifs <;> rfl
  | setAltsetting ifc alt refresh =>
    show Prod.map id EndpointMap.device (s.openusbSetAltsetting ifcs hdev ifc alt refresh) =
      Solaris.openusbSetAltsetting s.device hdev ifc alt refresh
    unfold EndpointMap.openusbSetAltsetting Solaris.openusbSetAltsetting EndpointMap.solarisSetAltinterface
      Solaris.solarisSetAltinterface
    split_ifs <;> rfl

/-- A call keeps the two records of claims in agreement. -/
theorem EndpointMap.Records.exec_agrees (hs : s.Records hdev) (hvalid : ValidInterface s.device (hdev, call.toCall)) :
    (s.exec ifcs hdev call).2.device.Agrees := by
  have hnew : ∀ after, call.toCall = .openDevice after → s.device.opened hdev = false := by
    intro after heq
    cases call <;> exact absurd heq nofun
  have hagrees := hs.agrees.step hvalid (Calls.call hnew)
  rw [← @exec_device ifcs hdev s call] at hagrees
  exact hagrees

/-- One entry of the handle is written. -/
theorem EndpointMap.Records.write (hs : s.Records hdev) (hagrees : t.device.Agrees)
    (hopened : t.device.opened = s.device.opened)
    (hother : ∀ i, i ≠ ifc → t.device.claimedIfs hdev i = s.device.claimedIfs hdev i)
    (hentry : 0 ≤ (t.device.claimedIfs hdev ifc).altsetting ∨ t.device.claimedIfs hdev ifc = ⟨-1, -1⟩)
    (hclm : t.device.Claimed hdev ifc ∨ t.device.claimedIfs hdev ifc = ⟨-1, -1⟩) : t.Records hdev := by
  refine ⟨hagrees, hopened ▸ hs.opened, ?_, ?_⟩
  · intro i hi hc
    by_cases hne : i = ifc
    · subst hne
      rcases hentry with h | h
      · exact h
      · rw [Device.Claimed, h] at hc
        exact absurd hc (by decide)
    · rw [hother i hne]
      rw [Device.Claimed, hother i hne] at hc
      exact hs.setting i hi hc
  · intro i hi hc
    by_cases hne : i = ifc
    · subst hne
      exact hclm.resolve_left hc
    · rw [hother i hne]
      rw [Device.Claimed, hother i hne] at hc
      exact hs.free i hi hc

/-- One entry of the handle is marked as claimed with a setting. -/
theorem EndpointMap.Records.marked {d : Device} {m : ℕ → ℤ} (hs : s.Records hdev) (hagrees : d.Agrees)
    (hopened : d.opened = s.device.opened)
    (hentries : d.claimedIfs = (s.device.mark hdev ifc USBI_IFC_CLAIMED alt).claimedIfs) :
    (EndpointMap.mk d m).Records hdev ∧ d.claimedIfs hdev ifc = ⟨USBI_IFC_CLAIMED, alt⟩ ∧
    ∀ i, i ≠ ifc → d.claimedIfs hdev i = s.device.claimedIfs hdev i := by
  have hentry : d.claimedIfs hdev ifc = ⟨USBI_IFC_CLAIMED, alt⟩ := by
    rw [hentries]
    exact mark_self
  have hother : ∀ i, i ≠ ifc → d.claimedIfs hdev i = s.device.claimedIfs hdev i := by
    intro i hne
    rw [hentries]
    exact mark_of_ne (.inr hne)
  refine ⟨hs.write hagrees hopened hother (.inl ?_) (.inl ?_), hentry, hother⟩
  · show 0 ≤ (d.claimedIfs hdev ifc).altsetting
    rw [hentry]
    exact Int.natCast_nonneg alt
  · exact congrArg InterfaceSet.clm hentry

/-- What `openusb_claim_interface` does: nothing, or a claim again, or it takes an interface that nobody holds. -/
theorem EndpointMap.Records.claim_cases (hs : s.Records hdev) (ifc : UInt8) (flags : InitFlag) (refresh : Refresh) :
    ((s.openusbClaimInterface ifcs hdev ifc flags refresh).2 = s ∧
      (refresh.ret = 0 → ifc.toNat < USBI_MAXINTERFACES → ifc.toNat < refresh.numInterfaces →
        s.device.claimedInterfaces ifc ≠ none ∧ ¬ s.device.Claimed hdev ifc)) ∨
    ((refresh.ret = 0 ∧ ifc.toNat < USBI_MAXINTERFACES ∧ ifc.toNat < refresh.numInterfaces) ∧
      s.device.Claimed hdev ifc ∧ s.device.claimedInterfaces ifc ≠ none ∧
      (s.openusbClaimInterface ifcs hdev ifc flags refresh).2 =
        { s with device := s.device.mark hdev ifc USBI_IFC_CLAIMED 0 }) ∨
    ((refresh.ret = 0 ∧ ifc.toNat < USBI_MAXINTERFACES ∧ ifc.toNat < refresh.numInterfaces) ∧
      ¬ s.device.Claimed hdev ifc ∧ s.device.claimedInterfaces ifc = none ∧
      (s.openusbClaimInterface ifcs hdev ifc flags refresh).2 =
        EndpointMap.usbSetEpIfaceAlts ifcs
          { s with device := (s.device.mark hdev ifc USBI_IFC_CLAIMED 0).setOwner ifc (some hdev) } ifc 0) := by
  unfold EndpointMap.openusbClaimInterface
  split_ifs with hmax hopen hret hvalid
  · exact .inl ⟨rfl, fun _ hlt _ => by omega⟩
  · exact absurd hs.opened (by simpa using hopen)
  · exact .inl ⟨rfl, fun hret' => absurd hret' hret⟩
  · exact .inl ⟨rfl, fun _ _ _ => by omega⟩
  · have hpass : refresh.ret = 0 ∧ ifc.toNat < USBI_MAXINTERFACES ∧ ifc.toNat < refresh.numInterfaces :=
      ⟨not_not.mp hret, by omega, by omega⟩
    have howner := hs.agrees ifc hpass.2.1 hdev
    unfold EndpointMap.solarisClaimInterface
    split_ifs with hmine hother hclm
    · exact .inr (.inl ⟨hpass, (howner.mp hmine).2, by rw [hmine]; nofun, rfl⟩)
    · refine .inl ⟨rfl, fun _ _ _ => ⟨hother, fun hc => hmine (howner.mpr ⟨hs.opened, hc⟩)⟩⟩
    · -- an interface without a holder is not marked
      have hfree := hs.free ifc hpass.2.1 fun hc => hmine (howner.mpr ⟨hs.opened, hc⟩)
      rw [hfree] at hclm
      exact absurd rfl hclm
    · refine .inr (.inr ⟨hpass, fun hc => hmine (howner.mpr ⟨hs.opened, hc⟩), not_not.mp hother, ?_⟩)
      show EndpointMap.mk (((s.device.mark hdev ifc _ 0).setOwner ifc (some hdev)).mark hdev ifc _ 0) _ = _
      exact congrArg (fun d : Device => EndpointMap.mk (d.setOwner ifc (some hdev)) _) mark_mark

/-- What `openusb_release_interface` does: nothing, or it gives back what the handle holds. -/
theorem EndpointMap.Records.release_cases (hs : s.Records hdev) (hifc : ifc.toNat < USBI_MAXINTERFACES) :
    ((s.openusbReleaseInterface hdev ifc).2 = s ∧ ¬ s.device.Claimed hdev ifc) ∨
    (s.device.Claimed hdev ifc ∧ (s.openusbReleaseInterface hdev ifc).2 =
      { s with device := (s.device.setOwner ifc none).mark hdev ifc (-1) (-1) }) := by
  have hcheck : openusbIsInterfaceClaimed s.device hdev ifc = 1 ↔ s.device.Claimed hdev ifc := by
    unfold openusbIsInterfaceClaimed Device.Claimed
    rw [if_neg (by omega), if_neg (by simp [hs.opened])]
    split_ifs with h
    · exact iff_of_true rfl h
    · exact iff_of_false (by decide) h
  unfold EndpointMap.openusbReleaseInterface
  rw [if_neg (by omega), if_neg (by simp [hs.opened])]
  by_cases hclm : s.device.Claimed hdev ifc
  · refine .inr ⟨hclm, ?_⟩
    have howner := (hs.agrees ifc hifc hdev).mpr ⟨hs.opened, hclm⟩
    have hentry : (s.device.claimedIfs hdev ifc).clm = USBI_IFC_CLAIMED := hclm
    unfold EndpointMap.solarisReleaseInterface Solaris.solarisReleaseInterface
    rw [if_neg (not_not_intro (hcheck.mpr hclm)), if_neg (not_not_intro hentry), if_neg (not_not_intro howner)]
  · rw [if_pos fun h => hclm (hcheck.mp h)]
    exact .inl ⟨rfl, hclm⟩

/-- What `openusb_set_altsetting` does: nothing, or the interface gets another setting and the map is written for it. -/
theorem EndpointMap.Records.setAltsetting_cases (hs : s.Records hdev) (hifc : ifc.toNat < USBI_MAXINTERFACES)
    (alt : UInt8) (refresh : Refresh) :
    ((s.openusbSetAltsetting ifcs hdev ifc alt refresh).2 = s ∧
      ¬ (s.device.Claimed hdev ifc ∧ refresh.ret = 0 ∧ 0 ≤ refresh.curConfigIndex ∧
        ifc.toNat ≤ refresh.numInterfaces ∧ alt.toNat < refresh.numAltsettings ifc ∧
        (alt.toNat : ℤ) ≠ (s.device.claimedIfs hdev ifc).altsetting)) ∨
    ((s.device.Claimed hdev ifc ∧ refresh.ret = 0 ∧ 0 ≤ refresh.curConfigIndex ∧
        ifc.toNat ≤ refresh.numInterfaces ∧ alt.toNat < refresh.numAltsettings ifc ∧
        (alt.toNat : ℤ) ≠ (s.device.claimedIfs hdev ifc).altsetting) ∧
      (s.openusbSetAltsetting ifcs hdev ifc alt refresh).2 =
        EndpointMap.usbSetEpIfaceAlts ifcs
          { s with device := s.device.mark hdev ifc USBI_IFC_CLAIMED alt.toNat } ifc alt.toNat) := by
  unfold EndpointMap.openusbSetAltsetting
  split_ifs with hopen hmax hret hconf hvalid hsame
  · exact absurd hs.opened (by simpa using hopen)
  · omega
  · exact .inl ⟨rfl, fun h => hret h.2.1⟩
  · exact .inl ⟨rfl, fun h => absurd h.2.2.1 (by omega)⟩
  · refine .inl ⟨rfl, fun h => ?_⟩
    rcases hvalid with hnum | hmax | hclm | halt
    · exact absurd h.2.2.2.1 (by omega)
    · omega
    · exact hclm h.1
    · exact absurd h.2.2.2.2.1 (by omega)
  · exact .inl ⟨rfl, fun h => h.2.2.2.2.2 hsame⟩
  · rw [not_or, not_or, not_or] at hvalid
    have hclm : s.device.Claimed hdev ifc := not_not.mp hvalid.2.2.1
    refine .inr ⟨⟨hclm, not_not.mp hret, by omega, by omega, by omega, hsame⟩, ?_⟩
    unfold EndpointMap.solarisSetAltinterface
    rw [if_neg (not_not_intro ((hs.agrees ifc hifc hdev).mpr ⟨hs.opened, hclm⟩))]
    rw [show (s.device.claimedIfs hdev ifc).clm = USBI_IFC_CLAIMED from hclm]

/-! ## Runs -/

theorem EndpointMap.Records.claim (hs : s.Records hdev) (hf : s.Follows ifcs hdev) (ifc : UInt8) (flags : InitFlag)
    (refresh : Refresh) :
    ((s.openusbClaimInterface ifcs hdev ifc flags refresh).2.Follows ifcs hdev ↔
      s.MapKept ifcs hdev (.claim ifc flags refresh)) ∧
    (s.openusbClaimInterface ifcs hdev ifc flags refresh).2.Records hdev := by
  have hagrees := @EndpointMap.Records.exec_agrees ifcs hdev s (.claim ifc flags refresh) hs trivial
  change (s.openusbClaimInterface ifcs hdev ifc flags refresh).2.device.Agrees at hagrees
  rcases hs.claim_cases ifc flags refresh with
    ⟨heq, hskip⟩ | ⟨hpass, hclm, howner, heq⟩ | ⟨hpass, hclm, hfree, heq⟩ <;> rw [heq] at hagrees ⊢
  · refine ⟨iff_of_true hf fun hret hlt hnum => ?_, hs⟩
    have hnot := hskip hret hlt hnum
    exact ⟨fun hfree => absurd hfree hnot.1, fun hclm => absurd hclm hnot.2⟩
  · -- the interface is claimed again: its setting is 0 from now on, and the map stays as it is
    obtain ⟨ht, hentry, hother⟩ := @EndpointMap.Records.marked hdev s ifc 0 _ s.epInterface hs hagrees rfl rfl
    refine ⟨?_, ht⟩
    rw [hf.same_map_iff ht rfl hother]
    have hhas : ∀ a, EndpointMap.Has ifcs hdev { s with device := s.device.mark hdev ifc USBI_IFC_CLAIMED 0 } ifc a ↔
        a ∈ ifcs.endpoints ifc 0 := by
      intro a
      rw [has_of_claimed hpass.2.1 (congrArg InterfaceSet.clm hentry), hentry]
      rfl
    constructor
    · intro hsame _ _ _
      refine ⟨fun hfree => absurd hfree howner, fun _ a ha => ?_⟩
      rw [← hhas a, hsame a ha, has_of_claimed hpass.2.1 hclm]
    · intro hkept a ha
      rw [hhas a, (hkept hpass.1 hpass.2.1 hpass.2.2).2 hclm a ha, has_of_claimed hpass.2.1 hclm]
  · -- the interface is taken, and the map is written for it
    rw [usbSetEpIfaceAlts_device] at hagrees
    obtain ⟨ht, hentry, hother⟩ := @EndpointMap.Records.marked hdev s ifc 0 _ s.epInterface hs hagrees rfl rfl
    refine ⟨?_, ⟨ht.agrees, ht.opened, ht.setting, ht.free⟩⟩
    rw [ht.written_map_iff hpass.2.1 (congrArg InterfaceSet.clm hentry) (congrArg InterfaceSet.altsetting hentry)]
    constructor
    · intro hno _ _ _
      exact ⟨fun _ i hne a ha hi => hno i hne a ha ((has_congr (hother i hne)).mpr hi), fun h => absurd h hclm⟩
    · intro hkept i hne a ha hi
      exact (hkept hpass.1 hpass.2.1 hpass.2.2).1 hfree i hne a ha ((has_congr (hother i hne)).mp hi)

theorem EndpointMap.Records.release (hs : s.Records hdev) (hf : s.Follows ifcs hdev)
    (hifc : ifc.toNat < USBI_MAXINTERFACES) :
    ((s.openusbReleaseInterface hdev ifc).2.Follows ifcs hdev ↔ s.MapKept ifcs hdev (.release ifc)) ∧
    (s.openusbReleaseInterface hdev ifc).2.Records hdev := by
  have hagrees := @EndpointMap.Records.exec_agrees ifcs hdev s (.release ifc) hs hifc
  change (s.openusbReleaseInterface hdev ifc).2.device.Agrees at hagrees
  rcases hs.release_cases hifc with ⟨heq, hclm⟩ | ⟨hclm, heq⟩ <;> rw [heq] at hagrees ⊢
  · exact ⟨iff_of_true hf fun h => absurd h hclm, hs⟩
  · have hother : ∀ i, i ≠ ifc →
        ((s.device.setOwner ifc none).mark hdev ifc (-1) (-1)).claimedIfs hdev i = s.device.claimedIfs hdev i :=
      fun i hne => mark_of_ne (.inr hne)
    have hentry : ((s.device.setOwner ifc none).mark hdev ifc (-1) (-1)).claimedIfs hdev ifc = ⟨-1, -1⟩ := mark_self
    have ht := @EndpointMap.Records.write hdev s
      { s with device := (s.device.setOwner ifc none).mark hdev ifc (-1) (-1) } ifc hs hagrees rfl hother
      (.inr hentry) (.inr hentry)
    refine ⟨?_, ht⟩
    rw [hf.same_map_iff ht rfl hother]
    have hnot : ∀ a, ¬ EndpointMap.Has ifcs hdev
        { s with device := (s.device.setOwner ifc none).mark hdev ifc (-1) (-1) } ifc a := by
      intro a h
      have hc := h.2.1
      rw [Device.Claimed, hentry] at hc
      exact absurd hc (by decide)
    constructor
    · intro hsame _ a ha hmem
      exact hnot a ((hsame a ha).mpr ⟨hifc, hclm, hmem⟩)
    · intro hkept a ha
      exact iff_of_false (hnot a) fun h => hkept hclm a ha h.2.2

theorem EndpointMap.Records.setAltsetting (hs : s.Records hdev) (hf : s.Follows ifcs hdev)
    (hifc : ifc.toNat < USBI_MAXINTERFACES) (alt : UInt8) (refresh : Refresh) :
    ((s.openusbSetAltsetting ifcs hdev ifc alt refresh).2.Follows ifcs hdev ↔
      s.MapKept ifcs hdev (.setAltsetting ifc alt refresh)) ∧
    (s.openusbSetAltsetting ifcs hdev ifc alt refresh).2.Records hdev := by
  have hagrees := @EndpointMap.Records.exec_agrees ifcs hdev s (.setAltsetting ifc alt refresh) hs hifc
  change (s.openusbSetAltsetting ifcs hdev ifc alt refresh).2.device.Agrees at hagrees
  rcases @EndpointMap.Records.setAltsetting_cases ifcs hdev s ifc hs hifc alt refresh with
    ⟨heq, hskip⟩ | ⟨hset, heq⟩ <;> rw [heq] at hagrees ⊢
  · exact ⟨iff_of_true hf fun h1 h2 h3 h4 h5 h6 => absurd ⟨h1, h2, h3, h4, h5, h6⟩ hskip, hs⟩
  · rw [usbSetEpIfaceAlts_device] at hagrees
    obtain ⟨ht, hentry, hother⟩ :=
      @EndpointMap.Records.marked hdev s ifc alt.toNat _ s.epInterface hs hagrees rfl rfl
    refine ⟨?_, ⟨ht.agrees, ht.opened, ht.setting, ht.free⟩⟩
    rw [ht.written_map_iff hifc (congrArg InterfaceSet.clm hentry) (congrArg InterfaceSet.altsetting hentry)]
    constructor
    · intro hno _ _ _ _ _ _ i hne a ha hi
      exact hno i hne a ha ((has_congr (hother i hne)).mpr hi)
    · intro hkept i hne a ha hi
      obtain ⟨h1, h2, h3, h4, h5, h6⟩ := hset
      exact hkept h1 h2 h3 h4 h5 h6 i hne a ha ((has_congr (hother i hne)).mp hi)

/-- A new handle holds nothing, and its slots name nothing. -/
theorem solarisOpen_records {d : Device} {after : UInt8 → InterfaceSet} (hd : d.Agrees) (hnew : d.opened hdev = false) :
    (EndpointMap.solarisOpen d hdev after).Records hdev ∧ (EndpointMap.solarisOpen d hdev after).Follows ifcs hdev := by
  have hentry : ∀ i : UInt8, i.toNat < USBI_MAXINTERFACES →
      (EndpointMap.solarisOpen d hdev after).device.claimedIfs hdev i = ⟨-1, -1⟩ := by
    intro i hi
    show Function.update d.claimedIfs hdev _ hdev i = ⟨-1, -1⟩
    rw [Function.update_self, if_pos hi]
  have hnot : ∀ i : UInt8, i.toNat < USBI_MAXINTERFACES →
      ¬ (EndpointMap.solarisOpen d hdev after).device.Claimed hdev i := by
    intro i hi hc
    rw [Device.Claimed, hentry i hi] at hc
    exact absurd hc (by decide)
  have hs : (EndpointMap.solarisOpen d hdev after).Records hdev :=
    ⟨hd.openDevice hnew, Function.update_self .., fun i hi hc => absurd hc (hnot i hi), fun i hi _ => hentry i hi⟩
  refine ⟨hs, hs.follows ?_ ?_⟩
  · intro a _ i hi
    exact absurd hi.2.1 (hnot i hi.1)
  · intro a ha _
    have hidx : usbEpIndex a > 0 := by
      refine Nat.pos_of_ne_zero fun hzero => ha.1 ?_
      exact usbEpIndex_inj ha.2 (by decide) (hzero.trans (by decide))
    exact if_pos hidx

/-- After every call for a new handle the map follows what the handle has claimed, exactly when every call meets the
condition. -/
theorem endpoints_followed_iff {d : Device} {after : UInt8 → InterfaceSet} {calls : List InterfaceCall}
    (hd : d.Agrees) (hnew : d.opened hdev = false) :
    (EndpointMap.solarisOpen d hdev after).Follows ifcs hdev ∧
    (Run (InterfaceCalls ifcs hdev) (fun s call => (s.exec ifcs hdev call).2.Follows ifcs hdev)
        (.solarisOpen d hdev after) calls s ↔
      Run (InterfaceCalls ifcs hdev) (EndpointMap.MapKept ifcs hdev) (.solarisOpen d hdev after) calls s) := by
  have hstart := @solarisOpen_records ifcs hdev d after hd hnew
  -- a call from a state in which the map follows
  have hcall : ∀ (q : EndpointMap) (call : InterfaceCall), q.Records hdev ∧ q.Follows ifcs hdev →
      ValidInterface q.device (hdev, call.toCall) →
      ((q.exec ifcs hdev call).2.Follows ifcs hdev ↔ q.MapKept ifcs hdev call) ∧
      (q.exec ifcs hdev call).2.Records hdev := by
    rintro q call ⟨hq, hf⟩ hvalid
    cases call with
    | claim ifc flags refresh => exact hq.claim hf ifc flags refresh
    | release ifc => exact hq.release hf hvalid
    | setAltsetting ifc alt refresh => exact hq.setAltsetting hf hvalid alt refresh
  refine ⟨hstart.2, ?_⟩
  apply run_iff (I := fun q => q.Records hdev ∧ q.Follows ifcs hdev)
  · rintro q call _ hq ⟨hvalid⟩
    exact (hcall q call hq hvalid).1
  · rintro q call _ hq hok ⟨hvalid⟩
    have hspec := hcall q call hq hvalid
    exact ⟨hspec.2, hspec.1.mpr hok⟩
  · exact hstart

/-- A modem: its communication interface has one endpoint, and its data interface has two in setting 1 and none in
setting 0. -/
def modemInterfaces : Interfaces where
  endpoints ifc alt := if ifc = 0 then [0x83] else if ifc = 1 ∧ alt = 1 then [0x81, 0x02] else []
  reserved ifc alt := by
    split_ifs
    · simp only [List.mem_singleton, forall_eq]
      rfl
    · simp only [List.mem_cons, List.not_mem_nil, or_false, forall_eq_or_imp, forall_eq]
      exact ⟨rfl, rfl⟩
    · exact fun _ ha => absurd ha List.not_mem_nil

/-- The data interface is claimed and gets its setting with endpoints. -/
theorem endpoints_followed_modem :
    ∃ s, Run (InterfaceCalls modemInterfaces 7) (fun s call => (s.exec modemInterfaces 7 call).2.Follows modemInterfaces 7)
      (.solarisOpen (.new fun _ _ => ⟨0, 0⟩) 7 fun _ => ⟨0, 0⟩)
      [.claim 1 .default ⟨0, 0, 2, fun _ => 2⟩, .setAltsetting 1 1 ⟨0, 0, 2, fun _ => 2⟩] s ∧
      s.epInterface (usbEpIndex 0x81) = 1 := by
  have hd : (Device.new fun _ _ => ⟨0, 0⟩).Agrees := fun i _ h => ⟨nofun, fun hc => absurd hc.1 nofun⟩
  have hnone : ∀ i : UInt8, i.toNat < USBI_MAXINTERFACES →
      ¬ (if i.toNat < USBI_MAXINTERFACES then (⟨-1, -1⟩ : InterfaceSet) else ⟨0, 0⟩).clm = USBI_IFC_CLAIMED := by
    intro i hi
    rw [if_pos hi]
    decide
  refine ⟨_, (endpoints_followed_iff hd rfl).2.mpr
    (.cons ?_ (.call trivial) (.cons ?_ (.call (show (1 : UInt8).toNat < 32 by decide)) (.nil _))), rfl⟩
  · intro _ _ _
    exact ⟨fun _ i _ a _ hi => hnone i hi.1 hi.2.1, fun hc => absurd hc (by decide)⟩
  · intro _ _ _ _ _ _ i hne a _ hi
    have hdevice : (EndpointMap.exec modemInterfaces 7 (.solarisOpen (.new fun _ _ => ⟨0, 0⟩) 7 fun _ => ⟨0, 0⟩)
        (.claim 1 .default ⟨0, 0, 2, fun _ => 2⟩)).2.device =
        (((openusbOpenDevice (.new fun _ _ => ⟨0, 0⟩) 7 fun _ => ⟨0, 0⟩).2.mark 7 1 USBI_IFC_CLAIMED 0).setOwner 1
          (some 7)).mark 7 1 USBI_IFC_CLAIMED 0 := rfl
    have hclm := hi.2.1
    rw [Device.Claimed, hdevice, mark_of_ne (.inr hne), setOwner_claimedIfs, mark_of_ne (.inr hne)] at hclm
    exact hnone i hi.1 hclm

/-- Both interfaces are claimed, and the endpoint of the first has no interface any more.  And the first is claimed and
released, and its endpoint still has it. -/
theorem endpoint_forgotten : modemInterfaces.Disjoint ∧
    (∃ s, Run (InterfaceCalls modemInterfaces 7) (fun _ _ => True)
        (.solarisOpen (.new fun _ _ => ⟨0, 0⟩) 7 fun _ => ⟨0, 0⟩)
        [.claim 0 .default ⟨0, 0, 2, fun _ => 2⟩, .claim 1 .default ⟨0, 0, 2, fun _ => 2⟩] s ∧
      s.Has modemInterfaces 7 0 0x83 ∧ s.epInterface (usbEpIndex 0x83) = -1 ∧
      s.usbCheckDeviceAndStatusOpen 7 0 0x83 0 = EACCES) ∧
    ∃ s, Run (InterfaceCalls modemInterfaces 7) (fun _ _ => True)
        (.solarisOpen (.new fun _ _ => ⟨0, 0⟩) 7 fun _ => ⟨0, 0⟩)
        [.claim 0 .default ⟨0, 0, 2, fun _ => 2⟩, .release 0] s ∧
      ¬ s.Has modemInterfaces 7 0 0x83 ∧ s.epInterface (usbEpIndex 0x83) = 0 := by
  refine ⟨?_, ⟨_, .cons trivial (.call trivial) (.cons trivial (.call trivial) (.nil _)), ?_, rfl, rfl⟩,
    _, .cons trivial (.call trivial) (.cons trivial (.call (show (0 : UInt8).toNat < 32 by decide)) (.nil _)), ?_, rfl⟩
  · intro i j alt alt' a hi hj
    unfold modemInterfaces at hi hj
    dsimp only at hi hj
    split_ifs at hi hj <;> simp_all
  · exact ⟨by decide, rfl, List.mem_singleton_self _⟩
  · exact fun h => absurd h.2.1 (by decide)

end

end Solaris

end OpenUsb
