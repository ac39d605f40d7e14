import OpenUsb.Destroy
import Mathlib.Data.List.Forall2

/-!
# Emulation — the descriptor tree of the 0.1 compatibility layer

`wr_setup_dev_config` copies the descriptors that the library holds for a device into the structures of the 0.1 interface,
where a NULL pointer is `none` and an array is a list.  The numeric fields of the tree it reads are in host order already.
Every `calloc` either succeeds or not, as the stream of answers says, and leaves zeros.

* `emulation_keeps_tree_iff`: when the copy is the same tree.
-/

namespace OpenUsb

namespace Emulation

/-! ## Byte order -/

/-- The byte order of the host. -/
inductive Endian where
  | little
  | big
  deriving DecidableEq, Repr

/-- Byte `i` of a 32-bit word in memory. -/
def memByte (e : Endian) (data : UInt32) (i : ℕ) : ℕ :=
  match e with
  | .little => data.toNat / 256 ^ i % 256
  | .big => data.toNat / 256 ^ (3 - i) % 256

/-- `openusb_le32_to_cpu`. -/
def openusbLe32ToCpu (e : Endian) (data : UInt32) : UInt32 :=
  if memByte e 0x12345678 0 = 0x12 then
    .ofNat (memByte e data 0 + 256 * memByte e data 1 + 256 ^ 2 * memByte e data 2 + 256 ^ 3 * memByte e data 3)
  else data

/-- The conversion applied to a 16-bit field and stored in a 16-bit field. -/
def convertWord (e : Endian) (w : UInt16) : UInt16 := (openusbLe32ToCpu e w.toUInt32).toUInt16

/-! ## The structures of 0.1 -/

structure UsbEndpointDescriptor where
  bLength : UInt8 := 0
  bDescriptorType : UInt8 := 0
  bEndpointAddress : UInt8 := 0
  bmAttributes : UInt8 := 0
  wMaxPacketSize : UInt16 := 0
  bInterval : UInt8 := 0
  bRefresh : UInt8 := 0
  bSynchAddress : UInt8 := 0
  extra : Option (List UInt8) := none
  extralen : ℕ := 0
  deriving DecidableEq, Repr

structure UsbInterfaceDescriptor where
  bLength : UInt8 := 0
  bDescriptorType : UInt8 := 0
  bInterfaceNumber : UInt8 := 0
  bAlternateSetting : UInt8 := 0
  bNumEndpoints : UInt8 := 0
  bInterfaceClass : UInt8 := 0
  bInterfaceSubClass : UInt8 := 0
  bInterfaceProtocol : UInt8 := 0
  iInterface : UInt8 := 0
  endpoint : Option (List UsbEndpointDescriptor) := none
  extra : Option (List UInt8) := none
  extralen : ℕ := 0
  deriving DecidableEq, Repr

structure UsbInterface where
  altsetting : Option (List UsbInterfaceDescriptor) := none
  num_altsetting : ℕ := 0
  deriving DecidableEq, Repr

structure UsbConfigDescriptor where
  bLength : UInt8 := 0
  bDescriptorType : UInt8 := 0
  wTotalLength : UInt16 := 0
  bNumInterfaces : UInt8 := 0
  bConfigurationValue : UInt8 := 0
  iConfiguration : UInt8 := 0
  bmAttributes : UInt8 := 0
  MaxPower : UInt8 := 0
  interface : Option (List UsbInterface) := none
  extra : Option (List UInt8) := none
  extralen : ℕ := 0
  deriving DecidableEq, Repr

/-- The fields of `struct usb_device` that are set up. -/
structure UsbDevice where
  descriptor : UsbDeviceDesc := {}
  config : Option (List UsbConfigDescriptor) := none
  deriving DecidableEq, Repr

/-! ## The copy -/

/-- Code that allocates, takes its answers from a stream, and fails with a return code. -/
abbrev Wr (α : Type) : Type := StateT (ℕ → Bool) (Except ℤ) α

/-- `calloc`, and the return code of the function when it gives NULL. -/
def callocOr (ret : ℤ) : Wr Unit := fun mem => if mem 0 then .ok ((), fun n => mem (n + 1)) else .error ret

/-- The first `n` entries of an array. -/
def first {α : Type} [Inhabited α] (t : Table α) (n : ℕ) : List α :=
  (List.range n).map fun i => t.entries.getD i default

/-- The pointer is not NULL. -/
def present {α : Type} (t : Table α) : Prop := t ≠ .absent

theorem not_present_absent {α : Type} : ¬ present (.absent : Table α) := not_not_intro rfl

theorem present_live {α : Type} (cap : ℕ) (l : List α) : present (.live cap l) := nofun

theorem present_freed {α : Type} (l : List α) : present (.freed l) := nofun

instance {α : Type} (t : Table α) : Decidable (present t) :=
  match t with
  | .absent => isFalse not_present_absent
  | .live cap l => isTrue (present_live cap l)
  | .freed l => isTrue (present_freed l)

/-- The copy of the extra bytes, where `copied` is the test before it. -/
def wrExtra (copied : Prop) [Decidable copied] (extra : Table UInt8) (extralen : ℕ) : Wr (Option (List UInt8) × ℕ) :=
  if copied then do
    callocOr (-1)
    pure (some (first extra extralen), extralen)
  else pure (none, 0)

/-- One round of the loop of `wr_parse_endpoint`. -/
def wrEndpoint (e : Endian) (ep10 : UsbiEndpoint) : Wr UsbEndpointDescriptor := do
  let (extra, extralen) ← wrExtra (present ep10.extra) ep10.extra ep10.extralen.toNat
  pure {
    bLength := ep10.desc.bLength
    bDescriptorType := ep10.desc.bDescriptorType
    bEndpointAddress := ep10.desc.bEndpointAddress
    bmAttributes := ep10.desc.bmAttributes
    wMaxPacketSize := convertWord e ep10.desc.wMaxPacketSize
    bInterval := ep10.desc.bInterval
    bRefresh := ep10.desc.bRefresh
    bSynchAddress := ep10.desc.bSynchAddress
    extra := extra
    extralen := extralen }

/-- `wr_parse_endpoint`: what becomes of `ifdesc->endpoint`. -/
def wrParseEndpoint (e : Endian) (alt : UsbiAltsetting) : Wr (Option (List UsbEndpointDescriptor)) :=
  if alt.num_endpoints > 0 then do
    callocOr (-1)
    let endpoint ← (first alt.endpoints alt.num_endpoints).mapM (wrEndpoint e)
    pure (some endpoint)
  else pure none

/-- One round of the loop of `wr_parse_interface`. -/
def wrAltsetting (e : Endian) (alt : UsbiAltsetting) : Wr UsbInterfaceDescriptor := do
  let (extra, extralen) ← wrExtra (present alt.extra) alt.extra alt.extralen
  let endpoint ← wrParseEndpoint e alt
  pure {
    bLength := alt.desc.bLength
    bDescriptorType := alt.desc.bDescriptorType
    bInterfaceNumber := alt.desc.bInterfaceNumber
    bAlternateSetting := alt.desc.bAlternateSetting
    bNumEndpoints := alt.desc.bNumEndpoints
    bInterfaceClass := alt.desc.bInterfaceClass
    bInterfaceSubClass := alt.desc.bInterfaceSubClass
    bInterfaceProtocol := alt.desc.bInterfaceProtocol
    iInterface := alt.desc.iInterface
    endpoint := endpoint
    extra := extra
    extralen := extralen }

/-- `wr_parse_interface`. -/
def wrParseInterface (e : Endian) (ifc10 : UsbiInterface) : Wr UsbInterface := do
  callocOr (-1)
  let altsetting ← (first ifc10.altsettings ifc10.num_altsettings).mapM (wrAltsetting e)
  pure { altsetting := some altsetting, num_altsetting := ifc10.num_altsettings }

/-- The configuration descriptor without its interfaces. -/
def wrConfigHead (e : Endian) (config : UsbiConfig) : Wr UsbConfigDescriptor := do
  let (extra, extralen) ← wrExtra (config.extralen ≠ 0) config.extra config.extralen
  pure {
    bLength := config.desc.bLength
    bDescriptorType := config.desc.bDescriptorType
    wTotalLength := convertWord e config.desc.wTotalLength
    bNumInterfaces := config.desc.bNumInterfaces
    bConfigurationValue := config.desc.bConfigurationValue
    iConfiguration := config.desc.iConfiguration
    bmAttributes := config.desc.bmAttributes
    MaxPower := config.desc.bMaxPower
    extra := extra
    extralen := extralen }

/-- The loop over the configurations. -/
def wrConfigs (e : Endian) : List UsbiConfig → Wr (List UsbConfigDescriptor)
  | [] => pure []
  | config :: rest => do
    let pcfg ← wrConfigHead e config
    if config.num_interfaces = 0 then
      -- `return 0` from within the loop
      pure (pcfg :: rest.map fun _ => {})
    else do
      callocOr OPENUSB_NO_RESOURCES
      let interface ← (first config.interfaces config.num_interfaces).mapM (wrParseInterface e)
      let others ← wrConfigs e rest
      pure ({ pcfg with interface := some interface } :: others)

/-- What the calls before the copy give: whether `usbi_find_dev_handle` and `usbi_find_device_by_id` find something, and
the return code of `usbi_fetch_and_parse_descriptors`. -/
structure WrCalls where
  hdevFound : Bool
  fetchRet : ℤ
  idevFound : Bool

/-- `wr_setup_dev_config`: the device when it returns 0, and otherwise the return code. -/
def wrSetupDevConfig (e : Endian) (calls : WrCalls) (desc : UsbiDescriptors) (mem : ℕ → Bool) : Except ℤ UsbDevice :=
  if calls.hdevFound = false then .error (-1)
  else if calls.fetchRet ≠ 0 then .error (-1)
  else if calls.idevFound = false then .error (-1)
  else if desc.device.bNumConfigurations.toNat = 0 then .error (-1)
  else
    let copy : Wr (List UsbConfigDescriptor) := do
      callocOr OPENUSB_NO_RESOURCES
      wrConfigs e (first desc.configs desc.device.bNumConfigurations.toNat)
    (copy.run mem).map fun r => { descriptor := desc.device, config := some r.1 }

/-! ## The same tree -/

/-- The two sides hold the same extra bytes. -/
def SameExtra (extra10 : Table UInt8) (extralen10 : ℕ) (extra01 : Option (List UInt8)) (extralen01 : ℕ) : Prop :=
  extralen01 = extralen10 ∧ extra01.getD [] = first extra10 extralen10

def UsbEndpointDescriptor.desc (ep : UsbEndpointDescriptor) : UsbEndpointDesc where
  bLength := ep.bLength
  bDescriptorType := ep.bDescriptorType
  bEndpointAddress := ep.bEndpointAddress
  bmAttributes := ep.bmAttributes
  wMaxPacketSize := ep.wMaxPacketSize
  bInterval := ep.bInterval
  bRefresh := ep.bRefresh
  bSynchAddress := ep.bSynchAddress

def UsbInterfaceDescriptor.desc (ifdesc : UsbInterfaceDescriptor) : UsbInterfaceDesc where
  bLength := ifdesc.bLength
  bDescriptorType := ifdesc.bDescriptorType
  bInterfaceNumber := ifdesc.bInterfaceNumber
  bAlternateSetting := ifdesc.bAlternateSetting
  bNumEndpoints := ifdesc.bNumEndpoints
  bInterfaceClass := ifdesc.bInterfaceClass
  bInterfaceSubClass := ifdesc.bInterfaceSubClass
  bInterfaceProtocol := ifdesc.bInterfaceProtocol
  iInterface := ifdesc.iInterface

def UsbConfigDescriptor.desc (pcfg : UsbConfigDescriptor) : UsbConfigDesc where
  bLength := pcfg.bLength
  bDescriptorType := pcfg.bDescriptorType
  wTotalLength := pcfg.wTotalLength
  bNumInterfaces := pcfg.bNumInterfaces
  bConfigurationValue := pcfg.bConfigurationValue
  iConfiguration := pcfg.iConfiguration
  bmAttributes := pcfg.bmAttributes
  bMaxPower := pcfg.MaxPower

structure SameEndpoint (ep10 : UsbiEndpoint) (ep01 : UsbEndpointDescriptor) : Prop where
  desc : ep01.desc = ep10.desc
  extra : SameExtra ep10.extra ep10.extralen.toNat ep01.extra ep01.extralen

structure SameAltsetting (alt : UsbiAltsetting) (ifdesc : UsbInterfaceDescriptor) : Prop where
  desc : ifdesc.desc = alt.desc
  extra : SameExtra alt.extra alt.extralen ifdesc.extra ifdesc.extralen
  endpoints : List.Forall₂ SameEndpoint (first alt.endpoints alt.num_endpoints) (ifdesc.endpoint.getD [])

structure SameInterface (ifc10 : UsbiInterface) (ifc01 : UsbInterface) : Prop where
  count : ifc01.num_altsetting = ifc10.num_altsettings
  altsettings : List.Forall₂ SameAltsetting (first ifc10.altsettings ifc10.num_altsettings) (ifc01.altsetting.getD [])

structure SameConfig (config : UsbiConfig) (pcfg : UsbConfigDescriptor) : Prop where
  desc : pcfg.desc = config.desc
  extra : SameExtra config.extra config.extralen pcfg.extra pcfg.extralen
  interfaces : List.Forall₂ SameInterface (first config.interfaces config.num_interfaces) (pcfg.interface.getD [])

/-- The device descriptor and, for every index, the configuration are the same on both sides. -/
structure SameTree (desc : UsbiDescriptors) (dev : UsbDevice) : Prop where
  device : dev.descriptor = desc.device
  configs : List.Forall₂ SameConfig (first desc.configs desc.num_configs) (dev.config.getD [])

/-- The extra bytes of a tree that is held: none, or as many as the length says. -/
def HoldsExtra (extra : Table UInt8) (extralen : ℕ) : Prop :=
  (¬ present extra ∧ extralen = 0) ∨ (present extra ∧ extralen ≤ extra.liveCount)

structure HeldAltsetting (alt : UsbiAltsetting) : Prop extends alt.Consistent where
  extra : HoldsExtra alt.extra alt.extralen
  endpoints : ∀ ep ∈ first alt.endpoints alt.num_endpoints, HoldsExtra ep.extra ep.extralen.toNat

structure HeldConfig (config : UsbiConfig) : Prop extends config.Consistent where
  extra : HoldsExtra config.extra config.extralen
  interfaces : ∀ ifc ∈ first config.interfaces config.num_interfaces,
    ∀ alt ∈ first ifc.altsettings ifc.num_altsettings, HeldAltsetting alt

/-- A descriptor tree that the library holds for a device. -/
structure HeldTree (desc : UsbiDescriptors) : Prop where
  count : desc.num_configs = desc.device.bNumConfigurations.toNat
  count_le : desc.num_configs ≤ desc.configs.liveCount
  configs : ∀ config ∈ first desc.configs desc.num_configs, HeldConfig config

/-- The two fields of 16 bits are zero all over the configuration. -/
structure NoWords (config : UsbiConfig) : Prop where
  total : config.desc.wTotalLength = 0
  packet : ∀ ifc ∈ first config.interfaces config.num_interfaces,
    ∀ alt ∈ first ifc.altsettings ifc.num_altsettings, ∀ ep ∈ first alt.endpoints alt.num_endpoints,
      ep.desc.wMaxPacketSize = 0

/-- The configuration is an entry of zeros. -/
structure Blank (config : UsbiConfig) : Prop where
  desc : config.desc = {}
  extra : config.extralen = 0
  interfaces : config.num_interfaces = 0

/-- On a big-endian host the words of the configurations that are copied are zero, and only entries of zeros come after a
configuration without interfaces. -/
def Survives (e : Endian) (configs : List UsbiConfig) : Prop :=
  ∀ l config r, configs = l ++ config :: r →
    ((∀ x ∈ l, x.num_interfaces ≠ 0) → e = .big → NoWords config) ∧
    ((∃ x ∈ l, x.num_interfaces = 0) → Blank config)

/-! ## What the copy gives -/

section

variable {α β : Type} {p : Wr α} {f : α → Wr β} {P : α → Prop} {Q : β → Prop}

/-- Whenever the code does not fail, what it gives satisfies `P`. -/
def Gives (p : Wr α) (P : α → Prop) : Prop := ∀ mem r, p mem = .ok r → P r.1

theorem gives_pure {a : α} (h : P a) : Gives (pure a : Wr α) P := by
  rintro mem _ ⟨⟩
  exact h

theorem gives_callocOr (ret : ℤ) : Gives (callocOr ret) fun _ => True := fun _ _ _ => trivial

theorem Gives.bind (hp : Gives p P) (hf : ∀ a, P a → Gives (f a) Q) : Gives (p >>= f) Q := by
  intro mem r hr
  change (p mem >>= fun q => f q.1 q.2) = .ok r at hr
  cases hq : p mem with
  | error ret =>
    rw [hq] at hr
    exact absurd hr nofun
  | ok q =>
    rw [hq] at hr
    exact hf q.1 (hp mem q hq) q.2 r hr

theorem Gives.mapM {R : α → β → Prop} {l : List α} (hf : ∀ a ∈ l, Gives (f a) (R a)) :
    Gives (l.mapM f) (List.Forall₂ R l) := by
  induction l with
  | nil => exact gives_pure .nil
  | cons a l ih =>
    rw [List.mapM_cons]
    refine (hf a List.mem_cons_self).bind ?_
    intro b hb
    refine (ih fun a ha => hf a (List.mem_cons_of_mem _ ha)).bind ?_
    intro bs hbs
    exact gives_pure (.cons hb hbs)

/-- A list of copies is the same as its source when each source meets the condition for its own copy. -/
theorem forall₂_iff {R : α → β → Prop} {C : α → Prop} {l : List α} {m : List β}
    (h : List.Forall₂ (fun a b => R a b ↔ C a) l m) : List.Forall₂ R l m ↔ ∀ a ∈ l, C a := by
  induction h with
  | nil => simp
  | cons hab _ ih => rw [List.forall₂_cons, hab, ih, List.forall_mem_cons]

end

section

variable {e : Endian}

theorem wrExtra_gives {copied : Prop} [Decidable copied] (extra : Table UInt8) (extralen : ℕ)
    (hcopied : ¬ copied → extralen = 0) :
    Gives (wrExtra copied extra extralen) fun r => SameExtra extra extralen r.1 r.2 := by
  unfold wrExtra
  split_ifs with hc
  · exact (gives_callocOr _).bind fun _ _ => gives_pure ⟨rfl, rfl⟩
  · rw [hcopied hc]
    exact gives_pure ⟨rfl, rfl⟩

theorem HoldsExtra.zero {extra : Table UInt8} {extralen : ℕ} (h : HoldsExtra extra extralen)
    (habsent : ¬ present extra) : extralen = 0 := by
  rcases h with ⟨-, hlen⟩ | ⟨hpresent, -⟩
  · exact hlen
  · exact absurd hpresent habsent

/-- A 16-bit field survives on a little-endian host, and on a big-endian one it is lost. -/
theorem convertWord_eq (e : Endian) (w : UInt16) : convertWord e w = w ↔ (e = .big → w = 0) := by
  cases e with
  | little =>
    have hsame : convertWord .little w = w := by
      unfold convertWord openusbLe32ToCpu
      rw [if_neg (by decide), UInt16.toUInt16_toUInt32]
    exact iff_of_true hsame nofun
  | big =>
    have hzero : convertWord .big w = 0 := by
      unfold convertWord openusbLe32ToCpu
      rw [if_pos (by decide), ← UInt16.toNat_inj]
      have hw := w.toNat_lt
      have hbyte0 : w.toNat / 256 ^ 3 % 256 = 0 := by omega
      have hbyte1 : w.toNat / 256 ^ 2 % 256 = 0 := by omega
      simp only [memByte, Nat.sub_zero, Nat.reduceSub, UInt32.toNat_toUInt16, UInt32.toNat_ofNat', UInt16.toNat_toUInt32,
        UInt16.toNat_zero, hbyte0, hbyte1]
      omega
    rw [hzero]
    exact ⟨fun h _ => h.symm, fun h => (h rfl).symm⟩

theorem wrEndpoint_gives {ep : UsbiEndpoint} (h : HoldsExtra ep.extra ep.extralen.toNat) :
    Gives (wrEndpoint e ep) fun r => SameEndpoint ep r ↔ (e = .big → ep.desc.wMaxPacketSize = 0) := by
  refine (wrExtra_gives _ _ h.zero).bind ?_
  intro x hx
  apply gives_pure
  rw [← convertWord_eq]
  constructor
  · rintro ⟨hdesc, -⟩
    exact congrArg UsbEndpointDesc.wMaxPacketSize hdesc
  · intro hword
    refine ⟨?_, hx⟩
    show UsbEndpointDesc.mk _ _ _ _ (convertWord e ep.desc.wMaxPacketSize) _ _ _ = ep.desc
    rw [hword]

theorem wrParseEndpoint_gives {alt : UsbiAltsetting}
    (h : ∀ ep ∈ first alt.endpoints alt.num_endpoints, HoldsExtra ep.extra ep.extralen.toNat) :
    Gives (wrParseEndpoint e alt) fun r =>
      List.Forall₂ SameEndpoint (first alt.endpoints alt.num_endpoints) (r.getD []) ↔
        ∀ ep ∈ first alt.endpoints alt.num_endpoints, e = .big → ep.desc.wMaxPacketSize = 0 := by
  unfold wrParseEndpoint
  split_ifs with hnum
  · refine (gives_callocOr _).bind ?_
    intro _ _
    refine (Gives.mapM fun ep hep => wrEndpoint_gives (h ep hep)).bind ?_
    intro eps heps
    exact gives_pure (forall₂_iff heps)
  · apply gives_pure
    rw [Nat.eq_zero_of_not_pos hnum]
    simp [first]

theorem wrAltsetting_gives {alt : UsbiAltsetting} (h : HeldAltsetting alt) :
    Gives (wrAltsetting e alt) fun r => SameAltsetting alt r ↔
      ∀ ep ∈ first alt.endpoints alt.num_endpoints, e = .big → ep.desc.wMaxPacketSize = 0 := by
  refine (wrExtra_gives _ _ h.extra.zero).bind ?_
  intro x hx
  refine (wrParseEndpoint_gives h.endpoints).bind ?_
  intro endpoint hendpoint
  apply gives_pure
  rw [← hendpoint]
  exact ⟨fun hsame => hsame.endpoints, fun heps => ⟨rfl, hx, heps⟩⟩

theorem wrParseInterface_gives {ifc : UsbiInterface}
    (h : ∀ alt ∈ first ifc.altsettings ifc.num_altsettings, HeldAltsetting alt) :
    Gives (wrParseInterface e ifc) fun r => SameInterface ifc r ↔
      ∀ alt ∈ first ifc.altsettings ifc.num_altsettings, ∀ ep ∈ first alt.endpoints alt.num_endpoints,
        e = .big → ep.desc.wMaxPacketSize = 0 := by
  refine (gives_callocOr _).bind ?_
  intro _ _
  refine (Gives.mapM fun alt halt => wrAltsetting_gives (h alt halt)).bind ?_
  intro alts halts
  apply gives_pure
  rw [← forall₂_iff halts]
  exact ⟨fun hsame => hsame.altsettings, fun hsame => ⟨rfl, hsame⟩⟩

theorem wrConfigHead_gives {config : UsbiConfig} :
    Gives (wrConfigHead e config) fun r => r.interface = none ∧
      SameExtra config.extra config.extralen r.extra r.extralen ∧
      (r.desc = config.desc ↔ (e = .big → config.desc.wTotalLength = 0)) := by
  refine (wrExtra_gives config.extra config.extralen not_not.mp).bind ?_
  intro x hx
  apply gives_pure
  refine ⟨rfl, hx, ?_⟩
  rw [← convertWord_eq]
  constructor
  · exact congrArg UsbConfigDesc.wTotalLength
  · intro hword
    show UsbConfigDesc.mk _ _ (convertWord e config.desc.wTotalLength) _ _ _ _ _ = config.desc
    rw [hword]

theorem length_first {α : Type} [Inhabited α] (t : Table α) (n : ℕ) : (first t n).length = n := by
  unfold first
  rw [List.length_map, List.length_range]

/-- An entry of the copy that was never written is the same only as an entry of zeros. -/
theorem sameConfig_zero {config : UsbiConfig} : SameConfig config {} ↔ Blank config := by
  constructor
  · rintro ⟨hdesc, ⟨hlen, -⟩, hinterfaces⟩
    refine ⟨hdesc.symm, hlen.symm, ?_⟩
    rw [← length_first config.interfaces config.num_interfaces, hinterfaces.length_eq]
    rfl
  · rintro ⟨hdesc, hlen, hnum⟩
    refine ⟨hdesc.symm, ⟨hlen.symm, ?_⟩, ?_⟩
    · rw [hlen]
      rfl
    · rw [hnum]
      exact .nil

theorem survives_cons {config : UsbiConfig} {rest : List UsbiConfig} : Survives e (config :: rest) ↔
    (e = .big → NoWords config) ∧
      if config.num_interfaces = 0 then ∀ c ∈ rest, Blank c else Survives e rest := by
  constructor
  · intro h
    refine ⟨(h [] config rest rfl).1 (fun _ hx => absurd hx List.not_mem_nil), ?_⟩
    split_ifs with hnum
    · intro c hc
      obtain ⟨l, r, rfl⟩ := List.append_of_mem hc
      exact (h (config :: l) c r rfl).2 ⟨config, List.mem_cons_self, hnum⟩
    · rintro l c r rfl
      obtain ⟨hwords, hblank⟩ := h (config :: l) c r rfl
      refine ⟨fun hl => hwords (List.forall_mem_cons.mpr ⟨hnum, hl⟩), ?_⟩
      rintro ⟨x, hx, hzero⟩
      exact hblank ⟨x, List.mem_cons_of_mem _ hx, hzero⟩
  · rintro ⟨hfirst, hrest⟩ l c r heq
    cases l with
    | nil =>
      obtain ⟨rfl, -⟩ := List.cons_eq_cons.mp heq
      refine ⟨fun _ => hfirst, ?_⟩
      rintro ⟨x, hx, -⟩
      exact absurd hx List.not_mem_nil
    | cons x l =>
      obtain ⟨rfl, rfl⟩ := List.cons_eq_cons.mp heq
      split_ifs at hrest with hnum
      · refine ⟨fun hl => absurd hnum (hl config List.mem_cons_self), fun _ => ?_⟩
        exact hrest c (List.mem_append_right _ List.mem_cons_self)
      · obtain ⟨hwords, hblank⟩ := hrest l c r rfl
        refine ⟨fun hl => hwords (List.forall_mem_cons.mp hl).2, ?_⟩
        rintro ⟨x, hx, hzero⟩
        rcases List.mem_cons.mp hx with rfl | hx
        · exact absurd hzero hnum
        · exact hblank ⟨x, hx, hzero⟩

theorem forall₂_map_blank {rest : List UsbiConfig} :
    List.Forall₂ SameConfig rest (rest.map fun _ => {}) ↔ ∀ c ∈ rest, Blank c := by
  rw [List.forall₂_map_right_iff, List.forall₂_same]
  exact forall₂_congr fun _ _ => sameConfig_zero

/-- The loop over the configurations. -/
theorem wrConfigs_gives {configs : List UsbiConfig} (h : ∀ config ∈ configs, HeldConfig config) :
    Gives (wrConfigs e configs) fun r => List.Forall₂ SameConfig configs r ↔ Survives e configs := by
  induction configs with
  | nil =>
    refine gives_pure (iff_of_true .nil ?_)
    intro l config r heq
    exact absurd heq (by simp)
  | cons config rest ih =>
    refine wrConfigHead_gives.bind ?_
    rintro pcfg ⟨hnone, hextra, hdesc⟩
    split_ifs with hnum
    · apply gives_pure
      rw [List.forall₂_cons, survives_cons, if_pos hnum, forall₂_map_blank]
      apply and_congr_left'
      constructor
      · intro hsame hbig
        refine ⟨hdesc.mp hsame.desc hbig, ?_⟩
        rw [hnum]
        exact fun _ hifc => absurd hifc List.not_mem_nil
      · intro hwords
        refine ⟨hdesc.mpr fun hbig => (hwords hbig).total, hextra, ?_⟩
        rw [hnum, hnone]
        exact .nil
    · refine (gives_callocOr _).bind ?_
      intro _ _
      have hheld := h config List.mem_cons_self
      refine (Gives.mapM fun ifc hifc => wrParseInterface_gives (hheld.interfaces ifc hifc)).bind ?_
      intro interface hinterface
      refine (ih fun c hc => h c (List.mem_cons_of_mem _ hc)).bind ?_
      intro others hothers
      apply gives_pure
      rw [List.forall₂_cons, survives_cons, if_neg hnum, hothers]
      apply and_congr_left'
      constructor
      · intro hsame hbig
        refine ⟨hdesc.mp hsame.desc hbig, fun ifc hifc alt halt ep hep => ?_⟩
        exact (forall₂_iff hinterface).mp hsame.interfaces ifc hifc alt halt ep hep hbig
      · intro hwords
        refine ⟨hdesc.mpr fun hbig => (hwords hbig).total, hextra, ?_⟩
        apply (forall₂_iff hinterface).mpr
        exact fun ifc hifc alt halt ep hep hbig => (hwords hbig).packet ifc hifc alt halt ep hep

/-- When `wr_setup_dev_config` returns 0, the 0.1 tree is the tree of the library exactly when the tree survives the two
slips of the code. -/
theorem emulation_keeps_tree_iff {calls : WrCalls} {desc : UsbiDescriptors} {mem : ℕ → Bool} {dev : UsbDevice}
    (hheld : HeldTree desc) (h : wrSetupDevConfig e calls desc mem = .ok dev) :
    SameTree desc dev ↔ Survives e (first desc.configs desc.num_configs) := by
  unfold wrSetupDevConfig at h
  split_ifs at h
  dsimp only at h
  set copy : Wr (List UsbConfigDescriptor) := do
    callocOr OPENUSB_NO_RESOURCES
    wrConfigs e (first desc.configs desc.device.bNumConfigurations.toNat) with hcopy
  have hgives : Gives copy fun r => List.Forall₂ SameConfig (first desc.configs desc.num_configs) r ↔
      Survives e (first desc.configs desc.num_configs) := by
    rw [hcopy, ← hheld.count]
    exact (gives_callocOr _).bind fun _ _ => wrConfigs_gives hheld.configs
  cases hr : copy.run mem with
  | error ret =>
    rw [hr] at h
    exact absurd h nofun
  | ok r =>
    rw [hr] at h
    cases h
    refine Iff.trans ?_ (hgives mem r hr)
    exact ⟨fun hsame => hsame.configs, fun hsame => ⟨rfl, hsame⟩⟩

/-- An alternate setting with one endpoint, and extra bytes at each level. -/
def oneEndpoint : UsbiAltsetting where
  desc := { bLength := 9, bDescriptorType := 4, bNumEndpoints := 1 }
  num_endpoints := 1
  endpoints := .live 1 [{
    desc := { bLength := 7, bDescriptorType := 5, bEndpointAddress := 0x81, bmAttributes := 2, wMaxPacketSize := 64 }
    extra := .live 2 [2, 0x25]
    extralen := 2 }]
  extra := .live 2 [2, 0x24]
  extralen := 2

def oneInterface : UsbiConfig where
  desc := { bLength := 9, bDescriptorType := 2, wTotalLength := 31, bNumInterfaces := 1, bConfigurationValue := 2 }
  num_interfaces := 1
  interfaces := .live 1 [{ num_altsettings := 1, altsettings := .live 1 [oneEndpoint] }]
  extra := .live 2 [2, 0x0b]
  extralen := 2

def noInterfaces : UsbiConfig where
  desc := { bLength := 9, bDescriptorType := 2, wTotalLength := 9, bConfigurationValue := 1 }

/-- A device with these configurations. -/
def deviceWith (configs : List UsbiConfig) : UsbiDescriptors where
  num_configs := configs.length
  device := { bLength := 18, bDescriptorType := 1, bNumConfigurations := .ofNat configs.length }
  configs := .live configs.length configs

theorem heldAltsetting_oneEndpoint : HeldAltsetting oneEndpoint where
  count_le := le_rfl
  endpoints_live := not_false
  extra_live := not_false
  entries ep hep := by
    rw [List.mem_singleton.mp hep]
    exact not_false
  extra := .inr ⟨nofun, le_rfl⟩
  endpoints ep hep := by
    rw [List.mem_singleton.mp hep]
    exact .inr ⟨nofun, le_rfl⟩

theorem heldConfig_oneInterface : HeldConfig oneInterface where
  count_le := le_rfl
  interfaces_live := not_false
  extra_live := not_false
  entries ifc hifc := by
    rw [List.mem_singleton.mp hifc]
    refine ⟨le_rfl, not_false, fun alt halt => ?_⟩
    rw [List.mem_singleton.mp halt]
    exact heldAltsetting_oneEndpoint.toConsistent
  extra := .inr ⟨nofun, le_rfl⟩
  interfaces ifc hifc alt halt := by
    rw [List.mem_singleton.mp hifc] at halt
    rw [List.mem_singleton.mp halt]
    exact heldAltsetting_oneEndpoint

theorem heldConfig_noInterfaces : HeldConfig noInterfaces where
  count_le := le_rfl
  interfaces_live := not_false
  extra_live := not_false
  entries _ h := absurd h List.not_mem_nil
  extra := .inl ⟨not_not_intro rfl, rfl⟩
  interfaces _ h := absurd h List.not_mem_nil

theorem heldTree_two : HeldTree (deviceWith [noInterfaces, oneInterface]) where
  count := rfl
  count_le := le_rfl
  configs := List.forall_mem_cons.mpr ⟨heldConfig_noInterfaces, List.forall_mem_singleton.mpr heldConfig_oneInterface⟩

theorem heldTree_one : HeldTree (deviceWith [oneInterface]) where
  count := rfl
  count_le := le_rfl
  configs := List.forall_mem_singleton.mpr heldConfig_oneInterface

/-- An ordinary device on a little-endian host. -/
theorem emulation_keeps_tree_one : ∃ dev,
    wrSetupDevConfig .little ⟨true, 0, true⟩ (deviceWith [oneInterface]) (fun _ => true) = .ok dev ∧
    SameTree (deviceWith [oneInterface]) dev := by
  obtain ⟨dev, hdev⟩ : ∃ dev,
      wrSetupDevConfig .little ⟨true, 0, true⟩ (deviceWith [oneInterface]) (fun _ => true) = .ok dev := ⟨_, rfl⟩
  refine ⟨dev, hdev, (emulation_keeps_tree_iff heldTree_one hdev).mpr ?_⟩
  apply survives_cons.mpr
  exact ⟨nofun, fun l c r heq => absurd heq (by simp)⟩

/-- A configuration without interfaces ends the copy, and a big-endian host loses the sizes of packets. -/
theorem emulation_loses_tree :
    (HeldTree (deviceWith [noInterfaces, oneInterface]) ∧ ∃ dev,
      wrSetupDevConfig .little ⟨true, 0, true⟩ (deviceWith [noInterfaces, oneInterface]) (fun _ => true) = .ok dev ∧
      ¬ SameTree (deviceWith [noInterfaces, oneInterface]) dev) ∧
    HeldTree (deviceWith [oneInterface]) ∧ ∃ dev,
      wrSetupDevConfig .big ⟨true, 0, true⟩ (deviceWith [oneInterface]) (fun _ => true) = .ok dev ∧
      ¬ SameTree (deviceWith [oneInterface]) dev := by
  refine ⟨⟨heldTree_two, _, rfl, ?_⟩, heldTree_one, _, rfl, ?_⟩
  · rintro ⟨-, hconfigs⟩
    obtain ⟨-, hsecond, -⟩ := (List.forall₂_cons.trans (and_congr_right' List.forall₂_cons)).mp hconfigs
    exact absurd hsecond.desc (by decide)
  · rintro ⟨-, hconfigs⟩
    obtain ⟨hfirst, -⟩ := List.forall₂_cons.mp hconfigs
    exact absurd hfirst.desc (by decide)

end

end Emulation

end OpenUsb
