import OpenUsb.DeviceSearch
import OpenUsb.Emulation
import OpenUsb.RawDescriptor

/-!
# DescriptorViews — one device through all layers

The descriptors of a device reach a program in four ways: as the tree that the library builds from control transfers, as raw
bytes from the file of usbfs, as single descriptors that the walkers parse from these bytes, and as the tree of the 0.1
interface.  A well-formed device is put in at the bottom, as the answers it gives and as the content of its file.

* `fetch_holds`: the library holds the device.
* `read_from_file`: the file hands out each of its descriptors.
* `views_agree`: what the layers show of one device.
-/

namespace OpenUsb

open Prog Emulation

/-! ## A device -/

/-- A device descriptor with the configurations that it announces. -/
structure WfDevice where
  desc : Desc
  configs : List WfConfig
  type_eq : desc.type = USB_DESC_TYPE_DEVICE
  size_eq : desc.size = USBI_DEVICE_DESC_SIZE
  num_configs : (desc.byte 17).toNat = configs.length
  configs_pos : 1 ≤ configs.length
  configs_le : configs.length ≤ USBI_MAXCONFIG

namespace WfDevice

variable (d : WfDevice)

def descStruct : UsbDeviceDesc :=
  { bLength := d.desc.byte 0, bDescriptorType := d.desc.byte 1,
    bcdUSB := .ofNat ((d.desc.byte 2).toNat + 256 * (d.desc.byte 3).toNat), bDeviceClass := d.desc.byte 4,
    bDeviceSubClass := d.desc.byte 5, bDeviceProtocol := d.desc.byte 6, bMaxPacketSize0 := d.desc.byte 7,
    idVendor := .ofNat ((d.desc.byte 8).toNat + 256 * (d.desc.byte 9).toNat),
    idProduct := .ofNat ((d.desc.byte 10).toNat + 256 * (d.desc.byte 11).toNat),
    bcdDevice := .ofNat ((d.desc.byte 12).toNat + 256 * (d.desc.byte 13).toNat), iManufacturer := d.desc.byte 14,
    iProduct := d.desc.byte 15, iSerialNumber := d.desc.byte 16, bNumConfigurations := d.desc.byte 17 }

/-- The bytes of a configuration. -/
def configBytes (c : ℕ) : List UInt8 := (d.configs.map WfConfig.bytes).getD c []

/-- What the device answers when its descriptors are read. -/
def reply : Request → Reply
  | .device => .ok d.desc.bytes
  | .header c => .ok ((d.configBytes c).take 8)
  | .full c => .ok (d.configBytes c)

/-- What its file contains. -/
def content : List UInt8 := d.desc.bytes ++ d.configs.flatMap WfConfig.bytes

end WfDevice

/-! ## The views -/

/-- The library holds the device. -/
structure HoldsDevice (d : WfDevice) (dev : UsbiDescriptors) : Prop where
  device : dev.device = d.descStruct
  device_raw : dev.device_raw.data.entries = d.desc.bytes
  count : dev.num_configs = d.configs.length
  configs : dev.configs = .live d.configs.length (d.configs.map WfConfig.tree)
  configs_raw : dev.configs_raw.entries.map (fun raw => first raw.data raw.len) = d.configs.map WfConfig.bytes

/-- The file hands out the descriptors of the device, and no others. -/
structure HandsOutDevice (d : WfDevice) (file : DeviceFile) : Prop where
  device : ∀ i, ∃ r, file.linuxGetRawDesc true true USB_DESC_TYPE_DEVICE i = r ∧ r.ret = OPENUSB_SUCCESS ∧
    r.buffer = some d.desc.bytes ∧ r.buflen = some d.desc.bytes.length
  config : ∀ (i : UInt8) (c : WfConfig), d.configs[i.toNat]? = some c →
    ∃ r, file.linuxGetRawDesc true true USB_DESC_TYPE_CONFIG i = r ∧ r.ret = OPENUSB_SUCCESS ∧
      r.buffer = some c.bytes ∧ r.buflen = some c.bytes.length
  beyond : ∀ i : UInt8, d.configs.length ≤ i.toNat → (file.linuxGetRawDesc true true USB_DESC_TYPE_CONFIG i).ret < 0

/-- Of the bytes of a configuration the walkers give the descriptors that are in its tree, except for the two audio fields of
an endpoint, which they leave as the caller had them. -/
def WalkedTree (bytes : List UInt8) (cfg : UsbiConfig) : Prop :=
  ∀ (env : Env) (raw : ℤ × RawDesc), Holds env.mem 0 bytes →
    ∀ intf ∈ cfg.interfaces.entries, ∀ as ∈ intf.altsettings.entries,
      (∀ ifcdesc, (openusbParseInterfaceDesc env true raw (some 0) bytes.length as.desc.bInterfaceNumber
        as.desc.bAlternateSetting ifcdesc).Returns (OPENUSB_SUCCESS, as.desc)) ∧
      ∀ (k : ℕ) (ep : UsbiEndpoint), as.endpoints.entries[k]? = some ep → ∀ eptdesc,
        (openusbParseEndpointDesc env true raw (some 0) bytes.length as.desc.bInterfaceNumber as.desc.bAlternateSetting
          (.ofNat k) eptdesc).Returns
            (OPENUSB_SUCCESS, { ep.desc with bRefresh := eptdesc.bRefresh, bSynchAddress := eptdesc.bSynchAddress })

/-- The views of the device agree: the library holds it, its file hands it out, and what the walkers give of the bytes that the
file hands out is what the tree holds. -/
structure ViewsAgree (d : WfDevice) (file : DeviceFile) (dev : UsbiDescriptors) : Prop where
  held : HoldsDevice d dev
  handedOut : HandsOutDevice d file
  walked : ∀ (i : UInt8) (cfg : UsbiConfig), dev.configs.entries[i.toNat]? = some cfg →
    ∃ bytes, (file.linuxGetRawDesc true true USB_DESC_TYPE_CONFIG i).buffer = some bytes ∧ WalkedTree bytes cfg

/-- No read of the file is cut short, and there is memory for all of it. -/
structure DeviceFile.Whole (file : DeviceFile) : Prop where
  fd : 0 ≤ file.fd
  reads : ∀ s, ∃ k ≥ 2 ^ 16, file.outcome s = .upTo k
  alloc : ∀ s, file.alloc s = true

/-! ## Bytes -/

section

variable {d : WfDevice}

theorem bytes_device_length (d : WfDevice) : d.desc.bytes.length = 18 := d.size_eq

theorem byte_of_config (c : WfConfig) (rest : List UInt8) {k : ℕ} (hk : k < 9) : (c.bytes ++ rest).getD k 0 = c.desc.byte k := by
  have hsize : c.desc.bytes.length = 9 := c.size_eq
  have hbytes : c.bytes = c.desc.bytes ++ flat (c.extras.map Extra.toDesc ++ c.intfs.flatMap IntfBlock.descs) := rfl
  rw [hbytes, List.append_assoc, List.getD_append _ _ _ _ (by omega), Desc.byte]

/-- The header of a configuration says how long it is. -/
theorem totalLength_config (c : WfConfig) (rest : List UInt8) : totalLength ((c.bytes ++ rest).take 8) = c.bytes.length := by
  have htotal : (c.desc.byte 2).toNat + 256 * (c.desc.byte 3).toNat = c.bytes.length := c.wTotalLength
  have htake : ∀ k < 8, ((c.bytes ++ rest).take 8).getD k 0 = c.desc.byte k := by
    intro k hk
    rw [List.getD_eq_getElem?_getD, List.getElem?_take_of_lt hk, ← List.getD_eq_getElem?_getD, byte_of_config c rest (by omega)]
  rw [totalLength, htake 2 (by decide), htake 3 (by decide), htotal]

theorem nine_le_config (c : WfConfig) : 9 ≤ c.bytes.length := by
  have := length_bytes_config c
  omega

theorem configBytes_of_some {i : ℕ} {c : WfConfig} (h : d.configs[i]? = some c) : d.configBytes i = c.bytes := by
  rw [WfDevice.configBytes, List.getD_eq_getElem?_getD, List.getElem?_map, h]
  rfl

/-- The file from a configuration on. -/
theorem content_from (i : ℕ) (hi : i ≤ d.configs.length) :
    d.content.drop (configStart d.content i) = (d.configs.drop i).flatMap WfConfig.bytes := by
  induction i with
  | zero =>
    rw [configStart, WfDevice.content, ← d.size_eq, Desc.size, List.drop_left, List.drop_zero]
  | succ i ih =>
    have hfrom := ih (by omega)
    rw [List.drop_eq_getElem_cons hi, List.flatMap_cons] at hfrom
    rw [configStart, lengthAt, hfrom, totalLength_config, ← List.drop_drop, hfrom, List.drop_left]

theorem content_at {i : ℕ} {c : WfConfig} (h : d.configs[i]? = some c) :
    d.content.drop (configStart d.content i) = c.bytes ++ (d.configs.drop (i + 1)).flatMap WfConfig.bytes := by
  obtain ⟨hi, rfl⟩ := List.getElem?_eq_some_iff.mp h
  rw [content_from i hi.le, List.drop_eq_getElem_cons hi, List.flatMap_cons]

theorem lengthAt_config {i : ℕ} {c : WfConfig} (h : d.configs[i]? = some c) :
    lengthAt d.content (configStart d.content i) = c.bytes.length := by
  rw [lengthAt, content_at h, totalLength_config]

/-! ## The file -/

variable {file : DeviceFile}

/-- A read inside of the file delivers all. -/
theorem DeviceFile.Whole.readsAll (h : file.Whole) {s : RawSite} {pos count : ℕ} (hcount : count ≤ 2 ^ 16)
    (hin : pos + count ≤ file.content.length) : file.ReadsAll s pos count := by
  obtain ⟨k, hk, hout⟩ := h.reads s
  rw [DeviceFile.ReadsAll, DeviceFile.readFile, hout]
  dsimp only
  rw [List.length_take, List.length_take, List.length_drop]
  omega

theorem DeviceFile.Whole.not_error (h : file.Whole) (s : RawSite) : file.outcome s ≠ .error := by
  obtain ⟨k, -, hout⟩ := h.reads s
  rw [hout]
  exact nofun

/-- Every configuration is passed on the way. -/
theorem whole_passed (h : file.Whole) (hfile : file.content = d.content) {i : ℕ} {c : WfConfig}
    (hc : d.configs[i]? = some c) : file.Passed i ∧ file.len i = c.bytes.length := by
  have hpos : file.headerPos i = configStart d.content i := by
    rw [headerPos_eq i fun j _ => h.not_error _, hfile]
  have hlen : file.len i = c.bytes.length := by
    rw [DeviceFile.len, hpos, hfile, lengthAt_config hc]
  have hnine := nine_le_config c
  have hlt := length_bytes_lt c
  have hroom : file.headerPos i + c.bytes.length ≤ file.content.length := by
    have hdrop := congrArg List.length (content_at hc)
    rw [List.length_drop, List.length_append] at hdrop
    rw [hpos, hfile]
    omega
  refine ⟨⟨⟨h.readsAll (by decide) (by omega), h.alloc _⟩, .inr ?_⟩, hlen⟩
  exact h.readsAll (by omega) (by omega)

theorem read_device (h : file.Whole) (hfile : file.content = d.content) :
    file.readFile .device 0 USBI_DEVICE_DESC_SIZE = (18, d.desc.bytes) := by
  have hdesc : d.desc.bytes.length = 18 := bytes_device_length d
  have hcontent : d.content = d.desc.bytes ++ d.configs.flatMap WfConfig.bytes := rfl
  have hall : file.ReadsAll .device 0 USBI_DEVICE_DESC_SIZE := by
    refine h.readsAll (by decide) ?_
    rw [hfile, hcontent, List.length_append, hdesc]
    exact Nat.le_add_right _ _
  have hret : (file.readFile .device 0 USBI_DEVICE_DESC_SIZE).1 = 18 := hall
  refine Prod.ext hret ?_
  rw [(readFile_all hall).1, hfile, hcontent, List.drop_zero]
  exact List.take_left' hdesc

/-- The function up to the loop. -/
theorem raw_desc_eq (h : file.Whole) (hfile : file.content = d.content) (i : UInt8) :
    file.linuxGetRawDesc true true USB_DESC_TYPE_DEVICE i =
        { ret := OPENUSB_SUCCESS, buffer := some d.desc.bytes, buflen := some 18, log := [.read 18 18, .write 18 0 18] } ∧
      file.linuxGetRawDesc true true USB_DESC_TYPE_CONFIG i =
        (file.rawConfigs i d.configs.length 0 18).after [.read 18 18, .write 18 0 18] := by
  have hdesc : d.desc.bytes.length = 18 := bytes_device_length d
  have hnum : (d.desc.bytes.getD 17 0).toNat = d.configs.length := d.num_configs
  have hfd := h.fd
  constructor
  · unfold DeviceFile.linuxGetRawDesc
    rw [if_neg (by decide), if_neg (by decide), if_neg (by omega), if_neg (by simp [h.alloc]), read_device h hfile]
    dsimp only
    have htake : (d.desc.bytes ++ List.replicate USBI_DEVICE_DESC_SIZE 0).take USBI_DEVICE_DESC_SIZE = d.desc.bytes :=
      List.take_left' hdesc
    rw [if_neg (by decide), if_pos rfl, htake, hdesc]
    rfl
  · unfold DeviceFile.linuxGetRawDesc
    rw [if_neg (by decide), if_neg (by decide), if_neg (by omega), if_neg (by simp [h.alloc]), read_device h hfile]
    dsimp only
    rw [if_neg (by decide), if_neg (by decide), parse_numConfigurations, hnum, hdesc]
    rfl

/-- The descriptors of a device are read from its file. -/
theorem read_from_file (h : file.Whole) (hfile : file.content = d.content) : HandsOutDevice d file := by
  have hrounds (i : UInt8) := @rawConfigs_right file i d.configs.length 0 (Nat.zero_le _)
  have hpassed (j : ℕ) (hj : j < d.configs.length) := whole_passed h hfile (List.getElem?_eq_getElem hj)
  have hsizes (i : UInt8) : file.SizesFrom i.toNat 0 d.configs.length := by
    intro k _ _ hk _ _
    have hnine := nine_le_config (d.configs.get ⟨k, by omega⟩)
    rw [(hpassed k (by omega)).2]
    exact (by decide : 8 ≤ 9).trans hnine
  constructor
  · intro i
    rw [(raw_desc_eq h hfile i).1, bytes_device_length]
    exact ⟨_, rfl, rfl, rfl, rfl⟩
  · intro i c hc
    obtain ⟨hi, -⟩ := List.getElem?_eq_some_iff.mp hc
    have hret := ((hrounds i).success (hsizes i)).mpr ⟨by omega, fun j _ hj => (hpassed j (by omega)).1, h.alloc _⟩
    have hout := (hrounds i).handsOut (hsizes i) hret (h.not_error _)
    rw [headerPos_eq _ fun j _ => h.not_error _, (whole_passed h hfile hc).2, hfile, HandsOut, content_at hc,
      List.take_left] at hout
    rw [(raw_desc_eq h hfile i).2]
    exact ⟨_, rfl, hret, hout.1, hout.2.2⟩
  · intro i hi
    rw [(raw_desc_eq h hfile i).2]
    refine (hrounds i).error.resolve_left fun hret => ?_
    have hlt := (((hrounds i).success (hsizes i)).mp hret).1
    omega

/-! ## The library -/

variable {env : FetchEnv}

theorem first_all {α : Type} [Inhabited α] (cap : ℕ) (l : List α) : first (.live cap l) l.length = l := by
  refine List.ext_getElem? fun i => ?_
  rw [first, List.getElem?_map, Table.entries]
  by_cases hi : i < l.length
  · rw [List.getElem?_range hi, List.getElem?_eq_getElem hi, Option.map_some, List.getD_eq_getElem _ _ hi]
  · rw [List.getElem?_eq_none (by rw [List.length_range]; omega), List.getElem?_eq_none (by omega)]
    rfl

theorem reply_config (henv : env.reply = d.reply) {i : ℕ} {c : WfConfig} (hc : d.configs[i]? = some c) :
    env.reply (.header i) = .ok (c.bytes.take 8) ∧ env.reply (.full i) = .ok c.bytes := by
  rw [henv, ← configBytes_of_some hc]
  exact ⟨rfl, rfl⟩

theorem len_config (henv : env.reply = d.reply) {i : ℕ} {c : WfConfig} (hc : d.configs[i]? = some c) :
    env.len i = c.bytes.length := by
  have htotal := totalLength_config c []
  rw [List.append_nil] at htotal
  rw [FetchEnv.len_of_ok (reply_config henv hc).1, htotal]

theorem raw_config (henv : env.reply = d.reply) {i : ℕ} {c : WfConfig} (hc : d.configs[i]? = some c) :
    env.data i = c.bytes ∧ env.raw i = { data := .live (c.bytes.length + 65536) c.bytes, len := c.bytes.length } := by
  have hnine := nine_le_config c
  have hdata : env.data i = c.bytes := by
    rw [FetchEnv.data, (reply_config henv hc).2, len_config henv hc, getDescriptor_ok (by omega), List.take_length]
  rw [FetchEnv.raw, hdata, len_config henv hc]
  exact ⟨rfl, rfl⟩

theorem passes_config (henv : env.reply = d.reply) (halloc : ∀ t, env.alloc t = true) {i : ℕ} {c : WfConfig}
    (hc : d.configs[i]? = some c) : env.Passes i := by
  have hnine := nine_le_config c
  obtain ⟨hheader, hfull⟩ := reply_config henv hc
  refine ⟨⟨_, hheader, ?_⟩, halloc _, fun b hb => ?_⟩
  · rw [List.length_take]
    omega
  · rw [hfull] at hb
    cases hb
    exact (len_config henv hc).le

/-- The round of a configuration leaves its tree. -/
theorem parse_config_returns (henv : env.reply = d.reply) (halloc : ∀ t, env.alloc t = true) {i : ℕ} {c : WfConfig}
    (hc : d.configs[i]? = some c) : (env.parseRun i).Returns (0, c.tree) := by
  rw [FetchEnv.parseRun, (raw_config henv hc).1, len_config henv hc]
  refine parse_configuration_returns c (holds_of_byte fun k _ => ?_) (fun p hp _ => ?_) fun s => halloc _
  · show rawMem c.bytes (env.heap i) (0 + (k : ℕ)) = _
    rw [rawMem, if_neg (by omega), Int.zero_add, Int.toNat_natCast]
  · show rawMem c.bytes (env.heap i) p = 0
    rw [rawMem, if_neg (by omega), Int.toNat_natCast, List.getD_eq_default _ _ hp]

/-- The loop stores each configuration. -/
theorem fetch_configs (henv : env.reply = d.reply) (halloc : ∀ t, env.alloc t = true) :
    ∃ cs, (fetchConfigs env d.configs.length []).Returns (some cs) ∧ cs.map Prod.snd = d.configs.map WfConfig.tree ∧
      cs.map (fun r => first r.1.data r.1.len) = d.configs.map WfConfig.bytes ∧ ∀ r ∈ cs, ¬ r.1.data.IsFreed := by
  have hget (k : ℕ) (hk : k < d.configs.length) := List.getElem?_eq_getElem hk
  obtain ⟨r, hr⟩ := (fetchConfigs_halts env d.configs.length []).mpr fun k hk _ => by
    rw [List.length_nil, Nat.zero_add]
    exact ⟨_, parse_config_returns henv halloc (hget k hk)⟩
  rcases fetchConfigs_returns hr with ⟨-, c, hc, -, hfails⟩ | ⟨cs, rfl, hlen, hcs⟩
  · rw [List.length_nil, Nat.zero_add] at hc
    exact absurd (passes_config henv halloc (hget c hc)) hfails
  rw [List.nil_append] at hr
  have hstored (k : ℕ) (hk : k < d.configs.length) :
      ∃ c, d.configs[k]? = some c ∧
        cs[k]? = some ({ data := .live (c.bytes.length + 65536) c.bytes, len := c.bytes.length }, c.tree) := by
    obtain ⟨-, x, hx, hk'⟩ := hcs k hk
    rw [List.length_nil, Nat.zero_add] at hx hk'
    refine ⟨_, hget k hk, ?_⟩
    rw [hk', hx.unique (parse_config_returns henv halloc (hget k hk)), (raw_config henv (hget k hk)).2]
  have hmap {β : Type} (f : UsbiRawDesc × UsbiConfig → β) (g : WfConfig → β)
      (hfg : ∀ c, f ({ data := .live (c.bytes.length + 65536) c.bytes, len := c.bytes.length }, c.tree) = g c) :
      cs.map f = d.configs.map g := by
    refine List.ext_getElem? fun k => ?_
    rw [List.getElem?_map, List.getElem?_map]
    by_cases hk : k < d.configs.length
    · obtain ⟨c, hc, hcs'⟩ := hstored k hk
      rw [hc, hcs', Option.map_some, Option.map_some, hfg]
    · rw [List.getElem?_eq_none (by omega), List.getElem?_eq_none (by omega)]
      rfl
  refine ⟨cs, hr, hmap _ _ fun _ => rfl, hmap _ _ fun c => first_all _ c.bytes, fun r hmem => ?_⟩
  obtain ⟨k, hk, rfl⟩ := List.mem_iff_getElem.mp hmem
  obtain ⟨c, -, hc⟩ := hstored k (by omega)
  rw [List.getElem?_eq_getElem hk, Option.some.injEq] at hc
  rw [hc]
  exact not_false

/-- All the fields of the device descriptor are there. -/
theorem deviceAt_eq {mem : ℤ → UInt8} (hmem : ∀ k : ℕ, k < 18 → mem k = d.desc.byte k) : deviceAt mem 0 = d.descStruct := by
  have h0 : mem 0 = d.desc.byte 0 := hmem 0 (by decide)
  have h1 : mem 1 = d.desc.byte 1 := hmem 1 (by decide)
  have h2 : mem 2 = d.desc.byte 2 := hmem 2 (by decide)
  have h3 : mem 3 = d.desc.byte 3 := hmem 3 (by decide)
  have h4 : mem 4 = d.desc.byte 4 := hmem 4 (by decide)
  have h5 : mem 5 = d.desc.byte 5 := hmem 5 (by decide)
  have h6 : mem 6 = d.desc.byte 6 := hmem 6 (by decide)
  have h7 : mem 7 = d.desc.byte 7 := hmem 7 (by decide)
  have h8 : mem 8 = d.desc.byte 8 := hmem 8 (by decide)
  have h9 : mem 9 = d.desc.byte 9 := hmem 9 (by decide)
  have h10 : mem 10 = d.desc.byte 10 := hmem 10 (by decide)
  have h11 : mem 11 = d.desc.byte 11 := hmem 11 (by decide)
  have h12 : mem 12 = d.desc.byte 12 := hmem 12 (by decide)
  have h13 : mem 13 = d.desc.byte 13 := hmem 13 (by decide)
  have h14 : mem 14 = d.desc.byte 14 := hmem 14 (by decide)
  have h15 : mem 15 = d.desc.byte 15 := hmem 15 (by decide)
  have h16 : mem 16 = d.desc.byte 16 := hmem 16 (by decide)
  have h17 : mem 17 = d.desc.byte 17 := hmem 17 (by decide)
  simp [deviceAt, WfDevice.descStruct, le16At, h0, h1, h2, h3, h4, h5, h6, h7, h8, h9, h10, h11, h12, h13, h14, h15, h16, h17]

theorem parse_device_desc (mem : ℤ → UInt8) (old : UsbDeviceDesc) :
    (openusbParseData mem (some fmtDevice) (some 0) USBI_DEVICE_DESC_SIZE (some 0) sizeofDeviceDesc
      true).stores.foldl UsbDeviceDesc.store old = deviceAt mem 0 := by
  have hparsed := (@returns_checkedDevice { mem := mem, alloc := fun _ => true, junk := fun _ => ⟨0, 0⟩ } 0
    USBI_DEVICE_DESC_SIZE le_rfl old (OPENUSB_SUCCESS, deviceAt mem 0)).mpr rfl
  rw [returns_parseChecked] at hparsed
  dsimp only at hparsed
  exact (Prod.mk.inj hparsed).2.symm

theorem extraTable_live (xs : List Extra) : ¬ (extraTable xs).IsFreed := by
  unfold extraTable
  split_ifs
  · exact not_false
  · exact not_false

theorem AltBlock.tree_consistent (a : AltBlock) : a.tree.Consistent where
  count_le := le_rfl
  endpoints_live := not_false
  extra_live := extraTable_live _
  entries ep hep := by
    obtain ⟨b, -, rfl⟩ := List.mem_map.mp hep
    exact extraTable_live _

/-- The tree of a well-formed configuration is consistent. -/
theorem WfConfig.tree_consistent (c : WfConfig) : c.tree.Consistent where
  count_le := le_rfl
  interfaces_live := not_false
  extra_live := extraTable_live _
  entries intf hintf := by
    obtain ⟨x, -, rfl⟩ := List.mem_map.mp hintf
    refine ⟨le_rfl, not_false, fun as has => ?_⟩
    obtain ⟨a, -, rfl⟩ := List.mem_map.mp has
    exact a.tree_consistent

/-- The library holds the device after `usbi_fetch_and_parse_descriptors`, in a tree that can be freed again. -/
theorem fetch_holds (henv : env.reply = d.reply) (halloc : ∀ t, env.alloc t = true) {old : UsbiDescriptors}
    (hold : old.Freeable) : ∃ dev, (usbiFetchAndParseDescriptors env old).Returns (some (0, dev)) ∧ HoldsDevice d dev ∧
      dev.Freeable := by
  have hdesc : d.desc.bytes.length = 18 := bytes_device_length d
  obtain ⟨cs, hcs, htrees, hraws, hlive⟩ := fetch_configs henv halloc
  have hmem (k : ℕ) (hk : k < 18) : bufMem d.desc.bytes env.stack (k : ℕ) = d.desc.byte k := by
    rw [bufMem, Int.toNat_natCast, Desc.byte, List.getD_eq_getElem _ _ (by omega), List.getD_eq_getElem _ _ (by omega)]
  rw [fetch_freed hold]
  unfold fetchFreed
  rw [show env.reply .device = .ok d.desc.bytes by rw [henv]; rfl, getDescriptor_ok (by decide)]
  dsimp only
  rw [List.take_of_length_le (by rw [hdesc]; decide), if_neg (by omega)]
  obtain ⟨hret, hcount, -⟩ := parse_device (bufMem d.desc.bytes env.stack) (usbiDestroyConfiguration old).2.device
  rw [parse_device_desc, deviceAt_eq hmem, if_neg (by rw [hret, hcount]; decide), halloc, if_neg (by simp), hcount]
  have hnum : d.descStruct.bNumConfigurations.toNat = d.configs.length := d.num_configs
  rw [hnum]
  have hpos := d.configs_pos
  have hle := d.configs_le
  have hspan : (span 0 18).map (bufMem d.desc.bytes env.stack) = d.desc.bytes := by
    rw [← hdesc]
    refine Holds.map_span (holds_of_byte fun k hk => ?_)
    rw [Int.zero_add, hmem k (by omega), Desc.byte]
  have hspan' : (span 0 ((some USBI_DEVICE_DESC_SIZE).getD 0)).map (bufMem d.desc.bytes env.stack) = d.desc.bytes := hspan
  rw [hspan']
  set dev : UsbiDescriptors := UsbiDescriptors.mk _ _ _ _ _ with hdev
  have hrounds := (@fetchDevice_rounds env dev _ (Nat.not_lt.mpr hle) (Nat.not_lt.mpr hpos) (halloc _) (halloc _)).mpr
    ⟨some cs, hcs, rfl⟩
  refine ⟨_, returns_bind.mpr ⟨_, hrounds, returns_pure.mpr rfl⟩, ⟨rfl, rfl, rfl, ?_, ?_⟩, Or.inr ⟨?_, ?_, ?_, ?_, ?_⟩⟩
  · show Table.live d.configs.length (cs.map Prod.snd) = _
    rw [htrees]
  · show (cs.map Prod.fst).map (fun raw => first raw.data raw.len) = _
    rw [List.map_map]
    exact hraws
  · show (Table.live d.configs.length (cs.map Prod.snd)).Holds d.configs.length UsbiConfig.Freeable
    refine Table.holds_of_le le_rfl (fun cfg hcfg => ?_) UsbiConfig.sound_zero.toConsistent.freeable
    rw [htrees] at hcfg
    obtain ⟨c, -, rfl⟩ := List.mem_map.mp hcfg
    exact c.tree_consistent.freeable
  · show (Table.live d.configs.length (cs.map Prod.fst)).Holds d.configs.length fun raw => ¬ raw.data.IsFreed
    refine Table.holds_of_le le_rfl (fun raw hraw => ?_) not_false
    obtain ⟨r, hr, rfl⟩ := List.mem_map.mp hraw
    exact hlive r hr
  · exact not_false
  · exact not_false
  · exact not_false

end

/-! ## The 0.1 interface -/

section

variable {α β : Type} {p : Wr α} {f : α → Wr β} {e : Endian}

/-- With memory for all, the code does not fail. -/
def Works (p : Wr α) : Prop := ∀ mem, (∀ n, mem n = true) → ∃ r, p mem = .ok r ∧ ∀ n, r.2 n = true

theorem works_pure (a : α) : Works (pure a : Wr α) := fun _ hmem => ⟨_, rfl, hmem⟩

theorem works_callocOr (ret : ℤ) : Works (callocOr ret) := by
  intro mem hmem
  refine ⟨_, if_pos (hmem 0), fun n => hmem (n + 1)⟩

theorem Works.bind (hp : Works p) (hf : ∀ a, Works (f a)) : Works (p >>= f) := by
  intro mem hmem
  obtain ⟨q, hq, hrest⟩ := hp mem hmem
  obtain ⟨r, hr, hleft⟩ := hf q.1 q.2 hrest
  refine ⟨r, ?_, hleft⟩
  change (p mem >>= fun q => f q.1 q.2) = .ok r
  rw [hq]
  exact hr

theorem Works.mapM (hf : ∀ a, Works (f a)) (l : List α) : Works (l.mapM f) := by
  induction l with
  | nil => exact works_pure []
  | cons a l ih =>
    rw [List.mapM_cons]
    exact (hf a).bind fun b => ih.bind fun bs => works_pure (b :: bs)

theorem wrExtra_works {copied : Prop} [Decidable copied] (extra : Table UInt8) (extralen : ℕ) :
    Works (wrExtra copied extra extralen) := by
  unfold wrExtra
  split_ifs
  · exact (works_callocOr _).bind fun _ => works_pure _
  · exact works_pure _

theorem wrEndpoint_works (ep : UsbiEndpoint) : Works (wrEndpoint e ep) :=
  (wrExtra_works _ _).bind fun _ => works_pure _

theorem wrAltsetting_works (alt : UsbiAltsetting) : Works (wrAltsetting e alt) := by
  refine (wrExtra_works _ _).bind fun _ => Works.bind ?_ fun _ => works_pure _
  unfold wrParseEndpoint
  split_ifs
  · exact (works_callocOr _).bind fun _ => (Works.mapM wrEndpoint_works _).bind fun _ => works_pure _
  · exact works_pure _

theorem wrParseInterface_works (ifc : UsbiInterface) : Works (wrParseInterface e ifc) :=
  (works_callocOr _).bind fun _ => (Works.mapM wrAltsetting_works _).bind fun _ => works_pure _

theorem wrConfigs_works (configs : List UsbiConfig) : Works (wrConfigs e configs) := by
  induction configs with
  | nil => exact works_pure []
  | cons config rest ih =>
    refine ((wrExtra_works _ _).bind fun _ => works_pure _).bind fun pcfg => ?_
    split_ifs
    · exact works_pure _
    · refine (works_callocOr _).bind fun _ => (Works.mapM wrParseInterface_works _).bind fun _ => ?_
      exact ih.bind fun _ => works_pure _

/-! ## A well-formed configuration in the 0.1 interface -/

theorem holdsExtra_table (xs : List Extra) : HoldsExtra (extraTable xs) (extraLen xs) := by
  unfold extraTable extraLen
  split_ifs with hxs
  · subst hxs
    exact .inl ⟨not_present_absent, rfl⟩
  · exact .inr ⟨present_live _ _, le_rfl⟩

theorem first_map {ι κ : Type} [Inhabited κ] (g : ι → κ) (l : List ι) : first (.live l.length (l.map g)) l.length = l.map g := by
  have hall := first_all l.length (l.map g)
  rwa [List.length_map] at hall

theorem endpoint_held (ep : EpBlock) : HoldsExtra ep.tree.extra ep.tree.extralen.toNat := by
  have hle : ep.tree.extralen.toNat ≤ extraLen ep.extras := Nat.mod_le _ _
  rcases holdsExtra_table ep.extras with ⟨habsent, hzero⟩ | ⟨hpresent, hlen⟩
  · exact .inl ⟨habsent, by omega⟩
  · exact .inr ⟨hpresent, hle.trans hlen⟩

theorem altsetting_held (a : AltBlock) : HeldAltsetting a.tree where
  toConsistent := a.tree_consistent
  extra := holdsExtra_table _
  endpoints ep hep := by
    have hfirst : first a.tree.endpoints a.tree.num_endpoints = a.eps.map EpBlock.tree := first_map _ _
    rw [hfirst] at hep
    obtain ⟨b, -, rfl⟩ := List.mem_map.mp hep
    exact endpoint_held b

theorem tree_held (c : WfConfig) : HeldConfig c.tree where
  toConsistent := c.tree_consistent
  extra := holdsExtra_table _
  interfaces intf hintf as has := by
    have hfirst : first c.tree.interfaces c.tree.num_interfaces = c.intfs.map IntfBlock.tree := first_map _ _
    rw [hfirst] at hintf
    obtain ⟨x, -, rfl⟩ := List.mem_map.mp hintf
    have hfirst : first x.tree.altsettings x.tree.num_altsettings = x.alts.map AltBlock.tree := first_map _ _
    rw [hfirst] at has
    obtain ⟨a, -, rfl⟩ := List.mem_map.mp has
    exact altsetting_held a

theorem tree_total (c : WfConfig) : c.tree.desc.wTotalLength ≠ 0 := by
  have htotal : (c.desc.byte 2).toNat + 256 * (c.desc.byte 3).toNat = c.bytes.length := c.wTotalLength
  have hnine := nine_le_config c
  have hlt := length_bytes_lt c
  intro hzero
  have hword : ((c.desc.byte 2).toNat + 256 * (c.desc.byte 3).toNat) % 2 ^ 16 = 0 := congrArg UInt16.toNat hzero
  omega

/-- What a device loses in the 0.1 interface: everything on a big-endian host, and what follows a configuration without
interfaces. -/
theorem survives_trees (cs : List WfConfig) :
    Survives e (cs.map WfConfig.tree) ↔ (cs ≠ [] → e = .little) ∧ ∀ c ∈ cs.dropLast, c.intfs ≠ [] := by
  induction cs with
  | nil =>
    refine iff_of_true ?_ ⟨fun h => absurd rfl h, fun c hc => absurd hc List.not_mem_nil⟩
    exact fun l config r heq => absurd heq (by simp)
  | cons c cs ih =>
    have hwords : (e = .big → NoWords c.tree) ↔ e = .little := by
      cases e with
      | little => exact iff_of_true nofun rfl
      | big => exact iff_of_false (fun h => tree_total c (h rfl).total) nofun
    rw [List.map_cons, survives_cons, hwords]
    have hnum : c.tree.num_interfaces = 0 ↔ c.intfs = [] := List.length_eq_zero_iff
    cases cs with
    | nil =>
      have hrest : if c.tree.num_interfaces = 0 then ∀ b ∈ [].map WfConfig.tree, Blank b else Survives e ([].map WfConfig.tree) := by
        split_ifs
        · exact fun b hb => absurd hb List.not_mem_nil
        · exact ih.mpr ⟨fun h => absurd rfl h, fun c hc => absurd hc List.not_mem_nil⟩
      rw [and_iff_left hrest, forall_prop_of_true (List.cons_ne_nil c [])]
      exact (and_iff_left fun c hc => absurd hc List.not_mem_nil).symm
    | cons c' cs =>
      rw [forall_prop_of_true (List.cons_ne_nil c (c' :: cs)), List.dropLast_cons_cons, List.forall_mem_cons]
      apply and_congr_right
      intro hlittle
      split_ifs with hintfs
      · refine iff_of_false (fun hblank => tree_total c' ?_) fun h => h.1 (hnum.mp hintfs)
        have hfirst := hblank _ (List.mem_map_of_mem List.mem_cons_self)
        rw [hfirst.desc]
      · rw [ih, and_iff_right fun _ => hlittle, and_iff_right fun h => hintfs (hnum.mpr h)]

/-! ## All views -/

/-- The walkers find what the tree holds. -/
theorem walked_tree (c : WfConfig) : WalkedTree c.bytes c.tree := by
  intro env raw hmem intf hintf as has
  obtain ⟨x, hx, rfl⟩ := List.mem_map.mp hintf
  obtain ⟨a, ha, rfl⟩ := List.mem_map.mp has
  have hnumber : a.tree.desc.bInterfaceNumber = x.number := x.number_of_mem ha
  rw [hnumber]
  refine ⟨parse_interface_desc_recovers hmem hx ha raw, fun k ep hep eptdesc => ?_⟩
  obtain ⟨b, hb, rfl⟩ := tree_endpoint hep
  exact parse_endpoint_desc_recovers hmem hx ha hb raw eptdesc

/-- One device in all views, after a fetch over a tree that can be freed: the library, its file and the walkers agree on it,
the tree can be freed again, and the 0.1 interface is set up and shows the same tree exactly on a little-endian host and when
no configuration but the last is without interfaces. -/
theorem views_agree {d : WfDevice} {env : FetchEnv} {file : DeviceFile} (henv : env.reply = d.reply)
    (halloc : ∀ t, env.alloc t = true) (hfile : file.content = d.content) (hwhole : file.Whole) (e : Endian)
    {old : UsbiDescriptors} (hold : old.Freeable) :
    ∃ ret dev, (usbiFetchAndParseDescriptors env old).Returns (some (ret, dev)) ∧ dev.Freeable ∧ ViewsAgree d file dev ∧
      ∃ dev01, wrSetupDevConfig e ⟨true, ret, true⟩ dev (fun _ => true) = .ok dev01 ∧
        (SameTree dev dev01 ↔ e = .little ∧ ∀ c ∈ d.configs.dropLast, c.intfs ≠ []) := by
  obtain ⟨dev, hfetch, hheld, hfreeable⟩ := fetch_holds henv halloc hold
  have hout := read_from_file hwhole hfile
  have hpos := d.configs_pos
  have hcount : dev.device.bNumConfigurations.toNat = d.configs.length := by
    rw [hheld.device]
    exact d.num_configs
  have hfirst : first dev.configs d.configs.length = d.configs.map WfConfig.tree := by
    rw [hheld.configs, first_map]
  refine ⟨0, dev, hfetch, hfreeable, ⟨hheld, hout, fun i cfg hcfg => ?_⟩, ?_⟩
  · rw [hheld.configs, Table.entries, List.getElem?_map] at hcfg
    obtain ⟨c, hc, rfl⟩ := Option.map_eq_some_iff.mp hcfg
    obtain ⟨r, rfl, -, hbuffer, -⟩ := hout.config i c hc
    exact ⟨c.bytes, hbuffer, walked_tree c⟩
  · have hcopies : ∀ config ∈ d.configs.map WfConfig.tree, HeldConfig config := by
      intro config hconfig
      obtain ⟨c, -, rfl⟩ := List.mem_map.mp hconfig
      exact tree_held c
    obtain ⟨r, hr, -⟩ := ((works_callocOr OPENUSB_NO_RESOURCES).bind fun _ =>
      @wrConfigs_works e (d.configs.map WfConfig.tree)) (fun _ => true) fun _ => rfl
    have hsame : List.Forall₂ SameConfig (d.configs.map WfConfig.tree) r.1 ↔ Survives e (d.configs.map WfConfig.tree) :=
      ((gives_callocOr OPENUSB_NO_RESOURCES).bind fun _ _ => @wrConfigs_gives e _ hcopies) _ r hr
    refine ⟨{ descriptor := dev.device, config := some r.1 }, ?_, ?_⟩
    · unfold wrSetupDevConfig
      rw [if_neg (by decide), if_neg (by decide), if_neg (by decide), hcount, if_neg (by omega), hfirst]
      exact congrArg (Except.map fun r => ({ descriptor := dev.device, config := some r.1 } : UsbDevice)) hr
    · have htrees := @survives_trees e d.configs
      rw [forall_prop_of_true (List.ne_nil_of_length_pos hpos)] at htrees
      rw [← htrees, ← hsame, ← hfirst, ← hheld.count]
      exact ⟨fun h => h.configs, fun h => ⟨rfl, h⟩⟩

end

/-! ## A headset -/

/-- A device with `audioConfig`. -/
def headset : WfDevice where
  desc := ⟨[18, 1, 0, 2, 0, 0, 0, 64, 0x6d, 4, 0x1c, 0xc3, 0, 1, 1, 2, 0, 1], by decide, by decide, by decide⟩
  configs := [audioConfig]
  type_eq := by decide
  size_eq := by decide
  num_configs := by decide
  configs_pos := by decide
  configs_le := by decide

def headsetEnv : FetchEnv where
  reply := headset.reply
  alloc := fun _ => true
  stack := fun _ => 0
  heap := fun _ _ => 0
  junk := fun _ _ => ⟨0, 0⟩

def headsetFile : DeviceFile where
  content := headset.content
  outcome := fun _ => .upTo 65536

theorem headsetFile_whole : headsetFile.Whole := ⟨by decide, fun _ => ⟨65536, le_rfl, rfl⟩, fun _ => rfl⟩

/-- The headset is fetched twice, the second time over the tree of the first. -/
theorem views_agree_headset :
    ∃ ret dev, (usbiFetchAndParseDescriptors headsetEnv {}).Returns (some (ret, dev)) ∧ dev.Freeable ∧
      ∃ ret' dev', (usbiFetchAndParseDescriptors headsetEnv dev).Returns (some (ret', dev')) ∧ dev'.Freeable ∧
        ViewsAgree headset headsetFile dev' ∧
        ∃ dev01, wrSetupDevConfig .little ⟨true, ret', true⟩ dev' (fun _ => true) = .ok dev01 ∧ SameTree dev' dev01 := by
  obtain ⟨ret, dev, hfetch, hfreeable, -⟩ :=
    @views_agree headset headsetEnv headsetFile rfl (fun _ => rfl) rfl headsetFile_whole .little {} (Or.inl rfl)
  obtain ⟨ret', dev', hfetch', hfreeable', hviews, dev01, hset, hsame⟩ :=
    @views_agree headset headsetEnv headsetFile rfl (fun _ => rfl) rfl headsetFile_whole .little dev hfreeable
  exact ⟨ret, dev, hfetch, hfreeable, ret', dev', hfetch', hfreeable', hviews, dev01, hset,
    hsame.mpr ⟨rfl, fun c hc => absurd hc List.not_mem_nil⟩⟩

end OpenUsb
