import OpenUsb.SetupPacket
import OpenUsb.NullBuffer

/-!
# DeviceSearch — the searches for devices, and that by vendor

`openusb_get_devids_by_vendor` and `openusb_get_devids_by_class` go over the list of devices and read the descriptors of
each one.

* `searchEnd_iff`: when a search hands out the matching devices.
* `vendor_search_iff`: when the devices with a vendor and a product are found.
-/

namespace OpenUsb

open Prog

open Emulation (Endian)

/-! ## Devices and answers -/

/-- A device on `usbi_devices`, with what `openusb_get_raw_desc` hands out for its device descriptor and for each of its
configurations, and the memory that this lies in. -/
structure SearchDevice where
  devid : ℕ
  mem : ℤ → UInt8
  device : ℤ × RawDesc
  config : UInt8 → ℤ × RawDesc

namespace SearchDevice

variable (dev : SearchDevice)

def env : Env := { mem := dev.mem, alloc := fun _ => true, junk := fun _ => ⟨0, 0⟩ }

end SearchDevice

/-- What a search finds of its caller: the addresses are not NULL, and neither is `*devids`; the handle is known; and the
result is allocated. -/
structure SearchCall where
  num_devids : Bool := true
  devids : Bool := true
  devidsUsed : Bool := false
  hdl : Bool := true
  alloc : Bool := true
  deriving DecidableEq, Repr

/-- The return code, `*devids` and `*num_devids`. -/
structure SearchResult where
  ret : ℤ
  devids : Option (List ℕ) := none
  num_devids : ℕ := 0
  deriving DecidableEq, Repr

def OPENUSB_NULL_LIST : ℤ := -14

/-- The end of a search, with the devices on `match_list`. -/
def searchEnd (alloc : Bool) (match_list : List ℕ) : SearchResult :=
  if match_list.length = 0 then { ret := OPENUSB_NULL_LIST }
  else if !alloc then { ret := OPENUSB_NO_RESOURCES, num_devids := match_list.length }
  else { ret := OPENUSB_SUCCESS, devids := some match_list, num_devids := match_list.length }

/-- `want == -1 || want == value`. -/
def wild (want : ℤ) (value : ℕ) : Bool := decide (want = -1 ∨ want = value)

/-! ## Vendor and product -/

/-- The loop of `openusb_get_devids_by_vendor`. -/
def vendorScan (e : Endian) (vendor product : ℤ) : List SearchDevice → Prog Ev (List ℕ)
  | [] => pure []
  | idev :: devices => do
    let (ret, desc) ← openusbParseDeviceDesc idev.env true idev.device none 0 {}
    if ret < 0 then vendorScan e vendor product devices
    else do
      let match_list ← vendorScan e vendor product devices
      if wild vendor (openusbLe16ToCpu e desc.idVendor).toNat ∧ wild product (openusbLe16ToCpu e desc.idProduct).toNat then
        pure (idev.devid :: match_list)
      else pure match_list

/-- `openusb_get_devids_by_vendor`. -/
def openusbGetDevidsByVendor (e : Endian) (call : SearchCall) (vendor product : ℤ) (devices : List SearchDevice) :
    Prog Ev SearchResult :=
  if !call.num_devids ∨ !call.devids ∨ call.devidsUsed then pure { ret := OPENUSB_BADARG }
  else if !call.hdl then pure { ret := OPENUSB_INVALID_HANDLE }
  else if vendor < -1 ∨ vendor > 0xffff ∨ product < -1 ∨ product > 0xffff then pure { ret := OPENUSB_BADARG }
  else do
    let match_list ← vendorScan e vendor product devices
    pure (searchEnd call.alloc match_list)

/-! ## The device descriptor -/

/-- All eighteen bytes of a device descriptor. -/
def deviceAt (mem : ℤ → UInt8) (p : ℤ) : UsbDeviceDesc :=
  { bLength := mem p, bDescriptorType := mem (p + 1), bcdUSB := le16At mem (p + 2), bDeviceClass := mem (p + 4),
    bDeviceSubClass := mem (p + 5), bDeviceProtocol := mem (p + 6), bMaxPacketSize0 := mem (p + 7),
    idVendor := le16At mem (p + 8), idProduct := le16At mem (p + 10), bcdDevice := le16At mem (p + 12),
    iManufacturer := mem (p + 14), iProduct := mem (p + 15), iSerialNumber := mem (p + 16),
    bNumConfigurations := mem (p + 17) }

theorem returns_checkedDevice {env : Env} {buf : ℤ} {n : ℕ} (h : 18 ≤ n) {d : UsbDeviceDesc} {r : ℤ × UsbDeviceDesc} :
    (parseChecked env UsbDeviceDesc.store fmtDevice sizeofDeviceDesc USBI_DEVICE_DESC_SIZE buf n d).Returns r
      ↔ r = (OPENUSB_SUCCESS, deviceAt env.mem buf) := by
  rw [returns_parseChecked]
  obtain ⟨n, rfl⟩ := Nat.exists_eq_add_of_le' h
  have hsub : buf + 18 - buf = 18 := by omega
  have hcount : ¬ CInt.toU32 18 < 18 := by decide
  simp [openusbParseData, parseChars, parseChar, parseField, fmtDevice, sizeofDeviceDesc, deviceAt, le16At,
    UsbDeviceDesc.store, leValue, Int.add_assoc, OPENUSB_SUCCESS, USBI_DEVICE_DESC_SIZE, hsub, hcount]

namespace SearchDevice

/-- The device descriptor of the device can be read, all of it. -/
def Readable (dev : SearchDevice) : Prop := 0 ≤ dev.device.1 ∧ 18 ≤ dev.device.2.len

/-- What it says. -/
def desc (dev : SearchDevice) : UsbDeviceDesc := deviceAt dev.mem dev.device.2.buf

theorem returns_desc {dev : SearchDevice} (h : dev.Readable) :
    (openusbParseDeviceDesc dev.env true dev.device none 0 {}).Returns (OPENUSB_SUCCESS, dev.desc) := by
  unfold openusbParseDeviceDesc parseHead
  rw [if_neg (by decide)]
  show Returns (if dev.device.1 < 0 then _ else _) _
  rw [if_neg (Int.not_lt.mpr h.1)]
  exact (returns_checkedDevice h.2).mpr rfl

end SearchDevice

/-! ## What a search should find -/

/-- The search succeeds with the matching devices, each once and in the order of the list, or says that there is none. -/
def FindsExactly (devices : List SearchDevice) (matching : SearchDevice → Prop) [DecidablePred matching]
    (r : SearchResult) : Prop :=
  let found := (devices.filter fun dev => decide (matching dev)).map SearchDevice.devid
  r = if found = [] then { ret := OPENUSB_NULL_LIST }
    else { ret := OPENUSB_SUCCESS, devids := some found, num_devids := found.length }

instance (devices : List SearchDevice) (matching : SearchDevice → Prop) [DecidablePred matching] (r : SearchResult) :
    Decidable (FindsExactly devices matching r) := inferInstanceAs (Decidable (r = _))

section

variable {devices : List SearchDevice} {found : SearchDevice → Bool} {matching : SearchDevice → Prop}
  [DecidablePred matching]

/-- Devices that are told apart by their devids. -/
theorem filter_devids_iff (hids : (devices.map SearchDevice.devid).Nodup) :
    (devices.filter found).map SearchDevice.devid = (devices.filter fun dev => decide (matching dev)).map SearchDevice.devid ↔
      ∀ dev ∈ devices, found dev = true ↔ matching dev := by
  constructor
  · intro h dev hdev
    have hinj : ∀ dev' ∈ devices, dev'.devid = dev.devid → dev' = dev := fun dev' hdev' heq =>
      List.inj_on_of_nodup_map hids hdev' hdev heq
    have hmem (q : SearchDevice → Bool) : dev.devid ∈ (devices.filter q).map SearchDevice.devid ↔ q dev = true := by
      rw [List.mem_map]
      constructor
      · rintro ⟨dev', hdev', heq⟩
        obtain ⟨hin, hq⟩ := List.mem_filter.mp hdev'
        rwa [← hinj dev' hin heq]
      · exact fun hq => ⟨dev, List.mem_filter.mpr ⟨hdev, hq⟩, rfl⟩
    rw [← hmem, h, hmem, decide_eq_true_eq]
  · intro h
    have heq : devices.filter found = devices.filter fun dev => decide (matching dev) :=
      List.filter_congr fun dev hdev => by rw [Bool.eq_iff_iff, decide_eq_true_eq, h dev hdev]
    rw [heq]

/-- When the end of a search hands out what it should: the right devices were found, and there is room for them. -/
theorem searchEnd_iff (alloc : Bool) (hids : (devices.map SearchDevice.devid).Nodup) :
    FindsExactly devices matching (searchEnd alloc ((devices.filter found).map SearchDevice.devid)) ↔
      (∀ dev ∈ devices, found dev = true ↔ matching dev) ∧ (alloc = true ∨ ∀ dev ∈ devices, ¬ matching dev) := by
  rw [← filter_devids_iff hids]
  have hnone : (∀ dev ∈ devices, ¬ matching dev) ↔
      (devices.filter fun dev => decide (matching dev)).map SearchDevice.devid = [] := by
    rw [List.map_eq_nil_iff, List.filter_eq_nil_iff]
    simp only [decide_eq_true_eq]
  rw [hnone]
  unfold FindsExactly searchEnd
  dsimp only
  generalize (devices.filter found).map SearchDevice.devid = ids
  generalize (devices.filter fun dev => decide (matching dev)).map SearchDevice.devid = want
  by_cases hwant : want = []
  · simp only [hwant, List.length_eq_zero_iff]
    by_cases hnil : ids = []
    · simp [hnil]
    · cases alloc <;> simp [hnil, OPENUSB_NULL_LIST, OPENUSB_NO_RESOURCES, OPENUSB_SUCCESS]
  · simp only [if_neg hwant, List.length_eq_zero_iff]
    by_cases hnil : ids = []
    · simp [hnil, Ne.symm hwant, OPENUSB_NULL_LIST, OPENUSB_SUCCESS]
    · cases alloc with
      | false => simp [hnil, hwant, OPENUSB_NO_RESOURCES, OPENUSB_SUCCESS]
      | true =>
        simp only [hnil, if_false, Bool.not_true, Bool.false_eq_true, SearchResult.mk.injEq, true_and, Option.some.injEq,
          true_or, and_true]
        exact ⟨fun h => h.1, fun h => ⟨h, congrArg List.length h⟩⟩

end

/-! ## The search by vendor -/

/-- The bytes of the device descriptor encode the vendor and the product, the lower one first. -/
def HasIds (vendor product : ℤ) (dev : SearchDevice) : Prop :=
  wild vendor (leValue dev.mem (dev.device.2.buf + 8) 2) ∧ wild product (leValue dev.mem (dev.device.2.buf + 10) 2)

/-- They encode them with the higher one first. -/
def HasSwappedIds (vendor product : ℤ) (dev : SearchDevice) : Prop :=
  wild vendor ((dev.mem (dev.device.2.buf + 9)).toNat + 256 * (dev.mem (dev.device.2.buf + 8)).toNat) ∧
    wild product ((dev.mem (dev.device.2.buf + 11)).toNat + 256 * (dev.mem (dev.device.2.buf + 10)).toNat)

section

variable {vendor product : ℤ} {devices : List SearchDevice}

instance : DecidablePred (HasIds vendor product) := fun _ => inferInstanceAs (Decidable (_ ∧ _))

instance : DecidablePred (HasSwappedIds vendor product) := fun _ => inferInstanceAs (Decidable (_ ∧ _))

/-- What the loop takes for a match. -/
def idsMatch (e : Endian) (vendor product : ℤ) (dev : SearchDevice) : Bool :=
  wild vendor (openusbLe16ToCpu e dev.desc.idVendor).toNat && wild product (openusbLe16ToCpu e dev.desc.idProduct).toNat

theorem le16At_toNat (mem : ℤ → UInt8) (p : ℤ) : (le16At mem p).toNat = (mem p).toNat + 256 * (mem (p + 1)).toNat := by
  have h0 := (mem p).toNat_lt
  have h1 := (mem (p + 1)).toNat_lt
  rw [le16At, UInt16.toNat_ofNat', Nat.mod_eq_of_lt (by omega)]

theorem leValue_two (mem : ℤ → UInt8) (p : ℤ) : leValue mem p 2 = (mem p).toNat + 256 * (mem (p + 1)).toNat := by
  simp only [leValue, Nat.mul_zero, Nat.add_zero]

/-- The second conversion undoes the first one on a big-endian host. -/
theorem le16_big_le16At (mem : ℤ → UInt8) (p : ℤ) :
    (openusbLe16ToCpu .big (le16At mem p)).toNat = (mem (p + 1)).toNat + 256 * (mem p).toNat := by
  have h0 := (mem p).toNat_lt
  have h1 := (mem (p + 1)).toNat_lt
  rw [le16_big, le16At_toNat, UInt16.toNat_ofNat', Nat.mod_eq_of_lt (by omega)]
  omega

theorem idsMatch_little (dev : SearchDevice) : idsMatch .little vendor product dev = true ↔ HasIds vendor product dev := by
  rw [idsMatch, Bool.and_eq_true, HasIds, le16_little, le16_little, leValue_two, leValue_two, SearchDevice.desc]
  simp only [deviceAt, le16At_toNat]

theorem idsMatch_big (dev : SearchDevice) : idsMatch .big vendor product dev = true ↔ HasSwappedIds vendor product dev := by
  rw [idsMatch, Bool.and_eq_true, HasSwappedIds, SearchDevice.desc]
  simp only [deviceAt, le16_big_le16At, Int.add_assoc]
  rfl

/-- The loop keeps the devices that it takes for a match. -/
theorem returns_vendorScan (e : Endian) (hread : ∀ dev ∈ devices, dev.Readable) :
    (vendorScan e vendor product devices).Returns
      ((devices.filter (idsMatch e vendor product)).map SearchDevice.devid) := by
  induction devices with
  | nil => exact returns_pure.mpr rfl
  | cons dev devices ih =>
    have hrest := ih fun d hd => hread d (List.mem_cons_of_mem dev hd)
    rw [vendorScan, (SearchDevice.returns_desc (hread dev List.mem_cons_self)).bind_iff]
    dsimp only
    rw [if_neg (by decide), hrest.bind_iff, List.filter_cons]
    by_cases hmatch : idsMatch e vendor product dev = true
    · rw [if_pos hmatch, if_pos (by rwa [idsMatch, Bool.and_eq_true] at hmatch)]
      exact returns_pure.mpr rfl
    · rw [if_neg hmatch, if_neg (by rwa [idsMatch, Bool.and_eq_true] at hmatch)]
      exact returns_pure.mpr rfl

end

/-- The search by vendor finds exactly the devices with the two ids when the bytes of the ids are not swapped a second
time, or it makes no difference, and the answer can be allocated. -/
theorem vendor_search_iff (e : Endian) (alloc : Bool) (vendor product : ℤ) (hvendor : -1 ≤ vendor ∧ vendor ≤ 0xffff)
    (hproduct : -1 ≤ product ∧ product ≤ 0xffff) (devices : List SearchDevice)
    (hids : (devices.map SearchDevice.devid).Nodup) (hread : ∀ dev ∈ devices, dev.Readable) :
    (∃ r, (openusbGetDevidsByVendor e { alloc := alloc } vendor product devices).Returns r ∧
        FindsExactly devices (HasIds vendor product) r) ↔
      (e = .little ∨ ∀ dev ∈ devices, HasSwappedIds vendor product dev ↔ HasIds vendor product dev) ∧
        (alloc = true ∨ ∀ dev ∈ devices, ¬ HasIds vendor product dev) := by
  have hreturns : (openusbGetDevidsByVendor e { alloc := alloc } vendor product devices).Returns
      (searchEnd alloc ((devices.filter (idsMatch e vendor product)).map SearchDevice.devid)) := by
    rw [openusbGetDevidsByVendor, if_neg (by simp), if_neg (by simp), if_neg (by omega),
      (returns_vendorScan e hread).bind_iff]
    exact returns_pure.mpr rfl
  have hmatch : (∀ dev ∈ devices, idsMatch e vendor product dev = true ↔ HasIds vendor product dev) ↔
      (e = .little ∨ ∀ dev ∈ devices, HasSwappedIds vendor product dev ↔ HasIds vendor product dev) := by
    cases e with
    | little => simp only [idsMatch_little, implies_true, true_or]
    | big => simp only [idsMatch_big, reduceCtorEq, false_or]
  rw [← hmatch, ← searchEnd_iff alloc hids]
  constructor
  · rintro ⟨r, hr, hfinds⟩
    rwa [hreturns.unique hr]
  · exact fun hfinds => ⟨_, hreturns, hfinds⟩

/-- A mouse: vendor 0x046d, product 0xc018. -/
def mouseBlob : List UInt8 := [18, 1, 0, 2, 0, 0, 0, 8, 0x6d, 0x04, 0x18, 0xc0, 0x01, 0x43, 1, 2, 0, 1]

/-- The only device on the list, with no configuration that can be read. -/
def mouse : SearchDevice :=
  { devid := 7, mem := blobMem mouseBlob, device := (0, ⟨0, 18⟩), config := fun _ => (OPENUSB_PARSE_ERROR, ⟨0, 0⟩) }

/-- A little-endian host finds the mouse by its vendor. -/
theorem vendor_search_iff_mouse : ∃ r, (openusbGetDevidsByVendor .little {} 0x046d (-1) [mouse]).Returns r ∧
    FindsExactly [mouse] (HasIds 0x046d (-1)) r :=
  (vendor_search_iff .little true 0x046d (-1) (by decide) (by decide) [mouse] (by decide) (by
    intro dev hdev
    obtain rfl := List.mem_singleton.mp hdev
    exact ⟨le_rfl, le_rfl⟩)).mpr ⟨.inl rfl, .inl rfl⟩

/-- A big-endian host does not. -/
theorem vendor_not_found : (openusbGetDevidsByVendor .big {} 0x046d (-1) [mouse]).Returns { ret := OPENUSB_NULL_LIST } ∧
    mouse.Readable ∧ HasIds 0x046d (-1) mouse ∧ ¬ FindsExactly [mouse] (HasIds 0x046d (-1)) { ret := OPENUSB_NULL_LIST } := by
  refine ⟨⟨0, by decide +kernel⟩, ⟨le_rfl, le_rfl⟩, by decide +kernel, by decide +kernel⟩

end OpenUsb
