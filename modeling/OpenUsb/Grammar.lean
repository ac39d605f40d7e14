import OpenUsb.Parser

/-!
# Grammar — well-formed configurations

The byte layout that the configuration parser expects, as types: a value of `WfConfig` is a configuration descriptor with
its extras and interfaces, and cannot be built when a count, a type or a length is wrong.  `WfConfig.bytes` is the blob
a device sends for it and `WfConfig.tree` the descriptor tree that it stands for.
-/

namespace OpenUsb

/-! ## Descriptors -/

/-- A descriptor of 2 to 127 bytes that starts with its own length. -/
structure Desc where
  bytes : List UInt8
  two_le : 2 ≤ bytes.length
  length_le : bytes.length ≤ 127
  bLength : (bytes.getD 0 0).toNat = bytes.length

namespace Desc

def size (d : Desc) : ℕ := d.bytes.length

/-- Byte `k`, zero past the end. -/
def byte (d : Desc) (k : ℕ) : UInt8 := d.bytes.getD k 0

def type (d : Desc) : UInt8 := d.byte 1

theorem byte_zero (d : Desc) : (d.byte 0).toNat = d.size := d.bLength

end Desc

/-- The bytes of a list of descriptors. -/
def flat (ds : List Desc) : List UInt8 := ds.flatMap Desc.bytes

@[simp] theorem flat_nil : flat [] = [] := rfl

@[simp] theorem flat_cons (d : Desc) (ds : List Desc) : flat (d :: ds) = d.bytes ++ flat ds := rfl

@[simp] theorem flat_append (ds es : List Desc) : flat (ds ++ es) = flat ds ++ flat es := List.flatMap_append

/-- A class or vendor descriptor. -/
structure Extra extends Desc where
  not_proper : ¬ ProperType toDesc.type

/-- An endpoint descriptor and its extras. -/
structure EpBlock where
  desc : Desc
  extras : List Extra
  type_eq : desc.type = USB_DESC_TYPE_ENDPOINT
  size_le : USBI_ENDPOINT_DESC_SIZE ≤ desc.size

/-- An interface descriptor, its extras and its endpoints. -/
structure AltBlock where
  desc : Desc
  extras : List Extra
  eps : List EpBlock
  type_eq : desc.type = USB_DESC_TYPE_INTERFACE
  size_eq : desc.size = USBI_INTERFACE_DESC_SIZE
  num_eps : (desc.byte 4).toNat = eps.length
  eps_le : eps.length ≤ USBI_MAXENDPOINTS

/-- `bInterfaceNumber`. -/
def AltBlock.number (a : AltBlock) : UInt8 := a.desc.byte 2

/-- `bAlternateSetting`. -/
def AltBlock.value (a : AltBlock) : UInt8 := a.desc.byte 3

/-- An interface: its alternate settings, the first of which has value 0. -/
structure IntfBlock where
  first : AltBlock
  others : List AltBlock
  alts_le : others.length + 1 ≤ 128
  number_eq : ∀ a ∈ others, a.number = first.number
  first_value : first.value = 0
  value_ne : ∀ a ∈ others, a.value ≠ 0
  values_nodup : (others.map AltBlock.value).Nodup

def IntfBlock.number (x : IntfBlock) : UInt8 := x.first.number

def IntfBlock.alts (x : IntfBlock) : List AltBlock := x.first :: x.others

/-! ## Layout -/

def EpBlock.descs (e : EpBlock) : List Desc := e.desc :: e.extras.map Extra.toDesc

def AltBlock.descs (a : AltBlock) : List Desc :=
  a.desc :: (a.extras.map Extra.toDesc ++ a.eps.flatMap EpBlock.descs)

def IntfBlock.descs (x : IntfBlock) : List Desc := x.alts.flatMap AltBlock.descs

/-- A configuration descriptor, its extras and its interfaces, with the right `wTotalLength`. -/
structure WfConfig where
  desc : Desc
  extras : List Extra
  intfs : List IntfBlock
  type_eq : desc.type = USB_DESC_TYPE_CONFIG
  size_eq : desc.size = USBI_CONFIG_DESC_SIZE
  num_intfs : (desc.byte 4).toNat = intfs.length
  intfs_le : intfs.length ≤ USBI_MAXINTERFACES
  numbers_nodup : (intfs.map IntfBlock.number).Nodup
  wTotalLength : (desc.byte 2).toNat + 256 * (desc.byte 3).toNat =
    (flat (desc :: (extras.map Extra.toDesc ++ intfs.flatMap IntfBlock.descs))).length

def WfConfig.descs (c : WfConfig) : List Desc :=
  c.desc :: (c.extras.map Extra.toDesc ++ c.intfs.flatMap IntfBlock.descs)

/-- The blob. -/
def WfConfig.bytes (c : WfConfig) : List UInt8 := flat c.descs

/-! ## The tree -/

/-- The table of extra bytes that extras leave. -/
def extraTable (xs : List Extra) : Table UInt8 :=
  if xs = [] then .absent else .live (flat (xs.map Extra.toDesc)).length (flat (xs.map Extra.toDesc))

def extraLen (xs : List Extra) : ℕ := (flat (xs.map Extra.toDesc)).length

namespace EpBlock

/-- The endpoint descriptor; the two audio fields are present from 9 bytes on. -/
def descStruct (e : EpBlock) : UsbEndpointDesc :=
  { bLength := e.desc.byte 0, bDescriptorType := e.desc.byte 1, bEndpointAddress := e.desc.byte 2,
    bmAttributes := e.desc.byte 3, wMaxPacketSize := .ofNat ((e.desc.byte 4).toNat + 256 * (e.desc.byte 5).toNat),
    bInterval := e.desc.byte 6,
    bRefresh := if USBI_ENDPOINT_AUDIO_DESC_SIZE ≤ e.desc.size then e.desc.byte 7 else 0,
    bSynchAddress := if USBI_ENDPOINT_AUDIO_DESC_SIZE ≤ e.desc.size then e.desc.byte 8 else 0 }

def tree (e : EpBlock) : UsbiEndpoint :=
  { desc := e.descStruct, extra := extraTable e.extras, extralen := .ofNat (extraLen e.extras) }

end EpBlock

namespace AltBlock

def descStruct (a : AltBlock) : UsbInterfaceDesc :=
  { bLength := a.desc.byte 0, bDescriptorType := a.desc.byte 1, bInterfaceNumber := a.desc.byte 2,
    bAlternateSetting := a.desc.byte 3, bNumEndpoints := a.desc.byte 4, bInterfaceClass := a.desc.byte 5,
    bInterfaceSubClass := a.desc.byte 6, bInterfaceProtocol := a.desc.byte 7, iInterface := a.desc.byte 8 }

def tree (a : AltBlock) : UsbiAltsetting :=
  { desc := a.descStruct, num_endpoints := a.eps.length, endpoints := .live a.eps.length (a.eps.map EpBlock.tree),
    extra := extraTable a.extras, extralen := extraLen a.extras }

end AltBlock

def IntfBlock.tree (x : IntfBlock) : UsbiInterface :=
  { num_altsettings := x.alts.length, altsettings := .live x.alts.length (x.alts.map AltBlock.tree) }

def WfConfig.descStruct (c : WfConfig) : UsbConfigDesc :=
  { bLength := c.desc.byte 0, bDescriptorType := c.desc.byte 1,
    wTotalLength := .ofNat ((c.desc.byte 2).toNat + 256 * (c.desc.byte 3).toNat), bNumInterfaces := c.desc.byte 4,
    bConfigurationValue := c.desc.byte 5, iConfiguration := c.desc.byte 6, bmAttributes := c.desc.byte 7,
    bMaxPower := c.desc.byte 8 }

/-- The tree that the blob describes. -/
def WfConfig.tree (c : WfConfig) : UsbiConfig :=
  { desc := c.descStruct, num_interfaces := c.intfs.length,
    interfaces := .live c.intfs.length (c.intfs.map IntfBlock.tree), extra := extraTable c.extras,
    extralen := extraLen c.extras }

/-! ## Bytes in memory -/

/-- The bytes `bs` stand in memory from `p` on. -/
def Holds (mem : ℤ → UInt8) (p : ℤ) : List UInt8 → Prop
  | [] => True
  | b :: bs => mem p = b ∧ Holds mem (p + 1) bs

/-- Memory that holds the blob `bs` at 0 and zeros elsewhere. -/
def blobMem (bs : List UInt8) (p : ℤ) : UInt8 := if 0 ≤ p then bs.getD p.toNat 0 else 0

/-- A run on the blob `bs` in which every allocation succeeds. -/
def blobEnv (bs : List UInt8) : Env := { mem := blobMem bs, alloc := fun _ => true, junk := fun _ => ⟨0, 0⟩ }

/-- A configuration without interfaces. -/
def emptyBlob : List UInt8 := [9, 2, 9, 0, 0, 1, 0, 0x80, 50]

section Holds

variable {mem : ℤ → UInt8} {p : ℤ}

theorem holds_append {bs cs : List UInt8} :
    Holds mem p (bs ++ cs) ↔ Holds mem p bs ∧ Holds mem (p + bs.length) cs := by
  induction bs generalizing p with
  | nil => simp [Holds]
  | cons b bs ih =>
    have hlen : p + 1 + (bs.length : ℤ) = p + ((b :: bs).length : ℤ) := by rw [List.length_cons]; omega
    simp only [List.cons_append, Holds, ih, hlen, and_assoc]

theorem Holds.byte {bs : List UInt8} (h : Holds mem p bs) {k : ℕ} (hk : k < bs.length) :
    mem (p + k) = bs.getD k 0 := by
  induction bs generalizing p k with
  | nil => simp at hk
  | cons b bs ih =>
    cases k with
    | zero => simpa using h.1
    | succ k =>
      have h' := ih h.2 (k := k) (by simpa using hk)
      rw [show p + 1 + (k : ℤ) = p + ((k + 1 : ℕ) : ℤ) by omega] at h'
      simpa using h'

theorem Holds.map_span {bs : List UInt8} (h : Holds mem p bs) : (span p bs.length).map mem = bs := by
  induction bs generalizing p with
  | nil => rfl
  | cons b bs ih =>
    simp only [List.length_cons, span, List.map_cons, ih h.2]
    rw [h.1]

theorem holds_of_byte {bs : List UInt8} (h : ∀ k < bs.length, mem (p + (k : ℕ)) = bs.getD k 0) : Holds mem p bs := by
  induction bs generalizing p with
  | nil => trivial
  | cons b bs ih =>
    refine ⟨by simpa using h 0 (Nat.zero_lt_succ _), ih fun k hk => ?_⟩
    have := h (k + 1) (Nat.succ_lt_succ hk)
    rwa [Int.natCast_succ, Int.add_comm (k : ℤ) 1, ← Int.add_assoc] at this

theorem holds_blobMem (bs : List UInt8) : Holds (blobMem bs) 0 bs :=
  holds_of_byte fun k _ => by rw [Int.zero_add, blobMem, if_pos (by omega), Int.toNat_natCast]

theorem blobMem_of_le {bs : List UInt8} (h : (bs.length : ℤ) ≤ p) : blobMem bs p = 0 := by
  rw [blobMem, if_pos (by omega), List.getD_eq_getElem?_getD, List.getElem?_eq_none (by omega), Option.getD_none]

end Holds

/-! ## An audio interface -/

/-- The endpoint of `audioConfig`, with the two audio fields. -/
def audioEndpoint : EpBlock where
  desc := ⟨[9, 5, 0x81, 5, 0x40, 0, 1, 3, 0x82], by decide, by decide, by decide⟩
  extras := [{ bytes := [7, 0x25, 1, 0, 0, 0, 0], two_le := by decide, length_le := by decide, bLength := by decide,
               not_proper := by decide }]
  type_eq := by decide
  size_le := by decide

/-- An interface with an empty setting and one that streams from `audioEndpoint`. -/
def audioInterface : IntfBlock where
  first :=
    { desc := ⟨[9, 4, 0, 0, 0, 1, 2, 0, 0], by decide, by decide, by decide⟩
      extras := [], eps := [], type_eq := by decide, size_eq := by decide, num_eps := by decide, eps_le := by decide }
  others :=
    [{ desc := ⟨[9, 4, 0, 1, 1, 1, 2, 0, 0], by decide, by decide, by decide⟩
       extras := [{ bytes := [7, 0x24, 1, 1, 0, 1, 0], two_le := by decide, length_le := by decide,
                    bLength := by decide, not_proper := by decide }]
       eps := [audioEndpoint], type_eq := by decide, size_eq := by decide, num_eps := by decide, eps_le := by decide }]
  alts_le := by decide
  number_eq := by decide
  first_value := by decide
  value_ne := by decide
  values_nodup := by decide

/-- A configuration with an association descriptor and `audioInterface`. -/
def audioConfig : WfConfig where
  desc := ⟨[9, 2, 58, 0, 1, 1, 0, 0x80, 50], by decide, by decide, by decide⟩
  extras := [{ bytes := [8, 11, 0, 1, 1, 0, 0, 0], two_le := by decide, length_le := by decide, bLength := by decide,
               not_proper := by decide }]
  intfs := [audioInterface]
  type_eq := by decide
  size_eq := by decide
  num_intfs := by decide
  intfs_le := by decide
  numbers_nodup := by decide
  wTotalLength := by decide

end OpenUsb
