import Mathlib

/-!
# Descr — descriptor structures (`descr.h`, `openusb.h`)

The descriptor structs are filled by `openusb_parse_data` through raw pointers, so each has a `store` that assigns the
field at a C offset.  A table is the `calloc`ed array behind one pointer field: `absent` (NULL), `live`, or `freed`
while the pointer still names it.
-/

namespace OpenUsb

/-! ## Constants -/

def USBI_DESC_HEADER_SIZE : ℕ := 2
def USBI_DEVICE_DESC_SIZE : ℕ := 18
def USBI_CONFIG_DESC_SIZE : ℕ := 9
def USBI_INTERFACE_DESC_SIZE : ℕ := 9
def USBI_ENDPOINT_DESC_SIZE : ℕ := 7
def USBI_ENDPOINT_AUDIO_DESC_SIZE : ℕ := 9
def USBI_MAXENDPOINTS : ℕ := 32
def USBI_MAXINTERFACES : ℕ := 32
def USBI_MAXCONFIG : ℕ := 8

def USB_DESC_TYPE_DEVICE : UInt8 := 1
def USB_DESC_TYPE_CONFIG : UInt8 := 2
def USB_DESC_TYPE_INTERFACE : UInt8 := 4
def USB_DESC_TYPE_ENDPOINT : UInt8 := 5

def OPENUSB_SUCCESS : ℤ := 0
def OPENUSB_PLATFORM_FAILURE : ℤ := -1
def OPENUSB_NO_RESOURCES : ℤ := -2
def OPENUSB_NOT_SUPPORTED : ℤ := -4
def OPENUSB_INVALID_PERM : ℤ := -6
def OPENUSB_BUSY : ℤ := -7
def OPENUSB_BADARG : ℤ := -8
def OPENUSB_NOACCESS : ℤ := -9
def OPENUSB_PARSE_ERROR : ℤ := -10
def OPENUSB_UNKNOWN_DEVICE : ℤ := -11
def OPENUSB_INVALID_HANDLE : ℤ := -12
def OPENUSB_SYS_FUNC_FAILURE : ℤ := -13
def OPENUSB_IO_STALL : ℤ := -50
def OPENUSB_IO_TIMEOUT : ℤ := -62
def OPENUSB_IO_CANCELED : ℤ := -63

/-! ## Stores into a C struct -/

/-- A value of `width` bytes written at `off` bytes from the start of the destination. -/
structure DataStore where
  off : ℕ
  width : ℕ
  value : ℕ
  deriving DecidableEq, Repr

/-- `struct usb_descriptor_header`. -/
structure UsbDescriptorHeader where
  bLength : UInt8
  bDescriptorType : UInt8
  deriving DecidableEq, Repr

def UsbDescriptorHeader.store (d : UsbDescriptorHeader) (s : DataStore) : UsbDescriptorHeader :=
  match s.off with
  | 0 => { d with bLength := .ofNat s.value }
  | 1 => { d with bDescriptorType := .ofNat s.value }
  | _ => d

/-- `usb_device_desc_t`. -/
structure UsbDeviceDesc where
  bLength : UInt8 := 0
  bDescriptorType : UInt8 := 0
  bcdUSB : UInt16 := 0
  bDeviceClass : UInt8 := 0
  bDeviceSubClass : UInt8 := 0
  bDeviceProtocol : UInt8 := 0
  bMaxPacketSize0 : UInt8 := 0
  idVendor : UInt16 := 0
  idProduct : UInt16 := 0
  bcdDevice : UInt16 := 0
  iManufacturer : UInt8 := 0
  iProduct : UInt8 := 0
  iSerialNumber : UInt8 := 0
  bNumConfigurations : UInt8 := 0
  deriving DecidableEq, Repr

def UsbDeviceDesc.store (d : UsbDeviceDesc) (s : DataStore) : UsbDeviceDesc :=
  match s.off with
  | 0 => { d with bLength := .ofNat s.value }
  | 1 => { d with bDescriptorType := .ofNat s.value }
  | 2 => { d with bcdUSB := .ofNat s.value }
  | 4 => { d with bDeviceClass := .ofNat s.value }
  | 5 => { d with bDeviceSubClass := .ofNat s.value }
  | 6 => { d with bDeviceProtocol := .ofNat s.value }
  | 7 => { d with bMaxPacketSize0 := .ofNat s.value }
  | 8 => { d with idVendor := .ofNat s.value }
  | 10 => { d with idProduct := .ofNat s.value }
  | 12 => { d with bcdDevice := .ofNat s.value }
  | 14 => { d with iManufacturer := .ofNat s.value }
  | 15 => { d with iProduct := .ofNat s.value }
  | 16 => { d with iSerialNumber := .ofNat s.value }
  | 17 => { d with bNumConfigurations := .ofNat s.value }
  | _ => d

/-- `usb_config_desc_t`. -/
structure UsbConfigDesc where
  bLength : UInt8 := 0
  bDescriptorType : UInt8 := 0
  wTotalLength : UInt16 := 0
  bNumInterfaces : UInt8 := 0
  bConfigurationValue : UInt8 := 0
  iConfiguration : UInt8 := 0
  bmAttributes : UInt8 := 0
  bMaxPower : UInt8 := 0
  deriving DecidableEq, Repr

def UsbConfigDesc.store (d : UsbConfigDesc) (s : DataStore) : UsbConfigDesc :=
  match s.off with
  | 0 => { d with bLength := .ofNat s.value }
  | 1 => { d with bDescriptorType := .ofNat s.value }
  | 2 => { d with wTotalLength := .ofNat s.value }
  | 4 => { d with bNumInterfaces := .ofNat s.value }
  | 5 => { d with bConfigurationValue := .ofNat s.value }
  | 6 => { d with iConfiguration := .ofNat s.value }
  | 7 => { d with bmAttributes := .ofNat s.value }
  | 8 => { d with bMaxPower := .ofNat s.value }
  | _ => d

/-- `usb_interface_desc_t`. -/
structure UsbInterfaceDesc where
  bLength : UInt8 := 0
  bDescriptorType : UInt8 := 0
  bInterfaceNumber : UInt8 := 0
  bAlternateSetting : UInt8 := 0
  bNumEndpoints : UInt8 := 0
  bInterfaceClass : UInt8 := 0
  bInterfaceSubClass : UInt8 := 0
  bInterfaceProtocol : UInt8 := 0
  iInterface : UInt8 := 0
  deriving DecidableEq, Repr

def UsbInterfaceDesc.store (d : UsbInterfaceDesc) (s : DataStore) : UsbInterfaceDesc :=
  match s.off with
  | 0 => { d with bLength := .ofNat s.value }
  | 1 => { d with bDescriptorType := .ofNat s.value }
  | 2 => { d with bInterfaceNumber := .ofNat s.value }
  | 3 => { d with bAlternateSetting := .ofNat s.value }
  | 4 => { d with bNumEndpoints := .ofNat s.value }
  | 5 => { d with bInterfaceClass := .ofNat s.value }
  | 6 => { d with bInterfaceSubClass := .ofNat s.value }
  | 7 => { d with bInterfaceProtocol := .ofNat s.value }
  | 8 => { d with iInterface := .ofNat s.value }
  | _ => d

/-- `usb_endpoint_desc_t`. -/
structure UsbEndpointDesc where
  bLength : UInt8 := 0
  bDescriptorType : UInt8 := 0
  bEndpointAddress : UInt8 := 0
  bmAttributes : UInt8 := 0
  wMaxPacketSize : UInt16 := 0
  bInterval : UInt8 := 0
  bRefresh : UInt8 := 0
  bSynchAddress : UInt8 := 0
  deriving DecidableEq, Repr

def UsbEndpointDesc.store (d : UsbEndpointDesc) (s : DataStore) : UsbEndpointDesc :=
  match s.off with
  | 0 => { d with bLength := .ofNat s.value }
  | 1 => { d with bDescriptorType := .ofNat s.value }
  | 2 => { d with bEndpointAddress := .ofNat s.value }
  | 3 => { d with bmAttributes := .ofNat s.value }
  | 4 => { d with wMaxPacketSize := .ofNat s.value }
  | 6 => { d with bInterval := .ofNat s.value }
  | 7 => { d with bRefresh := .ofNat s.value }
  | 8 => { d with bSynchAddress := .ofNat s.value }
  | _ => d

/-- `sizeof` of the structs above on x86. -/
def sizeofHeader : ℕ := 2
def sizeofDeviceDesc : ℕ := 18
def sizeofConfigDesc : ℕ := 10
def sizeofInterfaceDesc : ℕ := 9
def sizeofEndpointDesc : ℕ := 10

/-! ## The descriptor tree -/

/-- The array behind a pointer field.  `live cap es`: `cap` entries were allocated and `es` are the ones written so
far; the rest are zero, as `calloc` left them. -/
inductive Table (α : Type) where
  | absent
  | live (cap : ℕ) (entries : List α)
  | freed (entries : List α)
  deriving DecidableEq, Repr

namespace Table

variable {α : Type}

/-- The entries written so far, whatever became of the table. -/
def entries : Table α → List α
  | absent => []
  | live _ es => es
  | freed es => es

/-- The number of entries that may be accessed. -/
def liveCount : Table α → ℕ
  | live cap _ => cap
  | _ => 0

/-- `free` of the table; the pointer keeps its value. -/
def free : Table α → Table α
  | absent => absent
  | live _ es => freed es
  | freed es => freed es

def IsFreed : Table α → Prop
  | freed _ => True
  | _ => False

instance : DecidablePred (IsFreed (α := α)) := fun t =>
  match t with
  | freed _ => isTrue trivial
  | absent => isFalse not_false
  | live _ _ => isFalse not_false

end Table

/-- `struct usbi_endpoint`. -/
structure UsbiEndpoint where
  desc : UsbEndpointDesc := {}
  extra : Table UInt8 := .absent
  extralen : UInt16 := 0
  deriving DecidableEq, Repr

/-- `struct usbi_altsetting`. -/
structure UsbiAltsetting where
  desc : UsbInterfaceDesc := {}
  num_endpoints : ℕ := 0
  endpoints : Table UsbiEndpoint := .absent
  extra : Table UInt8 := .absent
  extralen : ℕ := 0
  deriving DecidableEq, Repr

/-- `struct usbi_interface`. -/
structure UsbiInterface where
  num_altsettings : ℕ := 0
  altsettings : Table UsbiAltsetting := .absent
  deriving DecidableEq, Repr

/-- `struct usbi_config`. -/
structure UsbiConfig where
  desc : UsbConfigDesc := {}
  num_interfaces : ℕ := 0
  interfaces : Table UsbiInterface := .absent
  extra : Table UInt8 := .absent
  extralen : ℕ := 0
  deriving DecidableEq, Repr

/-! ## Consistent trees -/

/-- No pointer of the endpoint refers to freed memory. -/
def UsbiEndpoint.Consistent (ep : UsbiEndpoint) : Prop := ¬ ep.extra.IsFreed

theorem UsbiEndpoint.consistent_zero : ({} : UsbiEndpoint).Consistent := not_false

/-- Counts stay within the tables, and no pointer refers to freed memory. -/
structure UsbiAltsetting.Consistent (as : UsbiAltsetting) : Prop where
  count_le : as.num_endpoints ≤ as.endpoints.liveCount
  endpoints_live : ¬ as.endpoints.IsFreed
  extra_live : ¬ as.extra.IsFreed
  entries : ∀ ep ∈ as.endpoints.entries, ep.Consistent

/-- The altsetting is consistent, and counts every endpoint that was written. -/
structure UsbiAltsetting.Sound (as : UsbiAltsetting) : Prop extends as.Consistent where
  counted : as.endpoints.entries.length ≤ as.num_endpoints

theorem UsbiAltsetting.sound_zero (desc : UsbInterfaceDesc) : ({ desc := desc } : UsbiAltsetting).Sound :=
  ⟨⟨le_rfl, not_false, not_false, by simp [Table.entries]⟩, le_rfl⟩

/-- Filling the endpoint table. -/
theorem UsbiAltsetting.Sound.endpoints {as : UsbiAltsetting} (h : as.Sound) {n : ℕ} {eps : List UsbiEndpoint}
    (hn : eps.length ≤ n) (heps : ∀ ep ∈ eps, ep.Consistent) :
    ({ as with num_endpoints := n, endpoints := .live n eps } : UsbiAltsetting).Sound :=
  ⟨⟨le_rfl, not_false, h.extra_live, heps⟩, hn⟩

/-- Storing the extra bytes. -/
theorem UsbiAltsetting.Sound.extra {as : UsbiAltsetting} (h : as.Sound) (n : ℕ) (bytes : List UInt8) :
    ({ as with extra := .live n bytes, extralen := n } : UsbiAltsetting).Sound :=
  ⟨⟨h.count_le, h.endpoints_live, not_false, h.entries⟩, h.counted⟩

structure UsbiInterface.Consistent (intf : UsbiInterface) : Prop where
  count_le : intf.num_altsettings ≤ intf.altsettings.liveCount
  altsettings_live : ¬ intf.altsettings.IsFreed
  entries : ∀ as ∈ intf.altsettings.entries, as.Consistent

theorem UsbiInterface.consistent_zero : ({} : UsbiInterface).Consistent :=
  ⟨le_rfl, not_false, by simp [Table.entries]⟩

structure UsbiConfig.Consistent (cfg : UsbiConfig) : Prop where
  count_le : cfg.num_interfaces ≤ cfg.interfaces.liveCount
  interfaces_live : ¬ cfg.interfaces.IsFreed
  extra_live : ¬ cfg.extra.IsFreed
  entries : ∀ intf ∈ cfg.interfaces.entries, intf.Consistent

end OpenUsb
