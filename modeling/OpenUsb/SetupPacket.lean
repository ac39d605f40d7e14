import OpenUsb.Emulation
import OpenUsb.Urbs
import OpenUsb.Lib.Bytes

/-!
# SetupPacket — the setup packets of the Linux and the Solaris backend

The Linux backend stores the 16-bit fields of a setup packet as words of the host, after a conversion; the Solaris backend
takes them apart with shifts.  Both cut the 32-bit length of the request to 16 bits, and leave it to the size check of
`openusb_xfer_wait` that it fits.

* `setup_packets_iff`: when both packets encode the request.
-/

namespace OpenUsb

open Emulation (Endian)

/-! ## Words of the host -/

/-- The bytes of a 16-bit word in memory. -/
def wordBytes (e : Endian) (data : UInt16) : List UInt8 :=
  match e with
  | .little => leBytes 2 data.toNat
  | .big => (leBytes 2 data.toNat).reverse

/-- `openusb_le16_to_cpu`, which is also `openusb_cpu_to_le16`. -/
def openusbLe16ToCpu (e : Endian) (data : UInt16) : UInt16 :=
  if (wordBytes e 0x1234).getD 0 0 = 0x12 then
    .ofNat (((wordBytes e data).getD 0 0).toNat + 256 * ((wordBytes e data).getD 1 0).toNat)
  else data

theorem le16_little (data : UInt16) : openusbLe16ToCpu .little data = data := rfl

theorem le16_big (data : UInt16) : openusbLe16ToCpu .big data = .ofNat (data.toNat / 256 + 256 * (data.toNat % 256)) := by
  have hhigh : data.toNat / 256 % 256 = data.toNat / 256 := Nat.mod_eq_of_lt (by have := data.toNat_lt; omega)
  show UInt16.ofNat ((UInt8.ofNat (data.toNat / 256)).toNat + 256 * (UInt8.ofNat data.toNat).toNat) = _
  rw [UInt8.toNat_ofNat', UInt8.toNat_ofNat', hhigh]

/-- A converted word stands in memory with its low byte first. -/
theorem wordBytes_le16 (e : Endian) (data : UInt16) : wordBytes e (openusbLe16ToCpu e data) = leBytes 2 data.toNat := by
  cases e with
  | little => rfl
  | big =>
    have hlt := data.toNat_lt
    have hswap : (data.toNat / 256 + 256 * (data.toNat % 256)) % 2 ^ 16 = data.toNat / 256 + 256 * (data.toNat % 256) :=
      Nat.mod_eq_of_lt (by omega)
    have hdiv : (data.toNat / 256 + 256 * (data.toNat % 256)) / 256 = data.toNat % 256 := by omega
    rw [le16_big, wordBytes, UInt16.toNat_ofNat', hswap]
    show [UInt8.ofNat ((data.toNat / 256 + 256 * (data.toNat % 256)) / 256),
      UInt8.ofNat (data.toNat / 256 + 256 * (data.toNat % 256))] = [UInt8.ofNat data.toNat, UInt8.ofNat (data.toNat / 256)]
    rw [hdiv, List.cons.injEq, List.cons.injEq]
    refine ⟨?_, ?_, rfl⟩
    · rw [← UInt8.toNat_inj, UInt8.toNat_ofNat', UInt8.toNat_ofNat', Nat.mod_mod]
    · rw [← UInt8.toNat_inj, UInt8.toNat_ofNat', UInt8.toNat_ofNat']
      omega

/-! ## The size check -/

/-- Refusal of a request that is larger than the bus allows. -/
def OPENUSB_IO_REQ_TOO_BIG : ℤ := -53

/-- The size check of `openusb_xfer_wait`; `length` is that of the request, which an isochronous one does not have. -/
def xferSizeCheck (maxXferSize : TransferType → UInt32) (type : TransferType) (length : UInt32) : ℤ :=
  if maxXferSize type = 0 then OPENUSB_SUCCESS
  else match type with
    | .control | .interrupt | .bulk => if length > maxXferSize type then OPENUSB_IO_REQ_TOO_BIG else OPENUSB_SUCCESS
    | .isochronous => OPENUSB_SUCCESS
    | .all | .last => OPENUSB_BADARG

def LINUX_MAX_CTRL_XFER : UInt32 := 4096

/-- The limits that `linux_find_buses` sets. -/
def linuxMaxXferSize : TransferType → UInt32
  | .control => LINUX_MAX_CTRL_XFER
  | .interrupt | .bulk | .isochronous => 0xFFFFFFFF
  | .all | .last => 0

/-- The root hub of a bus, as `detect_root_hub` finds it. -/
inductive RootHub where
  | ehci
  | ohci
  | uhci
  | other
  deriving DecidableEq, Repr

/-- `sunos_set_max_xfer_size`, on a bus that is all zeros before. -/
def sunosMaxXferSize : RootHub → TransferType → UInt32
  | .ehci, .control => 0x10000
  | .ehci, .bulk => 0xA0000
  | .ehci, .interrupt => 0x5000
  | .ehci, .isochronous => 1024 * 3072
  | .ohci, .control => 0x10000
  | .ohci, .bulk => 0x40000
  | .ohci, .interrupt => 0x2000
  | .ohci, .isochronous => 256 * 1024
  | .uhci, .control => 0x10000
  | .uhci, .bulk => 0x1F000
  | .uhci, .interrupt => 0x500
  | .uhci, .isochronous => 256 * 1024
  | _, _ => 0

/-! ## The packets -/

/-- `openusb_ctrl_request_t`, as far as the setup packet goes. -/
structure CtrlRequest where
  bmRequestType : UInt8
  bRequest : UInt8
  wValue : UInt16
  wIndex : UInt16
  length : UInt32
  deriving DecidableEq, Repr

/-- `setup` of `linux_submit_ctrl`; the argument of the last conversion is 16 bits wide. -/
def linuxSubmitCtrl (e : Endian) (ctrl : CtrlRequest) : List UInt8 :=
  [ctrl.bmRequestType, ctrl.bRequest] ++ wordBytes e (openusbLe16ToCpu e ctrl.wValue) ++
    wordBytes e (openusbLe16ToCpu e ctrl.wIndex) ++ wordBytes e (openusbLe16ToCpu e ctrl.length.toUInt16)

/-- `data` of `solaris_submit_ctrl_on_default`. -/
def solarisSubmitCtrlOnDefault (ctrl : CtrlRequest) : List UInt8 :=
  [ctrl.bmRequestType, ctrl.bRequest,
    (ctrl.wValue &&& 0xFF).toUInt8, ((ctrl.wValue >>> 8) &&& 0xFF).toUInt8,
    (ctrl.wIndex &&& 0xFF).toUInt8, ((ctrl.wIndex >>> 8) &&& 0xFF).toUInt8,
    (ctrl.length &&& 0xFF).toUInt8, ((ctrl.length >>> 8) &&& 0xFF).toUInt8]

/-- The fields of a setup packet, little-endian. -/
def decodeSetup : List UInt8 → Option (UInt8 × UInt8 × ℕ × ℕ × ℕ)
  | [t, r, v0, v1, i0, i1, l0, l1] =>
    some (t, r, v0.toNat + 256 * v1.toNat, i0.toNat + 256 * i1.toNat, l0.toNat + 256 * l1.toNat)
  | _ => none

/-- The packet says what the request says. -/
def Encodes (setup : List UInt8) (ctrl : CtrlRequest) : Prop :=
  decodeSetup setup = some (ctrl.bmRequestType, ctrl.bRequest, ctrl.wValue.toNat, ctrl.wIndex.toNat, ctrl.length.toNat)

instance (setup : List UInt8) (ctrl : CtrlRequest) : Decidable (Encodes setup ctrl) := inferInstanceAs (Decidable (_ = _))

/-- The lengths that the limits of the Solaris backend keep apart from their remainder modulo 65536. -/
def LengthFits : RootHub → UInt32 → Prop
  | .other, length => length < 0x10000
  | _, length => length ≠ 0x10000

section

variable (e : Endian) (hub : RootHub) (ctrl : CtrlRequest)

/-- The packet that both backends build. -/
def setupPacket : List UInt8 :=
  [ctrl.bmRequestType, ctrl.bRequest] ++ leBytes 2 ctrl.wValue.toNat ++ leBytes 2 ctrl.wIndex.toNat ++
    leBytes 2 ctrl.length.toNat

theorem leBytes_two (n : ℕ) : leBytes 2 n = [UInt8.ofNat n, UInt8.ofNat (n / 256)] := rfl

theorem leBytes_two_mod (n : ℕ) : leBytes 2 (n % 65536) = leBytes 2 n := by
  rw [leBytes_two, leBytes_two, List.cons.injEq, List.cons.injEq]
  refine ⟨?_, ?_, rfl⟩
  · rw [← UInt8.toNat_inj, UInt8.toNat_ofNat', UInt8.toNat_ofNat']
    omega
  · rw [← UInt8.toNat_inj, UInt8.toNat_ofNat', UInt8.toNat_ofNat']
    omega

theorem linuxSubmitCtrl_eq : linuxSubmitCtrl e ctrl = setupPacket ctrl := by
  have hlen : ctrl.length.toUInt16.toNat = ctrl.length.toNat % 65536 := UInt32.toNat_toUInt16 _
  rw [linuxSubmitCtrl, wordBytes_le16, wordBytes_le16, wordBytes_le16, hlen, leBytes_two_mod, setupPacket]

/-- Masks and shifts take the bytes of a number. -/
theorem masked_bytes (n : ℕ) : [UInt8.ofNat (n &&& 255), UInt8.ofNat (n >>> 8 &&& 255)] = leBytes 2 n := by
  have hmask : ∀ n : ℕ, n &&& 255 = n % 256 := fun n => Nat.and_two_pow_sub_one_eq_mod n 8
  rw [leBytes_two, List.cons.injEq, List.cons.injEq]
  refine ⟨?_, ?_, rfl⟩
  · rw [← UInt8.toNat_inj, UInt8.toNat_ofNat', UInt8.toNat_ofNat', hmask]
    omega
  · rw [← UInt8.toNat_inj, UInt8.toNat_ofNat', UInt8.toNat_ofNat', hmask, Nat.shiftRight_eq_div_pow]
    omega

theorem word_bytes (w : UInt16) : [(w &&& 0xFF).toUInt8, ((w >>> 8) &&& 0xFF).toUInt8] = leBytes 2 w.toNat :=
  masked_bytes w.toNat

theorem length_bytes (w : UInt32) : [(w &&& 0xFF).toUInt8, ((w >>> 8) &&& 0xFF).toUInt8] = leBytes 2 w.toNat :=
  masked_bytes w.toNat

theorem solarisSubmitCtrlOnDefault_eq : solarisSubmitCtrlOnDefault ctrl = setupPacket ctrl := by
  rw [setupPacket, ← word_bytes ctrl.wValue, ← word_bytes ctrl.wIndex, ← length_bytes ctrl.length]
  rfl

/-- The packet encodes the request up to 65535 bytes. -/
theorem encodes_iff : Encodes (setupPacket ctrl) ctrl ↔ ctrl.length.toNat < 65536 := by
  have hpair : ∀ n : ℕ, (UInt8.ofNat n).toNat + 256 * (UInt8.ofNat (n / 256)).toNat = n % 65536 := by
    intro n
    rw [UInt8.toNat_ofNat', UInt8.toNat_ofNat']
    omega
  have hdecode : decodeSetup (setupPacket ctrl) = some (ctrl.bmRequestType, ctrl.bRequest, ctrl.wValue.toNat % 65536,
      ctrl.wIndex.toNat % 65536, ctrl.length.toNat % 65536) := by
    rw [← hpair ctrl.wValue.toNat, ← hpair ctrl.wIndex.toNat, ← hpair ctrl.length.toNat]
    rfl
  rw [Encodes, hdecode, Nat.mod_eq_of_lt ctrl.wValue.toNat_lt, Nat.mod_eq_of_lt ctrl.wIndex.toNat_lt, Option.some_inj,
    Prod.mk.injEq, Prod.mk.injEq, Prod.mk.injEq, Prod.mk.injEq]
  constructor
  · rintro ⟨-, -, -, -, hlen⟩
    omega
  · exact fun hlt => ⟨rfl, rfl, rfl, rfl, Nat.mod_eq_of_lt hlt⟩

theorem control_admits_iff {limits : TransferType → UInt32} {length : UInt32} :
    xferSizeCheck limits .control length = OPENUSB_SUCCESS ↔
      limits .control = 0 ∨ length.toNat ≤ (limits .control).toNat := by
  have hgt : length > limits .control ↔ (limits .control).toNat < length.toNat := UInt32.lt_iff_toNat_lt
  rw [xferSizeCheck]
  split_ifs with hzero hlarge
  · exact iff_of_true rfl (.inl hzero)
  · exact iff_of_false (by decide) (not_or.mpr ⟨hzero, Nat.not_le.mpr (hgt.mp hlarge)⟩)
  · exact iff_of_true rfl (.inr (Nat.not_lt.mp fun h => hlarge (hgt.mpr h)))

theorem linux_admits {length : UInt32} (h : xferSizeCheck linuxMaxXferSize .control length = OPENUSB_SUCCESS) :
    length.toNat < 65536 := by
  have hle : length.toNat ≤ 4096 := (control_admits_iff.mp h).resolve_left (by decide)
  omega

/-- What the size check of a Solaris bus admits. -/
theorem sunos_admits_iff {length : UInt32} : xferSizeCheck (sunosMaxXferSize hub) .control length = OPENUSB_SUCCESS ↔
    (hub ≠ .other → length.toNat ≤ 65536) := by
  rw [control_admits_iff]
  cases hub with
  | other => exact iff_of_true (.inl rfl) fun h => absurd rfl h
  | ehci | ohci | uhci => exact ⟨fun h _ => h.resolve_left (by decide), fun h => .inr (h (by decide))⟩

end

/-- Of every request that the size checks admit, the two packets encode it and are the same, if and only if its length is not
one that the limits of the Solaris bus admit beyond 16 bits. -/
theorem setup_packets_iff (e : Endian) (hub : RootHub) (ctrl : CtrlRequest) :
    ((xferSizeCheck linuxMaxXferSize .control ctrl.length = OPENUSB_SUCCESS → Encodes (linuxSubmitCtrl e ctrl) ctrl) ∧
      (xferSizeCheck (sunosMaxXferSize hub) .control ctrl.length = OPENUSB_SUCCESS →
        Encodes (solarisSubmitCtrlOnDefault ctrl) ctrl) ∧
      (xferSizeCheck linuxMaxXferSize .control ctrl.length = OPENUSB_SUCCESS →
        xferSizeCheck (sunosMaxXferSize hub) .control ctrl.length = OPENUSB_SUCCESS →
        linuxSubmitCtrl e ctrl = solarisSubmitCtrlOnDefault ctrl)) ↔
    LengthFits hub ctrl.length := by
  have hfits : LengthFits hub ctrl.length ↔ ((hub ≠ .other → ctrl.length.toNat ≤ 65536) → ctrl.length.toNat < 65536) := by
    have hlt : ctrl.length < 0x10000 ↔ ctrl.length.toNat < 65536 := UInt32.lt_iff_toNat_lt
    have heq : ctrl.length ≠ 0x10000 ↔ ctrl.length.toNat ≠ 65536 := not_congr UInt32.toNat_inj.symm
    cases hub with
    | other => exact hlt.trans ⟨fun h _ => h, fun h => h fun hne => absurd rfl hne⟩
    | ehci | ohci | uhci =>
      refine heq.trans ⟨fun hne hle => ?_, fun h hlen => ?_⟩
      · have := hle (by decide)
        omega
      · have := h fun _ => hlen.le
        omega
  rw [linuxSubmitCtrl_eq, solarisSubmitCtrlOnDefault_eq, encodes_iff, sunos_admits_iff, hfits]
  exact ⟨fun h => h.2.1, fun h => ⟨linux_admits, h, fun _ _ => rfl⟩⟩

/-- A control request of 65536 bytes passes the size check of a Solaris bus, and its packet says 0 bytes. -/
theorem length_cut : xferSizeCheck (sunosMaxXferSize .ehci) .control 0x10000 = OPENUSB_SUCCESS ∧
    decodeSetup (solarisSubmitCtrlOnDefault ⟨0x40, 1, 0, 0, 0x10000⟩) = some (0x40, 1, 0, 0, 0) ∧
    ¬ Encodes (solarisSubmitCtrlOnDefault ⟨0x40, 1, 0, 0, 0x10000⟩) ⟨0x40, 1, 0, 0, 0x10000⟩ :=
  ⟨by decide, by decide, by decide⟩

end OpenUsb
