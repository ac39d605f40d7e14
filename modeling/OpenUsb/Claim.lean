import OpenUsb.Descr
import OpenUsb.Lib.Runs
import Mathlib.Logic.Function.Basic

/-!
# Claim — claiming interfaces and setting their alternate settings on Linux

The state is what the library keeps of an open device (`claimed_ifs`, `reattachdrv`) and what the kernel does: the
interfaces it grants to the handle's descriptor, the drivers attached to them and their alternate settings.  Every system
call comes with what it returns, so the calls of the application are functions of the state.
-/

namespace OpenUsb

/-! ## System calls -/

/-- What a system call returns, and `errno` after it. -/
structure Syscall where
  ret : ℤ
  errno : ℤ := 0
  deriving DecidableEq, Repr

/-- `translate_errno`. -/
def translateErrno (errnum : ℤ) : ℤ :=
  match errnum with
  | 1 => OPENUSB_INVALID_PERM
  | 22 => OPENUSB_BADARG
  | 12 => OPENUSB_NO_RESOURCES
  | 13 => OPENUSB_NOACCESS
  | 16 => OPENUSB_BUSY
  | 32 => OPENUSB_IO_STALL
  | 19 => OPENUSB_UNKNOWN_DEVICE
  | _ => OPENUSB_SYS_FUNC_FAILURE

theorem translateErrno_neg (errnum : ℤ) : translateErrno errnum < 0 := by
  unfold translateErrno
  split <;> decide

/-- The kernel's side of a device, by interface number: is it granted to this descriptor, is a kernel driver attached to
it, and its alternate setting. -/
structure Kernel where
  granted : ℕ → Bool
  driver : ℕ → Bool
  alt : ℕ → ℕ

namespace Kernel

variable (k : Kernel) (n : ℕ) (sys : Syscall)

/-- `IOCTL_USB_CLAIMINTF`. -/
def claimIntf : Kernel := if sys.ret < 0 then k else { k with granted := Function.update k.granted n true }

/-- `IOCTL_USB_RELEASEINTF` resets the alternate setting. -/
def releaseIntf : Kernel :=
  if sys.ret < 0 then k
  else { k with granted := Function.update k.granted n false, alt := Function.update k.alt n 0 }

/-- `IOCTL_USB_SETINTF`. -/
def setIntf (a : ℕ) : Kernel := if sys.ret < 0 then k else { k with alt := Function.update k.alt n a }

/-- `IOCTL_USB_DISCONNECT`. -/
def disconnect : Kernel := if sys.ret < 0 then k else { k with driver := Function.update k.driver n false }

/-- `IOCTL_USB_CONNECT`. -/
def connect : Kernel := if sys.ret < 0 then k else { k with driver := Function.update k.driver n true }

/-- Closing the descriptor gives back what it was granted. -/
def close : Kernel := { k with granted := fun _ => false, alt := fun n => if k.granted n then 0 else k.alt n }

end Kernel

/-! ## The device handle -/

def USBI_IFC_CLAIMED : ℤ := 1

/-- `openusb_init_flag_t`. -/
inductive InitFlag where
  | default
  | failFast
  | reversible
  | nonReversible
  deriving DecidableEq, Repr

/-- The value of the enumerator. -/
def InitFlag.val : InitFlag → ℤ
  | .default => 0
  | .failFast => 1
  | .reversible => 2
  | .nonReversible => 3

structure InterfaceSet where
  clm : ℤ
  altsetting : ℤ
  deriving DecidableEq, Repr

/-- The fields of `struct usbi_dev_handle` that the claims use.  `claimedIfs` has `USBI_MAXINTERFACES` entries; beyond
them it is whatever follows in memory. -/
structure DevHandle where
  claimedIfs : UInt8 → InterfaceSet
  reattachdrv : ℤ
  opened : Bool
  kernel : Kernel

namespace DevHandle

variable (hdev : DevHandle)

def mark (ifc : UInt8) (clm altsetting : ℤ) : DevHandle :=
  { hdev with claimedIfs := Function.update hdev.claimedIfs ifc ⟨clm, altsetting⟩ }

/-- What an ioctl on the handle's descriptor does. -/
def ioctl (f : Kernel → Kernel) : DevHandle := { hdev with kernel := f hdev.kernel }

/-- The handle of `openusb_open_device`; `after` is what lies behind the table. -/
def openDevice (driver : ℕ → Bool) (after : UInt8 → InterfaceSet) : DevHandle where
  claimedIfs ifc := if ifc.toNat < USBI_MAXINTERFACES then ⟨-1, -1⟩ else after ifc
  reattachdrv := 0
  opened := true
  kernel := { granted := fun _ => false, driver := driver, alt := fun _ => 0 }

end DevHandle

/-! ## The Linux backend -/

/-- The system calls of one `linux_claim_interface`, and the three bytes that follow its argument `ifc` on the stack. -/
structure ClaimCalls where
  claim : Syscall
  detach : Syscall := ⟨0, 0⟩
  retry : Syscall := ⟨0, 0⟩
  attach : Syscall := ⟨0, 0⟩
  stack : ℕ := 0
  deriving DecidableEq, Repr

/-- `linux_attach_kernel_driver`. -/
def linuxAttachKernelDriver (hdev : DevHandle) (ifc : UInt8) (sys : Syscall) : ℤ × DevHandle :=
  (if sys.ret ≠ 0 then translateErrno sys.errno else OPENUSB_SUCCESS, hdev.ioctl (·.connect ifc.toNat sys))

/-- `linux_detach_kernel_driver`. -/
def linuxDetachKernelDriver (hdev : DevHandle) (ifc : UInt8) (sys : Syscall) : ℤ × DevHandle :=
  (if sys.ret ≠ 0 then translateErrno sys.errno else OPENUSB_SUCCESS, hdev.ioctl (·.disconnect ifc.toNat sys))

/-- `linux_claim_interface`. -/
def linuxClaimInterface (hdev : DevHandle) (ifc : UInt8) (flags : InitFlag) (sys : ClaimCalls) : ℤ × DevHandle :=
  if (hdev.claimedIfs ifc).clm = USBI_IFC_CLAIMED then (OPENUSB_SUCCESS, hdev)
  else
    let hdev := hdev.ioctl (·.claimIntf ifc.toNat sys.claim)
    if sys.claim.ret < 0 then
      -- the second test is `flags = USB_INIT_NON_REVERSIBLE`, an assignment
      if flags = .reversible ∨ InitFlag.nonReversible.val ≠ 0 then
        let (ret, hdev) := linuxDetachKernelDriver hdev ifc sys.detach
        if ret > 0 then
          -- the retry passes `&ifc`, the address of a byte
          let hdev := { hdev with reattachdrv := 1 }.ioctl (·.claimIntf (ifc.toNat + 256 * sys.stack) sys.retry)
          if sys.retry.ret < 0 then linuxAttachKernelDriver { hdev with reattachdrv := 0 } ifc sys.attach
          else (sys.retry.ret, hdev)
        else (ret, hdev)
      else (translateErrno sys.claim.errno, hdev)
    else (sys.claim.ret, hdev.mark ifc USBI_IFC_CLAIMED 0)

/-- `linux_release_interface`. -/
def linuxReleaseInterface (hdev : DevHandle) (ifc : UInt8) (release attach : Syscall) : ℤ × DevHandle :=
  let hdev := hdev.ioctl (·.releaseIntf ifc.toNat release)
  if release.ret < 0 then (translateErrno release.errno, hdev)
  else
    let hdev := hdev.mark ifc (-1) (-1)
    if hdev.reattachdrv ≠ 0 then
      let (ret, hdev) := linuxAttachKernelDriver hdev ifc attach
      if ret < 0 then (ret, hdev) else (OPENUSB_SUCCESS, hdev)
    else (OPENUSB_SUCCESS, hdev)

/-- `linux_set_altsetting`. -/
def linuxSetAltsetting (hdev : DevHandle) (ifc alt : UInt8) (sys : Syscall) : ℤ × DevHandle :=
  if (hdev.claimedIfs ifc).clm ≠ USBI_IFC_CLAIMED then (OPENUSB_BADARG, hdev)
  else
    let hdev := hdev.ioctl (·.setIntf ifc.toNat sys alt.toNat)
    if sys.ret < 0 then (translateErrno sys.errno, hdev)
    else (OPENUSB_SUCCESS, hdev.mark ifc (hdev.claimedIfs ifc).clm alt.toNat)

/-- `linux_get_altsetting`: also what it stores in `*alt`. -/
def linuxGetAltsetting (hdev : DevHandle) (ifc : UInt8) : ℤ × UInt8 :=
  (OPENUSB_SUCCESS, UInt8.ofInt (hdev.claimedIfs ifc).altsetting)

/-- `linux_close`, as far as the interfaces go. -/
def linuxClose (hdev : DevHandle) : ℤ × DevHandle :=
  (OPENUSB_SUCCESS, { hdev.ioctl Kernel.close with opened := false })

/-! ## The calls of the application -/

/-- What a call finds in the descriptors that it refreshes: the return code of `usbi_fetch_and_parse_descriptors`, the
index of the current configuration and its interfaces. -/
structure Refresh where
  ret : ℤ
  curConfigIndex : ℤ := 0
  numInterfaces : ℕ
  numAltsettings : UInt8 → ℕ

/-- `openusb_claim_interface`. -/
def openusbClaimInterface (hdev : DevHandle) (ifc : UInt8) (flags : InitFlag) (refresh : Refresh) (sys : ClaimCalls) :
    ℤ × DevHandle :=
  if ifc.toNat > USBI_MAXINTERFACES then (OPENUSB_BADARG, hdev)
  else if !hdev.opened then (OPENUSB_UNKNOWN_DEVICE, hdev)
  else if refresh.ret ≠ 0 then (OPENUSB_BADARG, hdev)
  else if ifc.toNat ≥ USBI_MAXINTERFACES ∨ ifc.toNat ≥ refresh.numInterfaces then (OPENUSB_BADARG, hdev)
  else
    let (ret, hdev) := linuxClaimInterface hdev ifc flags sys
    (ret, if ret = 0 then hdev.mark ifc USBI_IFC_CLAIMED 0 else hdev)

/-- `openusb_is_interface_claimed`. -/
def openusbIsInterfaceClaimed (hdev : DevHandle) (ifc : UInt8) : ℤ :=
  if ifc.toNat > USBI_MAXINTERFACES then OPENUSB_BADARG
  else if !hdev.opened then OPENUSB_BADARG
  else if (hdev.claimedIfs ifc).clm = USBI_IFC_CLAIMED then 1 else 0

/-- `openusb_release_interface`. -/
def openusbReleaseInterface (hdev : DevHandle) (ifc : UInt8) (release attach : Syscall) : ℤ × DevHandle :=
  if ifc.toNat > USBI_MAXINTERFACES then (OPENUSB_BADARG, hdev)
  else if !hdev.opened then (OPENUSB_UNKNOWN_DEVICE, hdev)
  else if openusbIsInterfaceClaimed hdev ifc ≠ 1 then (OPENUSB_BADARG, hdev)
  else linuxReleaseInterface hdev ifc release attach

/-- `openusb_set_altsetting`. -/
def openusbSetAltsetting (hdev : DevHandle) (ifc alt : UInt8) (refresh : Refresh) (sys : Syscall) : ℤ × DevHandle :=
  if !hdev.opened then (OPENUSB_UNKNOWN_DEVICE, hdev)
  else if ifc.toNat > USBI_MAXINTERFACES then (OPENUSB_BADARG, hdev)
  else if refresh.ret ≠ 0 then (OPENUSB_PARSE_ERROR, hdev)
  else if refresh.curConfigIndex < 0 then (OPENUSB_PARSE_ERROR, hdev)
  else if ifc.toNat > refresh.numInterfaces ∨ ifc.toNat > USBI_MAXINTERFACES ∨
      (hdev.claimedIfs ifc).clm ≠ USBI_IFC_CLAIMED ∨ alt.toNat ≥ refresh.numAltsettings ifc then (OPENUSB_BADARG, hdev)
  else if (alt.toNat : ℤ) = (hdev.claimedIfs ifc).altsetting then (0, hdev)
  else linuxSetAltsetting hdev ifc alt sys

/-- `openusb_get_altsetting`: the return code and `*alt`, when it is stored. -/
def openusbGetAltsetting (hdev : DevHandle) (ifc : UInt8) : ℤ × Option UInt8 :=
  if ifc.toNat > USBI_MAXINTERFACES then (OPENUSB_BADARG, none)
  else if !hdev.opened then (OPENUSB_UNKNOWN_DEVICE, none)
  else if (hdev.claimedIfs ifc).clm ≠ USBI_IFC_CLAIMED then (OPENUSB_BADARG, none)
  else ((linuxGetAltsetting hdev ifc).1, some (linuxGetAltsetting hdev ifc).2)

/-- `openusb_close_device`. -/
def openusbCloseDevice (hdev : DevHandle) : ℤ × DevHandle :=
  if !hdev.opened then (OPENUSB_UNKNOWN_DEVICE, hdev) else linuxClose hdev

/-- A call of the application, with what the descriptors and the system calls answer. -/
inductive Call where
  | claim (ifc : UInt8) (flags : InitFlag) (refresh : Refresh) (sys : ClaimCalls)
  | release (ifc : UInt8) (release attach : Syscall)
  | setAltsetting (ifc alt : UInt8) (refresh : Refresh) (sys : Syscall)
  | getAltsetting (ifc : UInt8)
  | close

/-- The return code of a call and the handle after it. -/
def exec (hdev : DevHandle) : Call → ℤ × DevHandle
  | .claim ifc flags refresh sys => openusbClaimInterface hdev ifc flags refresh sys
  | .release ifc release attach => openusbReleaseInterface hdev ifc release attach
  | .setAltsetting ifc alt refresh sys => openusbSetAltsetting hdev ifc alt refresh sys
  | .getAltsetting ifc => ((openusbGetAltsetting hdev ifc).1, hdev)
  | .close => openusbCloseDevice hdev

/-- A call takes the handle to the one after it. -/
def Calls (hdev : DevHandle) (call : Call) (hdev' : DevHandle) : Prop := hdev' = (exec hdev call).2

end OpenUsb
