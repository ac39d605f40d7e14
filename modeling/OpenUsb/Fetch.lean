import OpenUsb.Destroy
import OpenUsb.ParserFacts

/-!
# Fetch — `usbi_fetch_and_parse_descriptors`

The descriptor reads of one call are issued in a fixed order, each at most once, so what the device answers is a function
of the read (`Reply`).  The environment also says which allocations succeed, and what the uninitialised bytes of the stack
and the bytes in front of the raw descriptors hold.  The result is `none` when the code copies to a NULL pointer, or when
it frees a table of the old tree that is not there any more.
-/

namespace OpenUsb

open Prog

/-- The descriptor reads. -/
inductive Request where
  | device
  | header (c : ℕ)
  | full (c : ℕ)
  deriving DecidableEq, Repr

/-- What the device answers to a read: the transfer fails, possibly with some bytes already in the buffer, or it delivers
bytes. -/
inductive Reply where
  | error (bytes : List UInt8)
  | ok (bytes : List UInt8)
  deriving DecidableEq, Repr

structure FetchEnv where
  reply : Request → Reply
  alloc : DevTable → Bool
  stack : ℕ → UInt8
  heap : ℕ → ℤ → UInt8
  junk : ℕ → ℤ → UsbDescriptorHeader

/-- `usbi_get_descriptor`: its value, and the bytes that it leaves in the buffer.  `buf = false` is a NULL pointer. -/
def usbiGetDescriptor (buf : Bool) (buflen : ℕ) (reply : Reply) : ℤ × List UInt8 :=
  if !buf ∨ buflen = 0 then (OPENUSB_BADARG, [])
  else match reply with
    | .error bytes => (-1, bytes.take buflen)
    | .ok bytes => ((bytes.take buflen).length, bytes.take buflen)

def fmtDevice : List Char := ['b', 'b', 'w', 'b', 'b', 'b', 'b', 'w', 'w', 'w', 'b', 'b', 'b', 'b']
def fmtTotalLength : List Char := ['b', 'b', 'w']

/-- A buffer that starts with `bytes`. -/
def bufMem (bytes : List UInt8) (rest : ℕ → UInt8) (p : ℤ) : UInt8 := bytes.getD p.toNat (rest p.toNat)

/-- The zeroed allocation that holds the raw descriptor `data`; `front` is what lies in front of it. -/
def rawMem (data : List UInt8) (front : ℤ → UInt8) (p : ℤ) : UInt8 := if p < 0 then front p else data.getD p.toNat 0

/-- The environment in which configuration `c` is parsed from `data`. -/
def FetchEnv.parse (env : FetchEnv) (c : ℕ) (data : List UInt8) : Env :=
  { mem := rawMem data (env.heap c), alloc := fun s => env.alloc (.config c s), junk := env.junk c }

variable (env : FetchEnv)

/-- A round of the loop over the configurations; `none` is the jump to `err`. -/
def fetchConfig (c : ℕ) : Prog Ev (Option (UsbiRawDesc × UsbiConfig)) :=
  let (ret, buf) := usbiGetDescriptor true 8 (env.reply (.header c))
  if ret < 8 then pure none
  else
    let out := openusbParseData (bufMem buf fun _ => 0) (some fmtTotalLength) (some 0) 8 (some 0) sizeofConfigDesc true
    let cfg_desc := out.stores.foldl UsbConfigDesc.store {}
    let len := cfg_desc.wTotalLength.toNat
    if !env.alloc (.rawData c) then pure none
    else
      let (ret, data) := usbiGetDescriptor true len (env.reply (.full c))
      -- an `int` against a `size_t`
      if CInt.toU64 ret < len then pure none
      else do
        let (_, cfg) ← usbiParseConfiguration (env.parse c data) {} 0 len
        pure (some ({ data := .live (len + 65536) data, len := len }, cfg))

/-- The loop over the configurations, with `n` rounds to go. -/
def fetchConfigs : ℕ → List (UsbiRawDesc × UsbiConfig) → Prog Ev (Option (List (UsbiRawDesc × UsbiConfig)))
  | 0, cs => pure (some cs)
  | n + 1, cs => do
    let r ← fetchConfig env cs.length
    match r with
    | none => pure none
    | some c => fetchConfigs n (cs ++ [c])

/-- The label `err`. -/
def fetchErr (dev : UsbiDescriptors) : ℤ × UsbiDescriptors :=
  (-1, { dev with configs := .absent, configs_raw := .absent, num_configs := 0 })

/-- What follows once the device descriptor has been stored. -/
def fetchDevice (dev : UsbiDescriptors) : Prog Ev (ℤ × UsbiDescriptors) :=
  if dev.num_configs > USBI_MAXCONFIG then pure (fetchErr dev)
  else if dev.num_configs < 1 then pure (fetchErr dev)
  else if !env.alloc .configsRaw then pure (fetchErr dev)
  else if !env.alloc .configs then pure (fetchErr dev)
  else do
    let r ← fetchConfigs env dev.num_configs []
    match r with
    | none => pure (fetchErr dev)
    | some cs =>
      pure (0, { dev with
        configs_raw := .live dev.num_configs (cs.map Prod.fst), configs := .live dev.num_configs (cs.map Prod.snd) })

/-- `usbi_fetch_and_parse_descriptors`, once the old tree has been freed. -/
def fetchFreed (dev : UsbiDescriptors) : Prog Ev (Option (ℤ × UsbiDescriptors)) :=
  let (ret, got) := usbiGetDescriptor true USBI_DEVICE_DESC_SIZE (env.reply .device)
  if ret < 0 then pure (some (OPENUSB_PARSE_ERROR, dev))
  else
    let devbuf := bufMem got env.stack
    let out := openusbParseData devbuf (some fmtDevice) (some 0) USBI_DEVICE_DESC_SIZE (some 0) sizeofDeviceDesc true
    let dev := { dev with device := out.stores.foldl UsbDeviceDesc.store dev.device }
    let count := out.count.getD 0
    if out.ret < 0 ∨ count < USBI_DEVICE_DESC_SIZE then pure (some (OPENUSB_PARSE_ERROR, dev))
    else if !env.alloc .deviceRaw then pure none
    else do
      let out ← fetchDevice env { dev with
        device_raw := { dev.device_raw with data := .live count ((span 0 count).map devbuf) }
        num_configs := dev.device.bNumConfigurations.toNat }
      pure (some out)

/-- `usbi_fetch_and_parse_descriptors`. -/
def usbiFetchAndParseDescriptors (dev : UsbiDescriptors) : Prog Ev (Option (ℤ × UsbiDescriptors)) :=
  match usbiDestroyConfiguration dev with
  | (none, _) => pure none
  | (some _, dev) => fetchFreed env dev

end OpenUsb
