import OpenUsb.Parser

/-!
# Walkers — the flat descriptor walkers of `devices.c`

`openusb_parse_interface_desc` and `openusb_parse_endpoint_desc` walk over the raw configuration one `bLength` at a time
and decode a single descriptor into the caller's struct.  `raw` is what `openusb_get_raw_desc` hands back when the
caller passes no buffer.
-/

namespace OpenUsb

open Prog

variable (env : Env)

/-- A buffer with its length. -/
structure RawDesc where
  buf : ℤ
  len : ℕ
  deriving DecidableEq, Repr

/-- The prologue of the walkers: the return code to give up with, or the bytes to walk over. -/
def walkBuffer (hdl : Bool) (raw : ℤ × RawDesc) (buffer : Option ℤ) (buflen : ℕ) : Except ℤ RawDesc :=
  if !hdl then .error OPENUSB_INVALID_HANDLE
  else match buffer with
    | none => if raw.1 < 0 then .error raw.1 else .ok raw.2
    | some buf => if buflen < USBI_CONFIG_DESC_SIZE then .error OPENUSB_BADARG else .ok ⟨buf, buflen⟩

/-- `openusb_parse_data` into the struct `d`, with the check that it consumed at least `size` bytes. -/
def parseChecked {D : Type} (store : D → DataStore → D) (fmt : List Char) (destlen size : ℕ) (buf : ℤ) (buflen : ℕ)
    (d : D) : Prog Ev (ℤ × D) := do
  let out := openusbParseData env.mem (some fmt) (some buf) buflen (some 0) destlen true
  emitAll (out.reads.map .read)
  pure (if out.ret = 0 ∧ out.count.getD 0 < size then OPENUSB_PARSE_ERROR else out.ret, out.stores.foldl store d)

/-- `sp[1] == USB_DESC_TYPE_INTERFACE && sp[2] == ifcidx && sp[3] == alt`. -/
def isAlternate (ifcidx alt : UInt8) (sp : ℤ) : Prog Ev Bool := do
  let t ← rd env (sp + 1)
  if t ≠ USB_DESC_TYPE_INTERFACE then pure false
  else do
    let n ← rd env (sp + 2)
    if n ≠ ifcidx then pure false
    else do
      let a ← rd env (sp + 3)
      pure (decide (a = alt))

/-- The locals of a walk. -/
structure Walk where
  sp : ℤ
  tmplen : ℕ
  deriving DecidableEq, Repr

/-- The end of a round: step over the descriptor at the cursor, or give up with `fail`. -/
def walkStep {α : Type} (w : Walk) (fail : α) : Prog Ev (Round Walk α) := do
  let b ← rd env w.sp
  if 0 < b.toNat ∧ b.toNat ≤ w.tmplen then do
    emit (.take w.tmplen b.toNat)
    pure (.again { sp := w.sp + b.toNat, tmplen := CInt.sub 16 w.tmplen b.toNat })
  else pure (.leave fail)

/-! ## Interface descriptors -/

/-- A round of the loop of `openusb_parse_interface_desc`. -/
def interfaceWalk (ifcidx alt : UInt8) (ifcdesc : UsbInterfaceDesc) (w : Walk) :
    Prog Ev (Round Walk (ℤ × UsbInterfaceDesc)) :=
  if w.tmplen > 3 then do
    let found ← isAlternate env ifcidx alt w.sp
    if found then do
      let r ← parseChecked env UsbInterfaceDesc.store fmtInterface sizeofInterfaceDesc USBI_INTERFACE_DESC_SIZE w.sp
        w.tmplen ifcdesc
      pure (.leave r)
    else walkStep env w (OPENUSB_PARSE_ERROR, ifcdesc)
  else pure (.leave (OPENUSB_PARSE_ERROR, ifcdesc))

/-- `openusb_parse_interface_desc`: the return code and the caller's struct. -/
def openusbParseInterfaceDesc (hdl : Bool) (raw : ℤ × RawDesc) (buffer : Option ℤ) (buflen : ℕ) (ifcidx alt : UInt8)
    (ifcdesc : UsbInterfaceDesc) : Prog Ev (ℤ × UsbInterfaceDesc) :=
  match walkBuffer hdl raw buffer buflen with
  | .error ret => pure (ret, ifcdesc)
  | .ok b => loop (interfaceWalk env ifcidx alt ifcdesc) { sp := b.buf, tmplen := b.len }

/-! ## Endpoint descriptors -/

/-- The locals of `usbi_nth_desc`. -/
structure Nth where
  sp : ℤ
  buflen : ℕ
  n : ℕ
  deriving DecidableEq, Repr

/-- A round of the loop of `usbi_nth_desc`. -/
def nthRound (buffer : ℤ) (type stop_type : UInt8) (w : Nth) : Prog Ev (Round Nth (Option ℤ)) :=
  if w.buflen ≥ 2 then do
    let t ← rd env (w.sp + 1)
    if w.sp ≠ buffer ∧ t = stop_type then pure (.leave none)
    else if t = type ∧ w.n = 0 then pure (.leave (some w.sp))
    else do
      let b ← rd env w.sp
      if b.toNat = 0 ∨ w.buflen < b.toNat then pure (.leave none)
      else do
        emit (.take w.buflen b.toNat)
        pure (.again
          { sp := w.sp + b.toNat, buflen := CInt.sub 16 w.buflen b.toNat, n := if t = type then w.n - 1 else w.n })
  else pure (.leave none)

/-- `usbi_nth_desc`: the address of the `n`-th descriptor of a type. -/
def usbiNthDesc (buffer : ℤ) (buflen : ℕ) (type n stop_type : UInt8) : Prog Ev (Option ℤ) :=
  loop (nthRound env buffer type stop_type) { sp := buffer, buflen := buflen, n := n.toNat }

/-- A round of the loop of `openusb_parse_endpoint_desc`; `ret` is what the local of that name holds before it. -/
def endpointWalk (ret : ℤ) (ifcidx alt eptidx : UInt8) (eptdesc : UsbEndpointDesc) (w : Walk) :
    Prog Ev (Round Walk (ℤ × UsbEndpointDesc)) :=
  if w.tmplen > 4 then do
    let found ← isAlternate env ifcidx alt w.sp
    if found then do
      let n ← rd env (w.sp + 4)
      if eptidx ≥ n then pure (.leave (OPENUSB_BADARG, eptdesc))
      else do
        let sp ← usbiNthDesc env w.sp w.tmplen USB_DESC_TYPE_ENDPOINT eptidx USB_DESC_TYPE_INTERFACE
        match sp with
        | none => pure (.leave (OPENUSB_PARSE_ERROR, eptdesc))
        | some sp => do
          emit (.take w.tmplen (sp - w.sp))
          let r ← parseChecked env UsbEndpointDesc.store fmtEndpoint sizeofEndpointDesc USBI_ENDPOINT_DESC_SIZE sp
            (CInt.sub 16 w.tmplen (sp - w.sp).toNat) eptdesc
          pure (.leave r)
    else walkStep env w (OPENUSB_PARSE_ERROR, eptdesc)
  else pure (.leave (ret, eptdesc))

/-- `openusb_parse_endpoint_desc`.  Its `ret` starts as a parse error and then holds the success of
`openusb_get_raw_desc` when no buffer was passed. -/
def openusbParseEndpointDesc (hdl : Bool) (raw : ℤ × RawDesc) (buffer : Option ℤ) (buflen : ℕ)
    (ifcidx alt eptidx : UInt8) (eptdesc : UsbEndpointDesc) : Prog Ev (ℤ × UsbEndpointDesc) :=
  match walkBuffer hdl raw buffer buflen with
  | .error ret => pure (ret, eptdesc)
  | .ok b => loop (endpointWalk env (if buffer.isNone then raw.1 else OPENUSB_PARSE_ERROR) ifcidx alt eptidx eptdesc)
      { sp := b.buf, tmplen := b.len }

end OpenUsb
