import OpenUsb.Lib.EventProg
import OpenUsb.ParseData

/-!
# Parser — the configuration parser of `descriptors.c`

`usbiParseConfiguration env cfg buf buflen` is `usbi_parse_configuration`, over the memory `env.mem` that the cursor
walks.  `env.alloc` says which allocations succeed and `env.junk` what an uninitialised `header` holds.  Besides its
result a run logs what the code does on the way (`Ev`): the bytes it reads, every decrement of a remaining-length
counter, the rounds of its scanning loops, its allocations, and the altsetting entries it touches.

The counters of `usbi_parse_configuration` are `size_t` (64 bits) and those of its callees `unsigned int`.
-/

namespace OpenUsb

open Prog

/-! ## Events and environment -/

/-- The allocations of one configuration, named by the entry whose pointer they set. -/
inductive Site where
  | interfaces
  | cfgExtra
  | altsettings (i : ℕ)
  | altExtra (i j : ℕ)
  | endpoints (i j : ℕ)
  | epExtra (i j k : ℕ)
  deriving DecidableEq, Repr

/-- The scanning loops. -/
inductive Scan where
  | cfgExtra
  | alts
  | altExtra
  | epExtra
  | count
  deriving DecidableEq, Repr

inductive Ev where
  /-- The byte at `off` is read or copied. -/
  | read (off : ℤ)
  /-- `amount` is subtracted from a length counter that holds `before`. -/
  | take (before amount : ℤ)
  /-- A round of a scanning loop starts at `off` with `left` bytes left; the scan itself started at `base`. -/
  | scan (lp : Scan) (base off : ℤ) (left : ℕ)
  /-- A round that started with `before` bytes left stays in the loop with `after`. -/
  | stay (lp : Scan) (before after : ℕ)
  /-- An allocation, and whether it succeeded. -/
  | calloc (s : Site) (ok : Bool)
  /-- Entry `idx` of an altsettings table of `cap` entries is accessed. -/
  | entry (idx cap : ℕ)
  /-- `bNumEndpoints` is checked against the limit. -/
  | numEndpoints (n : ℕ)
  /-- A round of the endpoint loop starts at `off` with `left` bytes left. -/
  | endpoint (off : ℤ) (left : ℕ)
  deriving DecidableEq, Repr

/-- What a run depends on besides its arguments. -/
structure Env where
  mem : ℤ → UInt8
  alloc : Site → Bool
  junk : ℤ → UsbDescriptorHeader

variable (env : Env)

/-- Read one byte. -/
def rd (off : ℤ) : Prog Ev UInt8 := do
  emit (.read off)
  pure (env.mem off)

/-- `memcpy` of the `len` bytes at `off`. -/
def copyBytes (off : ℤ) (len : ℕ) : Prog Ev (List UInt8) := do
  emitAll ((span off len).map .read)
  pure ((span off len).map env.mem)

/-- `openusb_parse_data` into the struct `d`. -/
def parseInto {D : Type} (store : D → DataStore → D) (fmt : List Char) (destlen : ℕ) (buf : ℤ) (buflen : ℕ) (d : D) :
    Prog Ev D := do
  let out := openusbParseData env.mem (some fmt) (some buf) (buflen % 2 ^ 32) (some 0) destlen true
  emitAll (out.reads.map .read)
  pure (out.stores.foldl store d)

def fmtHeader : List Char := ['b', 'b']
def fmtConfig : List Char := ['b', 'b', 'w', 'b', 'b', 'b', 'b', 'b']
def fmtInterface : List Char := ['b', 'b', 'b', 'b', 'b', 'b', 'b', 'b', 'b']
def fmtEndpoint : List Char := ['b', 'b', 'b', 'b', 'w', 'b']
def fmtEndpointAudio : List Char := ['b', 'b', 'b', 'b', 'w', 'b', 'b', 'b']

/-- `openusb_parse_data("bb", ..., &header, ...)`. -/
def parseHeader (buf : ℤ) (buflen : ℕ) (header : UsbDescriptorHeader) : Prog Ev UsbDescriptorHeader :=
  parseInto env UsbDescriptorHeader.store fmtHeader sizeofHeader buf buflen header

/-- Log the outcome of an allocation. -/
def calloc (s : Site) : Prog Ev Bool := do
  emit (.calloc s (env.alloc s))
  pure (env.alloc s)

/-! ## Skipping class and vendor descriptors -/

/-- The types at which the skip loops stop. -/
def ProperType (t : UInt8) : Prop :=
  t = USB_DESC_TYPE_ENDPOINT ∨ t = USB_DESC_TYPE_INTERFACE ∨ t = USB_DESC_TYPE_CONFIG ∨ t = USB_DESC_TYPE_DEVICE

instance : DecidablePred ProperType := fun _ => inferInstanceAs (Decidable (_ ∨ _))

/-- The locals of a skip loop. -/
structure Skip where
  buf : ℤ
  buflen : ℕ
  parsed : ℕ
  header : UsbDescriptorHeader
  extra_len : ℕ := 0
  deriving DecidableEq, Repr

/-- A round of the skip loop of `usbi_parse_endpoint` and `usbi_parse_interface`; it leaves with `none` where the
function returns -1. -/
def skipRound (lp : Scan) (c : Skip) : Prog Ev (Round Skip (Option Skip)) :=
  if c.buflen < USBI_DESC_HEADER_SIZE then pure (.leave (some c))
  else do
    emit (.scan lp c.buf c.buf c.buflen)
    let header ← parseHeader env c.buf c.buflen c.header
    let h := header.bLength.toNat
    if h < USBI_DESC_HEADER_SIZE then pure (.leave none)
    else if ProperType header.bDescriptorType then pure (.leave (some { c with header := header }))
    else do
      emit (.take c.buflen h)
      emit (.stay lp c.buflen (CInt.sub 32 c.buflen h))
      pure (.again
        { buf := c.buf + h, buflen := CInt.sub 32 c.buflen h, parsed := c.parsed + h, header := header,
          extra_len := c.extra_len + h })

/-- A round of the skip loop of `usbi_parse_configuration`, which also checks `bLength` against what is left, and does
so before it looks at the type. -/
def cfgSkipRound (c : Skip) : Prog Ev (Round Skip (Option Skip)) :=
  if c.buflen < USBI_DESC_HEADER_SIZE then pure (.leave (some c))
  else do
    emit (.scan .cfgExtra c.buf c.buf c.buflen)
    let header ← parseHeader env c.buf c.buflen c.header
    let h := header.bLength.toNat
    if h > c.buflen ∨ h < USBI_DESC_HEADER_SIZE then pure (.leave none)
    else if ProperType header.bDescriptorType then pure (.leave (some { c with header := header }))
    else do
      emit (.take c.buflen h)
      emit (.stay .cfgExtra c.buflen (CInt.sub 64 c.buflen h))
      pure (.again
        { buf := c.buf + h, buflen := CInt.sub 64 c.buflen h, parsed := c.parsed + h, header := header,
          extra_len := c.extra_len + h })

/-! ## Endpoints -/

/-- `usbi_parse_endpoint`, for the endpoint entry `k` of altsetting `j` of interface `i`. -/
def usbiParseEndpoint (i j k : ℕ) (ep : UsbiEndpoint) (buf : ℤ) (buflen : ℕ) : Prog Ev (ℤ × UsbiEndpoint) :=
  if buflen = 0 then pure (OPENUSB_PARSE_ERROR, ep)
  else do
    let header ← parseHeader env buf buflen (env.junk buf)
    let h := header.bLength.toNat
    if h > buflen then pure (-1, ep)
    else if header.bDescriptorType ≠ USB_DESC_TYPE_ENDPOINT then pure (0, ep)
    else if h < USBI_ENDPOINT_DESC_SIZE then pure (0, ep)
    else do
      let desc ← parseInto env UsbEndpointDesc.store
        (if h ≥ USBI_ENDPOINT_AUDIO_DESC_SIZE then fmtEndpointAudio else fmtEndpoint) sizeofEndpointDesc buf buflen ep.desc
      let ep := { ep with desc := desc }
      emit (.take buflen h)
      let skip ← loop (skipRound env .epExtra)
        { buf := buf + h, buflen := CInt.sub 32 buflen h, parsed := h, header := header }
      match skip with
      | none => pure (-1, ep)
      | some c =>
        if c.extra_len = 0 then pure (CInt.toI32 c.parsed, ep)
        else do
          let ok ← calloc env (.epExtra i j k)
          if ok then do
            let extra ← copyBytes env (buf + h) c.extra_len
            pure (CInt.toI32 c.parsed,
              { ep with extra := .live c.extra_len extra, extralen := .ofNat c.extra_len })
          else pure (-1, ep)

/-- The locals of the endpoint loop of `usbi_parse_interface`. -/
structure EpState where
  buf : ℤ
  buflen : ℕ
  parsed : ℕ
  header : UsbDescriptorHeader
  eps : List UsbiEndpoint := []
  deriving DecidableEq, Repr

/-- The endpoint loop, with `n` rounds to go.  The first component is the value with which the function gives up, if it
does. -/
def parseEndpoints (i j : ℕ) : ℕ → EpState → Prog Ev (Option ℤ × EpState)
  | 0, s => pure (none, s)
  | n + 1, s => do
    emit (.endpoint s.buf s.buflen)
    let header ← parseHeader env s.buf s.buflen s.header
    if header.bLength.toNat > s.buflen then pure (some (-1), { s with header := header })
    else do
      let (r, ep) ← usbiParseEndpoint env i j s.eps.length {} s.buf s.buflen
      if r < 0 then pure (some r, { s with header := header, eps := s.eps ++ [ep] })
      else do
        emit (.take s.buflen r)
        parseEndpoints i j n
          { buf := s.buf + r, buflen := CInt.sub 32 s.buflen r.toNat, parsed := s.parsed + r.toNat, header := header,
            eps := s.eps ++ [ep] }

/-! ## Interfaces -/

/-- The locals of `usbi_get_intf_altno`; its cursor is `p = buf + len`. -/
structure AltCount where
  len : ℤ
  altno : ℕ
  deriving DecidableEq, Repr

/-- A round of the counting loop.  `len` is an `int` and is compared as an `unsigned int`; `hlen` is a plain char. -/
def altCountRound (buf : ℤ) (buflen : ℕ) (fno : UInt8) (c : AltCount) : Prog Ev (Round AltCount ℕ) :=
  if CInt.toU32 c.len < buflen then do
    emit (.scan .count buf (buf + c.len) (buflen - CInt.toU32 c.len))
    let b ← rd env (buf + c.len)
    let len := c.len + CInt.schar b
    emit (.take c.len (-CInt.schar b))
    let t ← rd env (buf + len + 1)
    let same ← if t = USB_DESC_TYPE_INTERFACE then do
        let n ← rd env (buf + len + 2)
        pure (decide (n = fno))
      else pure false
    if CInt.toU32 len < buflen then emit (.stay .count (buflen - CInt.toU32 c.len) (buflen - CInt.toU32 len))
    pure (.again { len := len, altno := if same then c.altno + 1 else c.altno })
  else pure (.leave c.altno)

/-- `usbi_get_intf_altno`. -/
def usbiGetIntfAltno (buf : ℤ) (buflen : ℕ) : Prog Ev ℕ := do
  let fno ← rd env (buf + 2)
  loop (altCountRound env buf buflen fno) { len := 0, altno := 1 }

/-- An interface with the altsettings written so far in a live table of `cap` entries. -/
def liveIntf (cap : ℕ) (alts : List UsbiAltsetting) : UsbiInterface :=
  { num_altsettings := alts.length, altsettings := .live cap alts }

/-- The same after `free(intf->altsettings)`. -/
def freedIntf (alts : List UsbiAltsetting) : UsbiInterface :=
  { num_altsettings := alts.length, altsettings := .freed alts }

/-- The locals of the altsetting loop, with the entries written so far. -/
structure AltState where
  buf : ℤ
  buflen : ℕ
  parsed : ℕ
  header : UsbDescriptorHeader
  alts : List UsbiAltsetting := []
  deriving DecidableEq, Repr

/-- The end of a round of the altsetting loop: is there another alternate of this interface? -/
def altNext (cap : ℕ) (alts : List UsbiAltsetting) (s : EpState) : Prog Ev (Round AltState (ℤ × UsbiInterface)) :=
  let next (header : UsbDescriptorHeader) : Round AltState (ℤ × UsbiInterface) :=
    .again { buf := s.buf, buflen := s.buflen, parsed := s.parsed, header := header, alts := alts }
  if s.buflen = 0 then pure (next s.header)
  else do
    let header ← parseHeader env s.buf s.buflen s.header
    let alt_num ← rd env (s.buf + 3)
    if s.buflen < USBI_INTERFACE_DESC_SIZE ∨ header.bDescriptorType ≠ USB_DESC_TYPE_INTERFACE ∨ alt_num = 0 then
      pure (.leave (CInt.toI32 s.parsed, liveIntf cap alts))
    else pure (next header)

/-- The endpoints of the altsetting `as` that follows `alts`.  When it gives up it reads `endpoints` of the entry after
the last one, over and over, before it frees the altsettings. -/
def altEndpoints (i cap : ℕ) (alts : List UsbiAltsetting) (as : UsbiAltsetting) (c : Skip) :
    Prog Ev (Round AltState (ℤ × UsbiInterface)) := do
  let num := alts.length + 1
  let header ← parseHeader env c.buf c.buflen c.header
  if c.buflen ≥ USBI_DESC_HEADER_SIZE ∧
      (header.bDescriptorType = USB_DESC_TYPE_CONFIG ∨ header.bDescriptorType = USB_DESC_TYPE_DEVICE) then
    pure (.leave (CInt.toI32 c.parsed, liveIntf cap (alts ++ [as])))
  else do
    let n := as.desc.bNumEndpoints.toNat
    emit (.numEndpoints n)
    if n > USBI_MAXENDPOINTS then pure (.leave (-1, freedIntf (alts ++ [as])))
    else do
      let ok ← calloc env (.endpoints i alts.length)
      if !ok then do
        emitAll (List.replicate num (.entry num cap))
        pure (.leave (-1, freedIntf (alts ++ [as])))
      else do
        let (r, s) ← parseEndpoints env i alts.length n
          { buf := c.buf, buflen := c.buflen, parsed := c.parsed, header := header }
        let as := { as with num_endpoints := n, endpoints := .live n s.eps }
        match r with
        | some r => do
          emitAll (List.replicate (num + 1) (.entry num cap))
          pure (.leave (r, freedIntf (alts ++ [as])))
        | none => altNext env cap (alts ++ [as]) s

/-- The extra bytes of the altsetting `as`, found from `extra` on. -/
def altExtra (i cap : ℕ) (alts : List UsbiAltsetting) (as : UsbiAltsetting) (extra : ℤ) (c : Skip) :
    Prog Ev (Round AltState (ℤ × UsbiInterface)) :=
  if c.extra_len = 0 then altEndpoints env i cap alts as c
  else do
    let ok ← calloc env (.altExtra i alts.length)
    if ok then do
      let bytes ← copyBytes env extra c.extra_len
      altEndpoints env i cap alts { as with extra := .live c.extra_len bytes, extralen := c.extra_len } c
    else pure (.leave (-1, liveIntf cap (alts ++ [as])))

/-- A round of the altsetting loop of `usbi_parse_interface`. -/
def altRound (i cap : ℕ) (s : AltState) : Prog Ev (Round AltState (ℤ × UsbiInterface)) :=
  if s.buflen < USBI_INTERFACE_DESC_SIZE then pure (.leave (CInt.toI32 s.parsed, liveIntf cap s.alts))
  else do
    emit (.scan .alts s.buf s.buf s.buflen)
    let header ← parseHeader env s.buf s.buflen s.header
    let h := header.bLength.toNat
    emit (.entry s.alts.length cap)
    let desc ← parseInto env UsbInterfaceDesc.store fmtInterface sizeofInterfaceDesc s.buf s.buflen {}
    emit (.take s.buflen h)
    let skip ← loop (skipRound env .altExtra)
      { buf := s.buf + h, buflen := CInt.sub 32 s.buflen h, parsed := s.parsed + h, header := header }
    match skip with
    | none => pure (.leave (-1, freedIntf (s.alts ++ [{ desc := desc }])))
    | some c => do
      let r ← altExtra env i cap s.alts { desc := desc } (s.buf + h) c
      match r with
      | .again s' => do
        emit (.stay .alts s.buflen s'.buflen)
        pure (.again s')
      | .leave a => pure (.leave a)

/-- `usbi_parse_interface`, for entry `i` of the interfaces table. -/
def usbiParseInterface (i : ℕ) (intf : UsbiInterface) (buf : ℤ) (buflen : ℕ) : Prog Ev (ℤ × UsbiInterface) :=
  if buflen = 0 then pure (OPENUSB_PARSE_ERROR, intf)
  else do
    let t ← rd env (buf + 1)
    if t ≠ USB_DESC_TYPE_INTERFACE then pure (CInt.toI32 buflen, intf)
    else do
      let altno ← usbiGetIntfAltno env buf buflen
      let alt_num := altno % 2 ^ 8
      let ok ← calloc env (.altsettings i)
      if !ok then pure (-1, { num_altsettings := 0, altsettings := .absent })
      else loop (altRound env i alt_num) { buf := buf, buflen := buflen, parsed := 0, header := env.junk buf }

/-! ## Configurations -/

/-- The locals of the interface loop, with the interfaces parsed so far. -/
structure IntfState where
  buf : ℤ
  buflen : ℕ
  intfs : List UsbiInterface := []
  deriving DecidableEq, Repr

/-- The interface loop, with `n` rounds to go.  The first component is the value with which the function gives up, if
it does. -/
def parseInterfaces : ℕ → IntfState → Prog Ev (Option ℤ × IntfState)
  | 0, s => pure (none, s)
  | n + 1, s =>
    if s.buflen = 0 then pure (none, s)
    else do
      let (r, intf) ← usbiParseInterface env s.intfs.length {} s.buf (s.buflen % 2 ^ 32)
      if r < 0 then pure (some r, { s with intfs := s.intfs ++ [intf] })
      else do
        emit (.take s.buflen r)
        parseInterfaces n { buf := s.buf + r, buflen := CInt.sub 64 s.buflen r.toNat, intfs := s.intfs ++ [intf] }

/-- The interfaces of the configuration `cfg`, whose table has just been allocated. -/
def cfgInterfaces (cfg : UsbiConfig) (buf : ℤ) (buflen : ℕ) : Prog Ev (ℤ × UsbiConfig) := do
  let (r, s) ← parseInterfaces env cfg.num_interfaces { buf := buf, buflen := buflen }
  match r with
  | some r => pure (r, { cfg with interfaces := .freed s.intfs })
  | none => pure (CInt.toI32 s.buflen, { cfg with interfaces := .live cfg.num_interfaces s.intfs })

/-- `usbi_parse_configuration`. -/
def usbiParseConfiguration (cfg : UsbiConfig) (buf : ℤ) (buflen : ℕ) : Prog Ev (ℤ × UsbiConfig) :=
  if buflen = 0 then pure (OPENUSB_PARSE_ERROR, cfg)
  else do
    let header ← parseHeader env buf buflen (env.junk buf)
    let desc ← parseInto env UsbConfigDesc.store fmtConfig sizeofConfigDesc buf buflen cfg.desc
    let cfg := { cfg with desc := desc }
    let n := desc.bNumInterfaces.toNat
    if n > USBI_MAXINTERFACES then pure (-1, cfg)
    else do
      let ok ← calloc env .interfaces
      if !ok then pure (-1, { cfg with interfaces := .absent })
      else do
        let cfg := { cfg with num_interfaces := n, interfaces := .live n [] }
        let h := header.bLength.toNat
        emit (.take buflen h)
        let skip ← loop (cfgSkipRound env)
          { buf := buf + h, buflen := CInt.sub 64 buflen h, parsed := h, header := header }
        match skip with
        | none => pure (-1, { cfg with interfaces := .freed [] })
        | some c =>
          if c.extra_len = 0 then cfgInterfaces env { cfg with extra := .absent } c.buf c.buflen
          else do
            let ok ← calloc env .cfgExtra
            if ok then do
              let extra ← copyBytes env (buf + h) c.extra_len
              cfgInterfaces env { cfg with extra := .live c.extra_len extra, extralen := c.extra_len } c.buf c.buflen
            else pure (OPENUSB_PARSE_ERROR, { cfg with extra := .absent })

end OpenUsb
