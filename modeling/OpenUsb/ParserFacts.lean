import OpenUsb.Parser

/-!
# ParserFacts — what the building blocks of the parser return and log

One lemma per building block, so that the proofs about the parser never unfold `openusbParseData`.  With at least as
many bytes left as the struct is long, `parseInto` gives the struct that the bytes at the cursor encode (`headerAt`,
`configAt`, `interfaceAt`, `endpointAt`).
-/

namespace OpenUsb

open Prog

/-! ## Structs read from memory -/

/-- The 16-bit little-endian value at `p`. -/
def le16At (mem : ℤ → UInt8) (p : ℤ) : UInt16 := .ofNat ((mem p).toNat + 256 * (mem (p + 1)).toNat)

def headerAt (mem : ℤ → UInt8) (p : ℤ) : UsbDescriptorHeader := ⟨mem p, mem (p + 1)⟩

theorem headerAt_bLength {mem : ℤ → UInt8} {p : ℤ} : (headerAt mem p).bLength = mem p := by rw [headerAt]

theorem headerAt_type {mem : ℤ → UInt8} {p : ℤ} : (headerAt mem p).bDescriptorType = mem (p + 1) := by rw [headerAt]

def configAt (mem : ℤ → UInt8) (p : ℤ) : UsbConfigDesc :=
  { bLength := mem p, bDescriptorType := mem (p + 1), wTotalLength := le16At mem (p + 2), bNumInterfaces := mem (p + 4),
    bConfigurationValue := mem (p + 5), iConfiguration := mem (p + 6), bmAttributes := mem (p + 7),
    bMaxPower := mem (p + 8) }

def interfaceAt (mem : ℤ → UInt8) (p : ℤ) : UsbInterfaceDesc :=
  { bLength := mem p, bDescriptorType := mem (p + 1), bInterfaceNumber := mem (p + 2), bAlternateSetting := mem (p + 3),
    bNumEndpoints := mem (p + 4), bInterfaceClass := mem (p + 5), bInterfaceSubClass := mem (p + 6),
    bInterfaceProtocol := mem (p + 7), iInterface := mem (p + 8) }

/-- The first seven bytes of an endpoint descriptor; the other fields are those of `d`. -/
def endpointOver (mem : ℤ → UInt8) (p : ℤ) (d : UsbEndpointDesc) : UsbEndpointDesc :=
  { d with bLength := mem p, bDescriptorType := mem (p + 1), bEndpointAddress := mem (p + 2), bmAttributes := mem (p + 3),
           wMaxPacketSize := le16At mem (p + 4), bInterval := mem (p + 6) }

/-- All nine bytes of an audio endpoint descriptor. -/
def endpointAudioAt (mem : ℤ → UInt8) (p : ℤ) : UsbEndpointDesc :=
  endpointOver mem p { bRefresh := mem (p + 7), bSynchAddress := mem (p + 8) }

/-- The number of interfaces that the parser goes by; a blob too short to hold it leaves that of `cfg`. -/
def numInterfaces (env : Env) (cfg : UsbiConfig) (L : ℕ) : ℕ :=
  (if 5 ≤ L then env.mem 4 else cfg.desc.bNumInterfaces).toNat

/-! ## Building blocks -/

section Blocks

variable {env : Env}

@[simp] theorem returns_rd {off : ℤ} {b : UInt8} : (rd env off).Returns b ↔ b = env.mem off := by
  simp [rd, eq_comm]

@[simp] theorem logs_rd {off : ℤ} {e : Ev} : (rd env off).Logs e ↔ e = .read off := by
  simp [rd]

@[simp] theorem returns_calloc {s : Site} {b : Bool} : (calloc env s).Returns b ↔ b = env.alloc s := by
  simp [calloc, eq_comm]

@[simp] theorem logs_calloc {s : Site} {e : Ev} : (calloc env s).Logs e ↔ e = .calloc s (env.alloc s) := by
  simp [calloc]

@[simp] theorem returns_copyBytes {off : ℤ} {len : ℕ} {l : List UInt8} :
    (copyBytes env off len).Returns l ↔ l = (span off len).map env.mem := by
  simp [copyBytes, eq_comm]

theorem logs_copyBytes {off : ℤ} {len : ℕ} {e : Ev} :
    (copyBytes env off len).Logs e ↔ ∃ q, off ≤ q ∧ q < off + len ∧ e = .read q := by
  simp only [copyBytes, logs_bind, logs_emitAll, List.mem_map, mem_span, logs_pure, and_false, exists_false, or_false]
  constructor
  · rintro ⟨q, ⟨h1, h2⟩, h⟩
    exact ⟨q, h1, h2, h.symm⟩
  · rintro ⟨q, h1, h2, h⟩
    exact ⟨q, ⟨h1, h2⟩, h.symm⟩

variable {D : Type} {store : D → DataStore → D} {fmt : List Char} {m : ℕ} {buf : ℤ} {n : ℕ} {d : D}

theorem returns_parseInto {x : D} : (parseInto env store fmt m buf n d).Returns x ↔
    x = (openusbParseData env.mem (some fmt) (some buf) (n % 2 ^ 32) (some 0) m true).stores.foldl store d := by
  simp [parseInto, eq_comm]

/-- `parseInto` always returns. -/
theorem halts_parseInto : (parseInto env store fmt m buf n d).Halts := ⟨_, returns_parseInto.mpr rfl⟩

/-- `parseInto` only reads, and only the `n` bytes at the cursor. -/
theorem logs_parseInto (hdot : '.' ∉ fmt) {e : Ev} (h : (parseInto env store fmt m buf n d).Logs e) :
    ∃ q, e = .read q ∧ buf ≤ q ∧ q < buf + n := by
  simp only [parseInto, logs_bind, logs_emitAll, List.mem_map, logs_pure, and_false, exists_false, or_false] at h
  obtain ⟨q, hq, rfl⟩ := h
  obtain ⟨h1, h2⟩ := openusbParseData_reads hdot hq
  exact ⟨q, rfl, h1, by have := Nat.mod_le n (2 ^ 32); omega⟩

/-- The header that `parseHeader` leaves: the bytes that are there, over what it held. -/
def headerParsed (mem : ℤ → UInt8) (p : ℤ) (n : ℕ) (hd : UsbDescriptorHeader) : UsbDescriptorHeader :=
  ⟨if 1 ≤ n then mem p else hd.bLength, if 2 ≤ n then mem (p + 1) else hd.bDescriptorType⟩

theorem headerParsed_of_le {mem : ℤ → UInt8} {p : ℤ} {n : ℕ} {hd : UsbDescriptorHeader} (h : 2 ≤ n) :
    headerParsed mem p n hd = headerAt mem p := by
  simp [headerParsed, headerAt, h, show 1 ≤ n by omega]

/-- `parseHeader` sees the length counter as a 32-bit value. -/
theorem returns_parseHeader_mod {hd x : UsbDescriptorHeader} :
    (parseHeader env buf n hd).Returns x ↔ x = headerParsed env.mem buf (n % 2 ^ 32) hd := by
  rw [parseHeader, returns_parseInto]
  generalize n % 2 ^ 32 = n
  by_cases h1 : 1 ≤ n
  · by_cases h2 : 2 ≤ n
    · simp [openusbParseData, parseChars, parseChar, parseField, fmtHeader, sizeofHeader, headerParsed,
        UsbDescriptorHeader.store, leValue, h1, h2, show ¬ n < 1 by omega, show ¬ n - 1 < 1 by omega]
    · obtain rfl : n = 1 := by omega
      simp [openusbParseData, parseChars, parseChar, parseField, fmtHeader, sizeofHeader, headerParsed,
        UsbDescriptorHeader.store, leValue]
  · obtain rfl : n = 0 := by omega
    simp [openusbParseData, parseChars, parseChar, parseField, fmtHeader, sizeofHeader, headerParsed]

theorem returns_parseHeader {hd x : UsbDescriptorHeader} (hn : n < 2 ^ 32) :
    (parseHeader env buf n hd).Returns x ↔ x = headerParsed env.mem buf n hd := by
  rw [returns_parseHeader_mod, Nat.mod_eq_of_lt hn]

theorem returns_parseInterface (hn : n < 2 ^ 32) (h : 9 ≤ n) {d x : UsbInterfaceDesc} :
    (parseInto env UsbInterfaceDesc.store fmtInterface sizeofInterfaceDesc buf n d).Returns x ↔
      x = interfaceAt env.mem buf := by
  rw [returns_parseInto, Nat.mod_eq_of_lt hn]
  obtain ⟨n, rfl⟩ := Nat.exists_eq_add_of_le' h
  simp [openusbParseData, parseChars, parseChar, parseField, fmtInterface, sizeofInterfaceDesc, interfaceAt,
    UsbInterfaceDesc.store, leValue, Int.add_assoc]

theorem returns_parseConfig (hn : n < 2 ^ 32) (h : 9 ≤ n) {d x : UsbConfigDesc} :
    (parseInto env UsbConfigDesc.store fmtConfig sizeofConfigDesc buf n d).Returns x ↔
      x = configAt env.mem buf := by
  rw [returns_parseInto, Nat.mod_eq_of_lt hn]
  obtain ⟨n, rfl⟩ := Nat.exists_eq_add_of_le' h
  simp [openusbParseData, parseChars, parseChar, parseField, fmtConfig, sizeofConfigDesc, configAt, le16At,
    UsbConfigDesc.store, leValue, Int.add_assoc, show ¬ n + 7 < 2 by omega]

/-- `bNumInterfaces` of a blob that may be shorter than a configuration descriptor. -/
theorem returns_parseConfig_num (hn : n < 2 ^ 32) {d x : UsbConfigDesc}
    (h : (parseInto env UsbConfigDesc.store fmtConfig sizeofConfigDesc buf n d).Returns x) :
    x.bNumInterfaces = if 5 ≤ n then env.mem (buf + 4) else d.bNumInterfaces := by
  by_cases h9 : 9 ≤ n
  · rw [(returns_parseConfig hn h9).mp h, if_pos (by omega)]
    rfl
  · rw [returns_parseInto, Nat.mod_eq_of_lt hn] at h
    subst h
    interval_cases n <;>
      simp [openusbParseData, parseChars, parseChar, parseField, fmtConfig, sizeofConfigDesc, UsbConfigDesc.store,
        leValue, Int.add_assoc]

theorem returns_parseEndpoint (hn : n < 2 ^ 32) (h : 7 ≤ n) {d x : UsbEndpointDesc} :
    (parseInto env UsbEndpointDesc.store fmtEndpoint sizeofEndpointDesc buf n d).Returns x ↔
      x = endpointOver env.mem buf d := by
  rw [returns_parseInto, Nat.mod_eq_of_lt hn]
  obtain ⟨n, rfl⟩ := Nat.exists_eq_add_of_le' h
  simp [openusbParseData, parseChars, parseChar, parseField, fmtEndpoint, sizeofEndpointDesc, endpointOver, le16At,
    UsbEndpointDesc.store, leValue, Int.add_assoc, show ¬ n + 3 < 2 by omega]

theorem returns_parseEndpointAudio (hn : n < 2 ^ 32) (h : 9 ≤ n) {d x : UsbEndpointDesc} :
    (parseInto env UsbEndpointDesc.store fmtEndpointAudio sizeofEndpointDesc buf n d).Returns x ↔
      x = endpointAudioAt env.mem buf := by
  rw [returns_parseInto, Nat.mod_eq_of_lt hn]
  obtain ⟨n, rfl⟩ := Nat.exists_eq_add_of_le' h
  simp [openusbParseData, parseChars, parseChar, parseField, fmtEndpointAudio, sizeofEndpointDesc, endpointAudioAt,
    endpointOver, le16At, UsbEndpointDesc.store, leValue, Int.add_assoc, show ¬ n + 5 < 2 by omega]

/-! The building blocks only read, apart from the outcome of an allocation. -/

section Emits

variable {P : Ev → Prop} (hread : ∀ q, P (.read q))

@[simp] theorem emits_rd {off : ℤ} : Emits P (rd env off) ↔ P (.read off) := by
  simp only [rd, emits_emit_bind, emits_pure, and_true]

@[simp] theorem emits_calloc {s : Site} : Emits P (calloc env s) ↔ P (.calloc s (env.alloc s)) := by
  simp only [calloc, emits_emit_bind, emits_pure, and_true]

theorem ends_calloc_bind {β : Type} {R : β → Prop → Prop} {s : Site} {f : Bool → Prog Ev β}
    (hf : Ends P (fun b y => R b (P (.calloc s (env.alloc s)) ∧ y)) (f (env.alloc s))) :
    Ends P R (calloc env s >>= f) := by
  refine Ends.bind (Q := fun b x => b = env.alloc s ∧ x = P (.calloc s (env.alloc s)))
    ⟨_, returns_calloc.mpr rfl, rfl, propext emits_calloc⟩ ?_
  rintro b x ⟨rfl, rfl⟩
  exact hf

include hread

theorem emits_copyBytes {off : ℤ} {len : ℕ} : Emits P (copyBytes env off len) := by
  intro e he
  obtain ⟨q, -, -, rfl⟩ := logs_copyBytes.mp he
  exact hread q

theorem emits_parseInto : Emits P (parseInto env store fmt m buf n d) := by
  intro e he
  simp only [parseInto, logs_bind, logs_emitAll, List.mem_map, logs_pure, and_false, exists_false, or_false] at he
  obtain ⟨q, -, rfl⟩ := he
  exact hread q

theorem emits_parseHeader {hd : UsbDescriptorHeader} : Emits P (parseHeader env buf n hd) := emits_parseInto hread

end Emits

end Blocks

/-! ## Rounds of the skip loops -/

/-- What a round of a skip loop does with the bytes at the cursor.  `w` is the width of its length counter, and `checked`
says whether it compares `bLength` with that counter. -/
def skipNext (mem : ℤ → UInt8) (w : ℕ) (checked : Bool) (c : Skip) : Round Skip (Option Skip) :=
  if c.buflen < 2 then .leave (some c)
  else if (mem c.buf).toNat < 2 ∨ checked = true ∧ c.buflen < (mem c.buf).toNat then .leave none
  else if ProperType (mem (c.buf + 1)) then .leave (some { c with header := headerAt mem c.buf })
  else .again
    { buf := c.buf + (mem c.buf).toNat, buflen := CInt.sub w c.buflen (mem c.buf).toNat,
      parsed := c.parsed + (mem c.buf).toNat, header := headerAt mem c.buf,
      extra_len := c.extra_len + (mem c.buf).toNat }

section Skip

variable {env : Env} {lp : Scan} {c : Skip}

theorem returns_skipRound (hn : c.buflen < 2 ^ 32) {r : Round Skip (Option Skip)} :
    (skipRound env lp c).Returns r ↔ r = skipNext env.mem 32 false c := by
  unfold skipRound skipNext
  by_cases h2 : c.buflen < 2
  · simp [USBI_DESC_HEADER_SIZE, h2, eq_comm]
  · simp only [USBI_DESC_HEADER_SIZE, h2, if_false, returns_bind, returns_emit, true_and, exists_const,
      returns_parseHeader hn, exists_eq_left, headerParsed_of_le (show 2 ≤ c.buflen by omega)]
    simp only [headerAt_bLength, headerAt_type, Bool.false_eq_true, false_and, or_false]
    split_ifs <;> simp [eq_comm]

theorem emits_skipRound {P : Ev → Prop} (hread : ∀ q, P (.read q)) (hn : c.buflen < 2 ^ 32) :
    Emits P (skipRound env lp c) ↔ (2 ≤ c.buflen → P (.scan lp c.buf c.buf c.buflen) ∧
      ∀ c', skipNext env.mem 32 false c = .again c' →
        P (.take c.buflen (env.mem c.buf).toNat) ∧ P (.stay lp c.buflen c'.buflen)) := by
  unfold skipRound skipNext
  by_cases h2 : c.buflen < 2
  · simp [USBI_DESC_HEADER_SIZE, h2]
  · have hhd : (parseHeader env c.buf c.buflen c.header).Returns (headerAt env.mem c.buf) := by
      rw [returns_parseHeader hn, headerParsed_of_le (show 2 ≤ c.buflen by omega)]
    simp only [USBI_DESC_HEADER_SIZE, h2, if_false, emits_emit_bind, hhd.emits_bind_iff, emits_parseHeader hread,
      true_and, headerAt_bLength, headerAt_type, Nat.le_of_not_lt h2, forall_const]
    refine and_congr_right fun _ => ?_
    by_cases h3 : (env.mem c.buf).toNat < 2
    · simp [h3]
    by_cases h4 : ProperType (env.mem (c.buf + 1))
    · simp [h3, h4]
    · simp [h3, h4, emits_emit_bind]

theorem emits_cfgSkipRound {P : Ev → Prop} (hread : ∀ q, P (.read q)) (hn : 2 ≤ c.buflen → 2 ≤ c.buflen % 2 ^ 32) :
    Emits P (cfgSkipRound env c) ↔ (2 ≤ c.buflen → P (.scan .cfgExtra c.buf c.buf c.buflen) ∧
      ∀ c', skipNext env.mem 64 true c = .again c' →
        P (.take c.buflen (env.mem c.buf).toNat) ∧ P (.stay .cfgExtra c.buflen c'.buflen)) := by
  unfold cfgSkipRound skipNext
  by_cases h2 : c.buflen < 2
  · simp [USBI_DESC_HEADER_SIZE, h2]
  · have hhd : (parseHeader env c.buf c.buflen c.header).Returns (headerAt env.mem c.buf) := by
      rw [returns_parseHeader_mod, headerParsed_of_le (hn (by omega))]
    simp only [USBI_DESC_HEADER_SIZE, h2, if_false, emits_emit_bind, hhd.emits_bind_iff, emits_parseHeader hread,
      true_and, headerAt_bLength, headerAt_type, Nat.le_of_not_lt h2, forall_const]
    refine and_congr_right fun _ => ?_
    by_cases h3 : (env.mem c.buf).toNat < 2
    · simp [h3]
    by_cases hle : c.buflen < (env.mem c.buf).toNat
    · simp [hle]
    by_cases h4 : ProperType (env.mem (c.buf + 1))
    · simp [h3, hle, h4]
    · simp [h3, hle, h4, emits_emit_bind]

theorem returns_cfgSkipRound (hn : 2 ≤ c.buflen → 2 ≤ c.buflen % 2 ^ 32) {r : Round Skip (Option Skip)} :
    (cfgSkipRound env c).Returns r ↔ r = skipNext env.mem 64 true c := by
  unfold cfgSkipRound skipNext
  by_cases h2 : c.buflen < 2
  · simp [USBI_DESC_HEADER_SIZE, h2, eq_comm]
  · simp only [USBI_DESC_HEADER_SIZE, h2, if_false, returns_bind, returns_emit, true_and, exists_const,
      returns_parseHeader_mod, exists_eq_left, headerParsed_of_le (hn (Nat.le_of_not_lt h2))]
    simp only [headerAt_bLength, headerAt_type, gt_iff_lt, or_comm]
    split_ifs <;> simp [eq_comm]

end Skip

/-! ## Rounds of the counting loop -/

/-- The state after a round of the counting loop. -/
def countNext (mem : ℤ → UInt8) (buf : ℤ) (fno : UInt8) (c : AltCount) : AltCount :=
  { len := c.len + CInt.schar (mem (buf + c.len))
    altno := if mem (buf + (c.len + CInt.schar (mem (buf + c.len))) + 1) = USB_DESC_TYPE_INTERFACE ∧
        mem (buf + (c.len + CInt.schar (mem (buf + c.len))) + 2) = fno then c.altno + 1 else c.altno }

section Count

variable {env : Env} {buf : ℤ} {buflen : ℕ} {fno : UInt8} {c : AltCount}

theorem returns_altCountRound {r : Round AltCount ℕ} : (altCountRound env buf buflen fno c).Returns r ↔
    r = if CInt.toU32 c.len < buflen then .again (countNext env.mem buf fno c) else .leave c.altno := by
  unfold altCountRound countNext
  by_cases hlt : CInt.toU32 c.len < buflen
  · simp only [hlt, if_true, returns_bind, returns_emit, true_and, exists_const, returns_rd, exists_eq_left]
    by_cases ht : env.mem (buf + (c.len + CInt.schar (env.mem (buf + c.len))) + 1) = USB_DESC_TYPE_INTERFACE
    · by_cases hs : CInt.toU32 (c.len + CInt.schar (env.mem (buf + c.len))) < buflen <;> simp [ht, hs, eq_comm]
    · by_cases hs : CInt.toU32 (c.len + CInt.schar (env.mem (buf + c.len))) < buflen <;> simp [ht, hs, eq_comm]
  · simp [hlt, eq_comm]

theorem logs_altCountRound {e : Ev} : (altCountRound env buf buflen fno c).Logs e ↔
    CInt.toU32 c.len < buflen ∧
      (e = .scan .count buf (buf + c.len) (buflen - CInt.toU32 c.len) ∨ e = .read (buf + c.len) ∨
        e = .take c.len (-CInt.schar (env.mem (buf + c.len))) ∨
        e = .read (buf + (countNext env.mem buf fno c).len + 1) ∨
        (env.mem (buf + (countNext env.mem buf fno c).len + 1) = USB_DESC_TYPE_INTERFACE ∧
          e = .read (buf + (countNext env.mem buf fno c).len + 2)) ∨
        (CInt.toU32 (countNext env.mem buf fno c).len < buflen ∧
          e = .stay .count (buflen - CInt.toU32 c.len) (buflen - CInt.toU32 (countNext env.mem buf fno c).len))) := by
  unfold altCountRound
  by_cases hlt : CInt.toU32 c.len < buflen
  · have hlen : (countNext env.mem buf fno c).len = c.len + CInt.schar (env.mem (buf + c.len)) := rfl
    simp only [hlt, if_true, logs_bind, returns_rd, logs_rd, exists_eq_left, hlen, true_and]
    by_cases ht : env.mem (buf + (c.len + CInt.schar (env.mem (buf + c.len))) + 1) = USB_DESC_TYPE_INTERFACE
    · by_cases hs : CInt.toU32 (c.len + CInt.schar (env.mem (buf + c.len))) < buflen <;> simp [ht, hs]
    · by_cases hs : CInt.toU32 (c.len + CInt.schar (env.mem (buf + c.len))) < buflen <;> simp [ht, hs]
  · simp [hlt]

/-- The counting pass only reads, scans and steps. -/
theorem emits_intf_altno {P : Ev → Prop} (hread : ∀ off, P (.read off)) (htake : ∀ before amount, P (.take before amount))
    (hscan : ∀ base off left, P (.scan .count base off left)) (hstay : ∀ before after, P (.stay .count before after)) :
    Emits P (usbiGetIntfAltno env buf buflen) := by
  rw [usbiGetIntfAltno, (returns_rd.mpr rfl).emits_bind_iff]
  refine ⟨fun e he => by rw [logs_rd.mp he]; exact hread _, ?_⟩
  refine Emits.loop_inv (P := fun _ => True) (I := fun _ => True) (fun c _ _ e he => ?_) (fun _ _ _ _ _ => trivial)
    trivial fun _ _ => trivial
  obtain ⟨-, rfl | rfl | rfl | rfl | ⟨-, rfl⟩ | ⟨-, rfl⟩⟩ := logs_altCountRound.mp he
  · exact hscan _ _ _
  · exact hread _
  · exact htake _ _
  · exact hread _
  · exact hread _
  · exact hstay _ _

end Count

end OpenUsb
