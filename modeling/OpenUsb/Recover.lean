import OpenUsb.Grammar
import OpenUsb.ParserFacts

/-!
# Recover — the parser recovers well-formed configurations

Level by level, each parsing function stops exactly where its level ends and returns the entry of `WfConfig.tree` that it
was given.  What follows is a list of descriptors whose first one has a proper type (`HeadProper`), or nothing.
-/

namespace OpenUsb

open Prog

/-! ## Descriptors in memory -/

/-- The first descriptor, if there is one, stops the skip loops. -/
def HeadProper : List Desc → Prop
  | [] => True
  | d :: _ => ProperType d.type

section Memory

variable {mem : ℤ → UInt8} {p : ℤ} {d : Desc} {ds : List Desc}

theorem Holds.desc (h : Holds mem p (flat (d :: ds))) {k : ℕ} (hk : k < d.size) : mem (p + k) = d.byte k :=
  (holds_append.mp h).1.byte hk

theorem Holds.desc_zero (h : Holds mem p (flat (d :: ds))) : mem p = d.byte 0 := by
  have := h.desc (k := 0) (Nat.lt_of_lt_of_le (by decide) d.two_le)
  simpa using this

theorem Holds.desc_one (h : Holds mem p (flat (d :: ds))) : mem (p + 1) = d.type := by
  have := h.desc (k := 1) (Nat.lt_of_lt_of_le (by decide) d.two_le)
  simpa [Desc.type] using this

theorem Holds.desc_size (h : Holds mem p (flat (d :: ds))) : (mem p).toNat = d.size := by
  rw [h.desc_zero, d.byte_zero]

theorem Holds.tail (h : Holds mem p (flat (d :: ds))) : Holds mem (p + d.size) (flat ds) := (holds_append.mp h).2

theorem length_flat_cons (d : Desc) (ds : List Desc) : (flat (d :: ds)).length = d.size + (flat ds).length := by
  rw [flat_cons, List.length_append, Desc.size]

theorem Desc.two_le_size (d : Desc) : 2 ≤ d.size := d.two_le

theorem Desc.size_le (d : Desc) : d.size ≤ 127 := d.length_le

end Memory

/-! ## Skipping extras -/

/-- A skip loop runs over the extras and stops at the next proper descriptor. -/
theorem skip_extras {mem : ℤ → UInt8} {w : ℕ} {checked : Bool} (body : Skip → Prog Ev (Round Skip (Option Skip)))
    (hw : 32 ≤ w) (hbody : ∀ c, c.buflen < 2 ^ 32 → (body c).Returns (skipNext mem w checked c)) {rest : List Desc}
    (hrest : HeadProper rest) (xs : List Extra) (c : Skip)
    (hmem : Holds mem c.buf (flat (xs.map Extra.toDesc ++ rest)))
    (hlen : c.buflen = (flat (xs.map Extra.toDesc ++ rest)).length) (hlt : c.buflen < 2 ^ 32) :
    ∃ hd, (loop body c).Returns
      (some { buf := c.buf + extraLen xs, buflen := (flat rest).length, parsed := c.parsed + extraLen xs,
              header := hd, extra_len := c.extra_len + extraLen xs }) := by
  induction xs generalizing c with
  | nil =>
    have hr := hbody c hlt
    simp only [List.map_nil, List.nil_append] at hmem hlen
    cases rest with
    | nil =>
      obtain ⟨buf, buflen, parsed, header, extra_len⟩ := c
      obtain rfl : buflen = 0 := hlen
      rw [skipNext, if_pos (Nat.zero_lt_two)] at hr
      exact ⟨header, returns_loop.mpr (Or.inl (by simpa [extraLen] using hr))⟩
    | cons d ds =>
      have h2 := d.two_le_size
      have hl := length_flat_cons d ds
      have hcond : ¬ ((mem c.buf).toNat < 2 ∨ checked = true ∧ c.buflen < (mem c.buf).toNat) := by
        rw [hmem.desc_size]; omega
      have hproper : ProperType (mem (c.buf + 1)) := by rw [hmem.desc_one]; exact hrest
      rw [skipNext, if_neg (by omega), if_neg hcond, if_pos hproper] at hr
      refine ⟨headerAt mem c.buf, returns_loop.mpr (Or.inl ?_)⟩
      rw [← hlen]
      simpa [extraLen] using hr
  | cons x xs ih =>
    have hr := hbody c hlt
    simp only [List.map_cons, List.cons_append] at hmem hlen
    have h2 := x.toDesc.two_le_size
    have hl := length_flat_cons x.toDesc (xs.map Extra.toDesc ++ rest)
    have hcond : ¬ ((mem c.buf).toNat < 2 ∨ checked = true ∧ c.buflen < (mem c.buf).toNat) := by
      rw [hmem.desc_size]; omega
    have hproper : ¬ ProperType (mem (c.buf + 1)) := by rw [hmem.desc_one]; exact x.not_proper
    have hpow : (2 : ℕ) ^ 32 ≤ 2 ^ w := Nat.pow_le_pow_right (by decide) hw
    rw [skipNext, if_neg (by omega), if_neg hcond, if_neg hproper, hmem.desc_size,
      CInt.sub_of_le (by omega) (by omega)] at hr
    obtain ⟨hd, h⟩ := ih
      { buf := c.buf + x.toDesc.size, buflen := c.buflen - x.toDesc.size, parsed := c.parsed + x.toDesc.size,
        header := headerAt mem c.buf, extra_len := c.extra_len + x.toDesc.size }
      hmem.tail (by dsimp only; omega) (by dsimp only; omega)
    have hex : extraLen (x :: xs) = x.toDesc.size + extraLen xs := by
      rw [extraLen, List.map_cons, length_flat_cons, extraLen]
    refine ⟨hd, returns_loop.mpr (Or.inr ⟨_, hr, ?_⟩)⟩
    rw [hex]
    simpa [Int.add_assoc, Nat.add_assoc] using h

/-! ## Endpoints -/

section Endpoints

variable {env : Env} {i j : ℕ} {rest : List Desc}

theorem extraLen_pos (x : Extra) (xs : List Extra) : 0 < extraLen (x :: xs) := by
  rw [extraLen, List.map_cons, length_flat_cons]
  have := x.toDesc.two_le_size
  omega

/-- The extra bytes copied from behind a descriptor. -/
theorem Holds.extras {mem : ℤ → UInt8} {p : ℤ} {xs : List Extra}
    (h : Holds mem p (flat (xs.map Extra.toDesc ++ rest))) :
    (span p (extraLen xs)).map mem = flat (xs.map Extra.toDesc) := by
  rw [flat_append, holds_append] at h
  exact h.1.map_span

theorem length_descs_endpoint (e : EpBlock) : (flat e.descs).length = e.desc.size + extraLen e.extras := by
  rw [EpBlock.descs, length_flat_cons, extraLen]

/-- The bytes of an endpoint descriptor give its struct, apart from the two audio fields. -/
theorem endpoint_over_eq (e : EpBlock) {mem : ℤ → UInt8} {buf : ℤ} (hmem : Holds mem buf (flat (e.descs ++ rest)))
    (d : UsbEndpointDesc) : endpointOver mem buf d =
      { e.descStruct with bRefresh := d.bRefresh, bSynchAddress := d.bSynchAddress } := by
  have h7 : 7 ≤ e.desc.size := e.size_le
  have hb : ∀ k < e.desc.size, mem (buf + (k : ℕ)) = e.desc.byte k := fun k hk => hmem.desc hk
  have h0 : mem buf = e.desc.byte 0 := hmem.desc_zero
  have h1 : mem (buf + 1) = e.desc.byte 1 := hb 1 (by omega)
  have h2 : mem (buf + 2) = e.desc.byte 2 := hb 2 (by omega)
  have h3 : mem (buf + 3) = e.desc.byte 3 := hb 3 (by omega)
  have h4 : mem (buf + 4) = e.desc.byte 4 := hb 4 (by omega)
  have h5 : mem (buf + 5) = e.desc.byte 5 := hb 5 (by omega)
  have h6 : mem (buf + 6) = e.desc.byte 6 := hb 6 (by omega)
  simp [EpBlock.descStruct, endpointOver, le16At, Int.add_assoc, h0, h1, h2, h3, h4, h5, h6]

/-- The endpoint struct that the parser fills is the one the blob describes. -/
theorem parse_endpoint_desc (e : EpBlock) {buf : ℤ} {buflen : ℕ} (hmem : Holds env.mem buf (flat (e.descs ++ rest)))
    (hle : e.desc.size ≤ buflen) (hlt : buflen < 2 ^ 32) :
    (parseInto env UsbEndpointDesc.store
      (if e.desc.size ≥ USBI_ENDPOINT_AUDIO_DESC_SIZE then fmtEndpointAudio else fmtEndpoint) sizeofEndpointDesc buf
        buflen {}).Returns e.descStruct := by
  have h7 : 7 ≤ e.desc.size := e.size_le
  by_cases h9 : e.desc.size ≥ USBI_ENDPOINT_AUDIO_DESC_SIZE
  · have h9' : 9 ≤ e.desc.size := h9
    have h7 : env.mem (buf + 7) = e.desc.byte 7 := hmem.desc (k := 7) (by omega)
    have h8 : env.mem (buf + 8) = e.desc.byte 8 := hmem.desc (k := 8) (by omega)
    rw [if_pos h9, returns_parseEndpointAudio hlt (by omega), endpointAudioAt, endpoint_over_eq e hmem]
    simp [EpBlock.descStruct, h9, h7, h8]
  · rw [if_neg h9, returns_parseEndpoint hlt (by omega), endpoint_over_eq e hmem]
    simp [EpBlock.descStruct, h9]

/-- `usbi_parse_endpoint` consumes one endpoint and its extras. -/
theorem parse_endpoint_recovers (halloc : ∀ s, env.alloc s = true) (hrest : HeadProper rest) (e : EpBlock) (k : ℕ)
    {buf : ℤ} {buflen : ℕ} (hmem : Holds env.mem buf (flat (e.descs ++ rest)))
    (hlen : buflen = (flat (e.descs ++ rest)).length) (hlt : buflen < 2 ^ 31) :
    (usbiParseEndpoint env i j k {} buf buflen).Returns (((flat e.descs).length : ℤ), e.tree) := by
  have h7 : 7 ≤ e.desc.size := e.size_le
  have hsize := e.desc.size_le
  have hl : buflen = e.desc.size + (flat (e.extras.map Extra.toDesc ++ rest)).length := by
    rw [hlen, EpBlock.descs, List.cons_append, length_flat_cons]
  have hl' : (flat (e.extras.map Extra.toDesc ++ rest)).length = extraLen e.extras + (flat rest).length := by
    rw [flat_append, List.length_append, extraLen]
  have hbyte : (env.mem buf).toNat = e.desc.size := hmem.desc_size
  have htype : env.mem (buf + 1) = USB_DESC_TYPE_ENDPOINT := by rw [← e.type_eq]; exact hmem.desc_one
  obtain ⟨hd, hskip⟩ := skip_extras (skipRound env .epExtra) (by decide)
    (fun c hc => (returns_skipRound hc).mpr rfl) hrest e.extras
    { buf := buf + e.desc.size, buflen := buflen - e.desc.size, parsed := e.desc.size, header := headerAt env.mem buf }
    hmem.tail (by dsimp only; omega) (by dsimp only; omega)
  rw [usbiParseEndpoint, if_neg (by omega), ((returns_parseHeader (by omega)).mpr rfl).bind_iff,
    headerParsed_of_le (by omega)]
  simp only [headerAt_bLength, headerAt_type, hbyte, htype]
  rw [if_neg (by omega), if_neg (by simp), if_neg (by simp only [USBI_ENDPOINT_DESC_SIZE]; omega),
    (parse_endpoint_desc e hmem (by omega) (by omega)).bind_iff]
  simp only [returns_bind, returns_emit, true_and, exists_const]
  rw [CInt.sub_of_le (by omega) (by omega)]
  refine ⟨_, hskip, ?_⟩
  dsimp only
  rw [length_descs_endpoint]
  cases hx : e.extras with
  | nil =>
    rw [if_pos (by simp [extraLen])]
    simp [EpBlock.tree, hx, extraTable, extraLen, CInt.toI32_of_lt (show e.desc.size < 2 ^ 31 by omega)]
  | cons x xs =>
    rw [if_neg (by have := extraLen_pos x xs; omega)]
    simp only [returns_bind, returns_calloc, exists_eq_left, halloc, if_true, returns_copyBytes, returns_pure]
    rw [Nat.zero_add, ← hx, hmem.tail.extras, CInt.toI32_of_lt (by omega)]
    simp [EpBlock.tree, hx, extraTable, extraLen]

theorem head_proper_endpoints (hrest : HeadProper rest) (es : List EpBlock) :
    HeadProper (es.flatMap EpBlock.descs ++ rest) := by
  cases es with
  | nil => exact hrest
  | cons e es => exact Or.inl e.type_eq

/-- The endpoint loop consumes the endpoints of an alternate setting. -/
theorem parse_endpoints_recovers (halloc : ∀ s, env.alloc s = true) (hrest : HeadProper rest) (es : List EpBlock)
    (s : EpState) (hmem : Holds env.mem s.buf (flat (es.flatMap EpBlock.descs ++ rest)))
    (hlen : s.buflen = (flat (es.flatMap EpBlock.descs ++ rest)).length) (hlt : s.buflen < 2 ^ 31) :
    ∃ hd, (parseEndpoints env i j es.length s).Returns
      (none, { buf := s.buf + (flat (es.flatMap EpBlock.descs)).length, buflen := (flat rest).length,
               parsed := s.parsed + (flat (es.flatMap EpBlock.descs)).length, header := hd,
               eps := s.eps ++ es.map EpBlock.tree }) := by
  induction es generalizing s with
  | nil =>
    refine ⟨s.header, ?_⟩
    rw [← show s.buflen = (flat rest).length from hlen]
    simp [parseEndpoints]
  | cons e es ih =>
    rw [List.flatMap_cons, List.append_assoc] at hmem hlen
    have h7 : 7 ≤ e.desc.size := e.size_le
    have hl : s.buflen = (flat e.descs).length + (flat (es.flatMap EpBlock.descs ++ rest)).length := by
      rw [hlen, flat_append, List.length_append]
    have hbyte : (env.mem s.buf).toNat = e.desc.size := hmem.desc_size
    have hsize := length_descs_endpoint e
    have htail : Holds env.mem (s.buf + (flat e.descs).length) (flat (es.flatMap EpBlock.descs ++ rest)) := by
      rw [flat_append] at hmem
      exact (holds_append.mp hmem).2
    have hep := parse_endpoint_recovers (i := i) (j := j) halloc (head_proper_endpoints hrest es) e s.eps.length hmem
      hlen hlt
    obtain ⟨hd, h⟩ := ih
      { buf := s.buf + (flat e.descs).length, buflen := s.buflen - (flat e.descs).length,
        parsed := s.parsed + (flat e.descs).length, header := headerAt env.mem s.buf, eps := s.eps ++ [e.tree] }
      htail (by dsimp only; omega) (by dsimp only; omega)
    refine ⟨hd, ?_⟩
    rw [List.length_cons, parseEndpoints, returns_emit_bind,
      ((returns_parseHeader (by omega)).mpr rfl).bind_iff, headerParsed_of_le (by omega), headerAt_bLength, hbyte,
      if_neg (by omega), hep.bind_iff]
    dsimp only
    rw [if_neg (by omega), returns_emit_bind, Int.toNat_natCast, CInt.sub_of_le (by omega) (by omega)]
    simpa [Int.add_assoc, Nat.add_assoc] using h

end Endpoints

/-! ## Counting alternates -/

/-- The number of interface descriptors with `bInterfaceNumber` `fno`. -/
def altsOf (fno : UInt8) (ds : List Desc) : ℕ :=
  ds.countP fun d => d.type = USB_DESC_TYPE_INTERFACE ∧ d.byte 2 = fno

theorem alts_of_append (fno : UInt8) (ds es : List Desc) : altsOf fno (ds ++ es) = altsOf fno ds + altsOf fno es :=
  List.countP_append

theorem alts_of_cons (fno : UInt8) (d : Desc) (ds : List Desc) :
    altsOf fno (d :: ds) = altsOf fno ds + if d.type = USB_DESC_TYPE_INTERFACE ∧ d.byte 2 = fno then 1 else 0 := by
  simp [altsOf, List.countP_cons]

theorem alts_of_extras (fno : UInt8) (xs : List Extra) : altsOf fno (xs.map Extra.toDesc) = 0 := by
  refine List.countP_eq_zero.mpr fun d hd => ?_
  obtain ⟨x, -, rfl⟩ := List.mem_map.mp hd
  have := x.not_proper
  simp_all [ProperType]

theorem alts_of_endpoints (fno : UInt8) (es : List EpBlock) : altsOf fno (es.flatMap EpBlock.descs) = 0 := by
  induction es with
  | nil => rfl
  | cons e es ih =>
    rw [List.flatMap_cons, alts_of_append, ih, EpBlock.descs, alts_of_cons, alts_of_extras, e.type_eq, if_neg]
    exact fun h => absurd h.1 (by decide)

theorem alts_of_alt (fno : UInt8) (a : AltBlock) : altsOf fno a.descs = if a.number = fno then 1 else 0 := by
  rw [AltBlock.descs, alts_of_cons, alts_of_append, alts_of_extras, alts_of_endpoints, Nat.zero_add]
  by_cases h : a.number = fno
  · rw [if_pos h, if_pos ⟨a.type_eq, h⟩]
  · rw [if_neg h, if_neg fun hd => h hd.2]

theorem alts_of_alts (fno : UInt8) (as : List AltBlock) (h : ∀ a ∈ as, a.number = fno) :
    altsOf fno (as.flatMap AltBlock.descs) = as.length := by
  induction as with
  | nil => rfl
  | cons a as ih =>
    rw [List.flatMap_cons, alts_of_append, alts_of_alt, if_pos (h a List.mem_cons_self),
      ih fun b hb => h b (List.mem_cons_of_mem a hb), List.length_cons, Nat.add_comm]

theorem alts_of_others (fno : UInt8) (as : List AltBlock) (h : ∀ a ∈ as, a.number ≠ fno) :
    altsOf fno (as.flatMap AltBlock.descs) = 0 := by
  induction as with
  | nil => rfl
  | cons a as ih =>
    rw [List.flatMap_cons, alts_of_append, alts_of_alt, if_neg (h a List.mem_cons_self),
      ih fun b hb => h b (List.mem_cons_of_mem a hb)]

/-- The counting loop visits every descriptor up to the end of the blob. -/
theorem count_recovers {env : Env} {buf : ℤ} {buflen : ℕ} (fno : UInt8) (hlt : buflen < 2 ^ 31)
    (hend : env.mem (buf + buflen + 1) = 0) (ds : List Desc) (d : Desc) (len k : ℕ)
    (hmem : Holds env.mem (buf + len) (flat (d :: ds))) (hlen : len + (flat (d :: ds)).length = buflen)
    (h3 : ∀ x ∈ ds, x.type = USB_DESC_TYPE_INTERFACE → 3 ≤ x.size) :
    (loop (altCountRound env buf buflen fno) { len := len, altno := k }).Returns (k + altsOf fno ds) := by
  induction ds generalizing d len k with
  | nil =>
    have h2 := d.two_le_size
    have hs := d.size_le
    have hl := length_flat_cons d []
    have h0 : (flat []).length = 0 := rfl
    have hbyte : CInt.schar (env.mem (buf + len)) = d.size := by
      rw [CInt.schar_of_lt (by rw [hmem.desc_size]; omega), hmem.desc_size]
    have hnext : countNext env.mem buf fno { len := len, altno := k } = { len := buflen, altno := k } := by
      have hb : (len : ℤ) + d.size = buflen := by omega
      simp [countNext, hbyte, hb, hend, USB_DESC_TYPE_INTERFACE]
    have hr : CInt.toU32 (len : ℤ) < buflen := by have := CInt.toU32_of_nonneg (z := len) (by omega) (by omega); omega
    have hr' : ¬ CInt.toU32 (buflen : ℤ) < buflen := by
      have := CInt.toU32_of_nonneg (z := buflen) (by omega) (by omega); omega
    refine returns_loop.mpr (Or.inr ⟨_, returns_altCountRound.mpr (if_pos hr).symm, ?_⟩)
    rw [hnext]
    exact returns_loop.mpr (Or.inl (returns_altCountRound.mpr (if_neg hr').symm))
  | cons d' ds ih =>
    have h2 := d.two_le_size
    have hs := d.size_le
    have hl := length_flat_cons d (d' :: ds)
    have hbyte : CInt.schar (env.mem (buf + len)) = d.size := by
      rw [CInt.schar_of_lt (by rw [hmem.desc_size]; omega), hmem.desc_size]
    have htail : Holds env.mem (buf + (len + d.size : ℕ)) (flat (d' :: ds)) := by
      have := hmem.tail
      rwa [Int.add_assoc, ← Int.natCast_add] at this
    have htype : env.mem (buf + (len + d.size : ℕ) + 1) = d'.type := htail.desc_one
    have hnum : d'.type = USB_DESC_TYPE_INTERFACE → env.mem (buf + (len + d.size : ℕ) + 2) = d'.byte 2 :=
      fun ht => htail.desc (k := 2) (h3 d' List.mem_cons_self ht)
    have hnext : countNext env.mem buf fno { len := len, altno := k } = { len := (len + d.size : ℕ), altno :=
        k + if d'.type = USB_DESC_TYPE_INTERFACE ∧ (d'.byte 2) = fno then 1 else 0 } := by
      simp only [countNext, hbyte, ← Int.natCast_add, htype]
      by_cases ht : d'.type = USB_DESC_TYPE_INTERFACE
      · rw [hnum ht]; split_ifs <;> rfl
      · simp [ht]
    have hr : CInt.toU32 (len : ℤ) < buflen := by have := CInt.toU32_of_nonneg (z := len) (by omega) (by omega); omega
    refine returns_loop.mpr (Or.inr ⟨_, returns_altCountRound.mpr (if_pos hr).symm, ?_⟩)
    rw [hnext, alts_of_cons, Nat.add_comm (altsOf fno ds), ← Nat.add_assoc]
    exact ih d' _ _ htail (by omega) fun x hx => h3 x (List.mem_cons_of_mem d' hx)

/-! ## Alternate settings -/

/-- The first descriptor, if there is one, is an endpoint or an interface descriptor. -/
def HeadEntry : List Desc → Prop
  | [] => True
  | d :: _ => d.type = USB_DESC_TYPE_ENDPOINT ∨ d.type = USB_DESC_TYPE_INTERFACE

theorem HeadEntry.proper {ds : List Desc} (h : HeadEntry ds) : HeadProper ds := by
  cases ds with
  | nil => trivial
  | cons d ds => exact h.elim Or.inl fun h => Or.inr (Or.inl h)

theorem head_entry_alts (as : List AltBlock) : HeadEntry (as.flatMap AltBlock.descs) := by
  cases as with
  | nil => trivial
  | cons a as => exact Or.inr a.type_eq

theorem head_entry_endpoints (es : List EpBlock) (as : List AltBlock) :
    HeadEntry (es.flatMap EpBlock.descs ++ as.flatMap AltBlock.descs) := by
  cases es with
  | nil => exact head_entry_alts as
  | cons e es => exact Or.inl e.type_eq

/-- Neither a device nor a configuration descriptor follows. -/
theorem Holds.head_entry {mem : ℤ → UInt8} {p : ℤ} {ds : List Desc} (h : Holds mem p (flat ds)) (hds : HeadEntry ds)
    {hd : UsbDescriptorHeader} {n : ℕ} (hn : n = (flat ds).length) :
    ¬ (n ≥ USBI_DESC_HEADER_SIZE ∧ ((headerParsed mem p n hd).bDescriptorType = USB_DESC_TYPE_CONFIG ∨
      (headerParsed mem p n hd).bDescriptorType = USB_DESC_TYPE_DEVICE)) := by
  rintro ⟨h2, ht⟩
  cases ds with
  | nil => subst hn; exact absurd h2 (by decide)
  | cons d ds =>
    rw [headerParsed_of_le h2, headerAt_type, h.desc_one] at ht
    rcases hds with hds | hds <;> rw [hds] at ht <;> exact absurd ht (by decide)

theorem length_descs_alt (a : AltBlock) :
    (flat a.descs).length = 9 + (extraLen a.extras + (flat (a.eps.flatMap EpBlock.descs)).length) := by
  rw [AltBlock.descs, length_flat_cons, flat_append, List.length_append, extraLen, a.size_eq]; rfl

section Alts

variable {env : Env} (i cap : ℕ) {rest : List AltBlock}

/-- The bytes of an interface descriptor give its struct. -/
theorem interface_at_eq (a : AltBlock) {ds : List Desc} {mem : ℤ → UInt8} {buf : ℤ}
    (hmem : Holds mem buf (flat (a.descs ++ ds))) : interfaceAt mem buf = a.descStruct := by
  have hs : a.desc.size = 9 := a.size_eq
  have hb : ∀ k < a.desc.size, mem (buf + (k : ℕ)) = a.desc.byte k := fun k hk => hmem.desc hk
  have h0 : mem buf = a.desc.byte 0 := hmem.desc_zero
  have h1 : mem (buf + 1) = a.desc.byte 1 := hb 1 (by omega)
  have h2 : mem (buf + 2) = a.desc.byte 2 := hb 2 (by omega)
  have h3 : mem (buf + 3) = a.desc.byte 3 := hb 3 (by omega)
  have h4 : mem (buf + 4) = a.desc.byte 4 := hb 4 (by omega)
  have h5 : mem (buf + 5) = a.desc.byte 5 := hb 5 (by omega)
  have h6 : mem (buf + 6) = a.desc.byte 6 := hb 6 (by omega)
  have h7 : mem (buf + 7) = a.desc.byte 7 := hb 7 (by omega)
  have h8 : mem (buf + 8) = a.desc.byte 8 := hb 8 (by omega)
  simp [AltBlock.descStruct, interfaceAt, h0, h1, h2, h3, h4, h5, h6, h7, h8]

/-- The interface struct that the parser fills is the one the blob describes. -/
theorem parse_interface_desc (a : AltBlock) {ds : List Desc} {buf : ℤ} {buflen : ℕ} {d : UsbInterfaceDesc}
    (hmem : Holds env.mem buf (flat (a.descs ++ ds))) (hle : 9 ≤ buflen) (hlt : buflen < 2 ^ 32) :
    (parseInto env UsbInterfaceDesc.store fmtInterface sizeofInterfaceDesc buf buflen d).Returns a.descStruct := by
  rw [returns_parseInterface hlt hle, interface_at_eq a hmem]

/-- After its endpoints, an alternate setting is complete. -/
theorem alt_endpoints_recovers (halloc : ∀ s, env.alloc s = true) (a : AltBlock) (alts : List UsbiAltsetting) (c : Skip)
    (hmem : Holds env.mem c.buf (flat (a.eps.flatMap EpBlock.descs ++ rest.flatMap AltBlock.descs)))
    (hlen : c.buflen = (flat (a.eps.flatMap EpBlock.descs ++ rest.flatMap AltBlock.descs)).length)
    (hlt : c.buflen < 2 ^ 31) :
    ∃ s : EpState, s.buf = c.buf + (flat (a.eps.flatMap EpBlock.descs)).length ∧
      s.buflen = (flat (rest.flatMap AltBlock.descs)).length ∧
      s.parsed = c.parsed + (flat (a.eps.flatMap EpBlock.descs)).length ∧
      ∀ r, (altEndpoints env i cap alts
          { desc := a.descStruct, extra := extraTable a.extras, extralen := extraLen a.extras } c).Returns r ↔
        (altNext env cap (alts ++ [a.tree]) s).Returns r := by
  obtain ⟨hd, heps⟩ := parse_endpoints_recovers (i := i) (j := alts.length) halloc (head_entry_alts rest).proper a.eps
    { buf := c.buf, buflen := c.buflen, parsed := c.parsed, header := headerParsed env.mem c.buf c.buflen c.header }
    hmem hlen hlt
  refine ⟨{ buf := c.buf + (flat (a.eps.flatMap EpBlock.descs)).length,
            buflen := (flat (rest.flatMap AltBlock.descs)).length,
            parsed := c.parsed + (flat (a.eps.flatMap EpBlock.descs)).length, header := hd,
            eps := a.eps.map EpBlock.tree }, rfl, rfl, rfl, fun r => ?_⟩
  rw [altEndpoints, ((returns_parseHeader (by omega)).mpr rfl).bind_iff,
    if_neg (hmem.head_entry (head_entry_endpoints a.eps rest) hlen), returns_emit_bind]
  have hn : a.descStruct.bNumEndpoints.toNat = a.eps.length := a.num_eps
  have hle : ¬ a.eps.length > USBI_MAXENDPOINTS := Nat.not_lt.mpr a.eps_le
  dsimp only
  rw [hn, if_neg hle, (returns_calloc.mpr rfl).bind_iff, halloc]
  rw [if_neg (by simp), heps.bind_iff]
  rfl

/-- The extra bytes of an alternate setting are kept. -/
theorem alt_extra_recovers (halloc : ∀ s, env.alloc s = true) (a : AltBlock) (alts : List UsbiAltsetting) {extra : ℤ}
    {ds : List Desc} (hmem : Holds env.mem extra (flat (a.extras.map Extra.toDesc ++ ds))) {c : Skip}
    (hc : c.extra_len = extraLen a.extras) {r : Round AltState (ℤ × UsbiInterface)} :
    (altExtra env i cap alts { desc := a.descStruct } extra c).Returns r ↔
      (altEndpoints env i cap alts
        { desc := a.descStruct, extra := extraTable a.extras, extralen := extraLen a.extras } c).Returns r := by
  rw [altExtra, hc]
  cases hx : a.extras with
  | nil => rw [if_pos (show extraLen [] = 0 from rfl)]; rfl
  | cons x xs =>
    rw [if_neg (Nat.ne_of_gt (extraLen_pos x xs)), (returns_calloc.mpr rfl).bind_iff, halloc, if_pos rfl,
      (returns_copyBytes.mpr rfl).bind_iff, ← hx, hmem.extras]
    simp [extraTable, extraLen, hx]

theorem returns_alt_stay {p : Prog Ev (Round AltState (ℤ × UsbiInterface))} {n : ℕ}
    {r : Round AltState (ℤ × UsbiInterface)} :
    (p >>= fun r => match r with
      | .again s' => do
        emit (.stay .alts n s'.buflen)
        pure (.again s')
      | .leave a => pure (.leave a)).Returns r ↔ p.Returns r := by
  rw [returns_bind]
  constructor
  · rintro ⟨r', h', h⟩
    cases r' with
    | again s' => rw [returns_emit_bind, returns_pure] at h; rwa [← h]
    | leave a => rw [returns_pure] at h; rwa [← h]
  · intro h
    refine ⟨r, h, ?_⟩
    cases r with
    | again s' => rw [returns_emit_bind, returns_pure]
    | leave a => rw [returns_pure]

/-- A round of the altsetting loop consumes one alternate setting, and `altNext` decides what follows. -/
theorem alt_round_recovers (halloc : ∀ s, env.alloc s = true) (a : AltBlock) (s : AltState)
    (hmem : Holds env.mem s.buf (flat (a.descs ++ rest.flatMap AltBlock.descs)))
    (hlen : s.buflen = (flat (a.descs ++ rest.flatMap AltBlock.descs)).length) (hlt : s.buflen < 2 ^ 31) :
    ∃ t : EpState, t.buf = s.buf + (flat a.descs).length ∧ t.buflen = (flat (rest.flatMap AltBlock.descs)).length ∧
      t.parsed = s.parsed + (flat a.descs).length ∧
      ∀ r, (altRound env i cap s).Returns r ↔ (altNext env cap (s.alts ++ [a.tree]) t).Returns r := by
  have hs : a.desc.size = 9 := a.size_eq
  have hsize := length_descs_alt a
  have hbyte : (env.mem s.buf).toNat = a.desc.size := hmem.desc_size
  have hl : s.buflen = (flat a.descs).length + (flat (rest.flatMap AltBlock.descs)).length := by
    rw [hlen, flat_append, List.length_append]
  have hmem' : Holds env.mem (s.buf + a.desc.size)
      (flat (a.extras.map Extra.toDesc ++ (a.eps.flatMap EpBlock.descs ++ rest.flatMap AltBlock.descs))) := by
    rw [AltBlock.descs, List.cons_append, List.append_assoc] at hmem
    exact hmem.tail
  have hl' : (flat (a.extras.map Extra.toDesc ++ (a.eps.flatMap EpBlock.descs ++ rest.flatMap AltBlock.descs))).length
      = extraLen a.extras + (flat (a.eps.flatMap EpBlock.descs ++ rest.flatMap AltBlock.descs)).length := by
    rw [flat_append, List.length_append, extraLen]
  have hl'' : (flat (a.eps.flatMap EpBlock.descs ++ rest.flatMap AltBlock.descs)).length =
      (flat (a.eps.flatMap EpBlock.descs)).length + (flat (rest.flatMap AltBlock.descs)).length := by
    rw [flat_append, List.length_append]
  obtain ⟨hd, hskip⟩ := skip_extras (skipRound env .altExtra) (by decide)
    (fun c hc => (returns_skipRound hc).mpr rfl) (head_entry_endpoints a.eps rest).proper a.extras
    { buf := s.buf + a.desc.size, buflen := s.buflen - a.desc.size, parsed := s.parsed + a.desc.size,
      header := headerAt env.mem s.buf }
    hmem' (by dsimp only; omega) (by dsimp only; omega)
  have hmem'' : Holds env.mem (s.buf + a.desc.size + extraLen a.extras)
      (flat (a.eps.flatMap EpBlock.descs ++ rest.flatMap AltBlock.descs)) := by
    rw [flat_append] at hmem'
    exact (holds_append.mp hmem').2
  obtain ⟨t, h1, h2, h3, h⟩ := alt_endpoints_recovers i cap halloc a s.alts
    { buf := s.buf + a.desc.size + extraLen a.extras,
      buflen := (flat (a.eps.flatMap EpBlock.descs ++ rest.flatMap AltBlock.descs)).length,
      parsed := s.parsed + a.desc.size + extraLen a.extras, header := hd, extra_len := 0 + extraLen a.extras }
    hmem'' rfl (by dsimp only; omega)
  refine ⟨t, by rw [h1]; dsimp only; omega, h2, by rw [h3]; dsimp only; omega, fun r => ?_⟩
  rw [← h, altRound, if_neg (by simp only [USBI_INTERFACE_DESC_SIZE]; omega), returns_emit_bind,
    ((returns_parseHeader (by omega)).mpr rfl).bind_iff, headerParsed_of_le (by omega), headerAt_bLength, hbyte,
    returns_emit_bind, (parse_interface_desc a hmem (by omega) (by omega)).bind_iff, returns_emit_bind,
    CInt.sub_of_le (by omega) (by omega), hskip.bind_iff]
  exact returns_alt_stay.trans (alt_extra_recovers i cap halloc a s.alts hmem' (Nat.zero_add _))

/-- Another alternate of the interface, or the end of the blob, keeps the altsetting loop going. -/
theorem alt_next_again (alts : List UsbiAltsetting) {t : EpState}
    (hmem : Holds env.mem t.buf (flat (rest.flatMap AltBlock.descs)))
    (hlen : t.buflen = (flat (rest.flatMap AltBlock.descs)).length) (hlt : t.buflen < 2 ^ 31)
    (hrest : ∀ a ∈ rest.head?, a.value ≠ 0) :
    ∃ hd, (altNext env cap alts t).Returns
      (.again { buf := t.buf, buflen := t.buflen, parsed := t.parsed, header := hd, alts := alts }) := by
  cases rest with
  | nil =>
    have h0 : t.buflen = 0 := hlen
    refine ⟨t.header, ?_⟩
    rw [altNext, if_pos h0, returns_pure]
  | cons b bs =>
    rw [List.flatMap_cons] at hmem hlen
    have hs : b.desc.size = 9 := b.size_eq
    have hl : t.buflen = (flat b.descs).length + (flat (bs.flatMap AltBlock.descs)).length := by
      rw [hlen, flat_append, List.length_append]
    have hb := length_descs_alt b
    have htype : env.mem (t.buf + 1) = USB_DESC_TYPE_INTERFACE := by rw [← b.type_eq]; exact hmem.desc_one
    have hval : env.mem (t.buf + 3) = b.value := hmem.desc (k := 3) (by omega)
    refine ⟨headerAt env.mem t.buf, ?_⟩
    rw [altNext, if_neg (by omega), ((returns_parseHeader (by omega)).mpr rfl).bind_iff,
      headerParsed_of_le (by omega), (returns_rd.mpr rfl).bind_iff, headerAt_type, htype, hval, if_neg, returns_pure]
    simp only [USBI_INTERFACE_DESC_SIZE, hrest b rfl, not_true, or_false, ne_eq]
    omega

/-- The first alternate of another interface ends the altsetting loop. -/
theorem alt_next_leave (alts : List UsbiAltsetting) {t : EpState} {b : AltBlock} {bs : List AltBlock}
    (hmem : Holds env.mem t.buf (flat ((b :: bs).flatMap AltBlock.descs)))
    (hlen : t.buflen = (flat ((b :: bs).flatMap AltBlock.descs)).length) (hlt : t.buflen < 2 ^ 31) (hb : b.value = 0) :
    (altNext env cap alts t).Returns (.leave (CInt.toI32 t.parsed, liveIntf cap alts)) := by
  have hs : b.desc.size = 9 := b.size_eq
  have hl := length_flat_cons b.desc (b.extras.map Extra.toDesc ++ b.eps.flatMap EpBlock.descs ++
    bs.flatMap AltBlock.descs)
  have hlen' : t.buflen = (flat (b.desc :: (b.extras.map Extra.toDesc ++ b.eps.flatMap EpBlock.descs ++
    bs.flatMap AltBlock.descs))).length := hlen
  have hval : env.mem (t.buf + 3) = b.value := hmem.desc (k := 3) (by omega)
  rw [altNext, if_neg (by omega), ((returns_parseHeader (by omega)).mpr rfl).bind_iff, (returns_rd.mpr rfl).bind_iff,
    hval, if_pos (Or.inr (Or.inr hb)), returns_pure]

/-- The altsetting loop consumes the alternates of one interface. -/
theorem alts_recovers (halloc : ∀ s, env.alloc s = true) (hrest : ∀ b ∈ rest.head?, b.value = 0) (as : List AltBlock)
    (has : ∀ b ∈ as, b.value ≠ 0) (a : AltBlock) (s : AltState)
    (hmem : Holds env.mem s.buf (flat ((a :: (as ++ rest)).flatMap AltBlock.descs)))
    (hlen : s.buflen = (flat ((a :: (as ++ rest)).flatMap AltBlock.descs)).length) (hlt : s.parsed + s.buflen < 2 ^ 31) :
    (loop (altRound env i cap) s).Returns
      (((s.parsed + (flat ((a :: as).flatMap AltBlock.descs)).length : ℕ) : ℤ),
        liveIntf cap (s.alts ++ (a :: as).map AltBlock.tree)) := by
  induction as generalizing a s with
  | nil =>
    rw [List.nil_append, List.flatMap_cons] at hmem hlen
    obtain ⟨t, h1, h2, h3, h⟩ := alt_round_recovers i cap halloc a s hmem hlen (by omega)
    have hl : s.buflen = (flat a.descs).length + t.buflen := by rw [hlen, flat_append, List.length_append, h2]
    have hparsed : CInt.toI32 t.parsed = ((s.parsed + (flat ([a].flatMap AltBlock.descs)).length : ℕ) : ℤ) := by
      rw [CInt.toI32_of_lt (by omega), h3]; simp
    have htail : Holds env.mem t.buf (flat (rest.flatMap AltBlock.descs)) := by
      rw [flat_append] at hmem; rw [h1]; exact (holds_append.mp hmem).2
    cases rest with
    | nil =>
      obtain ⟨hd, hn⟩ := alt_next_again cap (s.alts ++ [a.tree]) htail h2 (by omega) (by simp)
      refine returns_loop.mpr (Or.inr ⟨_, (h _).mpr hn, returns_loop.mpr (Or.inl ?_)⟩)
      have h0 : t.buflen = 0 := h2
      rw [altRound, if_pos (by dsimp only; rw [h0]; decide), returns_pure, hparsed]
      rfl
    | cons b bs =>
      have hn := alt_next_leave cap (s.alts ++ [a.tree]) htail h2 (by omega) (hrest b rfl)
      rw [hparsed] at hn
      exact returns_loop.mpr (Or.inl ((h _).mpr hn))
  | cons a' as ih =>
    rw [List.cons_append, List.flatMap_cons] at hmem hlen
    obtain ⟨t, h1, h2, h3, h⟩ := alt_round_recovers i cap halloc a s hmem hlen (by omega)
    have hl : s.buflen = (flat a.descs).length + t.buflen := by rw [hlen, flat_append, List.length_append, h2]
    have htail : Holds env.mem t.buf (flat ((a' :: (as ++ rest)).flatMap AltBlock.descs)) := by
      rw [flat_append] at hmem; rw [h1]; exact (holds_append.mp hmem).2
    obtain ⟨hd, hn⟩ := alt_next_again cap (s.alts ++ [a.tree]) htail h2 (by omega)
      (by rintro b ⟨⟩; exact has a' List.mem_cons_self)
    have hrec := ih (fun b hb => has b (List.mem_cons_of_mem a' hb)) a'
      { buf := t.buf, buflen := t.buflen, parsed := t.parsed, header := hd, alts := s.alts ++ [a.tree] } htail h2
      (by dsimp only; omega)
    refine returns_loop.mpr (Or.inr ⟨_, (h _).mpr hn, ?_⟩)
    have hflat : (flat ((a :: a' :: as).flatMap AltBlock.descs)).length =
        (flat a.descs).length + (flat ((a' :: as).flatMap AltBlock.descs)).length := by
      rw [List.flatMap_cons, flat_append, List.length_append]
    rw [hflat, ← Nat.add_assoc, ← h3]
    simpa using hrec

end Alts

/-! ## Interfaces -/

theorem IntfBlock.number_of_mem (x : IntfBlock) {a : AltBlock} (h : a ∈ x.alts) : a.number = x.number := by
  rcases List.mem_cons.mp h with rfl | h
  · rfl
  · exact x.number_eq a h

theorem extras_not_interface {xs : List Extra} {d : Desc} (hd : d ∈ xs.map Extra.toDesc) :
    d.type ≠ USB_DESC_TYPE_INTERFACE := by
  obtain ⟨x, -, rfl⟩ := List.mem_map.mp hd
  exact fun ht => x.not_proper (Or.inr (Or.inl ht))

theorem endpoints_not_interface {es : List EpBlock} {d : Desc} (hd : d ∈ es.flatMap EpBlock.descs) :
    d.type ≠ USB_DESC_TYPE_INTERFACE := by
  obtain ⟨e, -, hd⟩ := List.mem_flatMap.mp hd
  rcases List.mem_cons.mp hd with rfl | hd
  · rw [e.type_eq]; decide
  · exact extras_not_interface hd

/-- The only interface descriptor of an alternate setting is its first. -/
theorem AltBlock.eq_desc {a : AltBlock} {d : Desc} (hd : d ∈ a.descs) (ht : d.type = USB_DESC_TYPE_INTERFACE) :
    d = a.desc := by
  rcases List.mem_cons.mp hd with rfl | hd
  · rfl
  · rcases List.mem_append.mp hd with hd | hd
    · exact absurd ht (extras_not_interface hd)
    · exact absurd ht (endpoints_not_interface hd)

theorem nine_le_size (as : List AltBlock) :
    ∀ d ∈ as.flatMap AltBlock.descs, d.type = USB_DESC_TYPE_INTERFACE → 9 ≤ d.size := by
  intro d hd ht
  obtain ⟨a, -, hd⟩ := List.mem_flatMap.mp hd
  rw [AltBlock.eq_desc hd ht, a.size_eq]
  decide

/-- The alternate settings of a list of interfaces, in blob order. -/
def altsList (xs : List IntfBlock) : List AltBlock := xs.flatMap IntfBlock.alts

theorem descs_alts_list (xs : List IntfBlock) : xs.flatMap IntfBlock.descs = (altsList xs).flatMap AltBlock.descs := by
  rw [altsList, List.flatMap_assoc]; rfl

theorem alts_list_cons (x : IntfBlock) (xs : List IntfBlock) :
    altsList (x :: xs) = x.first :: (x.others ++ altsList xs) := rfl

section Interfaces

variable {env : Env}

/-- The counting pass finds the alternates of the first interface. -/
theorem intf_altno_recovers (x : IntfBlock) (rest : List IntfBlock) (hnum : ∀ y ∈ rest, y.number ≠ x.number) {buf : ℤ}
    {buflen : ℕ} (hmem : Holds env.mem buf (flat ((altsList (x :: rest)).flatMap AltBlock.descs)))
    (hlen : buflen = (flat ((altsList (x :: rest)).flatMap AltBlock.descs)).length) (hlt : buflen < 2 ^ 31)
    (hend : env.mem (buf + buflen + 1) = 0) : (usbiGetIntfAltno env buf buflen).Returns x.alts.length := by
  rw [usbiGetIntfAltno, (returns_rd.mpr rfl).bind_iff]
  have hfno : env.mem (buf + 2) = x.number := by
    refine hmem.desc (k := 2) ?_
    rw [x.first.size_eq]; decide
  have hcount : altsOf x.number ((altsList (x :: rest)).flatMap AltBlock.descs) = x.alts.length := by
    rw [altsList, List.flatMap_cons, List.flatMap_append, alts_of_append,
      alts_of_alts _ _ fun a ha => x.number_of_mem ha, alts_of_others, Nat.add_zero]
    intro a ha
    obtain ⟨y, hy, ha⟩ := List.mem_flatMap.mp ha
    rw [y.number_of_mem ha]
    exact hnum y hy
  have hrun := count_recovers x.number hlt hend
    (x.first.extras.map Extra.toDesc ++ x.first.eps.flatMap EpBlock.descs ++
      (x.others ++ altsList rest).flatMap AltBlock.descs) x.first.desc 0 1
    (by rw [Int.natCast_zero, Int.add_zero]; exact hmem) (by rw [Nat.zero_add]; exact hlen.symm)
    (fun d hd ht => Nat.le_trans (by decide) (nine_le_size (altsList (x :: rest)) d (List.mem_cons_of_mem _ hd) ht))
  have htail : altsOf x.number ((altsList (x :: rest)).flatMap AltBlock.descs) =
      altsOf x.number (x.first.extras.map Extra.toDesc ++ x.first.eps.flatMap EpBlock.descs ++
        (x.others ++ altsList rest).flatMap AltBlock.descs) + 1 := by
    rw [alts_list_cons, List.flatMap_cons, AltBlock.descs, List.cons_append, alts_of_cons,
      if_pos ⟨x.first.type_eq, rfl⟩]
  rw [hfno, ← hcount, htail, Nat.add_comm]
  exact hrun

/-- `usbi_parse_interface` consumes one interface. -/
theorem parse_interface_recovers (halloc : ∀ s, env.alloc s = true) (i : ℕ) (x : IntfBlock) (rest : List IntfBlock)
    (hnum : ∀ y ∈ rest, y.number ≠ x.number) {buf : ℤ} {buflen : ℕ}
    (hmem : Holds env.mem buf (flat ((altsList (x :: rest)).flatMap AltBlock.descs)))
    (hlen : buflen = (flat ((altsList (x :: rest)).flatMap AltBlock.descs)).length) (hlt : buflen < 2 ^ 31)
    (hend : env.mem (buf + buflen + 1) = 0) :
    (usbiParseInterface env i {} buf buflen).Returns (((flat x.descs).length : ℤ), x.tree) := by
  have hl := length_flat_cons x.first.desc (x.first.extras.map Extra.toDesc ++
    x.first.eps.flatMap EpBlock.descs ++ (x.others ++ altsList rest).flatMap AltBlock.descs)
  have hlen' : buflen = (flat (x.first.desc :: (x.first.extras.map Extra.toDesc ++
    x.first.eps.flatMap EpBlock.descs ++ (x.others ++ altsList rest).flatMap AltBlock.descs))).length := hlen
  have h2 := x.first.desc.two_le_size
  have htype : env.mem (buf + 1) = USB_DESC_TYPE_INTERFACE := by rw [← x.first.type_eq]; exact hmem.desc_one
  have hcap : x.alts.length ≤ 128 := x.alts_le
  have hrest : ∀ b ∈ (altsList rest).head?, b.value = 0 := by
    cases rest with
    | nil => simp [altsList]
    | cons y ys => rintro b ⟨⟩; exact y.first_value
  have halts := alts_recovers i x.alts.length halloc hrest x.others x.value_ne x.first
    { buf := buf, buflen := buflen, parsed := 0, header := env.junk buf } hmem hlen (by dsimp only; omega)
  rw [usbiParseInterface, if_neg (by omega), (returns_rd.mpr rfl).bind_iff, htype, if_neg (by simp),
    (intf_altno_recovers x rest hnum hmem hlen hlt hend).bind_iff, (returns_calloc.mpr rfl).bind_iff, halloc,
    Nat.mod_eq_of_lt (show x.alts.length < 2 ^ 8 by omega), if_neg (by simp)]
  simpa [liveIntf, IntfBlock.tree, IntfBlock.alts, IntfBlock.descs] using halts

/-- The interface loop consumes the interfaces. -/
theorem parse_interfaces_recovers (halloc : ∀ s, env.alloc s = true) (xs : List IntfBlock)
    (hnum : (xs.map IntfBlock.number).Nodup) (s : IntfState)
    (hmem : Holds env.mem s.buf (flat ((altsList xs).flatMap AltBlock.descs)))
    (hlen : s.buflen = (flat ((altsList xs).flatMap AltBlock.descs)).length) (hlt : s.buflen < 2 ^ 31)
    (hend : env.mem (s.buf + s.buflen + 1) = 0) :
    (parseInterfaces env xs.length s).Returns
      (none, { buf := s.buf + s.buflen, buflen := 0, intfs := s.intfs ++ xs.map IntfBlock.tree }) := by
  induction xs generalizing s with
  | nil =>
    have h0 : s.buflen = 0 := hlen
    obtain ⟨buf, buflen, intfs⟩ := s
    subst h0
    simp [parseInterfaces]
  | cons x xs ih =>
    have hx := parse_interface_recovers halloc s.intfs.length x xs
      (fun y hy h => (List.nodup_cons.mp hnum).1 (h ▸ List.mem_map_of_mem hy)) hmem hlen hlt hend
    have hdescs : (altsList (x :: xs)).flatMap AltBlock.descs = x.descs ++ (altsList xs).flatMap AltBlock.descs := by
      rw [← descs_alts_list, List.flatMap_cons, descs_alts_list]
    rw [hdescs, flat_append] at hmem hlen
    have hl : s.buflen = (flat x.descs).length + (flat ((altsList xs).flatMap AltBlock.descs)).length := by
      rw [hlen, List.length_append]
    have h9 := length_descs_alt x.first
    have hpos : (flat x.descs).length = (flat x.first.descs).length + (flat (x.others.flatMap AltBlock.descs)).length := by
      rw [IntfBlock.descs, IntfBlock.alts, List.flatMap_cons, flat_append, List.length_append]
    have hend' : s.buf + (flat x.descs).length + ((s.buflen - (flat x.descs).length : ℕ) : ℤ) = s.buf + s.buflen := by
      omega
    have hrec := ih (List.nodup_cons.mp hnum).2
      { buf := s.buf + (flat x.descs).length, buflen := s.buflen - (flat x.descs).length,
        intfs := s.intfs ++ [x.tree] }
      (holds_append.mp hmem).2 (by dsimp only; omega) (by dsimp only; omega) (by dsimp only; rw [hend']; exact hend)
    rw [List.length_cons, parseInterfaces, if_neg (by omega), Nat.mod_eq_of_lt (show s.buflen < 2 ^ 32 by omega),
      hx.bind_iff]
    dsimp only
    rw [if_neg (by omega), returns_emit_bind, Int.toNat_natCast, CInt.sub_of_le (by omega) (by omega)]
    dsimp only at hrec
    rw [hend', List.append_assoc] at hrec
    exact hrec

end Interfaces

/-! ## Configurations -/

section Configurations

variable {env : Env} (c : WfConfig)

theorem length_bytes_config : c.bytes.length =
    9 + (flat (c.extras.map Extra.toDesc ++ (altsList c.intfs).flatMap AltBlock.descs)).length := by
  rw [WfConfig.bytes, WfConfig.descs, length_flat_cons, c.size_eq, descs_alts_list]; rfl

theorem length_bytes_lt : c.bytes.length < 65536 := by
  have h : (c.desc.byte 2).toNat + 256 * (c.desc.byte 3).toNat = c.bytes.length := c.wTotalLength
  have := (c.desc.byte 2).toNat_lt
  have := (c.desc.byte 3).toNat_lt
  omega

/-- The configuration struct that the parser fills is the one the blob describes. -/
theorem parse_config_desc {buflen : ℕ} {d : UsbConfigDesc} (hmem : Holds env.mem 0 c.bytes) (hle : 9 ≤ buflen)
    (hlt : buflen < 2 ^ 32) :
    (parseInto env UsbConfigDesc.store fmtConfig sizeofConfigDesc 0 buflen d).Returns c.descStruct := by
  have hs : c.desc.size = 9 := c.size_eq
  have hb : ∀ k < c.desc.size, env.mem (0 + (k : ℕ)) = c.desc.byte k := fun k hk => hmem.desc hk
  have h0 : env.mem 0 = c.desc.byte 0 := hmem.desc_zero
  have h1 : env.mem 1 = c.desc.byte 1 := hb 1 (by omega)
  have h2 : env.mem 2 = c.desc.byte 2 := hb 2 (by omega)
  have h3 : env.mem 3 = c.desc.byte 3 := hb 3 (by omega)
  have h4 : env.mem 4 = c.desc.byte 4 := hb 4 (by omega)
  have h5 : env.mem 5 = c.desc.byte 5 := hb 5 (by omega)
  have h6 : env.mem 6 = c.desc.byte 6 := hb 6 (by omega)
  have h7 : env.mem 7 = c.desc.byte 7 := hb 7 (by omega)
  have h8 : env.mem 8 = c.desc.byte 8 := hb 8 (by omega)
  rw [returns_parseConfig hlt hle]
  simp [WfConfig.descStruct, configAt, le16At, h0, h1, h2, h3, h4, h5, h6, h7, h8]

/-- The interfaces of the configuration are all consumed. -/
theorem cfg_interfaces_recovers (halloc : ∀ s, env.alloc s = true) (cfg : UsbiConfig)
    (hcfg : cfg.num_interfaces = c.intfs.length) {buf : ℤ} {buflen : ℕ}
    (hmem : Holds env.mem buf (flat ((altsList c.intfs).flatMap AltBlock.descs)))
    (hlen : buflen = (flat ((altsList c.intfs).flatMap AltBlock.descs)).length) (hlt : buflen < 2 ^ 31)
    (hend : env.mem (buf + buflen + 1) = 0) : (cfgInterfaces env cfg buf buflen).Returns
      (0, { cfg with interfaces := .live c.intfs.length (c.intfs.map IntfBlock.tree) }) := by
  have h := parse_interfaces_recovers halloc c.intfs c.numbers_nodup { buf := buf, buflen := buflen } hmem hlen hlt hend
  rw [cfgInterfaces, hcfg, h.bind_iff]
  simp [CInt.toI32]

/-- Run on the blob, `usbi_parse_configuration` returns the tree. -/
theorem parse_configuration_returns (hmem : Holds env.mem 0 c.bytes)
    (hslack : ∀ p : ℕ, c.bytes.length ≤ p → p < c.bytes.length + 65536 → env.mem p = 0)
    (halloc : ∀ s, env.alloc s = true) : (usbiParseConfiguration env {} 0 c.bytes.length).Returns (0, c.tree) := by
  have hs : c.desc.size = 9 := c.size_eq
  have hlt := length_bytes_lt c
  have hl := length_bytes_config c
  have hl' : (flat (c.extras.map Extra.toDesc ++ (altsList c.intfs).flatMap AltBlock.descs)).length =
      extraLen c.extras + (flat ((altsList c.intfs).flatMap AltBlock.descs)).length := by
    rw [flat_append, List.length_append, extraLen]
  have hbyte : (env.mem 0).toNat = c.desc.size := hmem.desc_size
  have hmem' : Holds env.mem (0 + c.desc.size)
      (flat (c.extras.map Extra.toDesc ++ (altsList c.intfs).flatMap AltBlock.descs)) := by
    rw [← descs_alts_list]; exact hmem.tail
  have hmem'' : Holds env.mem (0 + c.desc.size + extraLen c.extras)
      (flat ((altsList c.intfs).flatMap AltBlock.descs)) := by
    rw [flat_append] at hmem'
    exact (holds_append.mp hmem').2
  have hend : env.mem (0 + c.desc.size + extraLen c.extras +
      (flat ((altsList c.intfs).flatMap AltBlock.descs)).length + 1) = 0 := by
    have := hslack (c.bytes.length + 1) (by omega) (by omega)
    rwa [show ((c.bytes.length + 1 : ℕ) : ℤ) = 0 + c.desc.size + extraLen c.extras +
      (flat ((altsList c.intfs).flatMap AltBlock.descs)).length + 1 by omega] at this
  obtain ⟨hd, hskip⟩ := skip_extras (cfgSkipRound env) (by decide)
    (fun c hc => (returns_cfgSkipRound (by omega)).mpr rfl) (head_entry_alts (altsList c.intfs)).proper c.extras
    { buf := 0 + c.desc.size, buflen := c.bytes.length - c.desc.size, parsed := c.desc.size,
      header := headerAt env.mem 0 }
    hmem' (by dsimp only; omega) (by dsimp only; omega)
  have hn : c.descStruct.bNumInterfaces.toNat = c.intfs.length := c.num_intfs
  have hle : ¬ c.intfs.length > USBI_MAXINTERFACES := Nat.not_lt.mpr c.intfs_le
  rw [usbiParseConfiguration, if_neg (by omega), ((returns_parseHeader (by omega)).mpr rfl).bind_iff,
    headerParsed_of_le (by omega), (parse_config_desc c hmem (by omega) (by omega)).bind_iff]
  dsimp only
  rw [hn, if_neg hle, (returns_calloc.mpr rfl).bind_iff, halloc, if_neg (by simp), returns_emit_bind, headerAt_bLength,
    hbyte, CInt.sub_of_le (by omega) (by omega), hskip.bind_iff]
  dsimp only
  cases hx : c.extras with
  | nil =>
    rw [if_pos (show 0 + extraLen [] = 0 from rfl)]
    have := cfg_interfaces_recovers c halloc
      { desc := c.descStruct, num_interfaces := c.intfs.length, interfaces := .live c.intfs.length [],
        extra := .absent } rfl hmem'' rfl (by omega) hend
    simpa [WfConfig.tree, hx, extraTable, extraLen] using this
  | cons x xs =>
    rw [if_neg (by have := extraLen_pos x xs; omega), (returns_calloc.mpr rfl).bind_iff, halloc,
      if_pos rfl, (returns_copyBytes.mpr rfl).bind_iff, Nat.zero_add, ← hx, hmem'.extras]
    have := cfg_interfaces_recovers c halloc
      { desc := c.descStruct, num_interfaces := c.intfs.length, interfaces := .live c.intfs.length [],
        extra := .live (extraLen c.extras) (flat (c.extras.map Extra.toDesc)), extralen := extraLen c.extras }
      rfl hmem'' rfl (by omega) hend
    simpa [WfConfig.tree, hx, extraTable, extraLen] using this

/-- The parser recovers every well-formed configuration that zeros follow. -/
theorem usbi_parse_configuration_recovers (env : Env) (c : WfConfig) (hmem : Holds env.mem 0 c.bytes)
    (hslack : ∀ p : ℕ, c.bytes.length ≤ p → p < c.bytes.length + 65536 → env.mem p = 0)
    (halloc : ∀ s, env.alloc s = true) : (usbiParseConfiguration env {} 0 c.bytes.length).Returns (0, c.tree) :=
  parse_configuration_returns c hmem hslack halloc

end Configurations

theorem usbi_parse_configuration_recovers_audio :
    (usbiParseConfiguration (blobEnv audioConfig.bytes) {} 0 audioConfig.bytes.length).Returns (0, audioConfig.tree) :=
  usbi_parse_configuration_recovers (blobEnv audioConfig.bytes) audioConfig (holds_blobMem audioConfig.bytes)
    (fun _ h _ => blobMem_of_le (Int.ofNat_le.mpr h)) fun _ => rfl

end OpenUsb
