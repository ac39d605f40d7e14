import OpenUsb.Recover
import OpenUsb.Walkers

/-!
# WalkersAgree — the flat walkers against the parsed tree

On a well-formed configuration the walkers find the descriptors that the tree holds.  The interface walker returns the
struct of the tree.  The endpoint walker leaves `bRefresh` and `bSynchAddress` of the caller's struct alone, so it agrees
with the tree exactly where they were right before the call.
-/

namespace OpenUsb

open Prog

/-! ## Building blocks -/

section Blocks

variable {env : Env} {buf : ℤ} {n : ℕ}

@[simp] theorem returns_isAlternate {ifcidx alt : UInt8} {sp : ℤ} {b : Bool} :
    (isAlternate env ifcidx alt sp).Returns b ↔
      b = decide (env.mem (sp + 1) = USB_DESC_TYPE_INTERFACE ∧ env.mem (sp + 2) = ifcidx ∧ env.mem (sp + 3) = alt) := by
  rw [isAlternate, (returns_rd.mpr rfl).bind_iff]
  by_cases h1 : env.mem (sp + 1) = USB_DESC_TYPE_INTERFACE
  · by_cases h2 : env.mem (sp + 2) = ifcidx
    · simp [h1, h2, @eq_comm Bool _ b]
    · simp [h1, h2, @eq_comm Bool _ b]
  · simp [h1, @eq_comm Bool _ b]

theorem returns_parseChecked {D : Type} {store : D → DataStore → D} {fmt : List Char} {m size : ℕ} {d : D} {r : ℤ × D} :
    (parseChecked env store fmt m size buf n d).Returns r ↔
      r = (let out := openusbParseData env.mem (some fmt) (some buf) n (some 0) m true
           (if out.ret = 0 ∧ out.count.getD 0 < size then OPENUSB_PARSE_ERROR else out.ret, out.stores.foldl store d)) := by
  simp [parseChecked, eq_comm]

theorem returns_checkedInterface (h : 9 ≤ n) {d : UsbInterfaceDesc} {r : ℤ × UsbInterfaceDesc} :
    (parseChecked env UsbInterfaceDesc.store fmtInterface sizeofInterfaceDesc USBI_INTERFACE_DESC_SIZE buf n d).Returns r
      ↔ r = (OPENUSB_SUCCESS, interfaceAt env.mem buf) := by
  rw [returns_parseChecked]
  obtain ⟨n, rfl⟩ := Nat.exists_eq_add_of_le' h
  have hsub : buf + 9 - buf = 9 := by omega
  have hcount : ¬ CInt.toU32 9 < 9 := by decide
  simp [openusbParseData, parseChars, parseChar, parseField, fmtInterface, sizeofInterfaceDesc, interfaceAt,
    UsbInterfaceDesc.store, leValue, Int.add_assoc, OPENUSB_SUCCESS, USBI_INTERFACE_DESC_SIZE, hsub, hcount]

theorem returns_checkedEndpoint (h : 7 ≤ n) {d : UsbEndpointDesc} {r : ℤ × UsbEndpointDesc} :
    (parseChecked env UsbEndpointDesc.store fmtEndpoint sizeofEndpointDesc USBI_ENDPOINT_DESC_SIZE buf n d).Returns r
      ↔ r = (OPENUSB_SUCCESS, endpointOver env.mem buf d) := by
  rw [returns_parseChecked]
  obtain ⟨n, rfl⟩ := Nat.exists_eq_add_of_le' h
  have hsub : buf + 7 - buf = 7 := by omega
  have hcount : ¬ CInt.toU32 7 < 7 := by decide
  simp [openusbParseData, parseChars, parseChar, parseField, fmtEndpoint, sizeofEndpointDesc, endpointOver, le16At,
    UsbEndpointDesc.store, leValue, Int.add_assoc, OPENUSB_SUCCESS, USBI_ENDPOINT_DESC_SIZE, hsub, hcount,
    show ¬ n + 3 < 2 by omega]

/-- A walk steps over the descriptor at the cursor. -/
theorem returns_walkStep {α : Type} {fail : α} {w : Walk} {d : Desc} {ds : List Desc}
    (hmem : Holds env.mem w.sp (flat (d :: ds))) (hle : d.size ≤ w.tmplen) (hlt : w.tmplen < 2 ^ 16) :
    (walkStep env w fail).Returns (.again { sp := w.sp + d.size, tmplen := w.tmplen - d.size }) := by
  have h2 := d.two_le_size
  rw [walkStep, (returns_rd.mpr rfl).bind_iff, hmem.desc_size, if_pos ⟨by omega, hle⟩, returns_emit_bind,
    CInt.sub_of_le hlt hle, returns_pure]

end Blocks

/-! ## Walking to an alternate setting -/

/-- The descriptor is that of alternate setting `alt` of interface `ifcidx`. -/
def IsAlt (ifcidx alt : UInt8) (d : Desc) : Prop :=
  d.type = USB_DESC_TYPE_INTERFACE ∧ d.byte 2 = ifcidx ∧ d.byte 3 = alt

/-- A loop over descriptors that steps over each one that is not looked for. -/
def StepsOver (env : Env) (ifcidx alt : UInt8) {α : Type} (body : Walk → Prog Ev (Round Walk α)) : Prop :=
  ∀ (d : Desc) (ds : List Desc) (w : Walk), Holds env.mem w.sp (flat (d :: ds)) → 9 + d.size ≤ w.tmplen →
    w.tmplen < 2 ^ 16 → ¬ IsAlt ifcidx alt d → (d.type = USB_DESC_TYPE_INTERFACE → 9 ≤ d.size) →
    (body w).Returns (.again { sp := w.sp + d.size, tmplen := w.tmplen - d.size })

section Walking

variable {env : Env} {ifcidx alt : UInt8}

/-- The test for the alternate setting fails on any other descriptor. -/
theorem not_isAlternate {d : Desc} {ds : List Desc} {sp : ℤ} (hmem : Holds env.mem sp (flat (d :: ds)))
    (hd : ¬ IsAlt ifcidx alt d) (h9 : d.type = USB_DESC_TYPE_INTERFACE → 9 ≤ d.size) :
    (isAlternate env ifcidx alt sp).Returns false := by
  rw [returns_isAlternate, eq_comm, decide_eq_false_iff_not]
  rintro ⟨h1, h2, h3⟩
  rw [hmem.desc_one] at h1
  have hs := h9 h1
  exact hd ⟨h1, (hmem.desc (k := 2) (by omega)).symm.trans h2, (hmem.desc (k := 3) (by omega)).symm.trans h3⟩

theorem interfaceWalk_steps_over (ifcdesc : UsbInterfaceDesc) :
    StepsOver env ifcidx alt (interfaceWalk env ifcidx alt ifcdesc) := by
  intro d ds w hmem hle hlt hd h9
  rw [interfaceWalk, if_pos (by omega), (not_isAlternate hmem hd h9).bind_iff, if_neg (by simp)]
  exact returns_walkStep hmem (by omega) hlt

theorem endpointWalk_steps_over (ret : ℤ) (eptidx : UInt8) (eptdesc : UsbEndpointDesc) :
    StepsOver env ifcidx alt (endpointWalk env ret ifcidx alt eptidx eptdesc) := by
  intro d ds w hmem hle hlt hd h9
  rw [endpointWalk, if_pos (by omega), (not_isAlternate hmem hd h9).bind_iff, if_neg (by simp)]
  exact returns_walkStep hmem (by omega) hlt

/-- A walk over descriptors that are not looked for arrives behind them. -/
theorem walk_over {α : Type} {body : Walk → Prog Ev (Round Walk α)} (hbody : StepsOver env ifcidx alt body)
    {post : List Desc} {r : α} (pre : List Desc) (hpre : ∀ d ∈ pre, ¬ IsAlt ifcidx alt d)
    (h9 : ∀ d ∈ pre, d.type = USB_DESC_TYPE_INTERFACE → 9 ≤ d.size) (w : Walk)
    (hmem : Holds env.mem w.sp (flat (pre ++ post))) (hle : (flat pre).length + 9 ≤ w.tmplen) (hlt : w.tmplen < 2 ^ 16)
    (h : (loop body { sp := w.sp + (flat pre).length, tmplen := w.tmplen - (flat pre).length }).Returns r) :
    (loop body w).Returns r := by
  induction pre generalizing w with
  | nil => simpa using h
  | cons d ds ih =>
    have hl := length_flat_cons d ds
    have hstep := hbody d (ds ++ post) w hmem (by omega) hlt (hpre d List.mem_cons_self) (h9 d List.mem_cons_self)
    refine returns_loop.mpr (Or.inr ⟨_, hstep, ?_⟩)
    refine ih (fun x hx => hpre x (List.mem_cons_of_mem d hx)) (fun x hx => h9 x (List.mem_cons_of_mem d hx)) _
      hmem.tail (by dsimp only; omega) (by dsimp only; omega) ?_
    dsimp only
    rwa [show w.sp + d.size + (flat ds).length = w.sp + (flat (d :: ds)).length by omega,
      show w.tmplen - d.size - (flat ds).length = w.tmplen - (flat (d :: ds)).length by omega]

/-- The descriptors before an alternate setting are not taken for it. -/
theorem split_at_alt (c : WfConfig) {x : IntfBlock} (hx : x ∈ c.intfs) {a : AltBlock} (ha : a ∈ x.alts) :
    ∃ pre post : List Desc, c.descs = pre ++ (a.descs ++ post) ∧
      (∀ d ∈ pre, ¬ IsAlt x.number a.value d) ∧ ∀ d ∈ pre, d.type = USB_DESC_TYPE_INTERFACE → 9 ≤ d.size := by
  obtain ⟨xs, ys, hintfs⟩ := List.append_of_mem hx
  obtain ⟨as, bs, halts⟩ := List.append_of_mem ha
  have hnum := c.numbers_nodup
  have hvals : (x.alts.map AltBlock.value).Nodup := by
    rw [IntfBlock.alts, List.map_cons, List.nodup_cons, x.first_value]
    refine ⟨fun h => ?_, x.values_nodup⟩
    obtain ⟨b, hb, hb0⟩ := List.mem_map.mp h
    exact x.value_ne b hb hb0
  rw [hintfs, List.map_append, List.map_cons] at hnum
  rw [halts, List.map_append, List.map_cons] at hvals
  -- every interface descriptor in front belongs to an earlier interface or to an earlier alternate of this one
  have hpre : ∀ b ∈ altsList xs ++ as, ¬ (b.number = x.number ∧ b.value = a.value) := by
    rintro b hb ⟨hn, hv⟩
    rcases List.mem_append.mp hb with hb | hb
    · obtain ⟨y, hy, hb⟩ := List.mem_flatMap.mp hb
      rw [y.number_of_mem hb] at hn
      exact (List.nodup_append.mp hnum).2.2 _ (List.mem_map_of_mem hy) _ List.mem_cons_self hn
    · exact (List.nodup_append.mp hvals).2.2 _ (List.mem_map_of_mem hb) _ List.mem_cons_self hv
  have hdescs : c.intfs.flatMap IntfBlock.descs =
      (altsList xs ++ as).flatMap AltBlock.descs ++ (a.descs ++ (bs ++ altsList ys).flatMap AltBlock.descs) := by
    rw [descs_alts_list, hintfs, altsList, List.flatMap_append, List.flatMap_cons, halts]
    simp [altsList]
  refine ⟨c.desc :: (c.extras.map Extra.toDesc ++ (altsList xs ++ as).flatMap AltBlock.descs),
    (bs ++ altsList ys).flatMap AltBlock.descs, ?_, ?_, ?_⟩
  · rw [WfConfig.descs, hdescs]; simp
  · intro d hd hmatch
    rcases List.mem_cons.mp hd with rfl | hd
    · exact absurd (hmatch.1.symm.trans c.type_eq) (by decide)
    · rcases List.mem_append.mp hd with hd | hd
      · exact extras_not_interface hd hmatch.1
      · obtain ⟨b, hb, hd⟩ := List.mem_flatMap.mp hd
        rw [AltBlock.eq_desc hd hmatch.1] at hmatch
        exact hpre b hb hmatch.2
  · intro d hd ht
    rcases List.mem_cons.mp hd with rfl | hd
    · exact absurd (ht.symm.trans c.type_eq) (by decide)
    · rcases List.mem_append.mp hd with hd | hd
      · exact absurd ht (extras_not_interface hd)
      · exact nine_le_size _ d hd ht

end Walking

/-! ## Finding an endpoint -/

/-- The number of endpoint descriptors. -/
def epsOf (ds : List Desc) : ℕ := ds.countP fun d => d.type = USB_DESC_TYPE_ENDPOINT

theorem eps_of_cons (d : Desc) (ds : List Desc) :
    epsOf (d :: ds) = epsOf ds + if d.type = USB_DESC_TYPE_ENDPOINT then 1 else 0 := by
  simp [epsOf, List.countP_cons]

theorem eps_of_append (ds es : List Desc) : epsOf (ds ++ es) = epsOf ds + epsOf es := List.countP_append

theorem eps_of_extras (xs : List Extra) : epsOf (xs.map Extra.toDesc) = 0 := by
  refine List.countP_eq_zero.mpr fun d hd => ?_
  obtain ⟨x, -, rfl⟩ := List.mem_map.mp hd
  have := x.not_proper
  simp_all [ProperType]

theorem eps_of_endpoints (es : List EpBlock) : epsOf (es.flatMap EpBlock.descs) = es.length := by
  induction es with
  | nil => rfl
  | cons e es ih =>
    rw [List.flatMap_cons, eps_of_append, ih, EpBlock.descs, eps_of_cons, eps_of_extras, if_pos e.type_eq,
      List.length_cons, Nat.zero_add, Nat.add_comm]

section Nth

variable {env : Env} (buffer : ℤ)

/-- `usbi_nth_desc` steps over a descriptor, and counts it if it is an endpoint. -/
theorem nth_steps {d : Desc} {ds : List Desc} {w : Nth} (hmem : Holds env.mem w.sp (flat (d :: ds)))
    (hle : d.size ≤ w.buflen) (hlt : w.buflen < 2 ^ 16) (hstop : w.sp = buffer ∨ d.type ≠ USB_DESC_TYPE_INTERFACE)
    (hn : d.type = USB_DESC_TYPE_ENDPOINT → 0 < w.n) :
    (nthRound env buffer USB_DESC_TYPE_ENDPOINT USB_DESC_TYPE_INTERFACE w).Returns
      (.again { sp := w.sp + d.size, buflen := w.buflen - d.size,
                n := if d.type = USB_DESC_TYPE_ENDPOINT then w.n - 1 else w.n }) := by
  have h2 := d.two_le_size
  rw [nthRound, if_pos (by omega), (returns_rd.mpr rfl).bind_iff, hmem.desc_one,
    if_neg (fun h => hstop.elim h.1 fun hne => hne h.2), if_neg (fun h => absurd (hn h.1) (by omega)),
    (returns_rd.mpr rfl).bind_iff, hmem.desc_size, if_neg (by omega), returns_emit_bind, CInt.sub_of_le hlt hle,
    returns_pure]

/-- `usbi_nth_desc` arrives behind the descriptors in front of the endpoint. -/
theorem nth_over {post : List Desc} {r : Option ℤ} (pre : List Desc)
    (hpre : ∀ d ∈ pre, d.type ≠ USB_DESC_TYPE_INTERFACE) (w : Nth) (hmem : Holds env.mem w.sp (flat (pre ++ post)))
    (hle : (flat pre).length ≤ w.buflen) (hlt : w.buflen < 2 ^ 16) (hn : epsOf pre ≤ w.n)
    (h : (loop (nthRound env buffer USB_DESC_TYPE_ENDPOINT USB_DESC_TYPE_INTERFACE)
      { sp := w.sp + (flat pre).length, buflen := w.buflen - (flat pre).length, n := w.n - epsOf pre }).Returns r) :
    (loop (nthRound env buffer USB_DESC_TYPE_ENDPOINT USB_DESC_TYPE_INTERFACE) w).Returns r := by
  induction pre generalizing w with
  | nil => simpa [epsOf] using h
  | cons d ds ih =>
    have hl := length_flat_cons d ds
    have hc := eps_of_cons d ds
    have hpos : d.type = USB_DESC_TYPE_ENDPOINT → 0 < w.n := fun ht => by rw [if_pos ht] at hc; omega
    have hstep := nth_steps buffer hmem (by omega) hlt (Or.inr (hpre d List.mem_cons_self)) hpos
    refine returns_loop.mpr (Or.inr ⟨_, hstep, ?_⟩)
    have hcount : (if d.type = USB_DESC_TYPE_ENDPOINT then w.n - 1 else w.n) =
        w.n - if d.type = USB_DESC_TYPE_ENDPOINT then 1 else 0 := by split_ifs <;> rfl
    refine ih (fun x hx => hpre x (List.mem_cons_of_mem d hx)) _ hmem.tail (by dsimp only; omega) (by dsimp only; omega)
      (by dsimp only; omega) ?_
    dsimp only
    rwa [show w.sp + d.size + (flat ds).length = w.sp + (flat (d :: ds)).length by omega,
      show w.buflen - d.size - (flat ds).length = w.buflen - (flat (d :: ds)).length by omega, hcount,
      show (w.n - if d.type = USB_DESC_TYPE_ENDPOINT then 1 else 0) - epsOf ds = w.n - epsOf (d :: ds) by omega]

/-- An alternate setting cut at one of its endpoints. -/
theorem descs_alt_split {a : AltBlock} {es fs : List EpBlock} {e : EpBlock} (heps : a.eps = es ++ e :: fs)
    (post : List Desc) : a.descs ++ post = a.desc :: ((a.extras.map Extra.toDesc ++ es.flatMap EpBlock.descs) ++
      (e.descs ++ (fs.flatMap EpBlock.descs ++ post))) := by
  simp [AltBlock.descs, heps]

theorem length_alt_split {a : AltBlock} {es fs : List EpBlock} {e : EpBlock} (heps : a.eps = es ++ e :: fs) :
    9 + extraLen a.extras + (flat (es.flatMap EpBlock.descs)).length + (flat e.descs).length ≤
      (flat a.descs).length := by
  rw [length_descs_alt, heps, List.flatMap_append, List.flatMap_cons, flat_append, flat_append, List.length_append,
    List.length_append]
  omega

theorem length_alt_head (a : AltBlock) (es : List EpBlock) :
    (flat (a.extras.map Extra.toDesc ++ es.flatMap EpBlock.descs)).length =
      extraLen a.extras + (flat (es.flatMap EpBlock.descs)).length := by
  rw [flat_append, List.length_append, extraLen]

theorem Holds.endpoint {mem : ℤ → UInt8} {p : ℤ} {a : AltBlock} {es fs : List EpBlock} {e : EpBlock}
    (heps : a.eps = es ++ e :: fs) {post : List Desc} (hmem : Holds mem p (flat (a.descs ++ post))) :
    Holds mem (p + (9 + extraLen a.extras + (flat (es.flatMap EpBlock.descs)).length : ℕ))
      (flat (e.descs ++ (fs.flatMap EpBlock.descs ++ post))) := by
  rw [descs_alt_split heps] at hmem
  have h := hmem.tail
  rw [flat_append, holds_append, length_alt_head, a.size_eq, Int.add_assoc, ← Int.natCast_add, ← Nat.add_assoc] at h
  exact h.2

/-- `usbi_nth_desc` finds the endpoint that `es` precede. -/
theorem nth_recovers {a : AltBlock} {es fs : List EpBlock} {e : EpBlock} (heps : a.eps = es ++ e :: fs) {post : List Desc}
    {buflen : ℕ} (hmem : Holds env.mem buffer (flat (a.descs ++ post))) (hle : (flat a.descs).length ≤ buflen)
    (hlt : buflen < 2 ^ 16) {n : UInt8} (hn : n.toNat = es.length) :
    (usbiNthDesc env buffer buflen USB_DESC_TYPE_ENDPOINT n USB_DESC_TYPE_INTERFACE).Returns
      (some (buffer + (9 + extraLen a.extras + (flat (es.flatMap EpBlock.descs)).length : ℕ))) := by
  have hs : a.desc.size = 9 := a.size_eq
  have hlen := length_alt_split heps
  have hhead := length_alt_head a es
  have he := length_descs_endpoint e
  have h7 : 7 ≤ e.desc.size := e.size_le
  have hcount : epsOf (a.extras.map Extra.toDesc ++ es.flatMap EpBlock.descs) = es.length := by
    rw [eps_of_append, eps_of_extras, eps_of_endpoints, Nat.zero_add]
  have htarget := hmem.endpoint heps
  rw [descs_alt_split heps] at hmem
  have hstep := nth_steps buffer (w := { sp := buffer, buflen := buflen, n := n.toNat }) hmem
    (by dsimp only; omega) hlt (Or.inl rfl) fun h => absurd (h.symm.trans a.type_eq) (by decide)
  rw [if_neg fun h => absurd (h.symm.trans a.type_eq) (by decide)] at hstep
  refine returns_loop.mpr (Or.inr ⟨_, hstep, ?_⟩)
  refine nth_over buffer (a.extras.map Extra.toDesc ++ es.flatMap EpBlock.descs) ?_ _ hmem.tail (by dsimp only; omega)
    (by dsimp only; omega) (by dsimp only; omega) ?_
  · intro d hd
    exact (List.mem_append.mp hd).elim extras_not_interface endpoints_not_interface
  · refine returns_loop.mpr (Or.inl ?_)
    have ht := htarget.desc_one.trans e.type_eq
    dsimp only
    rw [hhead, hs, hcount, hn, Nat.sub_self, Int.add_assoc, ← Int.natCast_add, ← Nat.add_assoc, nthRound,
      if_pos (by dsimp only; omega), (returns_rd.mpr rfl).bind_iff]
    dsimp only
    rw [ht, if_neg (fun h => absurd h.2 (by decide)), if_pos ⟨rfl, rfl⟩, returns_pure]

end Nth

/-! ## The walkers on a well-formed configuration -/

section Agree

variable {env : Env} {c : WfConfig} {x : IntfBlock} {a : AltBlock}

/-- The buffer that the caller passes is long enough. -/
theorem walkBuffer_config (c : WfConfig) (raw : ℤ × RawDesc) :
    walkBuffer true raw (some 0) c.bytes.length = .ok ⟨0, c.bytes.length⟩ := by
  have hl := length_bytes_config c
  have hle : ¬ c.bytes.length < USBI_CONFIG_DESC_SIZE := by simp only [USBI_CONFIG_DESC_SIZE]; omega
  simp [walkBuffer, hle]

/-- The test for the alternate setting succeeds on its descriptor. -/
theorem isAlternate_of_alt {sp : ℤ} {post : List Desc} (hmem : Holds env.mem sp (flat (a.descs ++ post))) :
    (isAlternate env a.number a.value sp).Returns true := by
  have hs : a.desc.size = 9 := a.size_eq
  rw [returns_isAlternate, eq_comm, decide_eq_true_iff]
  exact ⟨hmem.desc_one.trans a.type_eq, hmem.desc (k := 2) (by omega), hmem.desc (k := 3) (by omega)⟩

/-- A walk over the configuration reaches the alternate setting. -/
theorem walk_to_alt {α : Type} {body : Walk → Prog Ev (Round Walk α)} (hmem : Holds env.mem 0 c.bytes)
    (hx : x ∈ c.intfs) (ha : a ∈ x.alts) (hbody : StepsOver env x.number a.value body) :
    ∃ (p n : ℕ) (post : List Desc), Holds env.mem p (flat (a.descs ++ post)) ∧
      n = (flat (a.descs ++ post)).length ∧ n < 2 ^ 16 ∧
      ∀ r, (loop body { sp := p, tmplen := n }).Returns r →
        (loop body { sp := 0, tmplen := c.bytes.length }).Returns r := by
  obtain ⟨pre, post, hdescs, hpre, h9⟩ := split_at_alt c hx ha
  have hbytes : c.bytes = flat pre ++ flat (a.descs ++ post) := by rw [WfConfig.bytes, hdescs, flat_append]
  have hlen : c.bytes.length = (flat pre).length + (flat (a.descs ++ post)).length := by
    rw [hbytes, List.length_append]
  have hlt := length_bytes_lt c
  have h9' : 9 ≤ (flat (a.descs ++ post)).length := by
    have := length_descs_alt a
    rw [flat_append, List.length_append]; omega
  refine ⟨(flat pre).length, (flat (a.descs ++ post)).length, post, ?_, rfl, by omega, fun r h => ?_⟩
  · rw [hbytes, holds_append, Int.zero_add] at hmem
    exact hmem.2
  · have hmem' : Holds env.mem 0 (flat (pre ++ (a.descs ++ post))) := by rw [flat_append, ← hbytes]; exact hmem
    refine walk_over hbody pre hpre h9 _ hmem' (by dsimp only; omega) (by dsimp only; omega) ?_
    · dsimp only
      rwa [Int.zero_add, show c.bytes.length - (flat pre).length = (flat (a.descs ++ post)).length by omega]

/-- `openusb_parse_interface_desc` returns the interface descriptor of the tree. -/
theorem parse_interface_desc_recovers (hmem : Holds env.mem 0 c.bytes) (hx : x ∈ c.intfs) (ha : a ∈ x.alts)
    (raw : ℤ × RawDesc) (d : UsbInterfaceDesc) :
    (openusbParseInterfaceDesc env true raw (some 0) c.bytes.length x.number a.value d).Returns
      (OPENUSB_SUCCESS, a.descStruct) := by
  obtain ⟨p, n, post, hp, hn, hlt, hrun⟩ := walk_to_alt hmem hx ha (interfaceWalk_steps_over d)
  have hl := length_descs_alt a
  rw [flat_append, List.length_append] at hn
  rw [openusbParseInterfaceDesc, walkBuffer_config]
  refine hrun _ (returns_loop.mpr (Or.inl ?_))
  have hfound := isAlternate_of_alt hp
  rw [x.number_of_mem ha] at hfound
  rw [interfaceWalk, if_pos (by dsimp only; omega), hfound.bind_iff, if_pos rfl,
    ((returns_checkedInterface (by dsimp only; omega)).mpr rfl).bind_iff, interface_at_eq a hp, returns_pure]

/-- `openusb_parse_endpoint_desc` returns the endpoint descriptor of the tree, with the caller's audio fields. -/
theorem parse_endpoint_desc_recovers (hmem : Holds env.mem 0 c.bytes) (hx : x ∈ c.intfs) (ha : a ∈ x.alts) {k : ℕ}
    {e : EpBlock} (he : a.eps[k]? = some e) (raw : ℤ × RawDesc) (d : UsbEndpointDesc) :
    (openusbParseEndpointDesc env true raw (some 0) c.bytes.length x.number a.value (.ofNat k) d).Returns
      (OPENUSB_SUCCESS, { e.descStruct with bRefresh := d.bRefresh, bSynchAddress := d.bSynchAddress }) := by
  obtain ⟨hk, rfl⟩ := List.getElem?_eq_some_iff.mp he
  have heps : a.eps = a.eps.take k ++ a.eps[k] :: a.eps.drop (k + 1) := by
    rw [List.getElem_cons_drop, List.take_append_drop]
  have hk32 : a.eps.length ≤ 32 := a.eps_le
  have hidx : (UInt8.ofNat k).toNat = (a.eps.take k).length := by
    rw [UInt8.toNat_ofNat', List.length_take, Nat.mod_eq_of_lt (by omega)]; omega
  obtain ⟨p, n, post, hp, hn, hlt, hrun⟩ := walk_to_alt hmem hx ha
    (endpointWalk_steps_over OPENUSB_PARSE_ERROR (.ofNat k) d)
  have hl := length_descs_alt a
  have hs : a.desc.size = 9 := a.size_eq
  rw [flat_append, List.length_append] at hn
  rw [openusbParseEndpointDesc, walkBuffer_config]
  refine hrun _ (returns_loop.mpr (Or.inl ?_))
  have hfound := isAlternate_of_alt hp
  rw [x.number_of_mem ha] at hfound
  have hcount : env.mem (p + 4) = a.desc.byte 4 := hp.desc (k := 4) (by omega)
  have hlt' : ¬ UInt8.ofNat k ≥ a.desc.byte 4 := by
    rw [ge_iff_le, UInt8.le_iff_toNat_le, a.num_eps, hidx, List.length_take]; omega
  have htarget := hp.endpoint heps
  have hsplit := length_alt_split heps
  have hsize := length_descs_endpoint a.eps[k]
  have h7 : 7 ≤ a.eps[k].desc.size := a.eps[k].size_le
  generalize hoff : 9 + extraLen a.extras + (flat ((a.eps.take k).flatMap EpBlock.descs)).length = off
    at htarget hsplit
  have hnth := nth_recovers p heps hp (show (flat a.descs).length ≤ n by omega) hlt hidx
  rw [hoff] at hnth
  rw [endpointWalk, if_pos (by dsimp only; omega), hfound.bind_iff, if_pos rfl, (returns_rd.mpr rfl).bind_iff, hcount,
    if_neg hlt', hnth.bind_iff]
  dsimp only
  rw [returns_emit_bind, show ((p : ℤ) + off - p).toNat = off by omega, CInt.sub_of_le hlt (by omega),
    ((returns_checkedEndpoint (by omega)).mpr rfl).bind_iff, endpoint_over_eq _ htarget, returns_pure]

end Agree

/-! ## Agreement -/

/-- The parser succeeds, and the walkers called on the same bytes return the descriptors of its tree.  `d0` and `e0`
are what the structs that the caller passes hold before the calls. -/
def WalkersAgree (env : Env) (buflen : ℕ) (raw : ℤ × RawDesc) (d0 : ℕ → ℕ → UsbInterfaceDesc)
    (e0 : ℕ → ℕ → ℕ → UsbEndpointDesc) : Prop :=
  ∃ cfg, (usbiParseConfiguration env {} 0 buflen).Returns (OPENUSB_SUCCESS, cfg) ∧
    ∀ i intf, cfg.interfaces.entries[i]? = some intf → ∀ j as, intf.altsettings.entries[j]? = some as →
      (openusbParseInterfaceDesc env true raw (some 0) buflen (.ofNat i) as.desc.bAlternateSetting (d0 i j)).Returns
        (OPENUSB_SUCCESS, as.desc) ∧
      ∀ k ep, as.endpoints.entries[k]? = some ep →
        (openusbParseEndpointDesc env true raw (some 0) buflen (.ofNat i) as.desc.bAlternateSetting (.ofNat k)
          (e0 i j k)).Returns (OPENUSB_SUCCESS, ep.desc)

/-- The caller's endpoint structs already hold the audio fields: bytes 7 and 8 of a descriptor of 9 or more bytes, and
zeros for a shorter one. -/
def AudioFieldsHeld (c : WfConfig) (e0 : ℕ → ℕ → ℕ → UsbEndpointDesc) : Prop :=
  ∀ i x, c.intfs[i]? = some x → ∀ j a, x.alts[j]? = some a → ∀ k e, a.eps[k]? = some e →
    (e0 i j k).bRefresh = (if USBI_ENDPOINT_AUDIO_DESC_SIZE ≤ e.desc.size then e.desc.byte 7 else 0) ∧
    (e0 i j k).bSynchAddress = (if USBI_ENDPOINT_AUDIO_DESC_SIZE ≤ e.desc.size then e.desc.byte 8 else 0)

section Main

variable {env : Env} {c : WfConfig}

theorem endpoint_desc_eq_iff (e : EpBlock) (d : UsbEndpointDesc) :
    ({ e.descStruct with bRefresh := d.bRefresh, bSynchAddress := d.bSynchAddress } : UsbEndpointDesc) = e.descStruct ↔
      d.bRefresh = (if USBI_ENDPOINT_AUDIO_DESC_SIZE ≤ e.desc.size then e.desc.byte 7 else 0) ∧
      d.bSynchAddress = (if USBI_ENDPOINT_AUDIO_DESC_SIZE ≤ e.desc.size then e.desc.byte 8 else 0) := by
  rw [UsbEndpointDesc.mk.injEq]
  simp only [true_and]
  rfl

/-- The entries of the tree are those of the grammar. -/
theorem tree_interface {i : ℕ} {intf : UsbiInterface} (h : c.tree.interfaces.entries[i]? = some intf) :
    ∃ x, c.intfs[i]? = some x ∧ x.tree = intf := by
  simpa [WfConfig.tree, Table.entries] using h

theorem tree_altsetting {x : IntfBlock} {j : ℕ} {as : UsbiAltsetting} (h : x.tree.altsettings.entries[j]? = some as) :
    ∃ a, x.alts[j]? = some a ∧ a.tree = as := by
  simpa [IntfBlock.tree, Table.entries] using h

theorem tree_endpoint {a : AltBlock} {k : ℕ} {ep : UsbiEndpoint} (h : a.tree.endpoints.entries[k]? = some ep) :
    ∃ e, a.eps[k]? = some e ∧ e.tree = ep := by
  simpa [AltBlock.tree, Table.entries] using h

/-- The walkers agree with the tree exactly where the caller's structs held the audio fields before. -/
theorem walkers_agree_iff (hnum : ∀ (i : ℕ) (x : IntfBlock), c.intfs[i]? = some x → x.number = .ofNat i)
    (hmem : Holds env.mem 0 c.bytes)
    (hslack : ∀ p : ℕ, c.bytes.length ≤ p → p < c.bytes.length + 65536 → env.mem p = 0)
    (halloc : ∀ s, env.alloc s = true) (raw : ℤ × RawDesc) (d0 : ℕ → ℕ → UsbInterfaceDesc)
    (e0 : ℕ → ℕ → ℕ → UsbEndpointDesc) :
    WalkersAgree env c.bytes.length raw d0 e0 ↔ AudioFieldsHeld c e0 := by
  have hparse := parse_configuration_returns c hmem hslack halloc
  constructor
  · rintro ⟨cfg, hcfg, hagree⟩ i x hx j a ha k e he
    obtain ⟨-, rfl⟩ := Prod.mk.inj (hcfg.unique hparse)
    have hk := (hagree i x.tree (by simp [WfConfig.tree, Table.entries, hx]) j a.tree
      (by simp [IntfBlock.tree, Table.entries, ha])).2 k e.tree (by simp [AltBlock.tree, Table.entries, he])
    have hret := parse_endpoint_desc_recovers hmem (List.mem_of_getElem? hx) (List.mem_of_getElem? ha) he raw (e0 i j k)
    rw [hnum i x hx] at hret
    exact (endpoint_desc_eq_iff e _).mp (Prod.mk.inj (hret.unique hk)).2
  · intro hheld
    refine ⟨c.tree, hparse, fun i intf hi j as hj => ?_⟩
    obtain ⟨x, hx, rfl⟩ := tree_interface hi
    obtain ⟨a, ha, rfl⟩ := tree_altsetting hj
    have hintf := parse_interface_desc_recovers hmem (List.mem_of_getElem? hx) (List.mem_of_getElem? ha) raw (d0 i j)
    rw [hnum i x hx] at hintf
    refine ⟨hintf, fun k ep hk => ?_⟩
    obtain ⟨e, he, rfl⟩ := tree_endpoint hk
    have hret := parse_endpoint_desc_recovers hmem (List.mem_of_getElem? hx) (List.mem_of_getElem? ha) he raw (e0 i j k)
    rw [hnum i x hx, (endpoint_desc_eq_iff e _).mpr (hheld i x hx j a ha k e he)] at hret
    exact hret

end Main

/-- The interface of `audioConfig` is the one with number 0. -/
theorem audioConfig_numbers : ∀ (i : ℕ) (x : IntfBlock), audioConfig.intfs[i]? = some x → x.number = .ofNat i := by
  intro i x hx
  cases i with
  | zero => obtain rfl : audioInterface = x := Option.some_inj.mp hx; rfl
  | succ i => simp [audioConfig] at hx

theorem audioConfig_slack (p : ℕ) (h : audioConfig.bytes.length ≤ p) (_ : p < audioConfig.bytes.length + 65536) :
    (blobEnv audioConfig.bytes).mem p = 0 := blobMem_of_le (Int.ofNat_le.mpr h)

/-- With structs that hold the audio fields of `audioEndpoint`, the walkers agree. -/
theorem walkers_agree_iff_audio :
    WalkersAgree (blobEnv audioConfig.bytes) audioConfig.bytes.length (-1, ⟨0, 0⟩) (fun _ _ => {})
        (fun _ _ _ => { bRefresh := 3, bSynchAddress := 0x82 }) ↔
      AudioFieldsHeld audioConfig fun _ _ _ => { bRefresh := 3, bSynchAddress := 0x82 } :=
  walkers_agree_iff audioConfig_numbers (holds_blobMem audioConfig.bytes) audioConfig_slack (fun _ => rfl) _ _ _

/-- With zeroed structs they do not: `bRefresh` and `bSynchAddress` stay zero. -/
theorem walkers_disagree_audio : ¬ WalkersAgree (blobEnv audioConfig.bytes) audioConfig.bytes.length (-1, ⟨0, 0⟩)
    (fun _ _ => {}) fun _ _ _ => {} := by
  rintro ⟨cfg, hcfg, hagree⟩
  have hmem : Holds (blobEnv audioConfig.bytes).mem 0 audioConfig.bytes := holds_blobMem audioConfig.bytes
  have hparse := parse_configuration_returns audioConfig hmem audioConfig_slack fun _ => rfl
  obtain ⟨-, rfl⟩ := Prod.mk.inj (hcfg.unique hparse)
  have hk := (hagree 0 audioInterface.tree rfl 1 _ rfl).2 0 audioEndpoint.tree rfl
  have hret := parse_endpoint_desc_recovers hmem (x := audioInterface) (k := 0) (e := audioEndpoint)
    (List.mem_singleton.mpr rfl) (List.mem_cons_of_mem _ List.mem_cons_self) rfl
    (-1, ⟨0, 0⟩) {}
  have heq := (Prod.mk.inj (hret.unique hk)).2
  exact absurd (congrArg UsbEndpointDesc.bRefresh heq) (by decide)

end OpenUsb
