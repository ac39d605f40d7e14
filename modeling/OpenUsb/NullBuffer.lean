import OpenUsb.Fetch
import OpenUsb.WalkersAgree

/-!
# NullBuffer — the parsing functions without a buffer

Without a buffer the four parsing functions fetch the raw descriptor themselves, and do not check its length as they
check that of a buffer.  The formats make up for it: a short descriptor is not decoded.  What is left is
`openusb_parse_endpoint_desc`, whose `ret` still holds the success of the fetch when its walk runs off the end of the
descriptors, and which can find an endpoint in eight bytes.
-/

namespace OpenUsb

open Prog

/-- The backend's `get_raw_desc`, when the device is known and its backend has one. -/
abbrev RawSource := Option (Option (UInt8 → UInt8 → ℤ × RawDesc))

/-- `openusb_get_raw_desc`: the device may be unknown, and its backend may have no such operation. -/
def openusbGetRawDesc (hdl : Bool) (idev : RawSource) (type descidx : UInt8) : ℤ × RawDesc :=
  if !hdl then (OPENUSB_INVALID_HANDLE, ⟨0, 0⟩)
  else match idev with
    | none => (OPENUSB_UNKNOWN_DEVICE, ⟨0, 0⟩)
    | some none => (OPENUSB_PARSE_ERROR, ⟨0, 0⟩)
    | some (some getRawDesc) => getRawDesc type descidx

variable (env : Env)

/-- The shape of the two functions that decode the head of a raw descriptor. -/
def parseHead {D : Type} (store : D → DataStore → D) (fmt : List Char) (destlen size : ℕ) (hdl : Bool) (raw : ℤ × RawDesc)
    (buffer : Option ℤ) (buflen : ℕ) (d : D) : Prog Ev (ℤ × D) :=
  if !hdl then pure (OPENUSB_INVALID_HANDLE, d)
  else match buffer with
    | none => if raw.1 < 0 then pure (raw.1, d) else parseChecked env store fmt destlen size raw.2.buf raw.2.len d
    | some buf => if buflen < size then pure (OPENUSB_BADARG, d) else parseChecked env store fmt destlen size buf buflen d

/-- `openusb_parse_device_desc`. -/
def openusbParseDeviceDesc (hdl : Bool) (raw : ℤ × RawDesc) (buffer : Option ℤ) (buflen : ℕ) (devdesc : UsbDeviceDesc) :
    Prog Ev (ℤ × UsbDeviceDesc) :=
  parseHead env UsbDeviceDesc.store fmtDevice sizeofDeviceDesc USBI_DEVICE_DESC_SIZE hdl raw buffer buflen devdesc

/-- `openusb_parse_config_desc`. -/
def openusbParseConfigDesc (hdl : Bool) (raw : ℤ × RawDesc) (buffer : Option ℤ) (buflen : ℕ) (cfgdesc : UsbConfigDesc) :
    Prog Ev (ℤ × UsbConfigDesc) :=
  parseHead env UsbConfigDesc.store fmtConfig sizeofConfigDesc USBI_CONFIG_DESC_SIZE hdl raw buffer buflen cfgdesc

/-! ## Formats and lengths -/

/-- The bytes that a format decodes. -/
def fmtSize : List Char → ℕ
  | [] => 0
  | c :: cs => (if c = 'b' then 1 else if c = 'w' ∨ c = 'W' then 2 else if c = 'd' ∨ c = 'D' then 4 else 0) + fmtSize cs

theorem parseField_len {mem : ℤ → UInt8} {dest k mask : ℕ} {s s' : ParseState}
    (h : parseField mem dest k mask s = some s') : k + s'.sourcelen = s.sourcelen := by
  unfold parseField at h
  split_ifs at h with hc
  cases h
  dsimp only
  omega

/-- A format that is decoded to its end has found all its bytes. -/
theorem fmtSize_le {mem : ℤ → UInt8} {dest : ℕ} : ∀ (cs : List Char) (s : ParseState), '.' ∉ cs →
    (parseChars mem dest cs s).1 = true → fmtSize cs ≤ s.sourcelen
  | [], s, _, _ => Nat.zero_le _
  | c :: cs, s, hdot, h => by
    rw [List.mem_cons, not_or] at hdot
    rw [parseChars] at h
    cases hp : parseChar mem dest c s with
    | none =>
      rw [hp] at h
      cases h
    | some s' =>
      rw [hp] at h
      have ih := fmtSize_le cs s' hdot.2 h
      rw [fmtSize]
      unfold parseChar at hp
      rw [if_neg (Ne.symm hdot.1)] at hp
      split_ifs at hp ⊢
      · have := parseField_len hp; omega
      · have := parseField_len hp; omega
      · have := parseField_len hp; omega
      · cases hp; omega

section Calls

variable {env : Env} {D : Type}

/-- A descriptor shorter than its format is not decoded. -/
theorem parseChecked_short {store : D → DataStore → D} {fmt : List Char} {m size n : ℕ} {buf : ℤ} {d : D} {r : ℤ × D}
    (hdot : '.' ∉ fmt) (hn : n < fmtSize fmt) (hr : (parseChecked env store fmt m size buf n d).Returns r) : r.1 < 0 := by
  rw [returns_parseChecked] at hr
  have hfail : (openusbParseData env.mem (some fmt) (some buf) n (some 0) m true).ret = OPENUSB_NO_RESOURCES := by
    rw [openusbParseData]
    cases hp : parseChars env.mem 0 fmt { sp := buf, sourcelen := n, dp := 0, destlen := m } with
    | mk ok s =>
      cases ok with
      | false => rfl
      | true =>
        have hle := @fmtSize_le env.mem 0 fmt
          { sp := buf, sourcelen := n, dp := 0, destlen := m } hdot (by rw [hp])
        exact absurd hle (Nat.not_le.mpr hn)
  rw [hr]
  dsimp only
  rw [hfail, if_neg (fun h => absurd h.1 (by decide))]
  decide

/-! ## Fetching inside and outside -/

/-- The call succeeds and fills in `d`. -/
def Succeeds (p : Prog Ev (ℤ × D)) (d : D) : Prop := ∃ ret, p.Returns (ret, d) ∧ 0 ≤ ret

theorem succeeds_pure {ret : ℤ} (h : ret < 0) {d d' : D} : ¬ Succeeds (pure (ret, d)) d' := by
  rintro ⟨ret', hr, h0⟩
  rw [returns_pure, Prod.mk.injEq] at hr
  exact absurd h0 (not_le.mpr (hr.1 ▸ h))

/-- The call without a buffer succeeds, with the same descriptor, exactly when `openusb_get_raw_desc` succeeds and the
call with the fetched buffer does. -/
def SameAsFetching (raw : ℤ × RawDesc) (call : Option ℤ → ℕ → Prog Ev (ℤ × D)) : Prop :=
  ∀ (buflen : ℕ) (d : D), Succeeds (call none buflen) d ↔ 0 ≤ raw.1 ∧ Succeeds (call (some raw.2.buf) raw.2.len) d

theorem parseHead_same {store : D → DataStore → D} {fmt : List Char} {m size : ℕ} (hdot : '.' ∉ fmt)
    (hsize : fmtSize fmt = size) (hdl : Bool) (raw : ℤ × RawDesc) (d : D) :
    SameAsFetching raw (fun buffer buflen => parseHead env store fmt m size hdl raw buffer buflen d) := by
  intro buflen d'
  cases hdl with
  | false => exact iff_of_false (succeeds_pure (by decide)) fun h => succeeds_pure (by decide) h.2
  | true =>
    dsimp only [parseHead]
    rw [if_neg (show ¬ (!true) = true by decide), if_neg (show ¬ (!true) = true by decide)]
    by_cases hraw : raw.1 < 0
    · rw [if_pos hraw]
      exact iff_of_false (succeeds_pure hraw) fun h => absurd h.1 (not_le.mpr hraw)
    rw [if_neg hraw, and_iff_right (not_lt.mp hraw)]
    by_cases hlen : raw.2.len < size
    · rw [if_pos hlen]
      refine iff_of_false ?_ (succeeds_pure (by decide))
      rintro ⟨ret, hr, h0⟩
      exact absurd h0 (not_le.mpr (parseChecked_short hdot (by omega) hr))
    · rw [if_neg hlen]

theorem returns_walkStep_iff {w : Walk} {fail : D} {r : Round Walk D} : (walkStep env w fail).Returns r ↔
    r = if 0 < (env.mem w.sp).toNat ∧ (env.mem w.sp).toNat ≤ w.tmplen then
        .again { sp := w.sp + (env.mem w.sp).toNat, tmplen := CInt.sub 16 w.tmplen (env.mem w.sp).toNat }
      else .leave fail := by
  rw [walkStep, (returns_rd.mpr rfl).bind_iff]
  split_ifs
  · rw [returns_emit_bind, returns_pure, eq_comm]
  · rw [returns_pure, eq_comm]

theorem parse_error_neg : OPENUSB_PARSE_ERROR < 0 := by decide

theorem badarg_neg : OPENUSB_BADARG < 0 := by decide

/-- No interface is found in less than nine bytes. -/
theorem interfaceWalk_short {ifcidx alt : UInt8} {d : UsbInterfaceDesc} {w : Walk} (hw : w.tmplen < 9)
    {r : ℤ × UsbInterfaceDesc} (hr : (loop (interfaceWalk env ifcidx alt d) w).Returns r) : r.1 < 0 := by
  obtain ⟨s, hs, hleave⟩ := Returns.loop_inv (I := fun s => s.tmplen < 9) (fun s s' hs h => by
    rw [interfaceWalk] at h
    split_ifs at h
    · obtain ⟨found, -, h⟩ := returns_bind.mp h
      split_ifs at h
      · obtain ⟨x, -, h⟩ := returns_bind.mp h
        cases returns_pure.mp h
      · rw [returns_walkStep_iff] at h
        split_ifs at h with hb
        obtain rfl := Round.again.inj h
        dsimp only
        rw [CInt.sub_of_le (by omega) hb.2]
        omega
    · cases returns_pure.mp h) hw hr
  rw [interfaceWalk] at hleave
  split_ifs at hleave
  · obtain ⟨found, -, h⟩ := returns_bind.mp hleave
    split_ifs at h
    · obtain ⟨x, hx, h⟩ := returns_bind.mp h
      obtain rfl := Round.leave.inj (returns_pure.mp h)
      exact parseChecked_short (by decide) (show s.tmplen < 9 from hs) hx
    · rw [returns_walkStep_iff] at h
      split_ifs at h
      obtain rfl := Round.leave.inj h
      exact parse_error_neg
  · obtain rfl := Round.leave.inj (returns_pure.mp hleave)
    exact parse_error_neg

theorem interface_same (hdl : Bool) (raw : ℤ × RawDesc) (ifcidx alt : UInt8) (d : UsbInterfaceDesc) :
    SameAsFetching raw (fun buffer buflen => openusbParseInterfaceDesc env hdl raw buffer buflen ifcidx alt d) := by
  intro buflen d'
  cases hdl with
  | false => exact iff_of_false (succeeds_pure (by decide)) fun h => succeeds_pure (by decide) h.2
  | true =>
    dsimp only [openusbParseInterfaceDesc, walkBuffer]
    rw [if_neg (show ¬ (!true) = true by decide), if_neg (show ¬ (!true) = true by decide)]
    by_cases hraw : raw.1 < 0
    · rw [if_pos hraw]
      exact iff_of_false (succeeds_pure hraw) fun h => absurd h.1 (not_le.mpr hraw)
    rw [if_neg hraw, and_iff_right (not_lt.mp hraw)]
    by_cases hlen : raw.2.len < USBI_CONFIG_DESC_SIZE
    · rw [if_pos hlen]
      refine iff_of_false ?_ (succeeds_pure (by decide))
      rintro ⟨ret, hr, h0⟩
      exact absurd h0 (not_le.mpr (interfaceWalk_short hlen hr))
    · rw [if_neg hlen]

/-! ## Endpoints -/

/-- The descriptor at `sp` is that of alternate setting `alt` of interface `ifcidx`. -/
def AlternateAt (mem : ℤ → UInt8) (ifcidx alt : UInt8) (sp : ℤ) : Prop :=
  mem (sp + 1) = USB_DESC_TYPE_INTERFACE ∧ mem (sp + 2) = ifcidx ∧ mem (sp + 3) = alt

/-- From `sp`, with `n` bytes left, the `bLength`s lead to fewer than five bytes without meeting the alternate setting. -/
inductive RunsOut (mem : ℤ → UInt8) (ifcidx alt : UInt8) : ℤ → ℕ → Prop where
  | out {sp : ℤ} {n : ℕ} (h : n ≤ 4) : RunsOut mem ifcidx alt sp n
  | step {sp : ℤ} {n : ℕ} (h : 4 < n) (hno : ¬ AlternateAt mem ifcidx alt sp) (hpos : 0 < (mem sp).toNat)
      (hle : (mem sp).toNat ≤ n) (hrest : RunsOut mem ifcidx alt (sp + (mem sp).toNat) (n - (mem sp).toNat)) :
      RunsOut mem ifcidx alt sp n

/-- Eight bytes in which an interface descriptor of length 1 is followed by the endpoint descriptor whose type is its
`bInterfaceNumber`. -/
def EndpointInEight (mem : ℤ → UInt8) (ifcidx alt eptidx : UInt8) (sp : ℤ) (n : ℕ) : Prop :=
  n = 8 ∧ mem sp = 1 ∧ AlternateAt mem ifcidx alt sp ∧ ifcidx = USB_DESC_TYPE_ENDPOINT ∧ eptidx = 0 ∧ 0 < mem (sp + 4)

variable {ifcidx alt eptidx : UInt8} {d : UsbEndpointDesc}

/-- A round that goes on has stepped over something else. -/
theorem endpointWalk_again {ret : ℤ} {w w' : Walk} (hw : w.tmplen < 2 ^ 16)
    (h : (endpointWalk env ret ifcidx alt eptidx d w).Returns (.again w')) :
    4 < w.tmplen ∧ ¬ AlternateAt env.mem ifcidx alt w.sp ∧ 0 < (env.mem w.sp).toNat ∧ (env.mem w.sp).toNat ≤ w.tmplen ∧
      w' = { sp := w.sp + (env.mem w.sp).toNat, tmplen := w.tmplen - (env.mem w.sp).toNat } := by
  rw [endpointWalk] at h
  split_ifs at h with h4
  · obtain ⟨found, hfound, h⟩ := returns_bind.mp h
    rw [returns_isAlternate] at hfound
    split_ifs at h with hf
    · obtain ⟨n, -, h⟩ := returns_bind.mp h
      split_ifs at h
      · cases returns_pure.mp h
      · obtain ⟨sp, -, h⟩ := returns_bind.mp h
        cases sp with
        | none => cases returns_pure.mp h
        | some sp =>
          obtain ⟨x, -, h⟩ := returns_bind.mp (returns_emit_bind.mp h)
          cases returns_pure.mp h
    · rw [returns_walkStep_iff] at h
      split_ifs at h with hb
      obtain rfl := Round.again.inj h
      refine ⟨h4, fun halt => hf ?_, hb.1, hb.2, by rw [CInt.sub_of_le hw hb.2]⟩
      rw [hfound]
      exact decide_eq_true halt
  · cases returns_pure.mp h

/-- Only the end of the descriptors makes a difference to the stale value. -/
theorem endpointWalk_ret {w : Walk} (h : 4 < w.tmplen) (ret ret' : ℤ) :
    endpointWalk env ret ifcidx alt eptidx d w = endpointWalk env ret' ifcidx alt eptidx d w := by
  rw [endpointWalk, endpointWalk, if_pos h, if_pos h]

/-- A walk that runs out returns the stale value and leaves the struct alone. -/
theorem RunsOut.returns {sp : ℤ} {n : ℕ} (h : RunsOut env.mem ifcidx alt sp n) (hn : n < 2 ^ 16) (ret : ℤ) :
    (loop (endpointWalk env ret ifcidx alt eptidx d) { sp := sp, tmplen := n }).Returns (ret, d) := by
  induction h with
  | out h =>
    refine returns_loop.mpr (Or.inl ?_)
    rw [endpointWalk, if_neg (by dsimp only; omega), returns_pure]
  | @step sp n h hno hpos hle _ ih =>
    refine returns_loop.mpr (Or.inr ⟨_, ?_, ih (by omega)⟩)
    have hfound : (isAlternate env ifcidx alt sp).Returns false := by
      rw [returns_isAlternate, eq_comm, decide_eq_false_iff_not]
      exact hno
    rw [endpointWalk, if_pos h, hfound.bind_iff, if_neg (by simp), returns_walkStep_iff]
    dsimp only
    rw [if_pos ⟨hpos, hle⟩, CInt.sub_of_le hn hle]

/-- A walk that does not run out does not depend on the stale value. -/
theorem endpoint_walk_stale {ret ret' : ℤ} {w : Walk} {r : ℤ × UsbEndpointDesc}
    (hr : (loop (endpointWalk env ret ifcidx alt eptidx d) w).Returns r) (hw : w.tmplen < 2 ^ 16)
    (hout : ¬ RunsOut env.mem ifcidx alt w.sp w.tmplen) :
    (loop (endpointWalk env ret' ifcidx alt eptidx d) w).Returns r := by
  refine Returns.loop_rec (C := fun w => w.tmplen < 2 ^ 16 → ¬ RunsOut env.mem ifcidx alt w.sp w.tmplen →
    (loop (endpointWalk env ret' ifcidx alt eptidx d) w).Returns r) ?_ ?_ hr hw hout
  · intro w hb _ hout
    have h4 : 4 < w.tmplen := Nat.lt_of_not_le fun h => hout (.out h)
    rw [endpointWalk_ret h4 ret ret'] at hb
    exact returns_loop.mpr (Or.inl hb)
  · intro w w' hb _ ih hw hout
    obtain ⟨h4, hno, hpos, hle, rfl⟩ := endpointWalk_again hw hb
    rw [endpointWalk_ret h4 ret ret'] at hb
    exact returns_loop.mpr (Or.inr ⟨_, hb, ih (by dsimp only; omega) fun h => hout (.step h4 hno hpos hle h)⟩)

/-- What `usbi_nth_desc` knows of its locals after some rounds from an interface descriptor. -/
structure NthInv (mem : ℤ → UInt8) (buffer : ℤ) (buflen : ℕ) (n : ℕ) (w : Nth) : Prop where
  total : w.sp + w.buflen = buffer + buflen
  small : w.buflen < 2 ^ 16
  place : (w.sp = buffer ∧ w.n = n) ∨ 0 < (mem buffer).toNat ∧
    (w.sp = buffer + (mem buffer).toNat ∧ w.n = n ∨ buffer + (mem buffer).toNat < w.sp)

/-- A round of `usbi_nth_desc`. -/
theorem returns_nthRound {buffer : ℤ} {type stop : UInt8} {w : Nth} {r : Round Nth (Option ℤ)} :
    (nthRound env buffer type stop w).Returns r ↔ r =
      if w.buflen < 2 ∨ (w.sp ≠ buffer ∧ env.mem (w.sp + 1) = stop) then .leave none
      else if env.mem (w.sp + 1) = type ∧ w.n = 0 then .leave (some w.sp)
      else if (env.mem w.sp).toNat = 0 ∨ w.buflen < (env.mem w.sp).toNat then .leave none
      else .again { sp := w.sp + (env.mem w.sp).toNat, buflen := CInt.sub 16 w.buflen (env.mem w.sp).toNat,
                    n := if env.mem (w.sp + 1) = type then w.n - 1 else w.n } := by
  rw [nthRound]
  by_cases h2 : w.buflen < 2
  · rw [if_neg (by omega), if_pos (Or.inl h2), returns_pure, eq_comm]
  rw [if_pos (by omega), (returns_rd.mpr rfl).bind_iff]
  by_cases hstop : w.sp ≠ buffer ∧ env.mem (w.sp + 1) = stop
  · rw [if_pos hstop, if_pos (Or.inr hstop), returns_pure, eq_comm]
  rw [if_neg hstop, if_neg (not_or.mpr ⟨h2, hstop⟩)]
  by_cases hfound : env.mem (w.sp + 1) = type ∧ w.n = 0
  · rw [if_pos hfound, if_pos hfound, returns_pure, eq_comm]
  rw [if_neg hfound, if_neg hfound, (returns_rd.mpr rfl).bind_iff]
  by_cases hb : (env.mem w.sp).toNat = 0 ∨ w.buflen < (env.mem w.sp).toNat
  · rw [if_pos hb, if_pos hb, returns_pure, eq_comm]
  · rw [if_neg hb, if_neg hb, returns_emit_bind, returns_pure, eq_comm]

theorem nthInv_step {buffer : ℤ} {buflen n : ℕ} {stop : UInt8} (htype : env.mem (buffer + 1) ≠ USB_DESC_TYPE_ENDPOINT)
    {w w' : Nth} (hw : NthInv env.mem buffer buflen n w)
    (h : (nthRound env buffer USB_DESC_TYPE_ENDPOINT stop w).Returns (.again w')) : NthInv env.mem buffer buflen n w' := by
  rw [returns_nthRound] at h
  by_cases hleave : w.buflen < 2 ∨ (w.sp ≠ buffer ∧ env.mem (w.sp + 1) = stop)
  · rw [if_pos hleave] at h
    cases h
  rw [if_neg hleave] at h
  by_cases hfound : env.mem (w.sp + 1) = USB_DESC_TYPE_ENDPOINT ∧ w.n = 0
  · rw [if_pos hfound] at h
    cases h
  rw [if_neg hfound] at h
  by_cases hb : (env.mem w.sp).toNat = 0 ∨ w.buflen < (env.mem w.sp).toNat
  · rw [if_pos hb] at h
    cases h
  rw [if_neg hb] at h
  obtain rfl := Round.again.inj h
  have hle : (env.mem w.sp).toNat ≤ w.buflen := by omega
  obtain ⟨htotal, hsmall, hplace⟩ := hw
  have hsub := CInt.sub_of_le hsmall hle
  refine ⟨by dsimp only; omega, by dsimp only; omega, Or.inr ?_⟩
  rcases hplace with ⟨hsp, hn⟩ | ⟨hpos, ⟨hsp, -⟩ | hsp⟩
  · rw [hsp] at hb ⊢
    rw [if_neg htype]
    exact ⟨by omega, Or.inl ⟨rfl, hn⟩⟩
  · exact ⟨hpos, Or.inr (by dsimp only; omega)⟩
  · exact ⟨hpos, Or.inr (by dsimp only; omega)⟩

/-- Where `usbi_nth_desc` finds an endpoint. -/
theorem nth_found {buffer : ℤ} {buflen : ℕ} {n stop : UInt8} (hlen : buflen < 2 ^ 16)
    (htype : env.mem (buffer + 1) ≠ USB_DESC_TYPE_ENDPOINT) {sp : ℤ}
    (h : (usbiNthDesc env buffer buflen USB_DESC_TYPE_ENDPOINT n stop).Returns (some sp)) :
    env.mem (sp + 1) = USB_DESC_TYPE_ENDPOINT ∧ sp ≤ buffer + buflen ∧ 0 < (env.mem buffer).toNat ∧
      (sp = buffer + (env.mem buffer).toNat ∧ n.toNat = 0 ∨ buffer + (env.mem buffer).toNat < sp) := by
  obtain ⟨w, hw, hleave⟩ := Returns.loop_inv (I := NthInv env.mem buffer buflen n.toNat)
    (fun w w' hw h => nthInv_step htype hw h) ⟨rfl, hlen, Or.inl ⟨rfl, rfl⟩⟩ h
  rw [returns_nthRound] at hleave
  by_cases hstop : w.buflen < 2 ∨ (w.sp ≠ buffer ∧ env.mem (w.sp + 1) = stop)
  · rw [if_pos hstop] at hleave
    cases hleave
  rw [if_neg hstop] at hleave
  by_cases hfound : env.mem (w.sp + 1) = USB_DESC_TYPE_ENDPOINT ∧ w.n = 0
  · rw [if_pos hfound] at hleave
    obtain rfl := Option.some_inj.mp (Round.leave.inj hleave)
    have htotal := hw.total
    rcases hw.place with ⟨hsp, -⟩ | ⟨hpos, hplace⟩
    · rw [hsp] at hfound
      exact absurd hfound.1 htype
    · exact ⟨hfound.1, by omega, hpos, hplace.imp_left fun h => ⟨h.1, h.2.symm.trans hfound.2⟩⟩
  rw [if_neg hfound] at hleave
  by_cases hb : (env.mem w.sp).toNat = 0 ∨ w.buflen < (env.mem w.sp).toNat
  · rw [if_pos hb] at hleave
    cases hleave
  · rw [if_neg hb] at hleave
    cases hleave

/-- A round that succeeds on at most eight bytes. -/
theorem endpointWalk_in_eight {ret : ℤ} {w : Walk} {r : ℤ × UsbEndpointDesc} (hw : w.tmplen ≤ 8) (h4 : 4 < w.tmplen)
    (h0 : 0 ≤ r.1) (h : (endpointWalk env ret ifcidx alt eptidx d w).Returns (.leave r)) :
    EndpointInEight env.mem ifcidx alt eptidx w.sp w.tmplen := by
  rw [endpointWalk, if_pos h4] at h
  obtain ⟨found, hfound, h⟩ := returns_bind.mp h
  rw [returns_isAlternate] at hfound
  split_ifs at h with hf
  · rw [hf, eq_comm, decide_eq_true_eq] at hfound
    rw [(returns_rd.mpr rfl).bind_iff] at h
    split_ifs at h with hept
    · obtain rfl := Round.leave.inj (returns_pure.mp h)
      exact absurd h0 (not_le.mpr badarg_neg)
    obtain ⟨sp, hnth, h⟩ := returns_bind.mp h
    cases sp with
    | none =>
      obtain rfl := Round.leave.inj (returns_pure.mp h)
      exact absurd h0 (not_le.mpr parse_error_neg)
    | some sp =>
      obtain ⟨x, hx, h⟩ := returns_bind.mp (returns_emit_bind.mp h)
      obtain rfl := Round.leave.inj (returns_pure.mp h)
      have htype : env.mem (w.sp + 1) ≠ USB_DESC_TYPE_ENDPOINT := by
        rw [hfound.1]
        decide
      obtain ⟨hep, hin, hpos, hplace⟩ := nth_found (by omega) htype hnth
      have h7 : 7 ≤ CInt.sub 16 w.tmplen (sp - w.sp).toNat := by
        by_contra hlt
        exact absurd h0 (not_le.mpr (parseChecked_short (by decide) (Nat.lt_of_not_le hlt) hx))
      have hsp : sp = w.sp + 1 ∧ w.tmplen = 8 := by
        rw [CInt.sub_of_le (by omega) (by omega)] at h7
        omega
      obtain ⟨rfl, h8⟩ := hsp
      rcases hplace with ⟨hone, hn⟩ | hlt
      · refine ⟨h8, UInt8.toNat_inj.mp (show _ = 1 by omega), hfound, ?_, UInt8.toNat_inj.mp hn, ?_⟩
        · rw [← hfound.2.1, ← hep, add_assoc]
          rfl
        · have hz : eptidx = 0 := UInt8.toNat_inj.mp hn
          rw [hz] at hept
          exact UInt8.not_le.mp hept
      · omega
  · rw [returns_walkStep_iff] at h
    split_ifs at h
    obtain rfl := Round.leave.inj h
    exact absurd h0 (not_le.mpr parse_error_neg)

/-- A walk over at most eight bytes that succeeds has run out, or has found the endpoint at once. -/
theorem endpoint_in_eight {ret : ℤ} {w : Walk} {r : ℤ × UsbEndpointDesc} (hw : w.tmplen ≤ 8) (h0 : 0 ≤ r.1)
    (hr : (loop (endpointWalk env ret ifcidx alt eptidx d) w).Returns r)
    (hout : ¬ RunsOut env.mem ifcidx alt w.sp w.tmplen) : EndpointInEight env.mem ifcidx alt eptidx w.sp w.tmplen := by
  refine Returns.loop_rec (C := fun w => w.tmplen ≤ 8 → ¬ RunsOut env.mem ifcidx alt w.sp w.tmplen →
    EndpointInEight env.mem ifcidx alt eptidx w.sp w.tmplen) ?_ ?_ hr hw hout
  · intro w hb hw hout
    exact endpointWalk_in_eight hw (Nat.lt_of_not_le fun h => hout (.out h)) h0 hb
  · intro w w' hb _ ih hw hout
    obtain ⟨h4, hno, hpos, hle, rfl⟩ := endpointWalk_again (by omega) hb
    have h8 := (ih (by dsimp only; omega) fun h => hout (.step h4 hno hpos hle h)).1
    dsimp only at h8
    omega

/-- The endpoint found in eight bytes. -/
theorem EndpointInEight.returns {sp : ℤ} {n : ℕ} (h : EndpointInEight env.mem ifcidx alt eptidx sp n) (ret : ℤ) :
    (loop (endpointWalk env ret ifcidx alt eptidx d) { sp := sp, tmplen := n }).Returns
      (OPENUSB_SUCCESS, endpointOver env.mem (sp + 1) d) := by
  obtain ⟨rfl, hone, halt, hifc, rfl, hnum⟩ := h
  have hfound : (isAlternate env ifcidx alt sp).Returns true := by
    rw [returns_isAlternate, eq_comm, decide_eq_true_eq]
    exact halt
  have hep : env.mem (sp + 1 + 1) = USB_DESC_TYPE_ENDPOINT := by
    rw [add_assoc, ← hifc]
    exact halt.2.1
  have hnth : (usbiNthDesc env sp 8 USB_DESC_TYPE_ENDPOINT 0 USB_DESC_TYPE_INTERFACE).Returns (some (sp + 1)) := by
    refine returns_loop.mpr (Or.inr ⟨{ sp := sp + 1, buflen := 7, n := 0 }, ?_, returns_loop.mpr (Or.inl ?_)⟩)
    · rw [returns_nthRound]
      dsimp only
      rw [if_neg (by simp), halt.1, hone, if_neg (fun h => absurd h.1 (by decide)), if_neg (by decide),
        if_neg (by decide)]
      rfl
    · rw [returns_nthRound]
      dsimp only
      rw [if_neg (by rw [hep, not_or]; exact ⟨by decide, fun h => absurd h.2 (by decide)⟩), if_pos ⟨hep, rfl⟩]
  refine returns_loop.mpr (Or.inl ?_)
  rw [endpointWalk]
  dsimp only
  rw [if_pos (by decide), hfound.bind_iff, if_pos rfl, (returns_rd.mpr rfl).bind_iff, if_neg (UInt8.not_le.mpr hnum),
    hnth.bind_iff]
  dsimp only
  rw [returns_emit_bind, (returns_checkedEndpoint ?_).mpr rfl |>.bind_iff, returns_pure]
  rw [show sp + 1 - sp = 1 by omega]
  decide

/-- What goes wrong: the walk over the fetched configuration runs off its end, or finds the endpoint in eight bytes. -/
def WalkSlips (mem : ℤ → UInt8) (raw : RawDesc) (ifcidx alt eptidx : UInt8) : Prop :=
  RunsOut mem ifcidx alt raw.buf raw.len ∨ EndpointInEight mem ifcidx alt eptidx raw.buf raw.len

section Endpoint

variable {raw : ℤ × RawDesc} {ifcidx alt eptidx : UInt8} {d : UsbEndpointDesc}

/-- The call that fetches walks over what it fetched. -/
theorem parse_endpoint_none (hraw : ¬ raw.1 < 0) (buflen : ℕ) :
    openusbParseEndpointDesc env true raw none buflen ifcidx alt eptidx d =
      loop (endpointWalk env raw.1 ifcidx alt eptidx d) { sp := raw.2.buf, tmplen := raw.2.len } := by
  rw [openusbParseEndpointDesc, walkBuffer, if_neg (show ¬ (!true) = true by decide), if_neg hraw]
  rfl

/-- The call with the fetched bytes checks how many they are. -/
theorem parse_endpoint_some : openusbParseEndpointDesc env true raw (some raw.2.buf) raw.2.len ifcidx alt eptidx d =
    if raw.2.len < USBI_CONFIG_DESC_SIZE then pure (OPENUSB_BADARG, d)
    else loop (endpointWalk env OPENUSB_PARSE_ERROR ifcidx alt eptidx d) { sp := raw.2.buf, tmplen := raw.2.len } := by
  rw [openusbParseEndpointDesc, walkBuffer, if_neg (show ¬ (!true) = true by decide)]
  by_cases hlt : raw.2.len < USBI_CONFIG_DESC_SIZE
  · rw [if_pos hlt, if_pos hlt]
  · rw [if_neg hlt, if_neg hlt]
    rfl

/-- A walk that slips succeeds without a buffer, and fails with one. -/
theorem endpoint_slips (hraw : ¬ raw.1 < 0) (hlen : raw.2.len < 2 ^ 16)
    (hslip : WalkSlips env.mem raw.2 ifcidx alt eptidx) :
    ¬ SameAsFetching raw (fun buffer buflen => openusbParseEndpointDesc env true raw buffer buflen ifcidx alt eptidx d) := by
  intro hsame
  rcases hslip with hout | h8
  · have hcall : Succeeds (openusbParseEndpointDesc env true raw none 0 ifcidx alt eptidx d) d :=
      ⟨raw.1, by rw [parse_endpoint_none hraw]; exact hout.returns hlen _, not_lt.mp hraw⟩
    obtain ⟨-, ret, hr, h0⟩ := (hsame 0 d).mp hcall
    dsimp only at hr
    rw [parse_endpoint_some] at hr
    split_ifs at hr
    · rw [returns_pure, Prod.mk.injEq] at hr
      exact absurd h0 (not_le.mpr (hr.1 ▸ badarg_neg))
    · have heq := hr.unique (hout.returns hlen OPENUSB_PARSE_ERROR)
      rw [Prod.mk.injEq] at heq
      exact absurd h0 (not_le.mpr (heq.1 ▸ parse_error_neg))
  · have hcall : Succeeds (openusbParseEndpointDesc env true raw none 0 ifcidx alt eptidx d) _ :=
      ⟨OPENUSB_SUCCESS, by rw [parse_endpoint_none hraw]; exact h8.returns raw.1, le_refl _⟩
    have hbuf := ((hsame 0 _).mp hcall).2
    dsimp only at hbuf
    rw [parse_endpoint_some, if_pos (by rw [h8.1]; decide)] at hbuf
    exact succeeds_pure badarg_neg hbuf

/-- A walk that does not slip finds the same with a buffer and without. -/
theorem endpoint_same (hraw : ¬ raw.1 < 0) (hlen : raw.2.len < 2 ^ 16)
    (hslip : ¬ WalkSlips env.mem raw.2 ifcidx alt eptidx) :
    SameAsFetching raw (fun buffer buflen => openusbParseEndpointDesc env true raw buffer buflen ifcidx alt eptidx d) := by
  intro buflen d'
  rw [WalkSlips, not_or] at hslip
  dsimp only
  rw [parse_endpoint_none hraw, parse_endpoint_some, and_iff_right (not_lt.mp hraw)]
  by_cases hlt : raw.2.len < USBI_CONFIG_DESC_SIZE
  · rw [if_pos hlt]
    refine iff_of_false ?_ (succeeds_pure badarg_neg)
    rintro ⟨ret, hr, h0⟩
    exact hslip.2 (endpoint_in_eight (Nat.lt_succ_iff.mp hlt) h0 hr hslip.1)
  · rw [if_neg hlt]
    constructor
    · rintro ⟨ret, hr, h0⟩
      exact ⟨ret, endpoint_walk_stale hr hlen hslip.1, h0⟩
    · rintro ⟨ret, hr, h0⟩
      exact ⟨ret, endpoint_walk_stale hr hlen hslip.1, h0⟩

end Endpoint

theorem endpoint_same_iff (hdl : Bool) (raw : ℤ × RawDesc) (ifcidx alt eptidx : UInt8) (d : UsbEndpointDesc)
    (hlen : raw.2.len < 2 ^ 16) :
    SameAsFetching raw (fun buffer buflen => openusbParseEndpointDesc env hdl raw buffer buflen ifcidx alt eptidx d) ↔
      (hdl = true → 0 ≤ raw.1 → ¬ WalkSlips env.mem raw.2 ifcidx alt eptidx) := by
  cases hdl with
  | false =>
    refine iff_of_true (fun buflen d' => ?_) (fun h => absurd h (by decide))
    exact iff_of_false (succeeds_pure (by decide)) fun h => succeeds_pure (by decide) h.2
  | true =>
    rw [forall_prop_of_true rfl]
    by_cases hraw : raw.1 < 0
    · refine iff_of_true (fun buflen d' => ?_) (fun h => absurd h (not_le.mpr hraw))
      dsimp only [openusbParseEndpointDesc, walkBuffer]
      rw [if_neg (show ¬ (!true) = true by decide), if_pos hraw]
      exact iff_of_false (succeeds_pure hraw) fun h => absurd h.1 (not_le.mpr hraw)
    · rw [forall_prop_of_true (not_lt.mp hraw)]
      exact ⟨fun hsame hslip => endpoint_slips hraw hlen hslip hsame, endpoint_same hraw hlen⟩

end Calls

/-! ## The four functions -/

/-- Passing no buffer is the same as fetching first, for the four parsing functions. -/
def NullIsFetching (hdl : Bool) (idev : RawSource) (cfgidx ifcidx alt eptidx : UInt8) (devdesc : UsbDeviceDesc)
    (cfgdesc : UsbConfigDesc) (ifcdesc : UsbInterfaceDesc) (eptdesc : UsbEndpointDesc) : Prop :=
  let device := openusbGetRawDesc hdl idev USB_DESC_TYPE_DEVICE 0
  let config := openusbGetRawDesc hdl idev USB_DESC_TYPE_CONFIG cfgidx
  SameAsFetching device (fun buffer buflen => openusbParseDeviceDesc env hdl device buffer buflen devdesc) ∧
  SameAsFetching config (fun buffer buflen => openusbParseConfigDesc env hdl config buffer buflen cfgdesc) ∧
  SameAsFetching config
    (fun buffer buflen => openusbParseInterfaceDesc env hdl config buffer buflen ifcidx alt ifcdesc) ∧
  SameAsFetching config
    (fun buffer buflen => openusbParseEndpointDesc env hdl config buffer buflen ifcidx alt eptidx eptdesc)

/-- The first three functions always agree; the fourth does unless its walk slips. -/
theorem null_is_fetching_iff (hdl : Bool) (idev : RawSource) (cfgidx ifcidx alt eptidx : UInt8)
    (devdesc : UsbDeviceDesc) (cfgdesc : UsbConfigDesc) (ifcdesc : UsbInterfaceDesc) (eptdesc : UsbEndpointDesc)
    (hlen : (openusbGetRawDesc hdl idev USB_DESC_TYPE_CONFIG cfgidx).2.len < 2 ^ 16) :
    NullIsFetching env hdl idev cfgidx ifcidx alt eptidx devdesc cfgdesc ifcdesc eptdesc ↔
      (0 ≤ (openusbGetRawDesc hdl idev USB_DESC_TYPE_CONFIG cfgidx).1 →
        ¬ WalkSlips env.mem (openusbGetRawDesc hdl idev USB_DESC_TYPE_CONFIG cfgidx).2 ifcidx alt eptidx) := by
  have hhdl : 0 ≤ (openusbGetRawDesc hdl idev USB_DESC_TYPE_CONFIG cfgidx).1 → hdl = true := by
    cases hdl with
    | false => exact fun h => absurd h (not_le.mpr (show OPENUSB_INVALID_HANDLE < 0 by decide))
    | true => exact fun _ => rfl
  have hept := @endpoint_same_iff env hdl (openusbGetRawDesc hdl idev USB_DESC_TYPE_CONFIG cfgidx) ifcidx alt
    eptidx eptdesc hlen
  constructor
  · intro h h0
    exact hept.mp h.2.2.2 (hhdl h0) h0
  · intro h
    exact ⟨parseHead_same (by decide) (by decide) hdl _ devdesc, parseHead_same (by decide) (by decide) hdl _ cfgdesc,
      interface_same hdl _ ifcidx alt ifcdesc, hept.mpr fun _ => h⟩

/-- A round that goes on in a walk that runs out. -/
theorem RunsOut.rest {mem : ℤ → UInt8} {ifcidx alt : UInt8} {sp : ℤ} {n : ℕ} (h : RunsOut mem ifcidx alt sp n)
    (hn : 4 < n) : ¬ AlternateAt mem ifcidx alt sp ∧ RunsOut mem ifcidx alt (sp + (mem sp).toNat) (n - (mem sp).toNat) := by
  cases h with
  | out hle => omega
  | step _ hno _ _ hrest => exact ⟨hno, hrest⟩

/-- A device with `audioConfig`. -/
def audioSource : RawSource := some (some fun type _ =>
  if type = USB_DESC_TYPE_CONFIG then (OPENUSB_SUCCESS, ⟨0, 58⟩) else (OPENUSB_PARSE_ERROR, ⟨0, 0⟩))

/-- The walk to the second alternate setting steps over the configuration, an association and the first setting. -/
theorem audio_found : ¬ WalkSlips (blobMem audioConfig.bytes) ⟨0, 58⟩ 0 1 0 := by
  rintro (hout | h8)
  · obtain ⟨-, hassoc⟩ := hout.rest (by decide)
    obtain ⟨-, hfirst⟩ := hassoc.rest (by decide)
    obtain ⟨-, hsecond⟩ := hfirst.rest (by decide)
    exact (hsecond.rest (by decide)).1 ⟨by decide, by decide, by decide⟩
  · exact absurd h8.1 (by decide)

/-- Asked for the endpoint of the second alternate setting, the calls agree, and they find it. -/
theorem null_is_fetching_iff_audio :
    NullIsFetching (blobEnv audioConfig.bytes) true audioSource 0 0 1 0 {} {} {} {} ∧
      ∃ d, d.bEndpointAddress = 0x81 ∧ Succeeds (openusbParseEndpointDesc (blobEnv audioConfig.bytes) true
        (openusbGetRawDesc true audioSource USB_DESC_TYPE_CONFIG 0) none 0 0 1 0 {}) d := by
  have hsame : NullIsFetching (blobEnv audioConfig.bytes) true audioSource 0 0 1 0 {} {} {} {} :=
    (null_is_fetching_iff (blobEnv audioConfig.bytes) true audioSource 0 0 1 0 {} {} {} {} (by decide)).mpr
      fun _ => audio_found
  have hmem : Holds (blobEnv audioConfig.bytes).mem 0 audioConfig.bytes := holds_blobMem audioConfig.bytes
  have hbuffer := parse_endpoint_desc_recovers hmem (x := audioInterface) (k := 0) (e := audioEndpoint)
    (List.mem_singleton.mpr rfl) (List.mem_cons_of_mem _ List.mem_cons_self) rfl
    (openusbGetRawDesc true audioSource USB_DESC_TYPE_CONFIG 0) {}
  exact ⟨hsame, _, rfl, (hsame.2.2.2 0 _).mpr ⟨le_refl _, 0, hbuffer, le_refl _⟩⟩

/-- A device with one configuration that has no interface. -/
def emptySource : RawSource := some (some fun _ _ => (OPENUSB_SUCCESS, ⟨0, 9⟩))

theorem runsOut_empty : RunsOut (blobMem emptyBlob) 0 0 0 9 := by
  refine .step (by decide) (fun h => absurd h.1 (by decide)) (by decide) (by decide) (.out (by decide))

/-- Asked for an endpoint of an interface that is not there, the call without a buffer succeeds and fills in nothing. -/
theorem endpoint_desc_stale : ¬ NullIsFetching (blobEnv emptyBlob) true emptySource 0 0 0 0 {} {} {} {} := by
  intro h
  have hept := (@endpoint_same_iff (blobEnv emptyBlob) true (OPENUSB_SUCCESS, ⟨0, 9⟩) 0 0 0 {} (by decide)).mp
    h.2.2.2
  exact hept rfl (le_refl _) (Or.inl runsOut_empty)

end OpenUsb
