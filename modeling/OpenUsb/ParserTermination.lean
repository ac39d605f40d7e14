import OpenUsb.ParseReach

/-!
# ParserTermination — progress of the scanning loops

`Progress` asks of every round that stays in its loop that it leaves less than it found.  The skip loops of
`usbi_parse_interface` and `usbi_parse_endpoint` do unless an extra is longer than what is left (`ExtrasFit`), and the
counting pass does unless a `bLength`, a plain char, is not positive and does not take it in front of the interface
(`HopsAdvance`); the other loops always do.  With zeros behind the blob the parser terminates and makes progress exactly
when this holds of the interfaces, alternate settings and endpoints that it reaches.
-/

namespace OpenUsb

open Prog

/-- A round that stays in its loop leaves less than it found. -/
def Progress : Ev → Prop
  | .stay _ before after => after < before
  | _ => True

/-! ## The condition on the blob -/

section

variable (mem : ℤ → UInt8)

/-- No class or vendor descriptor from `sp` on is longer than what is left of `n` bytes. -/
def ExtrasFit : ℕ → ℤ → ℕ → Prop
  | 0, _, _ => True
  | fuel + 1, sp, n =>
    n < 2 ∨ (mem sp).toNat < 2 ∨ ProperType (mem (sp + 1)) ∨
      (mem sp).toNat ≤ n ∧ ExtrasFit fuel (sp + (mem sp).toNat) (n - (mem sp).toNat)

instance decidableExtrasFit : ∀ fuel sp n, Decidable (ExtrasFit mem fuel sp n)
  | 0, _, _ => inferInstanceAs (Decidable True)
  | fuel + 1, sp, n =>
    haveI := decidableExtrasFit fuel (sp + (mem sp).toNat) (n - (mem sp).toNat)
    inferInstanceAs (Decidable (_ ∨ _ ∨ _ ∨ _ ∧ _))

/-- The extras behind the descriptor at `w` are not longer than what is left. -/
def FitsBehind (w : ℤ × ℕ) : Prop :=
  (mem w.1).toNat ≤ w.2 → ExtrasFit mem (w.2 - (mem w.1).toNat) (w.1 + (mem w.1).toNat) (w.2 - (mem w.1).toNat)

instance : DecidablePred (FitsBehind mem) := fun _ => inferInstanceAs (Decidable (_ → _))

/-- From `len` on, each `bLength` that is hopped by in the `n` bytes at `buf` is positive, or takes the hops in front. -/
def HopsAdvance (buf : ℤ) (n : ℕ) : ℕ → ℤ → Prop
  | 0, _ => True
  | fuel + 1, len => 0 ≤ len ∧ len < n →
    (0 < CInt.schar (mem (buf + len)) ∨ len + CInt.schar (mem (buf + len)) < 0) ∧
      HopsAdvance buf n fuel (len + CInt.schar (mem (buf + len)))

instance decidableHopsAdvance (buf : ℤ) (n : ℕ) : ∀ fuel len, Decidable (HopsAdvance mem buf n fuel len)
  | 0, _ => inferInstanceAs (Decidable True)
  | fuel + 1, len =>
    haveI := decidableHopsAdvance buf n fuel (len + CInt.schar (mem (buf + len)))
    inferInstanceAs (Decidable (_ → _ ∧ _))

end

/-- The extras of the alternate setting at `q` and of its endpoints are not longer than what is left. -/
def AltAdvances (env : Env) (i : ℕ) (q : ℕ × ℤ × ℕ) : Prop :=
  FitsBehind env.mem q.2 ∧ ∀ p ∈ altEndpointPlaces env i q.1 q.2, IsEndpoint env.mem p → FitsBehind env.mem p

instance (env : Env) (i : ℕ) : DecidablePred (AltAdvances env i) := fun _ => inferInstanceAs (Decidable (_ ∧ _))

/-- If there is an interface at `q`, its hops advance, and so do its alternate settings. -/
def InterfaceAdvances (env : Env) (q : ℕ × ℤ × ℕ) : Prop :=
  env.mem (q.2.1 + 1) = USB_DESC_TYPE_INTERFACE →
    HopsAdvance env.mem q.2.1 q.2.2 q.2.2 0 ∧ ∀ a ∈ interfaceAlts env q.1 q.2, AltAdvances env q.1 a

instance (env : Env) : DecidablePred (InterfaceAdvances env) := fun _ => inferInstanceAs (Decidable (_ → _))

section Termination

variable {env : Env} {L : ℕ}

/-! ## Extras -/

/-- A skip loop makes progress when the extras fit. -/
theorem skip_progress (hL31 : L < 2 ^ 31) {lp : Scan} : ∀ (fuel : ℕ) {c : Skip}, Left L c.buf c.buflen →
    c.buflen ≤ fuel → (Emits Progress (loop (skipRound env lp) c) ↔ ExtrasFit env.mem fuel c.buf c.buflen) := by
  intro fuel
  induction fuel with
  | zero =>
    intro c hL hfuel
    refine iff_of_true (emits_loop.mpr ⟨?_, fun c' h => ?_⟩) trivial
    · exact (emits_skipRound (fun _ => trivial) (by omega)).mpr fun h2 => absurd h2 (by omega)
    · rw [returns_skipRound (by omega), skipNext, if_pos (by omega)] at h
      cases h
  | succ fuel ih =>
    intro c hL hfuel
    have hlt := hL.lt hL31
    have hb := (env.mem c.buf).toNat_lt
    rw [emits_loop, emits_skipRound (fun _ => trivial) (by omega), ExtrasFit]
    simp only [returns_skipRound (show c.buflen < 2 ^ 32 by omega)]
    by_cases hstop : c.buflen < 2 ∨ (env.mem c.buf).toNat < 2 ∨ ProperType (env.mem (c.buf + 1))
    · -- the round leaves
      have hleave : ∀ c', skipNext env.mem 32 false c ≠ .again c' := fun c' h => by
        rw [skipNext] at h
        split_ifs at h with h2 h3 h4
        exact hstop.elim h2 fun h => h.elim (fun h => h3 (Or.inl h)) h4
      refine iff_of_true ⟨fun _ => ⟨trivial, fun c' h => absurd h (hleave c')⟩, fun c' h => absurd h.symm (hleave c')⟩ ?_
      exact hstop.imp_right fun h => h.imp_right Or.inl
    · rw [not_or, not_or] at hstop
      obtain ⟨h2, h3, h4⟩ := hstop
      have hnext : skipNext env.mem 32 false c = .again
          { buf := c.buf + (env.mem c.buf).toNat, buflen := CInt.sub 32 c.buflen (env.mem c.buf).toNat,
            parsed := c.parsed + (env.mem c.buf).toNat, header := headerAt env.mem c.buf,
            extra_len := c.extra_len + (env.mem c.buf).toNat } := by
        rw [skipNext, if_neg h2, if_neg (by simpa using h3), if_neg h4]
      rw [hnext]
      simp only [Round.again.injEq, forall_eq', forall_eq, h2, h3, h4, false_or]
      constructor
      · rintro ⟨hround, hrest⟩
        have hstay : CInt.sub 32 c.buflen (env.mem c.buf).toNat < c.buflen := (hround (by omega)).2.2
        rcases hL.sub hL31 (env.mem c.buf) with ⟨hle, hsub, hleft⟩ | ⟨hgt, -⟩
        · refine ⟨hle, ?_⟩
          rw [← hsub]
          exact (ih hleft (by dsimp only; omega)).mp hrest
        · rw [CInt.sub_of_lt (by omega) hgt] at hstay
          omega
      · rintro ⟨hle, hrest⟩
        have hsub : CInt.sub 32 c.buflen (env.mem c.buf).toNat = c.buflen - (env.mem c.buf).toNat :=
          CInt.sub_of_le (by omega) hle
        rw [hsub]
        refine ⟨fun _ => ⟨trivial, trivial, show c.buflen - (env.mem c.buf).toNat < c.buflen by omega⟩, ?_⟩
        exact (ih (hL.step hle) (by dsimp only; omega)).mpr hrest

/-- In the zeros behind the blob a skip loop ends at once. -/
theorem skip_progress_beyond (hz : ZeroSlack env.mem L) {lp : Scan} {c : Skip} (hc : Beyond L c.buf c.buflen) :
    Emits Progress (loop (skipRound env lp) c) := by
  obtain ⟨hbuf, h2, hlt⟩ := hc
  have hnext : skipNext env.mem 32 false c = .leave none := by
    rw [skipNext, if_neg (by omega), if_pos (Or.inl (by rw [hz _ hbuf]; decide))]
  refine emits_loop.mpr ⟨(emits_skipRound (fun _ => trivial) hlt).mpr fun _ => ⟨trivial, fun c' h => ?_⟩, fun c' h => ?_⟩
  · rw [hnext] at h
    cases h
  · rw [returns_skipRound hlt, hnext] at h
    cases h

/-- The skip loop behind a descriptor. -/
theorem skip_behind_progress (hz : ZeroSlack env.mem L) (hL31 : L < 2 ^ 31) {lp : Scan} {buf : ℤ} {n parsed : ℕ}
    {hd : UsbDescriptorHeader} (hL : Left L buf n) : Emits Progress (loop (skipRound env lp)
      { buf := buf + (env.mem buf).toNat, buflen := CInt.sub 32 n (env.mem buf).toNat, parsed := parsed,
        header := hd }) ↔ FitsBehind env.mem (buf, n) := by
  unfold FitsBehind
  rcases hL.sub hL31 (env.mem buf) with ⟨hle, hsub, hleft⟩ | ⟨hgt, hbeyond⟩
  · rw [skip_progress hL31 (n - (env.mem buf).toNat) hleft (by dsimp only; omega), hsub]
    exact (imp_iff_right hle).symm
  · exact iff_of_true (skip_progress_beyond hz hbeyond) fun h => absurd h (Nat.not_le.mpr hgt)

/-! ## Endpoints -/

theorem parse_endpoint_progress (hz : ZeroSlack env.mem L) (hL31 : L < 2 ^ 31) {i j k : ℕ} {ep : UsbiEndpoint} {buf : ℤ}
    {n : ℕ} (hL : Left L buf n) (h0 : 0 < n) (hle : (env.mem buf).toNat ≤ n) :
    Emits Progress (usbiParseEndpoint env i j k ep buf n) ↔
      (IsEndpoint env.mem (buf, n) → FitsBehind env.mem (buf, n)) := by
  have hlt := hL.lt hL31
  have hbyte : (headerParsed env.mem buf n (env.junk buf)).bLength = env.mem buf := if_pos h0
  rw [usbiParseEndpoint, if_neg (by omega),
    ((returns_parseHeader (by omega)).mpr rfl).emits_behind (emits_parseHeader fun _ => trivial)]
  dsimp only
  rw [hbyte, if_neg (by omega)]
  rw [isEndpoint_iff hle (env.junk buf)]
  by_cases htype : (headerParsed env.mem buf n (env.junk buf)).bDescriptorType = USB_DESC_TYPE_ENDPOINT
  swap
  · rw [if_pos htype]
    exact iff_of_true emits_pure fun h => absurd h.1 htype
  by_cases h7 : (env.mem buf).toNat < USBI_ENDPOINT_DESC_SIZE
  · rw [if_neg (by simpa using htype), if_pos h7]
    exact iff_of_true emits_pure fun h => absurd h7 h.2
  rw [if_neg (by simpa using htype), if_neg h7, imp_iff_right ⟨htype, h7⟩]
  obtain ⟨desc, hdesc⟩ : (parseInto env UsbEndpointDesc.store
    (if (env.mem buf).toNat ≥ USBI_ENDPOINT_AUDIO_DESC_SIZE then fmtEndpointAudio else fmtEndpoint) sizeofEndpointDesc buf n
      ep.desc).Halts := halts_parseInto
  rw [hdesc.emits_behind (emits_parseInto fun _ => trivial), emits_emit_bind, ← skip_behind_progress hz hL31 hL]
  refine (and_iff_right trivial).trans (emits_before fun skip _ => ?_)
  cases skip with
  | none => exact emits_pure
  | some c =>
    dsimp only
    split_ifs
    · exact emits_pure
    · refine (returns_calloc.mpr rfl).emits_bind_iff.mpr ⟨emits_calloc.mpr trivial, ?_⟩
      split_ifs
      · exact ((returns_copyBytes.mpr rfl).emits_behind (emits_copyBytes fun _ => trivial)).mpr emits_pure
      · exact emits_pure

/-- The endpoint loop makes progress when the extras of its endpoints fit. -/
theorem parse_endpoints_progress (hz : ZeroSlack env.mem L) (hL31 : L < 2 ^ 31) {i j : ℕ} (n : ℕ) (s : EpState)
    (hL : Left L s.buf s.buflen) : Emits Progress (parseEndpoints env i j n s) ↔
      ∀ p ∈ endpointsFrom env i j s.eps.length n (s.buf, s.buflen), IsEndpoint env.mem p → FitsBehind env.mem p := by
  induction n generalizing s with
  | zero => exact iff_of_true emits_pure fun p hp => absurd hp List.not_mem_nil
  | succ n ih =>
    have hlt := hL.lt hL31
    rw [parseEndpoints, emits_emit_bind, and_iff_right (show Progress (.endpoint s.buf s.buflen) from trivial),
      ((returns_parseHeader (by omega)).mpr rfl).emits_behind (emits_parseHeader fun _ => trivial), endpointsFrom,
      List.forall_mem_cons]
    by_cases hfits : 0 < s.buflen ∧ (env.mem s.buf).toNat ≤ s.buflen
    · have hbyte : (headerParsed env.mem s.buf s.buflen s.header).bLength = env.mem s.buf := if_pos hfits.1
      rw [hbyte, if_neg (by omega)]
      obtain ⟨⟨ret, ep⟩, hret⟩ := (parse_endpoint_ends (i := i) (j := j) (k := s.eps.length) hz hL31 hL hfits.1 hfits.2
        UsbiEndpoint.consistent_zero).halts
      have hle := ((parse_endpoint_ends hz hL31 hL hfits.1 hfits.2 UsbiEndpoint.consistent_zero).of_returns hret).2.1
      rw [hret.emits_bind_iff, parse_endpoint_progress hz hL31 hL hfits.1 hfits.2]
      refine and_congr_right fun _ => ?_
      rw [← endpoint_stops hz hL31 hL hfits.1 hfits.2 hret]
      dsimp only at hle ⊢
      by_cases hneg : ret < 0
      · rw [if_pos hneg, behind_neg hneg]
        exact iff_of_true emits_pure fun p hp => absurd hp List.not_mem_nil
      · rw [if_neg hneg, emits_emit_bind, and_iff_right (show Progress (.take s.buflen ret) from trivial)]
        obtain ⟨m, rfl⟩ := Int.eq_ofNat_of_zero_le (not_lt.mp hneg)
        rw [Int.toNat_natCast, CInt.sub_of_le (by omega) (by omega), behind_natCast, ih _ (hL.step (by omega)),
          List.length_append]
        exact Iff.rfl
    · -- without a descriptor that fits the function gives up
      rw [endpointStop_none hfits]
      refine iff_of_true ?_ ⟨fun h hle => absurd ⟨by have := h.1; omega, hle⟩ hfits, fun p hp => absurd hp List.not_mem_nil⟩
      split_ifs with hgt
      · exact emits_pure
      · have h0 : s.buflen = 0 := by
          by_contra hne
          have hbyte : (headerParsed env.mem s.buf s.buflen s.header).bLength = env.mem s.buf := if_pos (by omega)
          rw [hbyte] at hgt
          exact hfits ⟨by omega, by omega⟩
        rw [usbiParseEndpoint, if_pos h0]
        refine ((returns_pure.mpr rfl).emits_behind emits_pure).mpr ?_
        dsimp only
        rw [if_pos (by decide)]
        exact emits_pure

/-! ## Alternate settings -/

theorem entries_progress {k idx cap : ℕ} : Emits Progress (emitAll (List.replicate k (Ev.entry idx cap))) :=
  emits_emitAll.mpr fun e he => by rw [List.eq_of_mem_replicate he]; trivial

theorem alt_next_progress {cap : ℕ} {alts : List UsbiAltsetting} {s : EpState} :
    Emits Progress (altNext env cap alts s) := by
  unfold altNext
  dsimp only
  split_ifs
  · exact emits_pure
  · refine emits_bind.mpr ⟨emits_parseHeader fun _ => trivial, fun header _ => ?_⟩
    refine emits_bind.mpr ⟨emits_rd.mpr trivial, fun alt_num _ => ?_⟩
    split_ifs
    · exact emits_pure
    · exact emits_pure

theorem alt_endpoints_progress (hz : ZeroSlack env.mem L) (hL31 : L < 2 ^ 31) {i cap : ℕ} {alts : List UsbiAltsetting}
    {as : UsbiAltsetting} {a : ℤ × ℕ} (has : as.desc.bNumEndpoints = env.mem (a.1 + 4)) {c : Skip}
    (hL : Left L c.buf c.buflen) : Emits Progress (altEndpoints env i cap alts as c) ↔
      ∀ p ∈ if EntersEndpoints env i alts.length a (c.buf, c.buflen) then
          endpointsFrom env i alts.length 0 (env.mem (a.1 + 4)).toNat (c.buf, c.buflen) else [],
        IsEndpoint env.mem p → FitsBehind env.mem p := by
  have hlt := hL.lt hL31
  rw [altEndpoints, ((returns_parseHeader (by omega)).mpr rfl).emits_behind (emits_parseHeader fun _ => trivial)]
  dsimp only
  rw [has, if_congr (foreign_iff c) rfl rfl]
  by_cases hstop : Foreign env.mem (c.buf, c.buflen)
  · rw [if_pos hstop, if_neg fun h => h.1 hstop]
    exact iff_of_true emits_pure fun p hp => absurd hp List.not_mem_nil
  rw [if_neg hstop, emits_emit_bind, and_iff_right (show Progress (.numEndpoints _) from trivial)]
  by_cases hmax : (env.mem (a.1 + 4)).toNat > USBI_MAXENDPOINTS
  · rw [if_pos hmax, if_neg fun h => absurd h.2.1 (Nat.not_le.mpr hmax)]
    exact iff_of_true emits_pure fun p hp => absurd hp List.not_mem_nil
  rw [if_neg hmax, (returns_calloc.mpr rfl).emits_behind (emits_calloc.mpr trivial)]
  by_cases hok : env.alloc (.endpoints i alts.length) = true
  · rw [if_neg (by simp [hok]), if_pos ⟨hstop, Nat.le_of_not_lt hmax, hok⟩]
    have hloop := @parse_endpoints_progress env L hz hL31 i alts.length (env.mem (a.1 + 4)).toNat
      { buf := c.buf, buflen := c.buflen, parsed := c.parsed, header := headerParsed env.mem c.buf c.buflen c.header } hL
    rw [List.length_nil] at hloop
    refine (emits_before fun r _ => ?_).trans hloop
    obtain ⟨r | r, s⟩ := r
    · exact alt_next_progress
    · exact emits_bind.mpr ⟨entries_progress, fun _ _ => emits_pure⟩
  · rw [if_pos (by simpa using hok), if_neg fun h => hok h.2.2]
    refine iff_of_true (emits_bind.mpr ⟨entries_progress, fun _ _ => emits_pure⟩) fun p hp => absurd hp List.not_mem_nil

/-- A round of the altsetting loop makes progress when its extras and those of its endpoints fit. -/
theorem alt_round_progress (hz : ZeroSlack env.mem L) (hL31 : L < 2 ^ 31) {i cap total : ℕ} {s : AltState}
    (hL : Left L s.buf s.buflen) (htotal : s.parsed + s.buflen = total) (hlt : total < 2 ^ 31)
    (h9 : ¬ s.buflen < USBI_INTERFACE_DESC_SIZE) :
    Emits Progress (altRound env i cap s) ↔ AltAdvances env i (s.alts.length, s.buf, s.buflen) := by
  have hn := hL.lt hL31
  have h9' : 9 ≤ s.buflen := Nat.le_of_not_lt h9
  unfold AltAdvances altEndpointPlaces altExtrasStop
  rw [altRound, if_neg h9, emits_emit_bind, and_iff_right (show Progress (.scan .alts _ _ _) from trivial),
    ((returns_parseHeader (by omega)).mpr rfl).emits_behind (emits_parseHeader fun _ => trivial),
    headerParsed_of_le (by omega), headerAt_bLength, emits_emit_bind,
    and_iff_right (show Progress (.entry s.alts.length cap) from trivial),
    ((returns_parseInterface (by omega) h9').mpr rfl).emits_behind (emits_parseInto fun _ => trivial), emits_emit_bind,
    and_iff_right (show Progress (.take _ _) from trivial)]
  obtain ⟨skip, hskip⟩ := (@alt_skip_ends env L hz hL31 s hL h9 (headerAt env.mem s.buf)).halts
  have hpost := ((alt_skip_ends hz hL31 hL h9 _).of_returns hskip).2
  rw [hskip.emits_bind_iff, skip_behind_progress hz hL31 hL]
  refine and_congr_right fun _ => ?_
  dsimp only
  rcases hL.sub hL31 (env.mem s.buf) with ⟨hle, hsub, hleft⟩ | ⟨hgt, hbeyond⟩
  · have hskipped := skip_extrasEnd hz hL31 (Or.inl rfl) hskip hleft _ le_rfl
    have hposts := ((skip_ends hz hL31 (Or.inl rfl) (Or.inl hleft)).of_returns hskip).2
    dsimp only at hskipped
    rw [hsub] at hskipped
    rw [if_neg (Nat.not_lt.mpr hle), ← hskipped]
    cases skip with
    | none => exact iff_of_true emits_pure fun p hp => absurd hp List.not_mem_nil
    | some c =>
      obtain ⟨hc, hcle, hparsed⟩ := hpost c rfl
      obtain ⟨-, -, -, -, hextra⟩ := hposts c rfl
      dsimp only at hextra
      have hkept := kept_iff (.altExtra i s.alts.length) hL hle hc (by omega)
      refine (emits_before fun r hr => ?_).trans ?_
      · -- the round that goes on has consumed the descriptor
        have hpost := (alt_extra_ends hz hL31 hc hcle (hparsed.trans htotal) hlt).of_returns hr
        cases r with
        | again s' =>
          obtain ⟨-, -, hle, -⟩ := hpost
          exact emits_emit_bind.mpr ⟨show s'.buflen < s.buflen by omega, emits_pure⟩
        | leave a => exact emits_pure
      rw [Option.map_some, Option.filter_some, altExtra]
      by_cases hex : c.extra_len = 0
      · rw [if_pos hex, if_pos (decide_eq_true (hkept.mpr (Or.inl hex)))]
        exact alt_endpoints_progress hz hL31 rfl hc
      rw [if_neg hex, (returns_calloc.mpr rfl).emits_behind (emits_calloc.mpr trivial)]
      by_cases hok : env.alloc (.altExtra i s.alts.length) = true
      · rw [if_pos hok, (returns_copyBytes.mpr rfl).emits_behind (emits_copyBytes fun _ => trivial),
          if_pos (decide_eq_true (hkept.mpr (Or.inr hok)))]
        exact alt_endpoints_progress hz hL31 rfl hc
      · rw [if_neg hok, if_neg (by simpa using fun h => (hkept.mp h).elim hex hok)]
        exact iff_of_true emits_pure fun p hp => absurd hp List.not_mem_nil
  · rw [if_pos hgt]
    refine iff_of_true ?_ fun p hp => absurd hp List.not_mem_nil
    cases skip with
    | none => exact emits_pure
    | some c =>
      have hleft := (((skip_ends hz hL31 (Or.inl rfl) (Or.inr hbeyond)).of_returns hskip).2 c rfl).1
      dsimp only at hleft
      exact absurd hleft.2 (by have := hbeyond.1; have := hbeyond.2.1; omega)

/-- The altsetting loop makes progress when every alternate setting that it reaches does. -/
theorem alts_progress (hz : ZeroSlack env.mem L) (hL31 : L < 2 ^ 31) {w : ℤ × ℕ} (hw : Left L w.1 w.2) {i cap : ℕ}
    (fuel : ℕ) {s : AltState} (hL : Left L s.buf s.buflen) (htotal : s.parsed + s.buflen = w.2)
    (hfuel : s.buflen ≤ fuel) : Emits Progress (loop (altRound env i cap) s) ↔
      ∀ a ∈ altsFrom env i fuel s.alts.length (s.buf, s.buflen), AltAdvances env i a := by
  have hwlt := hw.lt hL31
  induction fuel generalizing s with
  | zero =>
    have hround : altRound env i cap s = pure (.leave (CInt.toI32 s.parsed, liveIntf cap s.alts)) :=
      if_pos (show s.buflen < 9 by omega)
    refine iff_of_true (emits_loop.mpr ⟨hround ▸ emits_pure, fun s' h => ?_⟩) fun a ha => absurd ha List.not_mem_nil
    rw [hround] at h
    cases returns_pure.mp h
  | succ fuel ih =>
    by_cases h9 : s.buflen < USBI_INTERFACE_DESC_SIZE
    · have hround : altRound env i cap s = pure (.leave (CInt.toI32 s.parsed, liveIntf cap s.alts)) := if_pos h9
      rw [altsFrom_short h9]
      refine iff_of_true (emits_loop.mpr ⟨hround ▸ emits_pure, fun s' h => ?_⟩) fun a ha => absurd ha List.not_mem_nil
      rw [hround] at h
      cases returns_pure.mp h
    have h9' : 9 ≤ s.buflen := Nat.le_of_not_lt h9
    obtain ⟨r, hr⟩ := (@alt_round_ends env L hz hL31 i cap w.2 s hL htotal hwlt h9).halts
    have hpost := (alt_round_ends hz hL31 hL htotal hwlt h9).of_returns hr
    obtain ⟨-, hnext, hentries⟩ := alt_round_stops hz hL31 hw hL htotal h9 hr
    rw [emits_loop, altsFrom_cons h9, List.forall_mem_cons, alt_round_progress hz hL31 hL htotal hwlt h9, ← hnext]
    refine and_congr_right fun _ => ?_
    cases r with
    | leave a =>
      refine iff_of_true (fun s' hs' => ?_) fun a ha => absurd ha List.not_mem_nil
      cases hr.unique hs'
    | again s' =>
      obtain ⟨-, hL', hle, htotal', -⟩ := hpost
      have hentries' : s'.alts.length = s.alts.length + 1 := hentries
      have hih := ih hL' htotal' (by omega)
      rw [hentries'] at hih
      refine Iff.trans ⟨fun h => h s' hr, fun h s'' hs'' => ?_⟩ hih
      cases hr.unique hs''
      exact h

/-! ## The counting pass -/

/-- A round of the counting pass makes progress when its hop goes forward or leaves in front. -/
theorem countRound_progress {buf : ℤ} {n : ℕ} {fno : UInt8} (hn : n < 2 ^ 31) {c : AltCount} (hc : CountRange c)
    (hin : 0 ≤ c.len ∧ c.len < n) : Emits Progress (altCountRound env buf n fno c) ↔
      0 < CInt.schar (env.mem (buf + c.len)) ∨ c.len + CInt.schar (env.mem (buf + c.len)) < 0 := by
  obtain ⟨h0, hcn⟩ := hin
  have hlt : CInt.toU32 c.len < n := (counts_inside hn hc).mpr ⟨h0, hcn⟩
  have hlen : (countNext env.mem buf fno c).len = c.len + CInt.schar (env.mem (buf + c.len)) := rfl
  have hU := CInt.toU32_of_nonneg h0 (by omega)
  have hs := CInt.schar_lt (env.mem (buf + c.len))
  have hs' := CInt.neg_le_schar (env.mem (buf + c.len))
  constructor
  · intro h
    by_contra hstuck
    -- the next cursor is still inside, and not behind this one
    have h0' : 0 ≤ (countNext env.mem buf fno c).len := by omega
    have hU' := CInt.toU32_of_nonneg h0' (by omega)
    have hstay : n - CInt.toU32 (countNext env.mem buf fno c).len < n - CInt.toU32 c.len :=
      h _ (logs_altCountRound.mpr ⟨hlt, Or.inr (Or.inr (Or.inr (Or.inr (Or.inr ⟨by omega, rfl⟩))))⟩)
    omega
  · intro hadv e he
    obtain ⟨-, rfl | rfl | rfl | rfl | ⟨-, rfl⟩ | ⟨hin, rfl⟩⟩ := logs_altCountRound.mp he <;> try trivial
    show n - CInt.toU32 (countNext env.mem buf fno c).len < n - CInt.toU32 c.len
    rcases hadv with hadv | hadv
    · have hU' := CInt.toU32_of_nonneg (z := (countNext env.mem buf fno c).len) (by omega) (by omega)
      omega
    · have := CInt.toU32_of_neg (z := (countNext env.mem buf fno c).len) (by omega) (by omega)
      omega

/-- The counting pass makes progress when its hops advance. -/
theorem count_progress {buf : ℤ} {n : ℕ} (hn : n < 2 ^ 31) (fuel : ℕ) {c : AltCount} (hc : CountRange c)
    (hfuel : 0 ≤ c.len → (n : ℤ) - c.len ≤ fuel) :
    Emits Progress (loop (altCountRound env buf n (env.mem (buf + 2))) c) ↔ HopsAdvance env.mem buf n fuel c.len := by
  have hout (h : ¬ (0 ≤ c.len ∧ c.len < n)) :
      Emits Progress (loop (altCountRound env buf n (env.mem (buf + 2))) c) := by
    have hlt : ¬ CInt.toU32 c.len < n := fun hlt => h ((counts_inside hn hc).mp hlt)
    refine emits_loop.mpr ⟨fun e he => absurd (logs_altCountRound.mp he).1 hlt, fun c' h => ?_⟩
    rw [returns_altCountRound, if_neg hlt] at h
    cases h
  induction fuel generalizing c with
  | zero => exact iff_of_true (hout (by omega)) trivial
  | succ fuel ih =>
    rw [HopsAdvance]
    by_cases hin : 0 ≤ c.len ∧ c.len < n
    swap
    · exact iff_of_true (hout hin) fun h => absurd h hin
    rw [imp_iff_right hin, emits_loop, countRound_progress hn hc hin]
    refine and_congr_right fun hadv => ?_
    have hb : (altCountRound env buf n (env.mem (buf + 2)) c).Returns
        (.again (countNext env.mem buf (env.mem (buf + 2)) c)) :=
      returns_altCountRound.mpr (if_pos ((counts_inside hn hc).mpr hin)).symm
    obtain ⟨h0, hcn, hrange, hlen⟩ := count_range_step hn hc hb
    rw [← hlen]
    refine Iff.trans ⟨fun h => h _ hb, fun h c' hc' => ?_⟩ (ih hrange (by omega) fun hno => ?_)
    · cases hb.unique hc'
      exact h
    · have hlt : ¬ CInt.toU32 (countNext env.mem buf (env.mem (buf + 2)) c).len < n := fun hlt =>
        hno ((counts_inside hn hrange).mp hlt)
      refine emits_loop.mpr ⟨fun e he => absurd (logs_altCountRound.mp he).1 hlt, fun c' h => ?_⟩
      rw [returns_altCountRound, if_neg hlt] at h
      cases h

theorem intf_altno_progress {buf : ℤ} {n : ℕ} (hn : n < 2 ^ 31) :
    Emits Progress (usbiGetIntfAltno env buf n) ↔ HopsAdvance env.mem buf n n 0 := by
  rw [usbiGetIntfAltno, (returns_rd.mpr rfl).emits_behind (emits_rd.mpr trivial)]
  exact count_progress hn n ⟨by decide, by decide⟩ fun _ => by dsimp only; omega

/-- Hops that advance come to an end. -/
theorem hops_of_advance {mem : ℤ → UInt8} {buf : ℤ} {n : ℕ} (fuel : ℕ) {len : ℤ} (hfuel : 0 ≤ len → (n : ℤ) - len ≤ fuel)
    (h : HopsAdvance mem buf n fuel len) : ∃ l, Hops mem buf n len l := by
  induction fuel generalizing len with
  | zero => exact ⟨[], .out (by omega)⟩
  | succ fuel ih =>
    by_cases hin : 0 ≤ len ∧ len < n
    · obtain ⟨hadv, hrest⟩ := h hin
      obtain ⟨l, hl⟩ := ih (by omega) hrest
      exact ⟨_, .hop hin hl⟩
    · exact ⟨[], .out hin⟩

/-! ## Interfaces -/

theorem InterfaceAdvances.counted {q : ℕ × ℤ × ℕ} (h : InterfaceAdvances env q) : Counted env.mem q.2 := fun htype =>
  hops_of_advance _ (fun _ => by omega) (h htype).1

theorem parse_interface_progress (hz : ZeroSlack env.mem L) (hL31 : L < 2 ^ 31) {i : ℕ} {buf : ℤ} {n : ℕ}
    (hL : Left L buf n) (h0 : 0 < n) :
    Emits Progress (usbiParseInterface env i {} buf n) ↔ InterfaceAdvances env (i, buf, n) := by
  have hn := hL.lt hL31
  unfold InterfaceAdvances
  dsimp only
  rw [usbiParseInterface, if_neg (by omega), (returns_rd.mpr rfl).emits_behind (emits_rd.mpr trivial)]
  by_cases htype : env.mem (buf + 1) = USB_DESC_TYPE_INTERFACE
  swap
  · rw [if_pos htype]
    exact iff_of_true emits_pure fun h => absurd h htype
  rw [if_neg (by simpa using htype), imp_iff_right htype, emits_bind, intf_altno_progress hn]
  refine and_congr_right fun hadv => ?_
  obtain ⟨altno, haltno⟩ := (intf_altno_halts_iff hn).mpr (hops_of_advance n (fun _ => by omega) hadv)
  refine Iff.trans ⟨fun h => h altno haltno, fun h a ha => haltno.unique ha ▸ h⟩ ?_
  rw [(returns_calloc.mpr rfl).emits_behind (emits_calloc.mpr trivial), interfaceAlts]
  by_cases hok : env.alloc (.altsettings i) = true
  · rw [if_neg (by simp [hok]), if_pos ⟨htype, hok⟩]
    exact alts_progress (w := (buf, n)) hz hL31 hL n hL (Nat.zero_add n) le_rfl
  · rw [if_pos (by simpa using hok), if_neg fun h => hok h.2]
    exact iff_of_true emits_pure fun a ha => absurd ha List.not_mem_nil

/-- The interface loop makes progress when every interface that it reaches does. -/
theorem parse_interfaces_progress (hz : ZeroSlack env.mem L) (hL31 : L < 2 ^ 31) (k : ℕ) (s : IntfState)
    (hL : Left L s.buf s.buflen) : Emits Progress (parseInterfaces env k s) ↔
      ∀ q ∈ interfacesFrom env k s.intfs.length (s.buf, s.buflen), InterfaceAdvances env q := by
  induction k generalizing s with
  | zero => exact iff_of_true emits_pure fun q hq => absurd hq List.not_mem_nil
  | succ k ih =>
    have hn := hL.lt hL31
    rw [parseInterfaces]
    by_cases h0 : s.buflen = 0
    · rw [if_pos h0, interfacesFrom, if_pos h0]
      exact iff_of_true emits_pure fun q hq => absurd hq List.not_mem_nil
    have hpos := Nat.pos_of_ne_zero h0
    rw [if_neg h0, Nat.mod_eq_of_lt (show s.buflen < 2 ^ 32 by omega), interfacesFrom_cons h0, List.forall_mem_cons,
      emits_bind, parse_interface_progress hz hL31 hL hpos]
    refine and_congr_right fun hadv => ?_
    obtain ⟨r, hr⟩ := (parse_interface_halts_iff (i := s.intfs.length) hz hL31 hL hpos).mpr hadv.counted
    refine Iff.trans ⟨fun h => h r hr, fun h r' hr' => hr.unique hr' ▸ h⟩ ?_
    have hle := (parse_interface_post hz hL31 hL hpos hr).2.1
    rw [← (parse_interface_stops hz hL31 hL hpos hr).1]
    dsimp only
    by_cases hneg : r.1 < 0
    · rw [if_pos hneg, behind_neg hneg]
      exact iff_of_true emits_pure fun q hq => absurd hq List.not_mem_nil
    · rw [if_neg hneg, emits_emit_bind, and_iff_right (show Progress (.take s.buflen r.1) from trivial)]
      obtain ⟨m, hm⟩ := Int.eq_ofNat_of_zero_le (not_lt.mp hneg)
      rw [hm, Int.toNat_natCast, CInt.sub_of_le (by omega) (by omega), behind_natCast, ih _ (hL.step (by omega)),
        List.length_append]
      exact Iff.rfl

/-! ## Configurations -/

theorem cfg_skip_progress (hz : ZeroSlack env.mem L) (hL31 : L < 2 ^ 31) {c : Skip} (hc : CfgSkipInv L c) :
    Emits Progress (loop (cfgSkipRound env) c) := by
  refine Emits.loop_inv (P := fun _ => True) (I := CfgSkipInv L) (fun c hc _ => ?_)
    (fun c c' hc _ h => Or.inl (hc.again hz hL31 h).2.2.1) hc fun _ _ => trivial
  rw [emits_cfgSkipRound (fun _ => trivial) (hc.mod hL31)]
  refine fun _ => ⟨trivial, fun c' hc' => ⟨trivial, ?_⟩⟩
  exact (hc.again hz hL31 ((returns_cfgSkipRound (hc.mod hL31)).mpr hc'.symm)).2.2.2

theorem cfg_interfaces_progress (hz : ZeroSlack env.mem L) (hL31 : L < 2 ^ 31) {cfg : UsbiConfig} {w : ℤ × ℕ}
    (hL : Left L w.1 w.2) : Emits Progress (cfgInterfaces env cfg w.1 w.2) ↔
      ∀ q ∈ interfacesFrom env cfg.num_interfaces 0 w, InterfaceAdvances env q := by
  refine (emits_before fun r _ => ?_).trans
    (parse_interfaces_progress hz hL31 cfg.num_interfaces { buf := w.1, buflen := w.2 } hL)
  obtain ⟨r | r, s⟩ := r
  · exact emits_pure
  · exact emits_pure

theorem parse_configuration_progress (hz : ZeroSlack env.mem L) (hL31 : L < 2 ^ 31) (cfg : UsbiConfig) :
    Emits Progress (usbiParseConfiguration env cfg 0 L) ↔ ∀ q ∈ reachedInterfaces env cfg L, InterfaceAdvances env q := by
  obtain ⟨tail, ⟨-, hemits⟩, htail⟩ := parse_configuration_tail (P := Progress) hz hL31 (fun _ => trivial)
    (fun _ _ => trivial) (fun _ _ => trivial) (fun _ hc => cfg_skip_progress hz hL31 hc) cfg
  rw [hemits]
  cases htail with
  | before h =>
    rw [reachedInterfaces_before h]
    exact iff_of_true emits_pure fun q hq => absurd hq List.not_mem_nil
  | malformed h hstart =>
    rw [reachedInterfaces_none h hstart]
    exact iff_of_true emits_pure fun q hq => absurd hq List.not_mem_nil
  | noMemory h hstart hkept =>
    rw [reachedInterfaces_lost h hstart hkept]
    exact iff_of_true emits_pure fun q hq => absurd hq List.not_mem_nil
  | interfaces h hstart hkept hL hnum =>
    rw [reachedInterfaces_some h hstart hkept, cfg_interfaces_progress hz hL31 hL, hnum]

end Termination

/-- The parser terminates and makes progress in every round exactly when the hops, the alternate settings and the
endpoints of every interface that it reaches advance. -/
theorem parse_configuration_terminates_iff (env : Env) (cfg : UsbiConfig) (L : ℕ) (hL31 : L < 2 ^ 31)
    (hz : ZeroSlack env.mem L) :
    ((usbiParseConfiguration env cfg 0 L).Halts ∧ Emits Progress (usbiParseConfiguration env cfg 0 L)) ↔
      ∀ q ∈ reachedInterfaces env cfg L, InterfaceAdvances env q := by
  rw [parse_configuration_progress hz hL31, parse_configuration_halts_iff hz hL31]
  exact and_iff_right_of_imp fun h q hq => (h q hq).counted

theorem parse_configuration_terminates_iff_audio :
    (usbiParseConfiguration (blobEnv audioConfig.bytes) {} 0 58).Halts ∧
      Emits Progress (usbiParseConfiguration (blobEnv audioConfig.bytes) {} 0 58) := by
  have hz : ZeroSlack (blobEnv audioConfig.bytes).mem 58 := fun p hp =>
    blobMem_of_le (show ((audioConfig.bytes.length : ℕ) : ℤ) ≤ p from hp)
  have hadv : ∀ q ∈ reachedInterfaces (blobEnv audioConfig.bytes) {} 58, InterfaceAdvances (blobEnv audioConfig.bytes) q := by
    decide +kernel
  exact (parse_configuration_terminates_iff (blobEnv audioConfig.bytes) {} 58 (by decide) hz).mpr hadv

/-! ## A blob on which the parser hangs -/

/-- A configuration whose interface descriptor is followed by a single zero. -/
def stuckBlob : List UInt8 := [9, 2, 19, 0, 1, 1, 0, 0x80, 50, 9, 4, 0, 0, 0, 3, 1, 1, 0, 0]

/-- A counting pass that comes to a `bLength` of zero stays there for ever. -/
theorem count_stuck {env : Env} {buf : ℤ} {buflen : ℕ} {fno : UInt8} {c : AltCount} (hlt : CInt.toU32 c.len < buflen)
    (hzero : CInt.schar (env.mem (buf + c.len)) = 0) : ¬ (loop (altCountRound env buf buflen fno) c).Halts := by
  rintro ⟨a, ha⟩
  obtain ⟨s, hs, hleave⟩ := Returns.loop_inv (I := fun s => s.len = c.len) (fun s s' hs h => by
    rw [returns_altCountRound, hs, if_pos hlt] at h
    obtain rfl := Round.again.inj h
    show s.len + CInt.schar (env.mem (buf + s.len)) = c.len
    rw [hs, hzero, add_zero]) rfl ha
  rw [returns_altCountRound, hs, if_pos hlt] at hleave
  cases hleave

theorem parse_stuck_hangs : ¬ (usbiParseConfiguration (blobEnv stuckBlob) {} 0 19).Halts := by
  rintro ⟨r, hr⟩
  have hheader : (parseHeader (blobEnv stuckBlob) 0 19 ((blobEnv stuckBlob).junk 0)).Returns ⟨9, 2⟩ :=
    ⟨0, by decide +kernel⟩
  have hdesc : (parseInto (blobEnv stuckBlob) UsbConfigDesc.store fmtConfig sizeofConfigDesc 0 19 {}).Returns
    ⟨9, 2, 19, 1, 1, 0, 0x80, 50⟩ := ⟨0, by decide +kernel⟩
  have hskip : (loop (cfgSkipRound (blobEnv stuckBlob)) { buf := 9, buflen := 10, parsed := 9, header := ⟨9, 2⟩ }).Returns
      (some { buf := 9, buflen := 10, parsed := 9, header := ⟨9, 4⟩ }) := ⟨1, by decide +kernel⟩
  have hcalloc : (calloc (blobEnv stuckBlob) .interfaces).Returns true := ⟨0, rfl⟩
  rw [usbiParseConfiguration, if_neg (by decide), hheader.bind_iff, hdesc.bind_iff] at hr
  dsimp only at hr
  rw [if_neg (by decide), hcalloc.bind_iff] at hr
  rw [if_neg (by decide), returns_emit_bind] at hr
  replace hr := hskip.bind_iff.mp hr
  dsimp only at hr
  rw [if_pos rfl, cfgInterfaces, returns_bind] at hr
  obtain ⟨x, hx, -⟩ := hr
  change (parseInterfaces (blobEnv stuckBlob) 1 { buf := 9, buflen := 10 }).Returns x at hx
  rw [parseInterfaces, if_neg (by decide), returns_bind] at hx
  obtain ⟨y, hy, -⟩ := hx
  rw [usbiParseInterface, if_neg (by decide), (returns_rd.mpr rfl).bind_iff, if_neg (by decide), returns_bind] at hy
  obtain ⟨n, hn, -⟩ := hy
  rw [usbiGetIntfAltno, (returns_rd.mpr rfl).bind_iff, returns_loop] at hn
  -- the first hop takes the pass to the zero behind the interface descriptor
  rcases hn with hn | ⟨s, hs, hn⟩
  · rw [returns_altCountRound, if_pos (by decide)] at hn
    cases hn
  · rw [returns_altCountRound, if_pos (by decide)] at hs
    obtain rfl := Round.again.inj hs
    exact count_stuck (by decide) (by decide) ⟨n, hn⟩

end OpenUsb
