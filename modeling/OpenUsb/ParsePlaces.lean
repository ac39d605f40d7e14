import OpenUsb.ParserResults

/-!
# ParsePlaces — where the parser gets to

Which descriptors the parser reaches, and where each of its functions stops, as functions of the bytes and of the
allocations that succeed.  A place `(p, n)` is an offset with the bytes left there.

* `endpointStop`, `altStop`, `interfaceStop`: where a function stops, `none` when it gives up.
* `endpointsFrom`, `altsFrom`, `interfacesFrom`: the places at which it is called.
* `endpoint_stops`, `endpoints_stop`, `alt_round_stops`, `alts_stop`: endpoints and alternate settings are parsed as far.
-/

namespace OpenUsb

open Prog

/-! ## Places in the blob -/

section

variable (mem : ℤ → UInt8)

/-- Where the class and vendor descriptors from `sp` on end, with `n` bytes left, if none of them is malformed. -/
def extrasEnd : ℕ → ℤ → ℕ → Option (ℤ × ℕ)
  | 0, sp, n => some (sp, n)
  | fuel + 1, sp, n =>
    if n < 2 then some (sp, n)
    else if (mem sp).toNat < 2 then none
    else if ProperType (mem (sp + 1)) then some (sp, n)
    else if (mem sp).toNat ≤ n then extrasEnd fuel (sp + (mem sp).toNat) (n - (mem sp).toNat)
    else none

/-- The same in `usbi_parse_configuration`, which looks at the length before it looks at the type. -/
def cfgExtrasEnd : ℕ → ℤ → ℕ → Option (ℤ × ℕ)
  | 0, sp, n => some (sp, n)
  | fuel + 1, sp, n =>
    if n < 2 then some (sp, n)
    else if n < (mem sp).toNat ∨ (mem sp).toNat < 2 then none
    else if ProperType (mem (sp + 1)) then some (sp, n)
    else cfgExtrasEnd fuel (sp + (mem sp).toNat) (n - (mem sp).toNat)

/-- There is an endpoint descriptor at `w`. -/
def IsEndpoint (w : ℤ × ℕ) : Prop := 2 ≤ w.2 ∧ mem (w.1 + 1) = USB_DESC_TYPE_ENDPOINT ∧ 7 ≤ (mem w.1).toNat

instance : DecidablePred (IsEndpoint mem) := fun _ => inferInstanceAs (Decidable (_ ∧ _))

/-- Where an endpoint descriptor ends, with its extras.  Anything else that fits is an endpoint of no bytes. -/
def endpointEnd (w : ℤ × ℕ) : Option (ℤ × ℕ) :=
  if w.2 = 0 ∨ w.2 < (mem w.1).toNat then none
  else if 2 ≤ w.2 ∧ mem (w.1 + 1) = USB_DESC_TYPE_ENDPOINT ∧ 7 ≤ (mem w.1).toNat then
    extrasEnd mem (w.2 - (mem w.1).toNat) (w.1 + (mem w.1).toNat) (w.2 - (mem w.1).toNat)
  else some w

/-- There is another alternate setting, or nothing at all. -/
def GoesOn (w : ℤ × ℕ) : Prop :=
  w.2 = 0 ∨ 9 ≤ w.2 ∧ mem (w.1 + 1) = USB_DESC_TYPE_INTERFACE ∧ mem (w.1 + 3) ≠ 0

instance : DecidablePred (GoesOn mem) := fun _ => inferInstanceAs (Decidable (_ ∨ _))

/-- A configuration or device descriptor is there. -/
def Foreign (w : ℤ × ℕ) : Prop :=
  2 ≤ w.2 ∧ (mem (w.1 + 1) = USB_DESC_TYPE_CONFIG ∨ mem (w.1 + 1) = USB_DESC_TYPE_DEVICE)

instance : DecidablePred (Foreign mem) := fun _ => inferInstanceAs (Decidable (_ ∧ _))

/-- The places that are hopped to from `buf + len` by `bLength` as a plain char, until one is outside of the blob. -/
inductive Hops (buf : ℤ) (n : ℕ) : ℤ → List ℤ → Prop
  | out {len : ℤ} (h : ¬ (0 ≤ len ∧ len < n)) : Hops buf n len []
  | hop {len : ℤ} {l : List ℤ} (h : 0 ≤ len ∧ len < n)
      (hrest : Hops buf n (len + CInt.schar (mem (buf + len))) l) :
      Hops buf n len ((buf + (len + CInt.schar (mem (buf + len)))) :: l)

/-- An interface descriptor with the number of the first one. -/
def SameNumber (buf p : ℤ) : Prop := mem (p + 1) = USB_DESC_TYPE_INTERFACE ∧ mem (p + 2) = mem (buf + 2)

instance (buf : ℤ) : DecidablePred (SameNumber mem buf) := fun _ => inferInstanceAs (Decidable (_ ∧ _))

/-- The number of interface descriptors with the number of the first one among the places. -/
def sameNumbers (buf : ℤ) (l : List ℤ) : ℕ := l.countP fun p => decide (SameNumber mem buf p)

/-- If there is an interface at `w`, the hops of its counting pass come to an end. -/
def Counted (w : ℤ × ℕ) : Prop := mem (w.1 + 1) = USB_DESC_TYPE_INTERFACE → ∃ l, Hops mem w.1 w.2 0 l

/-- Where the extras of the configuration end, which starts a blob of `L` bytes. -/
def cfgStart (L : ℕ) : Option (ℤ × ℕ) :=
  if L < (mem 0).toNat then none else cfgExtrasEnd mem (L - (mem 0).toNat) (mem 0).toNat (L - (mem 0).toNat)

end

/-! ## Places that the parser reaches -/

section

variable (env : Env)

/-- The extras between `w` and `e` are kept: there are none, or there is memory for them. -/
def Kept (s : Site) (w e : ℤ × ℕ) : Prop := e.1 = w.1 + (env.mem w.1).toNat ∨ env.alloc s = true

instance (s : Site) (w : ℤ × ℕ) : DecidablePred (Kept env s w) := fun _ => inferInstanceAs (Decidable (_ ∨ _))

/-- Where `usbi_parse_endpoint` stops. -/
def endpointStop (i j k : ℕ) (w : ℤ × ℕ) : Option (ℤ × ℕ) :=
  (endpointEnd env.mem w).filter fun e => decide (IsEndpoint env.mem w → Kept env (.epExtra i j k) w e)

/-- Where the endpoint loop stops, from endpoint `k` on with `n` rounds to go. -/
def endpointsStop (i j : ℕ) : ℕ → ℕ → ℤ × ℕ → Option (ℤ × ℕ)
  | _, 0, w => some w
  | k, n + 1, w => (endpointStop env i j k w).bind (endpointsStop i j (k + 1) n)

/-- The places at which the endpoint loop calls `usbi_parse_endpoint`. -/
def endpointsFrom (i j : ℕ) : ℕ → ℕ → ℤ × ℕ → List (ℤ × ℕ)
  | _, 0, _ => []
  | k, n + 1, w => w :: ((endpointStop env i j k w).map (endpointsFrom i j (k + 1) n)).getD []

/-- Where the extras behind the interface descriptor at `w` end. -/
def altExtrasStop (i j : ℕ) (w : ℤ × ℕ) : Option (ℤ × ℕ) :=
  if w.2 < (env.mem w.1).toNat then none
  else (extrasEnd env.mem (w.2 - (env.mem w.1).toNat) (w.1 + (env.mem w.1).toNat) (w.2 - (env.mem w.1).toNat)).filter
    fun e => decide (Kept env (.altExtra i j) w e)

/-- The endpoint loop is entered behind the extras of the interface descriptor at `w`, which end at `e`. -/
def EntersEndpoints (i j : ℕ) (w e : ℤ × ℕ) : Prop :=
  ¬ Foreign env.mem e ∧ (env.mem (w.1 + 4)).toNat ≤ USBI_MAXENDPOINTS ∧ env.alloc (.endpoints i j) = true

instance (i j : ℕ) (w : ℤ × ℕ) : DecidablePred (EntersEndpoints env i j w) := fun _ => inferInstanceAs (Decidable (_ ∧ _))

/-- Where alternate setting `j` stops, which starts at `w`. -/
def altStop (i j : ℕ) (w : ℤ × ℕ) : Option (ℤ × ℕ) :=
  (altExtrasStop env i j w).bind fun e =>
    if Foreign env.mem e then some e
    else if EntersEndpoints env i j w e then endpointsStop env i j 0 (env.mem (w.1 + 4)).toNat e
    else none

/-- The places of the endpoints of alternate setting `j`. -/
def altEndpointPlaces (i j : ℕ) (w : ℤ × ℕ) : List (ℤ × ℕ) :=
  ((altExtrasStop env i j w).map fun e =>
    if EntersEndpoints env i j w e then endpointsFrom env i j 0 (env.mem (w.1 + 4)).toNat e else []).getD []

/-- Where the altsetting loop stops, from altsetting `j` on. -/
def altsStop (i : ℕ) : ℕ → ℕ → ℤ × ℕ → Option (ℤ × ℕ)
  | 0, _, w => some w
  | fuel + 1, j, w =>
    if w.2 < 9 then some w
    else (altStop env i j w).bind fun e => if GoesOn env.mem e then altsStop i fuel (j + 1) e else some e

/-- The altsettings that it reaches, with their places. -/
def altsFrom (i : ℕ) : ℕ → ℕ → ℤ × ℕ → List (ℕ × ℤ × ℕ)
  | 0, _, _ => []
  | fuel + 1, j, w =>
    if w.2 < 9 then []
    else (j, w) :: (((altStop env i j w).filter fun e => decide (GoesOn env.mem e)).map (altsFrom i fuel (j + 1))).getD []

/-- Where `usbi_parse_interface` stops. -/
def interfaceStop (i : ℕ) (w : ℤ × ℕ) : Option (ℤ × ℕ) :=
  if env.mem (w.1 + 1) ≠ USB_DESC_TYPE_INTERFACE then some (w.1 + w.2, 0)
  else if env.alloc (.altsettings i) = true then altsStop env i w.2 0 w
  else none

/-- The altsettings of interface `i`. -/
def interfaceAlts (i : ℕ) (w : ℤ × ℕ) : List (ℕ × ℤ × ℕ) :=
  if env.mem (w.1 + 1) = USB_DESC_TYPE_INTERFACE ∧ env.alloc (.altsettings i) = true then altsFrom env i w.2 0 w else []

/-- The interfaces that the interface loop reaches from interface `i` on, with their places, when `n` rounds are to go. -/
def interfacesFrom : ℕ → ℕ → ℤ × ℕ → List (ℕ × ℤ × ℕ)
  | 0, _, _ => []
  | n + 1, i, w => if w.2 = 0 then [] else (i, w) :: ((interfaceStop env i w).map (interfacesFrom n (i + 1))).getD []

/-- `usbi_parse_configuration` goes on to the skip loop. -/
def EntersConfig (cfg : UsbiConfig) (L : ℕ) : Prop :=
  L ≠ 0 ∧ numInterfaces env cfg L ≤ USBI_MAXINTERFACES ∧ env.alloc .interfaces = true

instance (cfg : UsbiConfig) (L : ℕ) : Decidable (EntersConfig env cfg L) := inferInstanceAs (Decidable (_ ∧ _))

/-- The interfaces of a blob of `L` bytes that `usbi_parse_configuration` reaches. -/
def reachedInterfaces (cfg : UsbiConfig) (L : ℕ) : List (ℕ × ℤ × ℕ) :=
  if EntersConfig env cfg L then
    (((cfgStart env.mem L).filter fun w => decide (Kept env .cfgExtra (0, L) w)).map
      (interfacesFrom env (numInterfaces env cfg L) 0)).getD []
  else []

end

/-- No allocation fails. -/
def AllocOk (env : Env) : Prop := ∀ s, env.alloc s = true

/-- What is left behind a descriptor of `ret` bytes, unless that is an error. -/
def behind (w : ℤ × ℕ) (ret : ℤ) : Option (ℤ × ℕ) := if 0 ≤ ret then some (w.1 + ret, w.2 - ret.toNat) else none

theorem behind_neg {w : ℤ × ℕ} {ret : ℤ} (h : ret < 0) : behind w ret = none := if_neg (not_le.mpr h)

theorem behind_natCast (w : ℤ × ℕ) (k : ℕ) : behind w k = some (w.1 + k, w.2 - k) := if_pos (Int.natCast_nonneg k)

/-- A function that has parsed what lies between two places stops at the second one. -/
theorem behind_parsed {L : ℕ} {w e : ℤ × ℕ} (hL31 : L < 2 ^ 31) (hw : Left L w.1 w.2) (he : Left L e.1 e.2) {parsed : ℕ}
    (h : parsed + e.2 = w.2) : behind w (CInt.toI32 parsed) = some e := by
  obtain ⟨hw0, hwL⟩ := hw
  obtain ⟨he0, heL⟩ := he
  rw [CInt.toI32_of_lt (by omega), behind_natCast, Option.some.injEq]
  exact Prod.ext (by dsimp only; omega) (by dsimp only; omega)

section

variable {env : Env} {L : ℕ}

/-! ## Extras -/

/-- A round that leaves a skip loop has come to the end of the extras, or to a malformed one. -/
theorem extrasEnd_leave {mem : ℤ → UInt8} {c : Skip} {r : Option Skip} (h : skipNext mem 32 false c = .leave r)
    {fuel : ℕ} (hfuel : c.buflen ≤ fuel) : r.map (fun c' => (c'.buf, c'.buflen)) = extrasEnd mem fuel c.buf c.buflen := by
  rw [skipNext] at h
  rcases fuel with _ | fuel
  · rw [if_pos (by omega)] at h
    rw [← Round.leave.inj h]
    rfl
  rw [extrasEnd]
  by_cases h2 : c.buflen < 2
  · rw [if_pos h2] at h ⊢
    rw [← Round.leave.inj h]
    rfl
  rw [if_neg h2] at h ⊢
  by_cases h3 : (mem c.buf).toNat < 2
  · rw [if_pos (Or.inl h3)] at h
    rw [← Round.leave.inj h, if_pos h3]
    rfl
  rw [if_neg (by simpa using h3)] at h
  rw [if_neg h3]
  by_cases h4 : ProperType (mem (c.buf + 1))
  · rw [if_pos h4] at h ⊢
    rw [← Round.leave.inj h]
    rfl
  · rw [if_neg h4] at h
    cases h

/-- A round that goes on has stepped over an extra. -/
theorem extrasEnd_again {mem : ℤ → UInt8} {c c' : Skip} (h : skipNext mem 32 false c = .again c') (fuel : ℕ) :
    c'.buf = c.buf + (mem c.buf).toNat ∧ c'.buflen = CInt.sub 32 c.buflen (mem c.buf).toNat ∧ 2 ≤ (mem c.buf).toNat ∧
      2 ≤ c.buflen ∧ extrasEnd mem (fuel + 1) c.buf c.buflen =
        if (mem c.buf).toNat ≤ c.buflen then extrasEnd mem fuel (c.buf + (mem c.buf).toNat) (c.buflen - (mem c.buf).toNat)
        else none := by
  rw [skipNext] at h
  by_cases h2 : c.buflen < 2
  · rw [if_pos h2] at h
    cases h
  rw [if_neg h2] at h
  by_cases h3 : (mem c.buf).toNat < 2
  · rw [if_pos (Or.inl h3)] at h
    cases h
  rw [if_neg (by simpa using h3)] at h
  by_cases h4 : ProperType (mem (c.buf + 1))
  · rw [if_pos h4] at h
    cases h
  rw [if_neg h4] at h
  obtain rfl := Round.again.inj h
  refine ⟨rfl, rfl, Nat.le_of_not_lt h3, Nat.le_of_not_lt h2, ?_⟩
  rw [extrasEnd, if_neg h2, if_neg h3, if_neg h4]

/-- A skip loop ends where the extras end. -/
theorem skip_extrasEnd (hz : ZeroSlack env.mem L) (hL31 : L < 2 ^ 31) {lp : Scan} (hlp : lp = .altExtra ∨ lp = .epExtra)
    {c : Skip} {r : Option Skip} (hr : (loop (skipRound env lp) c).Returns r) : Left L c.buf c.buflen →
    ∀ fuel, c.buflen ≤ fuel →
      r.map (fun c' => (c'.buf, c'.buflen)) = extrasEnd env.mem fuel c.buf c.buflen := by
  refine Returns.loop_rec (C := fun c => Left L c.buf c.buflen → ∀ fuel, c.buflen ≤ fuel →
    r.map (fun c' => (c'.buf, c'.buflen)) = extrasEnd env.mem fuel c.buf c.buflen) ?_ ?_ hr
  · intro c hb hL fuel hfuel
    have hlt := hL.lt hL31
    exact extrasEnd_leave ((returns_skipRound (by omega)).mp hb).symm hfuel
  · intro c c' hb hrest ih hL fuel hfuel
    have hlt := hL.lt hL31
    have hnext := ((returns_skipRound (by omega)).mp hb).symm
    obtain ⟨hbuf, hbuflen, hb2, hn2, -⟩ := extrasEnd_again hnext 0
    obtain ⟨fuel, rfl⟩ := Nat.exists_eq_succ_of_ne_zero (show fuel ≠ 0 by omega)
    rw [(extrasEnd_again hnext fuel).2.2.2.2]
    rw [hbuf, hbuflen] at ih
    rcases hL.sub hL31 (env.mem c.buf) with ⟨hle, hsub, hleft⟩ | ⟨hgt, hbeyond⟩
    · rw [hsub] at ih hleft
      rw [if_pos hle]
      exact ih hleft fuel (by omega)
    · -- behind the blob the zeros make the loop give up
      rw [if_neg (Nat.not_le.mpr hgt)]
      rw [← hbuf, ← hbuflen] at hbeyond
      have hpost := ((skip_ends hz hL31 hlp (Or.inr hbeyond)).of_returns hrest).2
      cases r with
      | none => rfl
      | some c'' =>
        have hleft := (hpost c'' rfl).1
        exact absurd hleft.2 (by have := hbeyond.1; have := hbeyond.2.1; omega)

/-- The extras that a skip loop has stepped over are kept if there are none, or if there is memory for them. -/
theorem kept_iff (s : Site) {buf : ℤ} {n : ℕ} (hL : Left L buf n) (hle : (env.mem buf).toNat ≤ n) {c : Skip}
    (hc : Left L c.buf c.buflen) (hextra : c.extra_len + c.buflen = n - (env.mem buf).toNat) :
    Kept env s (buf, n) (c.buf, c.buflen) ↔ c.extra_len = 0 ∨ env.alloc s = true := by
  refine or_congr ?_ Iff.rfl
  obtain ⟨h0, hL⟩ := hL
  obtain ⟨-, hc⟩ := hc
  dsimp only
  omega

/-! ## Endpoints -/

/-- The parser takes a descriptor that fits for an endpoint descriptor when it is one. -/
theorem isEndpoint_iff {mem : ℤ → UInt8} {buf : ℤ} {n : ℕ} (hle : (mem buf).toNat ≤ n) (hd : UsbDescriptorHeader) :
    IsEndpoint mem (buf, n) ↔ (headerParsed mem buf n hd).bDescriptorType = USB_DESC_TYPE_ENDPOINT ∧
      ¬ (mem buf).toNat < USBI_ENDPOINT_DESC_SIZE := by
  unfold IsEndpoint
  simp only [USBI_ENDPOINT_DESC_SIZE, Nat.not_lt]
  by_cases h2 : 2 ≤ n
  · rw [headerParsed_of_le h2, headerAt_type, and_iff_right h2]
  · exact iff_of_false (fun h => h2 h.1) fun h => h2 (by omega)

/-- Anything but an endpoint descriptor is left where it is. -/
theorem other_endpoint {i j k : ℕ} {ep : UsbiEndpoint} {buf : ℤ} {n : ℕ} (hlt : n < 2 ^ 32) (h0 : 0 < n)
    (hle : (env.mem buf).toNat ≤ n) (hother : ¬ IsEndpoint env.mem (buf, n)) :
    (usbiParseEndpoint env i j k ep buf n).Returns (0, ep) := by
  have hbyte : (headerParsed env.mem buf n (env.junk buf)).bLength = env.mem buf := if_pos h0
  rw [isEndpoint_iff hle (env.junk buf), not_and_not_right] at hother
  rw [usbiParseEndpoint, if_neg (by omega), ((returns_parseHeader hlt).mpr rfl).bind_iff]
  dsimp only
  rw [hbyte, if_neg (by omega)]
  by_cases htype : (headerParsed env.mem buf n (env.junk buf)).bDescriptorType = USB_DESC_TYPE_ENDPOINT
  · rw [if_neg (by simpa using htype), if_pos (hother htype)]
    exact returns_pure.mpr rfl
  · rw [if_pos htype]
    exact returns_pure.mpr rfl

/-- `usbi_parse_endpoint` stops where the endpoint and its extras end, if there is memory for these. -/
theorem endpoint_stops (hz : ZeroSlack env.mem L) (hL31 : L < 2 ^ 31) {i j k : ℕ} {ep : UsbiEndpoint} {buf : ℤ} {n : ℕ}
    (hL : Left L buf n) (h0 : 0 < n) (hle : (env.mem buf).toNat ≤ n) {r : ℤ × UsbiEndpoint}
    (hr : (usbiParseEndpoint env i j k ep buf n).Returns r) : behind (buf, n) r.1 = endpointStop env i j k (buf, n) := by
  have hlt := hL.lt hL31
  have hend : endpointEnd env.mem (buf, n) = if IsEndpoint env.mem (buf, n) then
      extrasEnd env.mem (n - (env.mem buf).toNat) (buf + (env.mem buf).toNat) (n - (env.mem buf).toNat)
      else some (buf, n) := if_neg (not_or.mpr ⟨by dsimp only; omega, Nat.not_lt.mpr hle⟩)
  unfold endpointStop
  by_cases hep : IsEndpoint env.mem (buf, n)
  swap
  · rw [hend, if_neg hep, hr.unique (other_endpoint (by omega) h0 hle hep), Option.filter_some,
      if_pos (decide_eq_true fun h => absurd h hep)]
    simp [behind]
  rw [hend, if_pos hep]
  simp only [hep, true_implies]
  obtain ⟨h2, htype, h7⟩ := hep
  dsimp only at h2 htype h7
  rw [usbiParseEndpoint, if_neg (by omega), ((returns_parseHeader (by omega)).mpr rfl).bind_iff] at hr
  dsimp only at hr
  rw [headerParsed_of_le h2, headerAt_bLength, headerAt_type, if_neg (by omega), if_neg (by simpa using htype),
    if_neg (by simp only [USBI_ENDPOINT_DESC_SIZE]; omega)] at hr
  obtain ⟨desc, -, hr⟩ := returns_bind.mp hr
  rw [returns_emit_bind] at hr
  obtain ⟨skip, hskip, hr⟩ := returns_bind.mp hr
  have hstart := (hL.sub hL31 (env.mem buf)).resolve_right fun h => by omega
  have hskipped := skip_extrasEnd hz hL31 (Or.inr rfl) hskip hstart.2.2 _ le_rfl
  have hpost := ((skip_ends hz hL31 (Or.inr rfl) (Or.inl hstart.2.2)).of_returns hskip).2
  dsimp only at hskipped
  rw [hstart.2.1] at hskipped
  rw [← hskipped]
  cases skip with
  | none =>
    obtain rfl := returns_pure.mp hr
    exact behind_neg (show (-1 : ℤ) < 0 by decide)
  | some c =>
    obtain ⟨-, hleft, -, hparsed, hextra⟩ := hpost c rfl
    dsimp only at hparsed hextra
    have hplace : behind (buf, n) (CInt.toI32 c.parsed) = some (c.buf, c.buflen) :=
      behind_parsed hL31 hL hleft (by dsimp only; omega)
    have hkept := kept_iff (.epExtra i j k) hL hle hleft (by omega)
    dsimp only at hr
    rw [Option.map_some, Option.filter_some]
    by_cases hextra : c.extra_len = 0
    · rw [if_pos hextra] at hr
      obtain rfl := returns_pure.mp hr
      rw [if_pos (decide_eq_true (hkept.mpr (Or.inl hextra)))]
      exact hplace
    · rw [if_neg hextra, (returns_calloc.mpr rfl).bind_iff] at hr
      by_cases hok : env.alloc (.epExtra i j k) = true
      · rw [if_pos hok, (returns_copyBytes.mpr rfl).bind_iff] at hr
        obtain rfl := returns_pure.mp hr
        rw [if_pos (decide_eq_true (hkept.mpr (Or.inr hok)))]
        exact hplace
      · rw [if_neg hok] at hr
        obtain rfl := returns_pure.mp hr
        rw [if_neg (by simpa using fun h => (hkept.mp h).elim hextra hok)]
        exact behind_neg (show (-1 : ℤ) < 0 by decide)

/-- Without a descriptor that fits, the endpoint loop gives up. -/
theorem endpointStop_none {i j k : ℕ} {w : ℤ × ℕ} (h : ¬ (0 < w.2 ∧ (env.mem w.1).toNat ≤ w.2)) :
    endpointStop env i j k w = none := by
  have hnone : endpointEnd env.mem w = none := if_pos (by omega)
  rw [endpointStop, hnone]
  rfl

/-- The endpoint loop stops where the endpoints end. -/
theorem endpoints_stop (hz : ZeroSlack env.mem L) (hL31 : L < 2 ^ 31) {i j : ℕ} (n : ℕ) (s : EpState)
    (hL : Left L s.buf s.buflen) {r : Option ℤ × EpState} (hr : (parseEndpoints env i j n s).Returns r) :
    (if r.1 = none then some (r.2.buf, r.2.buflen) else none) =
      endpointsStop env i j s.eps.length n (s.buf, s.buflen) := by
  induction n generalizing s with
  | zero =>
    obtain rfl := returns_pure.mp hr
    exact if_pos rfl
  | succ n ih =>
    have hlt := hL.lt hL31
    rw [parseEndpoints, returns_emit_bind, ((returns_parseHeader (by omega)).mpr rfl).bind_iff] at hr
    rw [endpointsStop]
    by_cases hfits : 0 < s.buflen ∧ (env.mem s.buf).toNat ≤ s.buflen
    · have hbyte : (headerParsed env.mem s.buf s.buflen s.header).bLength = env.mem s.buf := if_pos hfits.1
      rw [hbyte, if_neg (by omega)] at hr
      obtain ⟨⟨ret, ep⟩, hret, hr⟩ := returns_bind.mp hr
      rw [← endpoint_stops hz hL31 hL hfits.1 hfits.2 hret]
      have hle := ((parse_endpoint_ends hz hL31 hL hfits.1 hfits.2 UsbiEndpoint.consistent_zero).of_returns hret).2.1
      dsimp only at hr hle ⊢
      by_cases hneg : ret < 0
      · rw [if_pos hneg] at hr
        obtain rfl := returns_pure.mp hr
        rw [behind_neg hneg, if_neg (by simp)]
        rfl
      · rw [if_neg hneg, returns_emit_bind] at hr
        obtain ⟨m, rfl⟩ := Int.eq_ofNat_of_zero_le (not_lt.mp hneg)
        rw [Int.toNat_natCast, CInt.sub_of_le (by omega) (by omega)] at hr
        rw [behind_natCast, Option.bind_some]
        have hrest := ih _ (hL.step (show m ≤ s.buflen by omega)) hr
        rwa [List.length_append] at hrest
    · rw [endpointStop_none hfits, Option.bind_none, if_neg]
      by_cases hgt : (headerParsed env.mem s.buf s.buflen s.header).bLength.toNat > s.buflen
      · rw [if_pos hgt] at hr
        obtain rfl := returns_pure.mp hr
        simp
      · -- nothing is left, and the stale header has length 0
        have h0 : s.buflen = 0 := by
          by_contra hne
          have hbyte : (headerParsed env.mem s.buf s.buflen s.header).bLength = env.mem s.buf := if_pos (by omega)
          rw [hbyte] at hgt
          exact hfits ⟨by omega, by omega⟩
        rw [if_neg hgt, usbiParseEndpoint, if_pos h0, (returns_pure.mpr rfl).bind_iff] at hr
        dsimp only at hr
        rw [if_pos (by decide)] at hr
        obtain rfl := returns_pure.mp hr
        simp

/-! ## Alternate settings -/

/-- A configuration or device descriptor is no alternate setting. -/
theorem Foreign.not_goesOn {mem : ℤ → UInt8} {e : ℤ × ℕ} (h : Foreign mem e) : ¬ GoesOn mem e := by
  obtain ⟨h2, h⟩ := h
  rintro (h0 | ⟨-, htype, -⟩)
  · omega
  · rcases h with h | h
    · exact absurd (htype.symm.trans h) (by decide)
    · exact absurd (htype.symm.trans h) (by decide)

/-- The parser stops at a configuration or device descriptor. -/
theorem foreign_iff {mem : ℤ → UInt8} (c : Skip) : (c.buflen ≥ USBI_DESC_HEADER_SIZE ∧
    ((headerParsed mem c.buf c.buflen c.header).bDescriptorType = USB_DESC_TYPE_CONFIG ∨
      (headerParsed mem c.buf c.buflen c.header).bDescriptorType = USB_DESC_TYPE_DEVICE)) ↔
    Foreign mem (c.buf, c.buflen) := by
  refine and_congr_right fun h2 => ?_
  rw [headerParsed_of_le h2, headerAt_type]

/-- Where a round of the altsetting loop goes on. -/
def nextAlt : Round AltState (ℤ × UsbiInterface) → Option (ℤ × ℕ)
  | .again s => some (s.buf, s.buflen)
  | .leave _ => none

/-- Where a round stops, in the interface at `w`. -/
def roundStop (w : ℤ × ℕ) : Round AltState (ℤ × UsbiInterface) → Option (ℤ × ℕ)
  | .again s => some (s.buf, s.buflen)
  | .leave r => behind w r.1

/-- The number of entries that are written after a round. -/
def entries : Round AltState (ℤ × UsbiInterface) → ℕ
  | .again s => s.alts.length
  | .leave r => r.2.num_altsettings

/-- A round of the altsetting loop has written an entry behind `num` others, and stops at `e`. -/
structure StopsAt (mem : ℤ → UInt8) (w : ℤ × ℕ) (num : ℕ) (r : Round AltState (ℤ × UsbiInterface))
    (e : Option (ℤ × ℕ)) : Prop where
  stop : roundStop w r = e
  next : nextAlt r = e.filter fun e => decide (GoesOn mem e)
  entries : OpenUsb.entries r = num + 1

/-- A round that gives up. -/
theorem StopsAt.fail {mem : ℤ → UInt8} {w : ℤ × ℕ} {alts : List UsbiAltsetting} {as : UsbiAltsetting} {a : ℤ}
    {intf : UsbiInterface} (ha : a < 0) (hnum : intf.num_altsettings = (alts ++ [as]).length) :
    StopsAt mem w alts.length (.leave (a, intf)) none :=
  ⟨behind_neg ha, rfl, hnum.trans List.length_append⟩

variable {w : ℤ × ℕ}

/-- The end of a round asks for another alternate setting. -/
theorem alt_next_stops (hL31 : L < 2 ^ 31) (hw : Left L w.1 w.2) {cap : ℕ} {alts : List UsbiAltsetting}
    {as : UsbiAltsetting} {s : EpState} (hL : Left L s.buf s.buflen) (htotal : s.parsed + s.buflen = w.2)
    {r : Round AltState (ℤ × UsbiInterface)} (hr : (altNext env cap (alts ++ [as]) s).Returns r) :
    StopsAt env.mem w alts.length r (some (s.buf, s.buflen)) := by
  have hlt := hL.lt hL31
  have hplace : behind w (CInt.toI32 s.parsed) = some (s.buf, s.buflen) := behind_parsed hL31 hw hL htotal
  rw [altNext] at hr
  by_cases h0 : s.buflen = 0
  · rw [if_pos h0] at hr
    obtain rfl := returns_pure.mp hr
    have hgoes : GoesOn env.mem (s.buf, s.buflen) := Or.inl h0
    refine ⟨rfl, ?_, List.length_append⟩
    rw [Option.filter_some, if_pos (decide_eq_true hgoes)]
    rfl
  rw [if_neg h0, ((returns_parseHeader (by omega)).mpr rfl).bind_iff, (returns_rd.mpr rfl).bind_iff] at hr
  by_cases hstop : s.buflen < USBI_INTERFACE_DESC_SIZE ∨
      (headerParsed env.mem s.buf s.buflen s.header).bDescriptorType ≠ USB_DESC_TYPE_INTERFACE ∨ env.mem (s.buf + 3) = 0
  · rw [if_pos hstop] at hr
    obtain rfl := returns_pure.mp hr
    refine ⟨hplace, ?_, List.length_append⟩
    rw [Option.filter_some, if_neg]
    · rfl
    rw [decide_eq_true_eq]
    rintro (hzero | ⟨h9, htype, halt⟩)
    · exact h0 hzero
    · rw [headerParsed_of_le (show 2 ≤ s.buflen from (show 2 ≤ 9 by decide).trans h9), headerAt_type] at hstop
      rcases hstop with h | h | h
      · exact absurd h9 (Nat.not_le.mpr h)
      · exact h htype
      · exact halt h
  · rw [if_neg hstop] at hr
    obtain rfl := returns_pure.mp hr
    rw [not_or, not_or, not_not] at hstop
    obtain ⟨h9, htype, halt⟩ := hstop
    have h9' : 9 ≤ s.buflen := Nat.le_of_not_lt h9
    rw [headerParsed_of_le (by omega), headerAt_type] at htype
    have hgoes : GoesOn env.mem (s.buf, s.buflen) := Or.inr ⟨h9', htype, halt⟩
    refine ⟨rfl, ?_, List.length_append⟩
    rw [Option.filter_some, if_pos (decide_eq_true hgoes)]
    rfl

/-- What is behind the extras of the alternate setting at `a`. -/
theorem alt_endpoints_stop (hz : ZeroSlack env.mem L) (hL31 : L < 2 ^ 31) (hw : Left L w.1 w.2) {i cap : ℕ}
    {alts : List UsbiAltsetting} {as : UsbiAltsetting} {a : ℤ × ℕ} (has : as.desc.bNumEndpoints = env.mem (a.1 + 4))
    {c : Skip} (hL : Left L c.buf c.buflen) (htotal : c.parsed + c.buflen = w.2)
    {r : Round AltState (ℤ × UsbiInterface)} (hr : (altEndpoints env i cap alts as c).Returns r) :
    StopsAt env.mem w alts.length r
      (if Foreign env.mem (c.buf, c.buflen) then some (c.buf, c.buflen)
        else if EntersEndpoints env i alts.length a (c.buf, c.buflen) then
          endpointsStop env i alts.length 0 (env.mem (a.1 + 4)).toNat (c.buf, c.buflen)
        else none) := by
  have hlt := hL.lt hL31
  rw [altEndpoints, ((returns_parseHeader (by omega)).mpr rfl).bind_iff] at hr
  dsimp only at hr
  rw [has] at hr
  rw [if_congr (foreign_iff c) rfl rfl] at hr
  by_cases hstop : Foreign env.mem (c.buf, c.buflen)
  · rw [if_pos hstop] at hr
    obtain rfl := returns_pure.mp hr
    rw [if_pos hstop]
    refine ⟨behind_parsed hL31 hw hL htotal, ?_, List.length_append⟩
    rw [Option.filter_some, if_neg (by simpa using hstop.not_goesOn)]
    rfl
  rw [if_neg hstop, returns_emit_bind] at hr
  rw [if_neg hstop]
  by_cases hmax : (env.mem (a.1 + 4)).toNat > USBI_MAXENDPOINTS
  · rw [if_pos hmax] at hr
    obtain rfl := returns_pure.mp hr
    rw [if_neg fun h => absurd h.2.1 (Nat.not_le.mpr hmax)]
    exact .fail (show (-1 : ℤ) < 0 by decide) rfl
  rw [if_neg hmax, (returns_calloc.mpr rfl).bind_iff] at hr
  by_cases hok : env.alloc (.endpoints i alts.length) = true
  · rw [if_neg (by simp [hok])] at hr
    rw [if_pos ⟨hstop, Nat.le_of_not_lt hmax, hok⟩]
    obtain ⟨⟨ret, s⟩, hret, hr⟩ := returns_bind.mp hr
    have hstops := endpoints_stop hz hL31 _ _ hL hret
    obtain ⟨-, hneg, -, hpost⟩ := (parse_endpoints_ends hz hL31 _
      { buf := c.buf, buflen := c.buflen, parsed := c.parsed, header := _ } hL (by simp)).of_returns hret
    rw [List.length_nil] at hstops
    rw [← hstops]
    cases ret with
    | some v =>
      obtain ⟨_, -, hr⟩ := returns_bind.mp hr
      obtain rfl := returns_pure.mp hr
      rw [if_neg (by simp)]
      exact .fail (hneg v rfl) rfl
    | none =>
      obtain ⟨hleft, -, hparsed, -⟩ := hpost rfl
      rw [if_pos rfl]
      exact alt_next_stops hL31 hw hleft (hparsed.trans htotal) hr
  · rw [if_pos (by simpa using hok)] at hr
    obtain ⟨_, -, hr⟩ := returns_bind.mp hr
    obtain rfl := returns_pure.mp hr
    rw [if_neg fun h => hok h.2.2]
    exact .fail (show (-1 : ℤ) < 0 by decide) rfl

/-- A round writes one entry, and stops where the alternate setting does. -/
theorem alt_round_stops (hz : ZeroSlack env.mem L) (hL31 : L < 2 ^ 31) (hw : Left L w.1 w.2) {i cap : ℕ} {s : AltState}
    (hL : Left L s.buf s.buflen) (htotal : s.parsed + s.buflen = w.2) (h9 : ¬ s.buflen < USBI_INTERFACE_DESC_SIZE)
    {r : Round AltState (ℤ × UsbiInterface)} (hr : (altRound env i cap s).Returns r) :
    StopsAt env.mem w s.alts.length r (altStop env i s.alts.length (s.buf, s.buflen)) := by
  have hlt := hL.lt hL31
  have h9' : 9 ≤ s.buflen := Nat.le_of_not_lt h9
  rw [altRound, if_neg h9, returns_emit_bind, ((returns_parseHeader (by omega)).mpr rfl).bind_iff,
    headerParsed_of_le (by omega), headerAt_bLength, returns_emit_bind,
    ((returns_parseInterface (by omega) h9').mpr rfl).bind_iff, returns_emit_bind] at hr
  obtain ⟨skip, hskip, hr⟩ := returns_bind.mp hr
  have hpost := ((alt_skip_ends hz hL31 hL h9 _).of_returns hskip).2
  unfold altStop altExtrasStop
  rcases hL.sub hL31 (env.mem s.buf) with ⟨hle, hsub, hleft⟩ | ⟨hgt, hbeyond⟩
  · have hskipped := skip_extrasEnd hz hL31 (Or.inl rfl) hskip hleft _ le_rfl
    have hposts := ((skip_ends hz hL31 (Or.inl rfl) (Or.inl hleft)).of_returns hskip).2
    dsimp only at hskipped
    rw [hsub] at hskipped
    rw [if_neg (Nat.not_lt.mpr hle), ← hskipped]
    cases skip with
    | none =>
      obtain rfl := returns_pure.mp hr
      exact .fail (show (-1 : ℤ) < 0 by decide) rfl
    | some c =>
      obtain ⟨hc, -, hparsed⟩ := hpost c rfl
      obtain ⟨-, -, -, -, hextra⟩ := hposts c rfl
      dsimp only at hextra
      have hkept := kept_iff (.altExtra i s.alts.length) hL hle hc (by omega)
      obtain ⟨r', hr', hr⟩ := returns_bind.mp hr
      have hsame : r' = r := by
        cases r' with
        | again s' =>
          rw [returns_emit_bind, returns_pure] at hr
          exact hr
        | leave v => exact returns_pure.mp hr
      subst hsame
      rw [Option.map_some, Option.filter_some]
      rw [altExtra] at hr'
      by_cases hex : c.extra_len = 0
      · rw [if_pos hex] at hr'
        rw [if_pos (decide_eq_true (hkept.mpr (Or.inl hex)))]
        exact alt_endpoints_stop hz hL31 hw rfl hc (hparsed.trans htotal) hr'
      rw [if_neg hex, (returns_calloc.mpr rfl).bind_iff] at hr'
      by_cases hok : env.alloc (.altExtra i s.alts.length) = true
      · rw [if_pos hok, (returns_copyBytes.mpr rfl).bind_iff] at hr'
        rw [if_pos (decide_eq_true (hkept.mpr (Or.inr hok)))]
        exact alt_endpoints_stop hz hL31 hw rfl hc (hparsed.trans htotal) hr'
      · rw [if_neg hok] at hr'
        obtain rfl := returns_pure.mp hr'
        rw [if_neg (by simpa using fun h => (hkept.mp h).elim hex hok)]
        exact .fail (show (-1 : ℤ) < 0 by decide) rfl
  · -- a descriptor that is longer than what is left leads into the zeros
    rw [if_pos hgt]
    cases skip with
    | none =>
      obtain rfl := returns_pure.mp hr
      exact .fail (show (-1 : ℤ) < 0 by decide) rfl
    | some c =>
      have hleft := (((skip_ends hz hL31 (Or.inl rfl) (Or.inr hbeyond)).of_returns hskip).2 c rfl).1
      dsimp only at hleft
      exact absurd hleft.2 (by have := hbeyond.1; have := hbeyond.2.1; omega)

theorem altsFrom_short {i j : ℕ} (h : w.2 < 9) : ∀ fuel, altsFrom env i fuel j w = []
  | 0 => rfl
  | _ + 1 => if_pos h

theorem altsFrom_cons {i j : ℕ} (h : ¬ w.2 < 9) (fuel : ℕ) : altsFrom env i (fuel + 1) j w =
    (j, w) :: (((altStop env i j w).filter fun e => decide (GoesOn env.mem e)).map (altsFrom env i fuel (j + 1))).getD [] :=
  if_neg h

theorem altsStop_short {i j : ℕ} (h : w.2 < 9) : ∀ fuel, altsStop env i fuel j w = some w
  | 0 => rfl
  | _ + 1 => if_pos h

theorem altsStop_cons {i j : ℕ} (h : ¬ w.2 < 9) (fuel : ℕ) : altsStop env i (fuel + 1) j w =
    (altStop env i j w).bind fun e => if GoesOn env.mem e then altsStop env i fuel (j + 1) e else some e := if_neg h

/-- The altsetting loop stops where the alternate settings do, and writes an entry for each. -/
theorem alts_stop (hz : ZeroSlack env.mem L) (hL31 : L < 2 ^ 31) (hw : Left L w.1 w.2) {i cap : ℕ} {s : AltState}
    {r : ℤ × UsbiInterface} (hr : (loop (altRound env i cap) s).Returns r) : Left L s.buf s.buflen →
    s.parsed + s.buflen = w.2 → ∀ fuel, s.buflen ≤ fuel →
      behind w r.1 = altsStop env i fuel s.alts.length (s.buf, s.buflen) ∧
      r.2.num_altsettings = s.alts.length + (altsFrom env i fuel s.alts.length (s.buf, s.buflen)).length := by
  have hwlt := hw.lt hL31
  refine Returns.loop_rec (C := fun s : AltState => Left L s.buf s.buflen → s.parsed + s.buflen = w.2 →
    ∀ fuel, s.buflen ≤ fuel → behind w r.1 = altsStop env i fuel s.alts.length (s.buf, s.buflen) ∧
      r.2.num_altsettings = s.alts.length + (altsFrom env i fuel s.alts.length (s.buf, s.buflen)).length) ?_ ?_ hr
  · intro s hb hL htotal fuel hfuel
    by_cases h9 : s.buflen < USBI_INTERFACE_DESC_SIZE
    · rw [altRound, if_pos h9] at hb
      obtain rfl := Round.leave.inj (returns_pure.mp hb)
      rw [altsFrom_short h9, altsStop_short h9]
      exact ⟨behind_parsed hL31 hw hL htotal, rfl⟩
    · obtain ⟨hstop, hnext, hentries⟩ := alt_round_stops hz hL31 hw hL htotal h9 hb
      have h9' : 9 ≤ s.buflen := Nat.le_of_not_lt h9
      obtain ⟨fuel, rfl⟩ := Nat.exists_eq_succ_of_ne_zero (show fuel ≠ 0 by omega)
      rw [altsStop_cons h9, altsFrom_cons h9, ← hnext]
      refine ⟨?_, hentries⟩
      have hends : ∀ e ∈ altStop env i s.alts.length (s.buf, s.buflen), ¬ GoesOn env.mem e := fun e he hgoes => by
        rw [Option.mem_def.mp he, Option.filter_some, if_pos (decide_eq_true hgoes)] at hnext
        cases hnext
      rw [show behind w r.1 = _ from hstop]
      cases he : altStop env i s.alts.length (s.buf, s.buflen) with
      | none => rfl
      | some e => exact (if_neg (hends e he)).symm
  · intro s s' hb hrest ih hL htotal fuel hfuel
    by_cases h9 : s.buflen < USBI_INTERFACE_DESC_SIZE
    · rw [altRound, if_pos h9] at hb
      cases returns_pure.mp hb
    · obtain ⟨hstop, hnext, hentries⟩ := alt_round_stops hz hL31 hw hL htotal h9 hb
      obtain ⟨-, hL', hle, htotal', -⟩ := (alt_round_ends hz hL31 hL htotal hwlt h9).of_returns hb
      have h9' : 9 ≤ s.buflen := Nat.le_of_not_lt h9
      obtain ⟨fuel, rfl⟩ := Nat.exists_eq_succ_of_ne_zero (show fuel ≠ 0 by omega)
      obtain ⟨hrest, hnum⟩ := ih hL' htotal' fuel (by omega)
      have hentries' : s'.alts.length = s.alts.length + 1 := hentries
      rw [hentries'] at hrest hnum
      have hgoes : GoesOn env.mem (s'.buf, s'.buflen) := by
        rw [← hstop] at hnext
        exact of_decide_eq_true (Option.filter_eq_some_iff.mp hnext.symm).2
      rw [altsStop_cons h9, altsFrom_cons h9, ← hnext, ← hstop]
      refine ⟨hrest.trans (if_pos hgoes).symm, ?_⟩
      rw [hnum, List.length_cons, show nextAlt (.again s') = some (s'.buf, s'.buflen) from rfl, Option.map_some,
        Option.getD_some]
      omega

end

end OpenUsb
