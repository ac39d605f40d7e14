import OpenUsb.Grammar
import OpenUsb.ParserFacts

/-!
# ParserResults — what the parsing functions return

On a blob of `L` bytes with zeros behind it, a function that is called at `buf` with the `n` bytes that are left returns,
unless the counting pass below it does not, and consumes at most what is left.  A length counter that wraps puts the
cursor into the zeros, and the scan gives up there.  `Fine` names the steps that do not make a function give up: its
result is negative exactly when one of its steps is not fine.
-/

namespace OpenUsb

open Prog

/-- Zeros follow the `L` bytes of the blob. -/
def ZeroSlack (mem : ℤ → UInt8) (L : ℕ) : Prop := ∀ p : ℤ, L ≤ p → mem p = 0

/-- `n` bytes of the blob are left at `buf`. -/
def Left (L : ℕ) (buf : ℤ) (n : ℕ) : Prop := 0 ≤ buf ∧ buf + n = L

theorem Left.lt {L n : ℕ} {buf : ℤ} (h : Left L buf n) (hL : L < 2 ^ 31) : n < 2 ^ 31 := by
  obtain ⟨h0, h⟩ := h
  omega

/-- A step of `k` bytes inside the blob. -/
theorem Left.step {L n k : ℕ} {buf : ℤ} (h : Left L buf n) (hk : k ≤ n) : Left L (buf + k) (n - k) := by
  obtain ⟨h0, h⟩ := h
  exact ⟨by omega, by omega⟩

/-- A cursor in the zeros, with a length counter that has wrapped. -/
def Beyond (L : ℕ) (buf : ℤ) (n : ℕ) : Prop := L ≤ buf ∧ 2 ≤ n ∧ n < 2 ^ 32

/-- A step of `b` bytes, which may leave the blob. -/
theorem Left.sub {L n : ℕ} {buf : ℤ} (h : Left L buf n) (hL : L < 2 ^ 31) (b : UInt8) :
    b.toNat ≤ n ∧ CInt.sub 32 n b.toNat = n - b.toNat ∧ Left L (buf + b.toNat) (CInt.sub 32 n b.toNat) ∨
      n < b.toNat ∧ Beyond L (buf + b.toNat) (CInt.sub 32 n b.toNat) := by
  have hlt := h.lt hL
  have hb := b.toNat_lt
  rcases Nat.lt_or_ge n b.toNat with hle | hle
  · rw [CInt.sub_of_lt (by omega) hle]
    obtain ⟨h0, h⟩ := h
    exact Or.inr ⟨hle, by omega, by omega, by omega⟩
  · rw [CInt.sub_of_le (by omega) hle]
    exact Or.inl ⟨hle, rfl, h.step hle⟩

/-- The step does not make the function give up. -/
def Fine (mem : ℤ → UInt8) : Ev → Prop
  | .scan .cfgExtra _ off left => 2 ≤ (mem off).toNat ∧ (mem off).toNat ≤ left
  | .scan .altExtra _ off _ => 2 ≤ (mem off).toNat
  | .scan .epExtra _ off _ => 2 ≤ (mem off).toNat
  | .calloc s ok => ok = true ∨ s = .interfaces ∨ s = .cfgExtra
  | .numEndpoints n => n ≤ USBI_MAXENDPOINTS
  | .endpoint off left => 0 < left ∧ (mem off).toNat ≤ left
  | _ => True

section Results

variable {env : Env} {L : ℕ}

/-! ## Skipping -/

/-- What a skip loop that does not give up has done with its locals. -/
def SkipPost (L : ℕ) (c c' : Skip) : Prop :=
  Left L c'.buf c'.buflen ∧ c'.buflen ≤ c.buflen ∧ c'.parsed + c'.buflen = c.parsed + c.buflen ∧
    c'.extra_len + c'.buflen = c.extra_len + c.buflen

theorem SkipPost.refl {c : Skip} (h : Left L c.buf c.buflen) : SkipPost L c c := ⟨h, le_rfl, rfl, rfl⟩

theorem SkipPost.trans {c c' c'' : Skip} (h : SkipPost L c c') (h' : SkipPost L c' c'') : SkipPost L c c'' := by
  obtain ⟨-, h2, h3, h4⟩ := h
  obtain ⟨p1, p2, p3, p4⟩ := h'
  exact ⟨p1, by omega, by omega, by omega⟩

/-- The steps of a round of a skip loop are fine when `bLength` covers the header. -/
theorem fine_skipRound {lp : Scan} (hlp : lp = .altExtra ∨ lp = .epExtra) {c : Skip} (hlt : c.buflen < 2 ^ 32) :
    Emits (Fine env.mem) (skipRound env lp c) ↔ (2 ≤ c.buflen → 2 ≤ (env.mem c.buf).toNat) := by
  rw [emits_skipRound (fun _ => trivial) hlt]
  refine imp_congr_right fun _ => ⟨fun h => ?_, fun h => ⟨?_, fun _ _ => ⟨trivial, trivial⟩⟩⟩
  · rcases hlp with rfl | rfl
    · exact h.1
    · exact h.1
  · rcases hlp with rfl | rfl
    · exact h
    · exact h

/-- A skip loop returns, stays in the blob, and gives up exactly on a `bLength` that is too small. -/
theorem skip_ends (hz : ZeroSlack env.mem L) (hL31 : L < 2 ^ 31) {lp : Scan} (hlp : lp = .altExtra ∨ lp = .epExtra)
    {c : Skip} (hc : Left L c.buf c.buflen ∨ Beyond L c.buf c.buflen) :
    Ends (Fine env.mem) (fun r x => (x ↔ r.isSome) ∧ ∀ c', r = some c' → Left L c.buf c.buflen ∧ SkipPost L c c')
      (loop (skipRound env lp) c) := by
  -- from inside the blob a round stays inside or leaves it; behind it the zeros end the loop
  refine ends_loop (I := fun s => (Left L c.buf c.buflen ∧ SkipPost L c s) ∨ Beyond L s.buf s.buflen)
    (fun s => if (L : ℤ) ≤ s.buf then 0 else s.buflen) ?_ (hc.imp_left fun h => ⟨h, SkipPost.refl h⟩)
  intro s hs
  have hlt : s.buflen < 2 ^ 32 := by
    rcases hs with ⟨-, h, -⟩ | h
    · have := h.lt hL31; omega
    · exact h.2.2
  refine ⟨_, (returns_skipRound hlt).mpr rfl, ?_⟩
  rw [propext (fine_skipRound hlp hlt), skipNext]
  by_cases h2 : s.buflen < 2
  · rw [if_pos h2]
    refine ⟨by simp; omega, ?_⟩
    rintro c' ⟨⟩
    rcases hs with hs | hs
    · exact hs
    · exact absurd hs.2.1 (by omega)
  rw [if_neg h2]
  by_cases h3 : (env.mem s.buf).toNat < 2 ∨ false = true ∧ s.buflen < (env.mem s.buf).toNat
  · rw [if_pos h3]
    have h3' : (env.mem s.buf).toNat < 2 := h3.resolve_right fun h => by simp at h
    exact ⟨by simp; omega, fun c' h => by cases h⟩
  rw [if_neg h3]
  have h3' : 2 ≤ (env.mem s.buf).toNat := Nat.le_of_not_lt fun h => h3 (Or.inl h)
  have hinside : Left L c.buf c.buflen ∧ SkipPost L c s := by
    refine hs.resolve_right fun h => ?_
    rw [hz _ h.1] at h3'
    exact absurd h3' (by decide)
  obtain ⟨hleft, hpost⟩ := hinside
  by_cases h4 : ProperType (env.mem (s.buf + 1))
  · rw [if_pos h4]
    refine ⟨by simp; omega, ?_⟩
    rintro c' ⟨⟩
    exact ⟨hleft, hpost⟩
  · rw [if_neg h4]
    have hbuf : ¬ (L : ℤ) ≤ s.buf := by
      obtain ⟨h0, hL⟩ := hpost.1
      omega
    refine ⟨fun _ => h3', ?_, ?_⟩
    · rcases hpost.1.sub hL31 (env.mem s.buf) with ⟨hle, heq, h⟩ | ⟨-, h⟩
      · refine Or.inl ⟨hleft, hpost.trans ⟨h, ?_, ?_, ?_⟩⟩ <;> dsimp only <;> omega
      · exact Or.inr h
    · dsimp only
      rw [if_neg hbuf]
      rcases hpost.1.sub hL31 (env.mem s.buf) with ⟨hle, heq, h⟩ | ⟨-, h, -⟩
      · split_ifs <;> omega
      · rw [if_pos h]; omega

/-- The locals of the skip loop of `usbi_parse_configuration`: inside the blob, or in the zeros with a length counter
that has wrapped. -/
def CfgSkipInv (L : ℕ) (c : Skip) : Prop :=
  Left L c.buf c.buflen ∨ ((L : ℤ) ≤ c.buf ∧ 2 ≤ c.buflen % 2 ^ 32)

theorem CfgSkipInv.start (hL31 : L < 2 ^ 31) (b : UInt8) (hd : UsbDescriptorHeader) : CfgSkipInv L
    { buf := 0 + b.toNat, buflen := CInt.sub 64 L b.toNat, parsed := b.toNat, header := hd } := by
  have hb := b.toNat_lt
  rcases Nat.lt_or_ge L b.toNat with hle | hle
  · have hsub := CInt.sub_of_lt (w := 64) (show b.toNat < 2 ^ 64 by omega) hle
    exact Or.inr ⟨by dsimp only; omega, by dsimp only; rw [hsub]; omega⟩
  · have hsub := CInt.sub_of_le (w := 64) (show L < 2 ^ 64 by omega) hle
    exact Or.inl ⟨by dsimp only; omega, by dsimp only; rw [hsub]; omega⟩

theorem CfgSkipInv.mod (hL31 : L < 2 ^ 31) {c : Skip} (hc : CfgSkipInv L c) : 2 ≤ c.buflen → 2 ≤ c.buflen % 2 ^ 32 := by
  intro h2
  rcases hc with h | h
  · have := h.lt hL31
    omega
  · exact h.2

/-- A round that goes on has stepped over a descriptor that fits. -/
theorem CfgSkipInv.again (hz : ZeroSlack env.mem L) (hL31 : L < 2 ^ 31) {c c' : Skip} (hc : CfgSkipInv L c)
    (h : (cfgSkipRound env c).Returns (.again c')) :
    2 ≤ (env.mem c.buf).toNat ∧ (env.mem c.buf).toNat ≤ c.buflen ∧ Left L c'.buf c'.buflen ∧ c'.buflen < c.buflen := by
  rw [returns_cfgSkipRound (hc.mod hL31), skipNext] at h
  split_ifs at h with h2 h3 h4
  obtain rfl := Round.again.inj h
  have h3' : 2 ≤ (env.mem c.buf).toNat ∧ (env.mem c.buf).toNat ≤ c.buflen :=
    ⟨Nat.le_of_not_lt fun h => h3 (Or.inl h), Nat.le_of_not_lt fun h => h3 (Or.inr ⟨rfl, h⟩)⟩
  have hleft : Left L c.buf c.buflen := by
    refine hc.resolve_right fun h => ?_
    have h0 := h3'.1
    rw [hz _ h.1] at h0
    exact absurd h0 (by decide)
  have hlt := hleft.lt hL31
  have hsub := CInt.sub_of_le (w := 64) (show c.buflen < 2 ^ 64 by omega) h3'.2
  refine ⟨h3'.1, h3'.2, ?_, by dsimp only; omega⟩
  dsimp only
  rw [hsub]
  exact hleft.step h3'.2

/-- The skip loop of `usbi_parse_configuration` behind a descriptor of `b` bytes returns, stays in the blob, and gives up
exactly on a `bLength` that does not fit. -/
theorem cfg_skip_ends (hz : ZeroSlack env.mem L) (hL31 : L < 2 ^ 31) (b : UInt8) (hd : UsbDescriptorHeader) :
    Ends (Fine env.mem) (fun r x => (x ↔ r.isSome) ∧ ∀ c', r = some c' → Left L c'.buf c'.buflen)
      (loop (cfgSkipRound env)
        { buf := 0 + b.toNat, buflen := CInt.sub 64 L b.toNat, parsed := b.toNat, header := hd }) := by
  refine ends_loop (I := CfgSkipInv L) Skip.buflen ?_ (CfgSkipInv.start hL31 b hd)
  intro s hs
  have hfine : Emits (Fine env.mem) (cfgSkipRound env s) ↔
      (2 ≤ s.buflen → 2 ≤ (env.mem s.buf).toNat ∧ (env.mem s.buf).toNat ≤ s.buflen) := by
    rw [emits_cfgSkipRound (fun _ => trivial) (hs.mod hL31)]
    exact imp_congr_right fun _ => ⟨fun h => h.1, fun h => ⟨h, fun _ _ => ⟨trivial, trivial⟩⟩⟩
  obtain ⟨r, hr⟩ : ∃ r, (cfgSkipRound env s).Returns r := ⟨_, (returns_cfgSkipRound (hs.mod hL31)).mpr rfl⟩
  refine ⟨r, hr, ?_⟩
  rw [propext hfine]
  cases r with
  | again s' =>
    obtain ⟨h2, hle, hleft, hlt⟩ := hs.again hz hL31 hr
    exact ⟨fun _ => ⟨h2, hle⟩, Or.inl hleft, hlt⟩
  | leave r =>
    rw [returns_cfgSkipRound (hs.mod hL31), skipNext] at hr
    split_ifs at hr with h2 h3 h4
    · obtain rfl := Round.leave.inj hr
      refine ⟨by simp; omega, ?_⟩
      rintro c' ⟨⟩
      exact hs.resolve_right fun h => by omega
    · obtain rfl := Round.leave.inj hr
      refine ⟨?_, fun c' h => by cases h⟩
      simp only [Option.isSome_none, Bool.false_eq_true, iff_false]
      exact fun h => h3.elim (fun h' => by have := h (by omega); omega) fun h' => by have := h (by omega); omega
    · obtain rfl := Round.leave.inj hr
      have h3' : 2 ≤ (env.mem s.buf).toNat ∧ (env.mem s.buf).toNat ≤ s.buflen :=
        ⟨Nat.le_of_not_lt fun h => h3 (Or.inl h), Nat.le_of_not_lt fun h => h3 (Or.inr ⟨rfl, h⟩)⟩
      refine ⟨by simp; omega, ?_⟩
      rintro c' ⟨⟩
      refine hs.resolve_right fun h => ?_
      have h0 := h3'.1
      rw [hz _ h.1] at h0
      exact absurd h0 (by decide)

/-! ## Endpoints -/

/-- `usbi_parse_endpoint`, called with at least `bLength` bytes left. -/
theorem parse_endpoint_ends (hz : ZeroSlack env.mem L) (hL31 : L < 2 ^ 31) {i j k : ℕ} {ep : UsbiEndpoint} {buf : ℤ}
    {n : ℕ} (hL : Left L buf n) (h0 : 0 < n) (hle : (env.mem buf).toNat ≤ n) (hep : ep.Consistent) :
    Ends (Fine env.mem) (fun r x => (x ↔ 0 ≤ r.1) ∧ r.1 ≤ (n : ℤ) ∧ r.2.Consistent)
      (usbiParseEndpoint env i j k ep buf n) := by
  have hlt := hL.lt hL31
  have hbyte : (headerParsed env.mem buf n (env.junk buf)).bLength = env.mem buf := if_pos h0
  rw [usbiParseEndpoint, if_neg (by omega)]
  refine ((returns_parseHeader (by omega)).mpr rfl).ends_bind (emits_parseHeader fun _ => trivial) ?_
  dsimp only
  rw [hbyte, if_neg (by omega)]
  generalize headerParsed env.mem buf n (env.junk buf) = header at hbyte
  by_cases ht : header.bDescriptorType = USB_DESC_TYPE_ENDPOINT
  swap
  · rw [if_pos ht]
    exact ends_pure ⟨by simp, by simp, hep⟩
  rw [if_neg (by simpa using ht)]
  by_cases h7 : (env.mem buf).toNat < USBI_ENDPOINT_DESC_SIZE
  · rw [if_pos h7]
    exact ends_pure ⟨by simp, by simp, hep⟩
  rw [if_neg h7]
  obtain ⟨desc, hdesc⟩ : (parseInto env UsbEndpointDesc.store
    (if (env.mem buf).toNat ≥ USBI_ENDPOINT_AUDIO_DESC_SIZE then fmtEndpointAudio else fmtEndpoint) sizeofEndpointDesc buf n
      ep.desc).Halts := halts_parseInto
  refine hdesc.ends_bind (emits_parseInto fun _ => trivial) (ends_emit_bind_of trivial ?_)
  have hstart := (hL.sub hL31 (env.mem buf)).resolve_right fun h => by omega
  refine (skip_ends hz hL31 (Or.inr rfl) (Or.inl hstart.2.2)).bind fun r x hr => ?_
  obtain ⟨hx, hr⟩ := hr
  cases r with
  | none => exact ends_pure ⟨by simp [hx], by dsimp only; omega, hep⟩
  | some c =>
    obtain ⟨-, -, -, hparsed, -⟩ := hr c rfl
    dsimp only at hparsed
    have hret : CInt.toI32 c.parsed = c.parsed := CInt.toI32_of_lt (by omega)
    have hx' : x = True := eq_true (hx.mpr rfl)
    dsimp only
    rw [hret, hx']
    split_ifs with hex
    · exact ends_pure ⟨by simp, by dsimp only; omega, hep⟩
    · refine ends_calloc_bind ?_
      cases hal : env.alloc (.epExtra i j k) with
      | false =>
        rw [if_neg (by simp)]
        exact ends_pure ⟨by simp [Fine], by dsimp only; omega, hep⟩
      | true =>
        rw [if_pos rfl]
        refine (returns_copyBytes.mpr rfl).ends_bind (emits_copyBytes fun _ => trivial) ?_
        exact ends_pure ⟨by simp [Fine], by dsimp only; omega, not_false⟩

/-- The endpoint loop gives up exactly when one of its steps is not fine. -/
theorem parse_endpoints_ends (hz : ZeroSlack env.mem L) (hL31 : L < 2 ^ 31) {i j : ℕ} (k : ℕ) (s : EpState)
    (hL : Left L s.buf s.buflen) (heps : ∀ ep ∈ s.eps, ep.Consistent) :
    Ends (Fine env.mem) (fun r x => (x ↔ r.1 = none) ∧ (∀ a, r.1 = some a → a < 0) ∧ (∀ ep ∈ r.2.eps, ep.Consistent) ∧
        (r.1 = none → Left L r.2.buf r.2.buflen ∧ r.2.buflen ≤ s.buflen ∧
          r.2.parsed + r.2.buflen = s.parsed + s.buflen ∧ r.2.eps.length = s.eps.length + k))
      (parseEndpoints env i j k s) := by
  induction k generalizing s with
  | zero => exact ends_pure ⟨by simp, by simp, heps, fun _ => ⟨hL, le_rfl, rfl, rfl⟩⟩
  | succ k ih =>
    have hlt := hL.lt hL31
    rw [parseEndpoints]
    refine ends_emit_bind (((returns_parseHeader (by omega)).mpr rfl).ends_bind (emits_parseHeader fun _ => trivial) ?_)
    by_cases hfine : 0 < s.buflen ∧ (env.mem s.buf).toNat ≤ s.buflen
    · have hbyte : (headerParsed env.mem s.buf s.buflen s.header).bLength = env.mem s.buf := if_pos hfine.1
      rw [hbyte, if_neg (by omega)]
      have hev : Fine env.mem (.endpoint s.buf s.buflen) = True := eq_true hfine
      rw [hev]
      refine (parse_endpoint_ends hz hL31 hL hfine.1 hfine.2 UsbiEndpoint.consistent_zero).bind fun r x hr => ?_
      obtain ⟨r, ep⟩ := r
      obtain ⟨hx, hle, hep⟩ := hr
      dsimp only at hx hle hep ⊢
      have heps' : ∀ ep' ∈ s.eps ++ [ep], ep'.Consistent := fun ep' h' => by
        rcases List.mem_append.mp h' with h' | h'
        · exact heps ep' h'
        · rw [List.mem_singleton.mp h']; exact hep
      split_ifs with hneg
      · have hx' : x = False := eq_false fun h => by have := hx.mp h; omega
        exact ends_pure ⟨by simp [hx'], by rintro a ⟨⟩; exact hneg, heps', by simp⟩
      · have hx' : x = True := eq_true (hx.mpr (by omega))
        obtain ⟨m, rfl⟩ := Int.eq_ofNat_of_zero_le (show 0 ≤ r by omega)
        rw [hx', Int.toNat_natCast, CInt.sub_of_le (by omega) (by omega)]
        refine ends_emit_bind_of trivial ((ih _ (hL.step (show m ≤ s.buflen by omega)) heps').mono fun b y hb => ?_)
        obtain ⟨h1, h2, h3, h4⟩ := hb
        refine ⟨by simpa using h1, h2, h3, fun hnone => ?_⟩
        obtain ⟨p1, p2, p3, p4⟩ := h4 hnone
        dsimp only at p2 p3
        rw [List.length_append, List.length_singleton] at p4
        exact ⟨p1, by omega, by omega, by omega⟩
    · have hev : Fine env.mem (.endpoint s.buf s.buflen) = False := eq_false hfine
      rw [hev]
      split_ifs with hgt
      · exact ends_pure ⟨by simp, by rintro a ⟨⟩; decide, heps, by simp⟩
      · -- nothing is left, and the stale header has length 0
        have h0 : s.buflen = 0 := by
          by_contra hne
          have hbyte : (headerParsed env.mem s.buf s.buflen s.header).bLength = env.mem s.buf := if_pos (by omega)
          rw [hbyte] at hgt
          exact hfine ⟨by omega, by omega⟩
        rw [usbiParseEndpoint, if_pos h0]
        refine (returns_pure.mpr rfl).ends_bind emits_pure ?_
        dsimp only
        rw [if_pos (by decide)]
        refine ends_pure ⟨by simp, by rintro a ⟨⟩; decide, fun ep' h' => ?_, by simp⟩
        rcases List.mem_append.mp h' with h' | h'
        · exact heps ep' h'
        · rw [List.mem_singleton.mp h']; exact UsbiEndpoint.consistent_zero

/-! ## Alternate settings -/

/-- What is known after part of a round of the altsetting loop that started with `alts`, when `total` bytes had been
parsed or were left and `left` were left.  `x` says that the steps so far were fine. -/
def AltPost (L cap : ℕ) (alts : List UsbiAltsetting) (total left : ℕ) (r : Round AltState (ℤ × UsbiInterface)) (x : Prop) :
    Prop :=
  match r with
  | .again s' => x ∧ Left L s'.buf s'.buflen ∧ s'.buflen ≤ left ∧ s'.parsed + s'.buflen = total ∧
      ∃ as, s'.alts = alts ++ [as] ∧ as.Sound
  | .leave (a, intf) => (x ↔ 0 ≤ a) ∧ a ≤ total ∧
      (x → ∃ as, intf = liveIntf cap (alts ++ [as]) ∧ as.Sound)

/-- A round that gives up. -/
theorem AltPost.fail {cap total left : ℕ} {alts : List UsbiAltsetting} {a : ℤ} {intf : UsbiInterface} {x : Prop}
    (ha : a < 0) (hx : ¬ x) : AltPost L cap alts total left (.leave (a, intf)) x :=
  ⟨⟨fun h => absurd h hx, fun h => absurd h (by omega)⟩, by omega, fun h => absurd h hx⟩

/-- The altsetting loop goes on with the locals that the endpoint loop left, or ends with what has been parsed. -/
theorem alt_next_ends (hL31 : L < 2 ^ 31) {cap total left : ℕ} {alts : List UsbiAltsetting} {as : UsbiAltsetting}
    (has : as.Sound) {s : EpState} (hL : Left L s.buf s.buflen) (hle : s.buflen ≤ left)
    (htotal : s.parsed + s.buflen = total) (hlt : total < 2 ^ 31) :
    Ends (Fine env.mem) (AltPost L cap alts total left) (altNext env cap (alts ++ [as]) s) := by
  have hn := hL.lt hL31
  have hleave : AltPost L cap alts total left (.leave (CInt.toI32 s.parsed, liveIntf cap (alts ++ [as]))) True := by
    rw [CInt.toI32_of_lt (by omega)]
    exact ⟨by simp, by omega, fun _ => ⟨as, rfl, has⟩⟩
  have hagain : ∀ hd, AltPost L cap alts total left
      (.again { buf := s.buf, buflen := s.buflen, parsed := s.parsed, header := hd, alts := alts ++ [as] }) True :=
    fun hd => ⟨trivial, hL, hle, htotal, as, rfl, has⟩
  rw [altNext]
  split_ifs with h0
  · exact ends_pure (hagain _)
  · refine ((returns_parseHeader (by omega)).mpr rfl).ends_bind (emits_parseHeader fun _ => trivial) ?_
    refine (returns_rd.mpr rfl).ends_bind (emits_rd.mpr trivial) ?_
    split_ifs
    · exact ends_pure hleave
    · exact ends_pure (hagain _)

/-- The endpoints of an alternate setting. -/
theorem alt_endpoints_ends (hz : ZeroSlack env.mem L) (hL31 : L < 2 ^ 31) {i cap total left : ℕ}
    {alts : List UsbiAltsetting} {as : UsbiAltsetting} (has : as.Sound) {c : Skip} (hL : Left L c.buf c.buflen)
    (hle : c.buflen ≤ left) (htotal : c.parsed + c.buflen = total) (hlt : total < 2 ^ 31) :
    Ends (Fine env.mem) (AltPost L cap alts total left) (altEndpoints env i cap alts as c) := by
  have hn := hL.lt hL31
  rw [altEndpoints]
  refine ((returns_parseHeader (by omega)).mpr rfl).ends_bind (emits_parseHeader fun _ => trivial) ?_
  split_ifs with hstop
  · refine ends_pure ?_
    rw [CInt.toI32_of_lt (by omega)]
    exact ⟨by simp, by omega, fun _ => ⟨as, rfl, has⟩⟩
  · refine ends_emit_bind ?_
    by_cases hmax : as.desc.bNumEndpoints.toNat > USBI_MAXENDPOINTS
    · rw [if_pos hmax]
      exact ends_pure (AltPost.fail (by decide) fun h => absurd h.1 (Nat.not_le.mpr hmax))
    have hev : Fine env.mem (.numEndpoints as.desc.bNumEndpoints.toNat) = True := eq_true (Nat.le_of_not_gt hmax)
    rw [if_neg hmax, hev]
    refine ends_calloc_bind ?_
    cases hal : env.alloc (.endpoints i alts.length) with
    | false =>
      rw [if_pos (by simp)]
      refine (returns_emitAll (u := ())).ends_bind (emits_emitAll.mpr fun e he => ?_) ?_
      · rw [List.eq_of_mem_replicate he]; trivial
      · exact ends_pure (AltPost.fail (by decide) fun h => by simp [Fine] at h)
    | true =>
      have hcal : Fine env.mem (.calloc (.endpoints i alts.length) true) = True := eq_true (Or.inl rfl)
      rw [if_neg (by simp), hcal]
      refine (parse_endpoints_ends hz hL31 _ { buf := c.buf, buflen := c.buflen, parsed := c.parsed, header := _ } hL
        (by simp)).bind fun r x hr => ?_
      obtain ⟨r, s⟩ := r
      obtain ⟨hx, hneg, heps, hs⟩ := hr
      cases r with
      | some a =>
        refine (returns_emitAll (u := ())).ends_bind (emits_emitAll.mpr fun e he => ?_) ?_
        · rw [List.eq_of_mem_replicate he]; trivial
        · refine ends_pure (AltPost.fail (hneg a rfl) fun h => ?_)
          have := hx.mp h.2.2.1
          cases this
      | none =>
        obtain ⟨hL', hle', htotal', hlen⟩ := hs rfl
        dsimp only at hL' hle' htotal' hlen heps ⊢
        have hx' : x = True := eq_true (hx.mpr rfl)
        rw [hx']
        refine Ends.mono (Q := AltPost L cap alts total left)
          (alt_next_ends hL31 (has.endpoints (by rw [hlen, List.length_nil]; omega) heps) hL' (by omega) (by omega) hlt) fun r y hy => ?_
        simpa using hy

/-- The extra bytes of an alternate setting. -/
theorem alt_extra_ends (hz : ZeroSlack env.mem L) (hL31 : L < 2 ^ 31) {i cap total left : ℕ}
    {alts : List UsbiAltsetting} {desc : UsbInterfaceDesc} {extra : ℤ} {c : Skip} (hL : Left L c.buf c.buflen)
    (hle : c.buflen ≤ left) (htotal : c.parsed + c.buflen = total) (hlt : total < 2 ^ 31) :
    Ends (Fine env.mem) (AltPost L cap alts total left) (altExtra env i cap alts { desc := desc } extra c) := by
  have has := UsbiAltsetting.sound_zero desc
  rw [altExtra]
  split_ifs with hex
  · exact alt_endpoints_ends hz hL31 has hL hle htotal hlt
  · refine ends_calloc_bind ?_
    cases hal : env.alloc (.altExtra i alts.length) with
    | false =>
      rw [if_neg (by simp)]
      exact ends_pure (AltPost.fail (by decide) fun h => by simp [Fine] at h)
    | true =>
      have hcal : Fine env.mem (.calloc (.altExtra i alts.length) true) = True := eq_true (Or.inl rfl)
      rw [if_pos rfl, hcal]
      refine (returns_copyBytes.mpr rfl).ends_bind (emits_copyBytes fun _ => trivial) ?_
      refine (alt_endpoints_ends hz hL31 (has.extra _ _) hL hle htotal hlt).mono ?_
      intro r y hy
      simpa using hy

/-- The skip loop behind an interface descriptor.  It goes on only with fewer bytes left than before the descriptor: one
of length 0 would be scanned again, and end the loop. -/
theorem alt_skip_ends (hz : ZeroSlack env.mem L) (hL31 : L < 2 ^ 31) {s : AltState} (hL : Left L s.buf s.buflen)
    (h9 : ¬ s.buflen < USBI_INTERFACE_DESC_SIZE) (hd : UsbDescriptorHeader) :
    Ends (Fine env.mem) (fun r x => (x ↔ r.isSome) ∧ ∀ c, r = some c → Left L c.buf c.buflen ∧
        c.buflen ≤ s.buflen - 1 ∧ c.parsed + c.buflen = s.parsed + s.buflen)
      (loop (skipRound env .altExtra)
        { buf := s.buf + (env.mem s.buf).toNat, buflen := CInt.sub 32 s.buflen (env.mem s.buf).toNat,
          parsed := s.parsed + (env.mem s.buf).toNat, header := hd }) := by
  have hn := hL.lt hL31
  simp only [USBI_INTERFACE_DESC_SIZE] at h9
  have hstart := (hL.sub hL31 (env.mem s.buf)).imp (fun h => h.2.2) fun h => h.2
  refine (skip_ends hz hL31 (Or.inl rfl) hstart).emits.mono fun r x hr => ?_
  obtain ⟨hem, hx, hr⟩ := hr
  refine ⟨hx, fun c hc => ?_⟩
  obtain ⟨hleft, hc', hcle, hparsed, -⟩ := hr c hc
  dsimp only at hleft hcle hparsed
  have hnle : ¬ s.buflen < (env.mem s.buf).toNat := fun hgt => by
    have h1 := hleft.2
    have h2 := hL.2
    omega
  have hsub : CInt.sub 32 s.buflen (env.mem s.buf).toNat = s.buflen - (env.mem s.buf).toNat :=
    CInt.sub_of_le (by omega) (by omega)
  rw [hsub] at hcle hparsed
  have hpos : 0 < (env.mem s.buf).toNat := by
    refine Nat.pos_of_ne_zero fun h0 => ?_
    have hfine := (fine_skipRound (Or.inl rfl) (by dsimp only; omega)).mp
      (emits_loop.mp (hem (hx.mpr (by rw [hc]; rfl)))).1
    dsimp only at hfine
    rw [hsub, h0, Nat.cast_zero, add_zero, h0] at hfine
    have := hfine (by omega)
    omega
  exact ⟨hc', by omega, by omega⟩

/-- A round of the altsetting loop.  It goes on only with fewer bytes left than before. -/
theorem alt_round_ends (hz : ZeroSlack env.mem L) (hL31 : L < 2 ^ 31) {i cap total : ℕ} {s : AltState}
    (hL : Left L s.buf s.buflen) (htotal : s.parsed + s.buflen = total) (hlt : total < 2 ^ 31)
    (h9 : ¬ s.buflen < USBI_INTERFACE_DESC_SIZE) :
    Ends (Fine env.mem) (AltPost L cap s.alts total (s.buflen - 1)) (altRound env i cap s) := by
  have hn := hL.lt hL31
  rw [altRound, if_neg h9]
  refine ends_emit_bind_of trivial ?_
  refine ((returns_parseHeader (by omega)).mpr rfl).ends_bind (emits_parseHeader fun _ => trivial) ?_
  rw [headerParsed_of_le (by simp only [USBI_INTERFACE_DESC_SIZE] at h9; omega), headerAt_bLength]
  refine ends_emit_bind_of trivial ?_
  obtain ⟨desc, hdesc⟩ : (parseInto env UsbInterfaceDesc.store fmtInterface sizeofInterfaceDesc s.buf s.buflen
    {}).Halts := halts_parseInto
  refine hdesc.ends_bind (emits_parseInto fun _ => trivial) (ends_emit_bind_of trivial ?_)
  refine (alt_skip_ends hz hL31 hL h9 _).bind fun r x hr => ?_
  obtain ⟨hx, hr⟩ := hr
  cases r with
  | none => exact ends_pure (AltPost.fail (by decide) fun h => by have := hx.mp h.1; cases this)
  | some c =>
    have hx' : x = True := eq_true (hx.mpr rfl)
    obtain ⟨hc, hcle, hparsed⟩ := hr c rfl
    rw [hx']
    refine Ends.bind (alt_extra_ends hz hL31 hc hcle (hparsed.trans htotal) hlt) fun r y hr => ?_
    cases r with
    | again s' =>
      refine ends_emit_bind_of trivial (ends_pure ?_)
      simpa using hr
    | leave a =>
      refine ends_pure ?_
      simpa using hr

/-- The altsetting loop: it consumes at most what is left, and gives up exactly when one of its steps is not fine. -/
theorem alts_ends (hz : ZeroSlack env.mem L) (hL31 : L < 2 ^ 31) {i cap total : ℕ} {s : AltState}
    (hL : Left L s.buf s.buflen) (htotal : s.parsed + s.buflen = total) (hlt : total < 2 ^ 31)
    (halts : ∀ as ∈ s.alts, as.Sound) :
    Ends (Fine env.mem) (fun r x => (x ↔ 0 ≤ r.1) ∧ r.1 ≤ (total : ℤ) ∧
        (x → ∃ alts, r.2 = liveIntf cap alts ∧ ∀ as ∈ alts, as.Sound))
      (loop (altRound env i cap) s) := by
  refine ends_loop (I := fun s => Left L s.buf s.buflen ∧ s.parsed + s.buflen = total ∧ ∀ as ∈ s.alts, as.Sound)
    AltState.buflen ?_ ⟨hL, htotal, halts⟩
  rintro s ⟨hL, htotal, halts⟩
  by_cases h9 : s.buflen < USBI_INTERFACE_DESC_SIZE
  · rw [altRound, if_pos h9]
    refine ends_pure ⟨?_, ?_, fun _ => ⟨s.alts, rfl, halts⟩⟩
    · rw [CInt.toI32_of_lt (by omega)]; simp
    · rw [CInt.toI32_of_lt (by omega)]; dsimp only; omega
  · have happend : ∀ as : UsbiAltsetting, as.Sound → ∀ as' ∈ s.alts ++ [as], as'.Sound := fun as has as' h' => by
      rcases List.mem_append.mp h' with h' | h'
      · exact halts as' h'
      · rw [List.mem_singleton.mp h']; exact has
    refine (alt_round_ends hz hL31 hL htotal hlt h9).mono fun r x hr => ?_
    simp only [USBI_INTERFACE_DESC_SIZE] at h9
    cases r with
    | again s' =>
      obtain ⟨hx, hL', hle, htotal', as, hs', has⟩ := hr
      exact ⟨hx, ⟨hL', htotal', by rw [hs']; exact happend as has⟩, by omega⟩
    | leave a =>
      obtain ⟨a, intf⟩ := a
      obtain ⟨hx, hle, hintf⟩ := hr
      refine ⟨hx, hle, fun h => ?_⟩
      obtain ⟨as, hi, has⟩ := hintf h
      exact ⟨s.alts ++ [as], hi, happend as has⟩

/-! ## Interfaces -/

/-- `usbi_parse_interface`, when the counting pass returns. -/
theorem parse_interface_ends (hz : ZeroSlack env.mem L) (hL31 : L < 2 ^ 31) {i : ℕ} {buf : ℤ} {n : ℕ}
    (hL : Left L buf n) (h0 : 0 < n)
    (hcount : env.mem (buf + 1) = USB_DESC_TYPE_INTERFACE → (usbiGetIntfAltno env buf n).Halts) :
    Ends (Fine env.mem) (fun r x => (x ↔ 0 ≤ r.1) ∧ r.1 ≤ (n : ℤ) ∧
        (x → r.2 = {} ∨ ∃ altno alts, (usbiGetIntfAltno env buf n).Returns altno ∧ r.2 = liveIntf (altno % 2 ^ 8) alts ∧
          ∀ as ∈ alts, as.Sound))
      (usbiParseInterface env i {} buf n) := by
  have hn := hL.lt hL31
  rw [usbiParseInterface, if_neg (by omega)]
  refine (returns_rd.mpr rfl).ends_bind (emits_rd.mpr trivial) ?_
  by_cases ht : env.mem (buf + 1) = USB_DESC_TYPE_INTERFACE
  · rw [if_neg (by simpa using ht)]
    obtain ⟨altno, haltno⟩ := hcount ht
    refine haltno.ends_bind (emits_intf_altno (fun _ => trivial) (fun _ _ => trivial) (fun _ _ _ => trivial)
      fun _ _ => trivial) (ends_calloc_bind ?_)
    cases hal : env.alloc (.altsettings i) with
    | false =>
      rw [if_pos (by simp)]
      exact ends_pure ⟨by simp [Fine], by dsimp only; omega, fun h => by simp [Fine] at h⟩
    | true =>
      have hcal : Fine env.mem (.calloc (.altsettings i) true) = True := eq_true (Or.inl rfl)
      rw [if_neg (by simp), hcal]
      refine (alts_ends hz hL31 hL (Nat.zero_add n) (by omega) (by simp)).mono fun r x hr => ?_
      obtain ⟨hx, hle, hintf⟩ := hr
      refine ⟨by simpa using hx, hle, fun h => ?_⟩
      obtain ⟨alts, hintf, halts⟩ := hintf h.2
      exact Or.inr ⟨altno, alts, haltno, hintf, halts⟩
  · rw [if_pos ht]
    refine ends_pure ⟨?_, ?_, fun _ => Or.inl rfl⟩
    · rw [CInt.toI32_of_lt (by omega)]; simp
    · rw [CInt.toI32_of_lt (by omega)]

/-- What `usbi_parse_interface` returns, if it does. -/
theorem parse_interface_post (hz : ZeroSlack env.mem L) (hL31 : L < 2 ^ 31) {i : ℕ} {buf : ℤ} {n : ℕ}
    (hL : Left L buf n) (h0 : 0 < n) {r : ℤ × UsbiInterface} (hr : (usbiParseInterface env i {} buf n).Returns r) :
    (Emits (Fine env.mem) (usbiParseInterface env i {} buf n) ↔ 0 ≤ r.1) ∧ r.1 ≤ n ∧
      (Emits (Fine env.mem) (usbiParseInterface env i {} buf n) →
        r.2 = {} ∨ ∃ altno alts, (usbiGetIntfAltno env buf n).Returns altno ∧ r.2 = liveIntf (altno % 2 ^ 8) alts ∧
          ∀ as ∈ alts, as.Sound) := by
  refine (parse_interface_ends hz hL31 hL h0 fun ht => ?_).of_returns hr
  rw [usbiParseInterface, if_neg (by omega), (returns_rd.mpr rfl).bind_iff, if_neg (by simpa using ht),
    returns_bind] at hr
  exact hr.imp fun _ h => h.1

end Results

end OpenUsb
