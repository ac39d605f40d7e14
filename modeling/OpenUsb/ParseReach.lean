import OpenUsb.ParsePlaces

/-!
# ParseReach — the interfaces that the parser reaches

* `intf_altno_hops`: the counting pass returns when its hops come to an end, and counts what they meet.
* `parse_interface_stops`: `usbi_parse_interface` stops where its last alternate setting does.
* `parse_configuration_tail`: what `usbi_parse_configuration` does, up to its interfaces.
* `parse_configuration_halts_iff`: it returns exactly when the counting pass ends on every interface reached.
-/

namespace OpenUsb

open Prog

section

variable {env : Env} {L : ℕ} {w : ℤ × ℕ}

/-! ## The count -/

/-- The range of the `int` that counts. -/
def CountRange (c : AltCount) : Prop := -128 ≤ c.len ∧ c.len < 2 ^ 31 + 128

theorem count_range_step {buf : ℤ} {n : ℕ} {fno : UInt8} (hn : n < 2 ^ 31) {c c' : AltCount} (hc : CountRange c)
    (h : (altCountRound env buf n fno c).Returns (.again c')) : 0 ≤ c.len ∧ c.len < n ∧ CountRange c' ∧
      c'.len = c.len + CInt.schar (env.mem (buf + c.len)) := by
  obtain ⟨hlo, hhi⟩ := hc
  rw [returns_altCountRound] at h
  split_ifs at h with hlt
  obtain rfl := Round.again.inj h
  have hs := CInt.schar_lt (env.mem (buf + c.len))
  have hs' := CInt.neg_le_schar (env.mem (buf + c.len))
  have h0 : 0 ≤ c.len := by
    by_contra hneg
    have := CInt.toU32_of_neg (show c.len < 0 by omega) (by omega)
    omega
  have hU := CInt.toU32_of_nonneg h0 (by omega)
  have hlen : (countNext env.mem buf fno c).len = c.len + CInt.schar (env.mem (buf + c.len)) := rfl
  exact ⟨h0, by omega, ⟨by omega, by omega⟩, hlen⟩

theorem counts_inside {n : ℕ} (hn : n < 2 ^ 31) {c : AltCount} (hc : CountRange c) :
    CInt.toU32 c.len < n ↔ 0 ≤ c.len ∧ c.len < n := by
  obtain ⟨hlo, hhi⟩ := hc
  rcases Int.lt_or_le c.len 0 with hneg | h0
  · have hbig := CInt.toU32_of_neg hneg (by omega)
    exact iff_of_false (by omega) fun h => absurd h.1 (not_le.mpr hneg)
  · have hsame := CInt.toU32_of_nonneg h0 (by omega)
    exact ⟨fun h => ⟨h0, by omega⟩, fun h => by omega⟩

theorem sameNumbers_cons (mem : ℤ → UInt8) (buf p : ℤ) (l : List ℤ) :
    sameNumbers mem buf (p :: l) = (if SameNumber mem buf p then 1 else 0) + sameNumbers mem buf l := by
  unfold sameNumbers
  rw [List.countP_cons, Nat.add_comm]
  simp only [decide_eq_true_eq]

theorem countNext_altno (mem : ℤ → UInt8) (buf : ℤ) (c : AltCount) : (countNext mem buf (mem (buf + 2)) c).altno =
    c.altno + if SameNumber mem buf (buf + (c.len + CInt.schar (mem (buf + c.len)))) then 1 else 0 := by
  by_cases hsame : SameNumber mem buf (buf + (c.len + CInt.schar (mem (buf + c.len))))
  · rw [if_pos hsame]
    exact if_pos hsame
  · rw [if_neg hsame]
    exact if_neg hsame

/-- The counting loop adds up what it hops to. -/
theorem count_hops {buf : ℤ} {n : ℕ} (hn : n < 2 ^ 31) {c : AltCount} (hc : CountRange c) {a : ℕ} :
    (loop (altCountRound env buf n (env.mem (buf + 2))) c).Returns a ↔
      ∃ l, Hops env.mem buf n c.len l ∧ a = c.altno + sameNumbers env.mem buf l := by
  constructor
  · intro h
    refine Returns.loop_rec (C := fun c => CountRange c →
      ∃ l, Hops env.mem buf n c.len l ∧ a = c.altno + sameNumbers env.mem buf l) ?_ ?_ h hc
    · intro c hb hc
      rw [returns_altCountRound] at hb
      by_cases hin : CInt.toU32 c.len < n
      · rw [if_pos hin] at hb
        cases hb
      · rw [if_neg hin] at hb
        exact ⟨[], .out fun h => hin ((counts_inside hn hc).mpr h), Round.leave.inj hb⟩
    · intro c c' hb _ ih hc
      obtain ⟨h0, hlt, hrange, -⟩ := count_range_step hn hc hb
      obtain ⟨l, hl, ha⟩ := ih hrange
      rw [returns_altCountRound, if_pos ((counts_inside hn hc).mpr ⟨h0, hlt⟩)] at hb
      obtain rfl := Round.again.inj hb
      refine ⟨_, .hop ⟨h0, hlt⟩ hl, ?_⟩
      rw [ha, sameNumbers_cons, countNext_altno, Nat.add_assoc]
  · rintro ⟨l, hl, ha⟩
    generalize hlen : c.len = len at hl
    induction hl generalizing c with
    | out hout =>
      refine returns_loop.mpr (Or.inl (returns_altCountRound.mpr ?_))
      rw [if_neg (fun h => hout (hlen ▸ (counts_inside hn hc).mp h)), ha]
      rfl
    | @hop len l hin _ ih =>
      subst hlen
      have hb : (altCountRound env buf n (env.mem (buf + 2)) c).Returns
          (.again (countNext env.mem buf (env.mem (buf + 2)) c)) :=
        returns_altCountRound.mpr (if_pos ((counts_inside hn hc).mpr hin)).symm
      refine returns_loop.mpr (Or.inr ⟨_, hb, ih (count_range_step hn hc hb).2.2.1 ?_ rfl⟩)
      rw [ha, sameNumbers_cons, countNext_altno, Nat.add_assoc]

theorem intf_altno_hops {buf : ℤ} {n : ℕ} (hn : n < 2 ^ 31) {altno : ℕ} :
    (usbiGetIntfAltno env buf n).Returns altno ↔
      ∃ l, Hops env.mem buf n 0 l ∧ altno = 1 + sameNumbers env.mem buf l := by
  rw [usbiGetIntfAltno, (returns_rd.mpr rfl).bind_iff]
  exact count_hops hn ⟨by decide, by decide⟩

theorem intf_altno_halts_iff {buf : ℤ} {n : ℕ} (hn : n < 2 ^ 31) :
    (usbiGetIntfAltno env buf n).Halts ↔ ∃ l, Hops env.mem buf n 0 l := by
  constructor
  · rintro ⟨altno, h⟩
    obtain ⟨l, hl, -⟩ := (intf_altno_hops hn).mp h
    exact ⟨l, hl⟩
  · rintro ⟨l, hl⟩
    exact ⟨_, (intf_altno_hops hn).mpr ⟨l, hl, rfl⟩⟩

/-! ## Interfaces -/

/-- `usbi_parse_interface` stops where its alternate settings do, and writes an entry for each. -/
theorem parse_interface_stops (hz : ZeroSlack env.mem L) (hL31 : L < 2 ^ 31) {i : ℕ} {buf : ℤ} {n : ℕ}
    (hL : Left L buf n) (h0 : 0 < n) {r : ℤ × UsbiInterface} (hr : (usbiParseInterface env i {} buf n).Returns r) :
    behind (buf, n) r.1 = interfaceStop env i (buf, n) ∧
      r.2.num_altsettings = (interfaceAlts env i (buf, n)).length := by
  have hlt := hL.lt hL31
  unfold interfaceStop interfaceAlts
  rw [usbiParseInterface, if_neg (by omega), (returns_rd.mpr rfl).bind_iff] at hr
  dsimp only
  by_cases htype : env.mem (buf + 1) = USB_DESC_TYPE_INTERFACE
  swap
  · rw [if_pos htype] at hr
    obtain rfl := returns_pure.mp hr
    rw [if_pos htype, if_neg fun h => htype h.1, CInt.toI32_of_lt (by omega), behind_natCast, Nat.sub_self]
    exact ⟨rfl, rfl⟩
  rw [if_neg (by simpa using htype)] at hr
  rw [if_neg (by simpa using htype)]
  obtain ⟨altno, -, hr⟩ := returns_bind.mp hr
  rw [(returns_calloc.mpr rfl).bind_iff] at hr
  by_cases hok : env.alloc (.altsettings i) = true
  · rw [if_neg (by simp [hok])] at hr
    rw [if_pos hok, if_pos ⟨htype, hok⟩]
    obtain ⟨hstop, hnum⟩ := alts_stop (w := (buf, n)) hz hL31 hL hr hL (Nat.zero_add n) n le_rfl
    rw [List.length_nil, Nat.zero_add] at hnum
    exact ⟨hstop, hnum⟩
  · rw [if_pos (by simpa using hok)] at hr
    obtain rfl := returns_pure.mp hr
    rw [if_neg hok, if_neg fun h => hok h.2]
    exact ⟨behind_neg (show (-1 : ℤ) < 0 by decide), rfl⟩

theorem parse_interface_halts_iff (hz : ZeroSlack env.mem L) (hL31 : L < 2 ^ 31) {i : ℕ} {buf : ℤ} {n : ℕ}
    (hL : Left L buf n) (h0 : 0 < n) : (usbiParseInterface env i {} buf n).Halts ↔ Counted env.mem (buf, n) := by
  have hlt := hL.lt hL31
  constructor
  · rintro ⟨r, hr⟩ htype
    rw [usbiParseInterface, if_neg (by omega), (returns_rd.mpr rfl).bind_iff, if_neg (by simpa using htype),
      returns_bind] at hr
    obtain ⟨altno, haltno, -⟩ := hr
    exact (intf_altno_halts_iff hlt).mp ⟨altno, haltno⟩
  · exact fun h => (parse_interface_ends hz hL31 hL h0 fun htype => (intf_altno_halts_iff hlt).mpr (h htype)).halts

theorem interfacesFrom_cons {i n : ℕ} (h : w.2 ≠ 0) : interfacesFrom env (n + 1) i w =
    (i, w) :: ((interfaceStop env i w).map (interfacesFrom env n (i + 1))).getD [] := if_neg h

/-- The interface loop returns when, and only when, the counting pass ends on every interface that it reaches. -/
theorem parse_interfaces_halts_iff (hz : ZeroSlack env.mem L) (hL31 : L < 2 ^ 31) (k : ℕ) (s : IntfState)
    (hL : Left L s.buf s.buflen) : (parseInterfaces env k s).Halts ↔
      ∀ q ∈ interfacesFrom env k s.intfs.length (s.buf, s.buflen), Counted env.mem q.2 := by
  induction k generalizing s with
  | zero => exact iff_of_true halts_pure fun q hq => absurd hq List.not_mem_nil
  | succ k ih =>
    have hn := hL.lt hL31
    rw [parseInterfaces]
    by_cases h0 : s.buflen = 0
    · rw [if_pos h0, interfacesFrom, if_pos h0]
      exact iff_of_true halts_pure fun q hq => absurd hq List.not_mem_nil
    rw [if_neg h0, Nat.mod_eq_of_lt (show s.buflen < 2 ^ 32 by omega), interfacesFrom_cons h0, List.forall_mem_cons]
    have hcounted := @parse_interface_halts_iff env L hz hL31 s.intfs.length _ _ hL (Nat.pos_of_ne_zero h0)
    dsimp only
    rw [← hcounted]
    -- what follows, once the interface has returned
    have hrest : ∀ r, (usbiParseInterface env s.intfs.length {} s.buf s.buflen).Returns r →
        ((if r.1 < 0 then pure (some r.1, { s with intfs := s.intfs ++ [r.2] })
          else do
            emit (.take s.buflen r.1)
            parseInterfaces env k
              { buf := s.buf + r.1, buflen := CInt.sub 64 s.buflen r.1.toNat, intfs := s.intfs ++ [r.2] } :
          Prog Ev (Option ℤ × IntfState)).Halts ↔
        ∀ q ∈ ((interfaceStop env s.intfs.length (s.buf, s.buflen)).map (interfacesFrom env k (s.intfs.length + 1))).getD [],
          Counted env.mem q.2) := fun r hr => by
      have hle := (parse_interface_post hz hL31 hL (by omega) hr).2.1
      rw [← (parse_interface_stops hz hL31 hL (by omega) hr).1]
      by_cases hneg : r.1 < 0
      · rw [if_pos hneg, behind_neg hneg]
        exact iff_of_true halts_pure fun q hq => absurd hq List.not_mem_nil
      · rw [if_neg hneg]
        obtain ⟨m, hm⟩ := Int.eq_ofNat_of_zero_le (not_lt.mp hneg)
        rw [hm, Int.toNat_natCast, CInt.sub_of_le (by omega) (by omega), behind_natCast, Option.map_some, Option.getD_some]
        have hih := ih { buf := s.buf + m, buflen := s.buflen - m, intfs := s.intfs ++ [r.2] } (hL.step (by omega))
        rw [List.length_append] at hih
        exact halts_emit_bind_iff.trans hih
    constructor
    · rintro ⟨x, hx⟩
      obtain ⟨r, hr, hx⟩ := returns_bind.mp hx
      exact ⟨⟨r, hr⟩, (hrest r hr).mp ⟨x, hx⟩⟩
    · rintro ⟨⟨r, hr⟩, h⟩
      obtain ⟨x, hx⟩ := (hrest r hr).mpr h
      exact ⟨x, returns_bind.mpr ⟨r, hr, hx⟩⟩

/-! ## Configurations -/

/-- The skip loop of `usbi_parse_configuration` ends where the extras end. -/
theorem cfg_skip_end (hz : ZeroSlack env.mem L) (hL31 : L < 2 ^ 31) {c : Skip} {r : Option Skip}
    (hr : (loop (cfgSkipRound env) c).Returns r) : Left L c.buf c.buflen → ∀ fuel, c.buflen ≤ fuel →
      r.map (fun c' => (c'.buf, c'.buflen)) = cfgExtrasEnd env.mem fuel c.buf c.buflen ∧
      ∀ c', r = some c' → Left L c'.buf c'.buflen ∧ c'.extra_len + c'.buflen = c.extra_len + c.buflen := by
  refine Returns.loop_rec (C := fun c => Left L c.buf c.buflen → ∀ fuel, c.buflen ≤ fuel →
      r.map (fun c' => (c'.buf, c'.buflen)) = cfgExtrasEnd env.mem fuel c.buf c.buflen ∧
      ∀ c', r = some c' → Left L c'.buf c'.buflen ∧ c'.extra_len + c'.buflen = c.extra_len + c.buflen) ?_ ?_ hr
  · intro c hb hL fuel hfuel
    have hlt := hL.lt hL31
    rw [returns_cfgSkipRound (by omega), skipNext] at hb
    rcases fuel with _ | fuel
    · rw [if_pos (by omega)] at hb
      obtain rfl := Round.leave.inj hb
      exact ⟨rfl, fun c' h => by cases h; exact ⟨hL, rfl⟩⟩
    rw [cfgExtrasEnd]
    split_ifs at hb with h2 h3 h4
    · obtain rfl := Round.leave.inj hb
      rw [if_pos h2]
      exact ⟨rfl, fun c' h => by cases h; exact ⟨hL, rfl⟩⟩
    · obtain rfl := Round.leave.inj hb
      rw [if_neg h2, if_pos (h3.symm.imp And.right id)]
      exact ⟨rfl, fun c' h => by cases h⟩
    · obtain rfl := Round.leave.inj hb
      rw [if_neg h2, if_neg fun h => h3 (h.symm.imp_right fun h => ⟨rfl, h⟩), if_pos h4]
      exact ⟨rfl, fun c' h => by cases h; exact ⟨hL, rfl⟩⟩
  · intro c c' hb _ ih hL fuel hfuel
    have hlt := hL.lt hL31
    obtain ⟨h2, hle, hleft, hless⟩ := CfgSkipInv.again hz hL31 (Or.inl hL) hb
    rw [returns_cfgSkipRound (by omega), skipNext] at hb
    split_ifs at hb with hn h3 h4
    obtain rfl := Round.again.inj hb
    dsimp only at ih hleft hless
    rw [CInt.sub_of_le (by omega) hle] at ih hleft hless
    obtain ⟨fuel, rfl⟩ := Nat.exists_eq_succ_of_ne_zero (show fuel ≠ 0 by omega)
    rw [cfgExtrasEnd, if_neg hn, if_neg (by omega), if_neg h4]
    obtain ⟨hend, hpost⟩ := ih hleft fuel (by omega)
    exact ⟨hend, fun c' hc' => ⟨(hpost c' hc').1, by have := (hpost c' hc').2; omega⟩⟩

/-- The skip loop behind the configuration descriptor. -/
theorem cfg_skip_start (hz : ZeroSlack env.mem L) (hL31 : L < 2 ^ 31) {b : UInt8} (hb : b = env.mem 0)
    {hd : UsbDescriptorHeader} {r : Option Skip} (hr : (loop (cfgSkipRound env)
      { buf := 0 + b.toNat, buflen := CInt.sub 64 L b.toNat, parsed := b.toNat, header := hd }).Returns r) :
    r.map (fun c => (c.buf, c.buflen)) = cfgStart env.mem L ∧ ∀ c, r = some c → Left L c.buf c.buflen ∧
      (Kept env .cfgExtra (0, L) (c.buf, c.buflen) ↔ c.extra_len = 0 ∨ env.alloc .cfgExtra = true) := by
  subst hb
  unfold cfgStart
  by_cases hgt : L < (env.mem 0).toNat
  · -- a descriptor that is longer than the blob leads into the zeros
    rw [if_pos hgt]
    have hb := (env.mem 0).toNat_lt
    have hinv := CfgSkipInv.start hL31 (env.mem 0) hd
    have hnone : (loop (cfgSkipRound env)
        { buf := 0 + (env.mem 0).toNat, buflen := CInt.sub 64 L (env.mem 0).toNat, parsed := (env.mem 0).toNat,
          header := hd }).Returns none := by
      refine returns_loop.mpr (Or.inl ((returns_cfgSkipRound (hinv.mod hL31)).mpr ?_))
      rw [skipNext, if_neg, if_pos]
      · exact Or.inl (by rw [hz _ (by dsimp only; omega)]; decide)
      · rw [CInt.sub_of_lt (w := 64) (by omega) hgt]
        dsimp only
        omega
    rw [hr.unique hnone]
    exact ⟨rfl, fun c h => by cases h⟩
  · rw [if_neg hgt]
    have hsub := CInt.sub_of_le (w := 64) (show L < 2 ^ 64 by omega) (Nat.le_of_not_lt hgt)
    rw [hsub, zero_add] at hr
    have hstart : Left L (env.mem 0).toNat (L - (env.mem 0).toNat) := ⟨by omega, by omega⟩
    obtain ⟨hend, hpost⟩ := cfg_skip_end hz hL31 hr hstart _ le_rfl
    refine ⟨hend, fun c hc => ?_⟩
    obtain ⟨hleft, hextra⟩ := hpost c hc
    refine ⟨hleft, or_congr ?_ Iff.rfl⟩
    obtain ⟨-, hleft⟩ := hleft
    dsimp only at hextra ⊢
    omega

/-- What is left of `usbi_parse_configuration` once it has given up or come to the interfaces. -/
inductive ConfigTail (env : Env) (cfg : UsbiConfig) (L : ℕ) : Prog Ev (ℤ × UsbiConfig) → Prop
  | before {r : ℤ × UsbiConfig} {desc : UsbConfigDesc} {t : Table UsbiInterface} (h : ¬ EntersConfig env cfg L)
      (ht : t = cfg.interfaces ∨ t = .absent) (hr : r.2 = { cfg with desc := desc, interfaces := t }) :
      ConfigTail env cfg L (pure r)
  | malformed {r : ℤ × UsbiConfig} (h : EntersConfig env cfg L) (hstart : cfgStart env.mem L = none)
      (hr : r.2.interfaces.IsFreed) : ConfigTail env cfg L (pure r)
  | noMemory {r : ℤ × UsbiConfig} {desc : UsbConfigDesc} {n : ℕ} {w : ℤ × ℕ} (h : EntersConfig env cfg L)
      (hstart : cfgStart env.mem L = some w) (hkept : ¬ Kept env .cfgExtra (0, L) w)
      (hr : r.2 = { cfg with desc := desc, num_interfaces := n, interfaces := .live n [], extra := .absent }) :
      ConfigTail env cfg L (pure r)
  | interfaces {cfg' : UsbiConfig} {w : ℤ × ℕ} (h : EntersConfig env cfg L) (hstart : cfgStart env.mem L = some w)
      (hkept : Kept env .cfgExtra (0, L) w) (hL : Left L w.1 w.2) (hnum : cfg'.num_interfaces = numInterfaces env cfg L)
      (hextra : ¬ cfg'.extra.IsFreed) : ConfigTail env cfg L (cfgInterfaces env cfg' w.1 w.2)

/-- `p` is `tail` behind steps that return, and whose events satisfy `P`. -/
def Behind (P : Ev → Prop) (p tail : Prog Ev (ℤ × UsbiConfig)) : Prop :=
  (∀ r, p.Returns r ↔ tail.Returns r) ∧ (Emits P p ↔ Emits P tail)

theorem Behind.refl {P : Ev → Prop} (p : Prog Ev (ℤ × UsbiConfig)) : Behind P p p := ⟨fun _ => Iff.rfl, Iff.rfl⟩

theorem Behind.bind {P : Ev → Prop} {α : Type} {p : Prog Ev α} {a : α} (hr : p.Returns a) (he : Emits P p)
    {f : α → Prog Ev (ℤ × UsbiConfig)} {tail : Prog Ev (ℤ × UsbiConfig)} (h : Behind P (f a) tail) :
    Behind P (p >>= f) tail :=
  ⟨fun r => hr.bind_iff.trans (h.1 r), (hr.emits_bind_iff.trans (and_iff_right he)).trans h.2⟩

/-- `usbi_parse_configuration` gives up before the interfaces or comes to them, by steps that only read, take, allocate
and skip. -/
theorem parse_configuration_tail (hz : ZeroSlack env.mem L) (hL31 : L < 2 ^ 31) {P : Ev → Prop}
    (hread : ∀ off, P (.read off)) (htake : ∀ before amount, P (.take before amount))
    (hcalloc : ∀ s ok, P (.calloc s ok)) (hskip : ∀ c, CfgSkipInv L c → Emits P (loop (cfgSkipRound env) c))
    (cfg : UsbiConfig) :
    ∃ tail, Behind P (usbiParseConfiguration env cfg 0 L) tail ∧ ConfigTail env cfg L tail := by
  unfold usbiParseConfiguration
  by_cases h0 : L = 0
  · rw [if_pos h0]
    exact ⟨_, .refl _, .before (fun h => h.1 h0) (Or.inl rfl) (show cfg = { cfg with desc := cfg.desc } from rfl)⟩
  rw [if_neg h0]
  obtain ⟨desc, hdesc⟩ : (parseInto env UsbConfigDesc.store fmtConfig sizeofConfigDesc 0 L cfg.desc).Halts :=
    halts_parseInto
  have hnum : desc.bNumInterfaces.toNat = numInterfaces env cfg L := by
    rw [returns_parseConfig_num (by omega) hdesc]
    rfl
  have hbyte : (headerParsed env.mem 0 L (env.junk 0)).bLength = env.mem 0 := if_pos (by omega)
  suffices hrest : ∃ tail, Behind P _ tail ∧ ConfigTail env cfg L tail by
    obtain ⟨tail, hrest, htail⟩ := hrest
    exact ⟨tail, .bind ((returns_parseHeader (by omega)).mpr rfl) (emits_parseHeader hread)
      (.bind hdesc (emits_parseInto hread) hrest), htail⟩
  dsimp only
  rw [hnum]
  by_cases hmax : numInterfaces env cfg L > USBI_MAXINTERFACES
  · rw [if_pos hmax]
    exact ⟨_, .refl _, .before (fun h => absurd h.2.1 (Nat.not_le.mpr hmax)) (Or.inl rfl) rfl⟩
  rw [if_neg hmax]
  suffices hrest : ∃ tail, Behind P _ tail ∧ ConfigTail env cfg L tail by
    obtain ⟨tail, hrest, htail⟩ := hrest
    exact ⟨tail, .bind (returns_calloc.mpr rfl) (emits_calloc.mpr (hcalloc _ _)) hrest, htail⟩
  by_cases hok : env.alloc .interfaces = true
  swap
  · rw [if_pos (by simpa using hok)]
    exact ⟨_, .refl _, .before (fun h => hok h.2.2) (Or.inr rfl) rfl⟩
  rw [if_neg (by simp [hok])]
  have hent : EntersConfig env cfg L := ⟨h0, Nat.le_of_not_lt hmax, hok⟩
  have hinv := CfgSkipInv.start hL31 (headerParsed env.mem 0 L (env.junk 0)).bLength (headerParsed env.mem 0 L (env.junk 0))
  obtain ⟨c, hc⟩ := (cfg_skip_ends hz hL31 (headerParsed env.mem 0 L (env.junk 0)).bLength
    (headerParsed env.mem 0 L (env.junk 0))).halts
  obtain ⟨hend, hpost⟩ := cfg_skip_start hz hL31 hbyte hc
  suffices hrest : ∃ tail, Behind P _ tail ∧ ConfigTail env cfg L tail by
    obtain ⟨tail, hrest, htail⟩ := hrest
    exact ⟨tail, .bind (a := ()) returns_emit (emits_emit.mpr (htake _ _)) (.bind hc (hskip _ hinv) hrest), htail⟩
  cases c with
  | none => exact ⟨_, .refl _, .malformed hent hend.symm trivial⟩
  | some c =>
    obtain ⟨hL, hkept⟩ := hpost c rfl
    dsimp only
    by_cases hex : c.extra_len = 0
    · rw [if_pos hex]
      exact ⟨_, .refl _, .interfaces (w := (c.buf, c.buflen)) hent hend.symm (hkept.mpr (Or.inl hex)) hL rfl not_false⟩
    rw [if_neg hex]
    suffices hrest : ∃ tail, Behind P _ tail ∧ ConfigTail env cfg L tail by
      obtain ⟨tail, hrest, htail⟩ := hrest
      exact ⟨tail, .bind (returns_calloc.mpr rfl) (emits_calloc.mpr (hcalloc _ _)) hrest, htail⟩
    by_cases hal : env.alloc .cfgExtra = true
    · rw [if_pos hal]
      exact ⟨_, .bind (returns_copyBytes.mpr rfl) (emits_copyBytes hread) (.refl _),
        .interfaces (w := (c.buf, c.buflen)) hent hend.symm (hkept.mpr (Or.inr hal)) hL rfl not_false⟩
    · rw [if_neg hal]
      exact ⟨_, .refl _, .noMemory (w := (c.buf, c.buflen)) hent hend.symm (fun h => (hkept.mp h).elim hex hal) rfl⟩

theorem cfg_interfaces_halts_iff (hz : ZeroSlack env.mem L) (hL31 : L < 2 ^ 31) {cfg : UsbiConfig} (hw : Left L w.1 w.2) :
    (cfgInterfaces env cfg w.1 w.2).Halts ↔ ∀ q ∈ interfacesFrom env cfg.num_interfaces 0 w, Counted env.mem q.2 := by
  have hloop := parse_interfaces_halts_iff hz hL31 cfg.num_interfaces { buf := w.1, buflen := w.2 } hw
  rw [List.length_nil] at hloop
  rw [← show _ ↔ _ from hloop]
  unfold cfgInterfaces
  constructor
  · rintro ⟨r, hr⟩
    obtain ⟨x, hx, -⟩ := returns_bind.mp hr
    exact ⟨x, hx⟩
  · rintro ⟨x, hx⟩
    refine hx.halts_bind_iff.mpr ?_
    obtain ⟨x | x, s⟩ := x
    · exact halts_pure
    · exact halts_pure

theorem reachedInterfaces_before {cfg : UsbiConfig} (h : ¬ EntersConfig env cfg L) : reachedInterfaces env cfg L = [] :=
  if_neg h

theorem reachedInterfaces_none {cfg : UsbiConfig} (h : EntersConfig env cfg L) (hstart : cfgStart env.mem L = none) :
    reachedInterfaces env cfg L = [] := by
  rw [reachedInterfaces, if_pos h, hstart]
  rfl

theorem reachedInterfaces_lost {cfg : UsbiConfig} (h : EntersConfig env cfg L) (hstart : cfgStart env.mem L = some w)
    (hkept : ¬ Kept env .cfgExtra (0, L) w) : reachedInterfaces env cfg L = [] := by
  rw [reachedInterfaces, if_pos h, hstart, Option.filter_some, if_neg (by simpa using hkept)]
  rfl

theorem reachedInterfaces_some {cfg : UsbiConfig} (h : EntersConfig env cfg L) (hstart : cfgStart env.mem L = some w)
    (hkept : Kept env .cfgExtra (0, L) w) :
    reachedInterfaces env cfg L = interfacesFrom env (numInterfaces env cfg L) 0 w := by
  rw [reachedInterfaces, if_pos h, hstart, Option.filter_some, if_pos (decide_eq_true hkept)]
  rfl

/-- `usbi_parse_configuration` returns when, and only when, the counting pass ends on every interface that it reaches. -/
theorem parse_configuration_halts_iff (hz : ZeroSlack env.mem L) (hL31 : L < 2 ^ 31) (cfg : UsbiConfig) :
    (usbiParseConfiguration env cfg 0 L).Halts ↔ ∀ q ∈ reachedInterfaces env cfg L, Counted env.mem q.2 := by
  obtain ⟨tail, ⟨hreturns, -⟩, htail⟩ := parse_configuration_tail (P := fun _ => True) hz hL31 (fun _ => trivial)
    (fun _ _ => trivial) (fun _ _ => trivial) (fun _ _ _ _ => trivial) cfg
  rw [show (usbiParseConfiguration env cfg 0 L).Halts ↔ tail.Halts from exists_congr hreturns]
  cases htail with
  | before h =>
    rw [reachedInterfaces_before h]
    exact iff_of_true halts_pure fun q hq => absurd hq List.not_mem_nil
  | malformed h hstart =>
    rw [reachedInterfaces_none h hstart]
    exact iff_of_true halts_pure fun q hq => absurd hq List.not_mem_nil
  | noMemory h hstart hkept =>
    rw [reachedInterfaces_lost h hstart hkept]
    exact iff_of_true halts_pure fun q hq => absurd hq List.not_mem_nil
  | interfaces h hstart hkept hL hnum =>
    rw [reachedInterfaces_some h hstart hkept, cfg_interfaces_halts_iff hz hL31 hL, hnum]

end

end OpenUsb
