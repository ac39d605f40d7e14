import OpenUsb.Grammar
import OpenUsb.ParserFacts

/-!
# ParserSafety — reads inside the blob

`Inside L` is what the parser has to keep on a blob of `L` bytes: it reads at offsets below `L` and takes no more from a
length counter than it holds.  The skip loops keep it.  `usbi_get_intf_altno` keeps it only when it never ends: it looks
at the type behind each hop, and the last hop leaves the blob.  So the parser keeps it exactly on the blobs for which it
gives up before the first interface, meets no interface there, or hops round inside for ever (`SafeConfig`).
-/

namespace OpenUsb

open Prog

/-- The event stays inside a blob of `L` bytes. -/
def Inside (L : ℕ) : Ev → Prop
  | .read off => 0 ≤ off ∧ off < L
  | .take before amount => amount ≤ before
  | _ => True

/-! ## Building blocks -/

section Blocks

variable {env : Env} {L : ℕ} {buf : ℤ} {n : ℕ}

theorem parseInto_inside {D : Type} {store : D → DataStore → D} {fmt : List Char} {m : ℕ} {d : D} (hdot : '.' ∉ fmt)
    (h0 : 0 ≤ buf) (hL : buf + n ≤ L) : Emits (Inside L) (parseInto env store fmt m buf n d) := by
  intro e he
  obtain ⟨q, rfl, h1, h2⟩ := logs_parseInto hdot he
  exact ⟨by omega, by omega⟩

theorem parseHeader_inside {hd : UsbDescriptorHeader} (h0 : 0 ≤ buf) (hL : buf + n ≤ L) :
    Emits (Inside L) (parseHeader env buf n hd) := parseInto_inside (by decide) h0 hL

theorem copyBytes_inside (h0 : 0 ≤ buf) (hL : buf + n ≤ L) : Emits (Inside L) (copyBytes env buf n) := by
  intro e he
  obtain ⟨q, h1, h2, rfl⟩ := logs_copyBytes.mp he
  exact ⟨by omega, by omega⟩

theorem rd_inside : Emits (Inside L) (rd env buf) ↔ 0 ≤ buf ∧ buf < L := by
  simp only [rd, emits_emit_bind, emits_pure, and_true]
  exact Iff.rfl

theorem calloc_inside {s : Site} : Emits (Inside L) (calloc env s) := by
  simp only [calloc, emits_emit_bind, emits_pure, and_true]
  trivial

end Blocks

/-! ## Where the extras of the configuration end -/

/-- Skipping descriptors from `o` on, with the checks of `usbi_parse_configuration`, stops at `e`. -/
inductive ExtrasEnd (mem : ℤ → UInt8) (L : ℕ) : ℤ → ℤ → Prop
  | short {o : ℤ} (h : L < o + 2) : ExtrasEnd mem L o o
  | proper {o : ℤ} (h2 : 2 ≤ (mem o).toNat) (hle : o + (mem o).toNat ≤ L) (ht : ProperType (mem (o + 1))) :
      ExtrasEnd mem L o o
  | skip {o e : ℤ} (h2 : 2 ≤ (mem o).toNat) (hle : o + (mem o).toNat ≤ L) (ht : ¬ ProperType (mem (o + 1)))
      (h : ExtrasEnd mem L (o + (mem o).toNat) e) : ExtrasEnd mem L o e

section CfgSkip

variable {env : Env} {L : ℕ}

/-- A round of the skip loop reads the two bytes at the cursor and steps over a descriptor that is there. -/
theorem cfgSkipRound_inside {c : Skip} (h0 : 0 ≤ c.buf) (hL : c.buf + c.buflen = L) :
    Emits (Inside L) (cfgSkipRound env c) := by
  unfold cfgSkipRound
  split_ifs
  · exact emits_pure
  · rw [emits_emit_bind, emits_bind]
    refine ⟨trivial, parseHeader_inside h0 (by omega), fun hd _ => ?_⟩
    dsimp only
    split_ifs with h1 h2
    · exact emits_pure
    · exact emits_pure
    · rw [emits_emit_bind, emits_emit_bind]
      refine ⟨?_, trivial, emits_pure⟩
      show (hd.bLength.toNat : ℤ) ≤ c.buflen
      omega

theorem cfgSkipRound_again (hL32 : L < 2 ^ 32) {c c' : Skip} (hL : c.buf + c.buflen = L) (h0 : 0 ≤ c.buf)
    (h : (cfgSkipRound env c).Returns (.again c')) :
    2 ≤ (env.mem c.buf).toNat ∧ c.buf + (env.mem c.buf).toNat ≤ L ∧ ¬ ProperType (env.mem (c.buf + 1)) ∧
      c' = { buf := c.buf + (env.mem c.buf).toNat, buflen := c.buflen - (env.mem c.buf).toNat,
             parsed := c.parsed + (env.mem c.buf).toNat, header := headerAt env.mem c.buf,
             extra_len := c.extra_len + (env.mem c.buf).toNat } := by
  rw [returns_cfgSkipRound (by omega), skipNext] at h
  split_ifs at h with h1 h2 h3
  have hle : ¬ c.buflen < (env.mem c.buf).toNat := fun hlt => h2 (Or.inr ⟨rfl, hlt⟩)
  have hlt : c.buflen < 2 ^ 64 := by omega
  rw [CInt.sub_of_le hlt (by omega)] at h
  exact ⟨by omega, by omega, h3, Round.again.inj h⟩

theorem cfgSkip_inside (hL32 : L < 2 ^ 32) {c : Skip} (h0 : 0 ≤ c.buf) (hL : c.buf + c.buflen = L) :
    Emits (Inside L) (loop (cfgSkipRound env) c) := by
  refine Emits.loop_inv (P := fun _ => True) (I := fun c => 0 ≤ c.buf ∧ c.buf + c.buflen = (L : ℤ)) ?_ ?_ ⟨h0, hL⟩
    fun _ _ => trivial
  · rintro s ⟨h0, hL⟩ -
    exact cfgSkipRound_inside h0 hL
  · rintro s s' ⟨h0, hL⟩ - hs
    obtain ⟨h2, hle, -, rfl⟩ := cfgSkipRound_again hL32 hL h0 hs
    exact ⟨by dsimp only; omega, by dsimp only; omega⟩

/-- What the skip loop of `usbi_parse_configuration` returns. -/
theorem cfgSkip_returns (hL32 : L < 2 ^ 32) {c c' : Skip} (h0 : 0 ≤ c.buf) (hL : c.buf + c.buflen = L)
    (h : (loop (cfgSkipRound env) c).Returns (some c')) :
    ExtrasEnd env.mem L c.buf c'.buf ∧ c'.buf + c'.buflen = L ∧ c.buf ≤ c'.buf ∧
      (c'.extra_len : ℤ) = c.extra_len + (c'.buf - c.buf) := by
  obtain ⟨s, ⟨hchain, h0', hL', hle, hex⟩, hs⟩ := Returns.loop_inv
    (I := fun s => (∀ e, ExtrasEnd env.mem L s.buf e → ExtrasEnd env.mem L c.buf e) ∧ 0 ≤ s.buf ∧
      s.buf + s.buflen = (L : ℤ) ∧ c.buf ≤ s.buf ∧ (s.extra_len : ℤ) = c.extra_len + (s.buf - c.buf))
    (fun s s' ⟨hchain, h0', hL', hle, hex⟩ hs' => by
      obtain ⟨h2, hle', ht, rfl⟩ := cfgSkipRound_again hL32 hL' h0' hs'
      exact ⟨fun e he => hchain e (.skip h2 hle' ht he), by dsimp only; omega, by dsimp only; omega,
        by dsimp only; omega, by dsimp only; omega⟩)
    ⟨fun _ he => he, h0, hL, Int.le_refl _, by omega⟩ h
  rw [returns_cfgSkipRound (by omega), skipNext] at hs
  split_ifs at hs with h1 h2 h3
  · obtain rfl := Option.some_inj.mp (Round.leave.inj hs)
    exact ⟨hchain _ (.short (by omega)), hL', hle, hex⟩
  · cases Round.leave.inj hs
  · have hle' : ¬ s.buflen < (env.mem s.buf).toNat := fun hlt => h2 (Or.inr ⟨rfl, hlt⟩)
    obtain rfl := Option.some_inj.mp (Round.leave.inj hs)
    exact ⟨hchain _ (.proper (by omega) (by omega) h3), hL', hle, hex⟩

/-- The skip loop stops where the extras end. -/
theorem cfgSkip_of_extrasEnd (hL32 : L < 2 ^ 32) {o e : ℤ} (he : ExtrasEnd env.mem L o e) (c : Skip) (ho : c.buf = o)
    (h0 : 0 ≤ c.buf) (hL : c.buf + c.buflen = L) :
    ∃ c', (loop (cfgSkipRound env) c).Returns (some c') ∧ c'.buf = e := by
  induction he generalizing c with
  | short h =>
    refine ⟨c, returns_loop.mpr (Or.inl ?_), ho⟩
    rw [returns_cfgSkipRound (by omega), skipNext, if_pos (by omega)]
  | proper h2 hle ht =>
    subst ho
    refine ⟨{ c with header := headerAt env.mem c.buf }, returns_loop.mpr (Or.inl ?_), rfl⟩
    rw [returns_cfgSkipRound (by omega), skipNext, if_neg (by omega), if_neg (by omega), if_pos ht]
  | skip h2 hle ht _ ih =>
    subst ho
    obtain ⟨c', hc', he'⟩ := ih
      { buf := c.buf + (env.mem c.buf).toNat, buflen := c.buflen - (env.mem c.buf).toNat,
        parsed := c.parsed + (env.mem c.buf).toNat, header := headerAt env.mem c.buf,
        extra_len := c.extra_len + (env.mem c.buf).toNat } rfl (by dsimp only; omega) (by dsimp only; omega)
    refine ⟨c', returns_loop.mpr (Or.inr ⟨_, ?_, hc'⟩), he'⟩
    have hlt : c.buflen < 2 ^ 64 := by omega
    rw [returns_cfgSkipRound (by omega), skipNext, if_neg (by omega), if_neg (by omega), if_neg ht,
      CInt.sub_of_le hlt (by omega)]

end CfgSkip

/-! ## Hops of the counting loop -/

/-- The next cursor of `usbi_get_intf_altno`. -/
def hop (mem : ℤ → UInt8) (p : ℤ) : ℤ := p + CInt.schar (mem p)

/-- The hops from `o` never leave the blob, and neither do the bytes that are looked at behind each. -/
def HopsInside (mem : ℤ → UInt8) (L : ℕ) (o : ℤ) : Prop :=
  ∀ n, o ≤ (hop mem)^[n] o ∧ (hop mem)^[n] o + 1 < L ∧
    (mem ((hop mem)^[n] o + 1) = USB_DESC_TYPE_INTERFACE → (hop mem)^[n] o + 2 < L)

section Count

variable {env : Env} {L : ℕ} {o : ℤ} {n : ℕ} {fno : UInt8}

theorem countNext_hop (mem : ℤ → UInt8) (fno : UInt8) (c : AltCount) :
    o + (countNext mem o fno c).len = hop mem (o + c.len) := by
  rw [hop, Int.add_assoc]; rfl

/-- The rounds of the counting loop stay inside when the hops do. -/
theorem count_inside (hL31 : L < 2 ^ 31) (h0 : 0 ≤ o) (hL : o + n = L) (hhops : HopsInside env.mem L o) :
    Emits (Inside L) (loop (altCountRound env o n fno) { len := 0, altno := 1 }) := by
  refine Emits.loop_inv (P := fun _ => True) (I := fun c => ∃ k, o + c.len = (hop env.mem)^[k] o) ?_ ?_
    ⟨0, Int.add_zero o⟩ fun _ _ => trivial
  · rintro c ⟨k, hk⟩ - e he
    obtain ⟨h1, h2, -⟩ := hhops k
    obtain ⟨h3, h4, h5⟩ := hhops (k + 1)
    rw [Function.iterate_succ_apply', ← hk, ← countNext_hop env.mem fno] at h3 h4 h5
    have hlen : (countNext env.mem o fno c).len = c.len + CInt.schar (env.mem (o + c.len)) := rfl
    rw [← hk] at h1 h2
    obtain ⟨-, rfl | rfl | rfl | rfl | ⟨ht, rfl⟩ | ⟨-, rfl⟩⟩ := logs_altCountRound.mp he
    · trivial
    · exact ⟨by omega, by omega⟩
    · show -CInt.schar (env.mem (o + c.len)) ≤ c.len
      omega
    · exact ⟨by omega, by omega⟩
    · exact ⟨by omega, h5 ht⟩
    · trivial
  · rintro c c' ⟨k, hk⟩ - hc
    rw [returns_altCountRound] at hc
    split_ifs at hc with hlt
    obtain rfl := Round.again.inj hc
    exact ⟨k + 1, by rw [countNext_hop, hk, Function.iterate_succ_apply']⟩

/-- A round that stays inside goes on, and the next cursor is inside too. -/
theorem count_round_goes_on (hL31 : L < 2 ^ 31) (h0 : 0 ≤ o) (hL : o + n = L) {c : AltCount} (hc0 : 0 ≤ c.len)
    (hcn : c.len < n) (h : Emits (Inside L) (altCountRound env o n fno c)) :
    (altCountRound env o n fno c).Returns (.again (countNext env.mem o fno c)) ∧
      0 ≤ (countNext env.mem o fno c).len ∧ (countNext env.mem o fno c).len + 1 < n ∧
      (env.mem (o + (countNext env.mem o fno c).len + 1) = USB_DESC_TYPE_INTERFACE →
        (countNext env.mem o fno c).len + 2 < n) := by
  have hlt : CInt.toU32 c.len < n := by have := CInt.toU32_of_nonneg hc0 (by omega); omega
  have hlen : (countNext env.mem o fno c).len = c.len + CInt.schar (env.mem (o + c.len)) := rfl
  have htake : -CInt.schar (env.mem (o + c.len)) ≤ c.len :=
    h _ (logs_altCountRound.mpr ⟨hlt, Or.inr (Or.inr (Or.inl rfl))⟩)
  have hread : Inside L (.read (o + (countNext env.mem o fno c).len + 1)) :=
    h _ (logs_altCountRound.mpr ⟨hlt, Or.inr (Or.inr (Or.inr (Or.inl rfl)))⟩)
  refine ⟨returns_altCountRound.mpr (if_pos hlt).symm, by omega, ?_, fun ht => ?_⟩
  · have := hread.2; omega
  · have hread2 : Inside L (.read (o + (countNext env.mem o fno c).len + 2)) :=
      h _ (logs_altCountRound.mpr ⟨hlt, Or.inr (Or.inr (Or.inr (Or.inr (Or.inl ⟨ht, rfl⟩))))⟩)
    have := hread2.2; omega

/-- A counting loop that stays inside reaches every hop. -/
theorem hops_of_count_inside (hL31 : L < 2 ^ 31) (h0 : 0 ≤ o) (hL : o + n = L)
    (h2 : o + 1 < L ∧ (env.mem (o + 1) = USB_DESC_TYPE_INTERFACE → o + 2 < L))
    (h : Emits (Inside L) (loop (altCountRound env o n fno) { len := 0, altno := 1 })) :
    HopsInside env.mem L o := by
  have hreach : ∀ k, ∃ c : AltCount, o + c.len = (hop env.mem)^[k] o ∧ 0 ≤ c.len ∧ c.len + 1 < n ∧
      (env.mem (o + c.len + 1) = USB_DESC_TYPE_INTERFACE → c.len + 2 < n) ∧
      Emits (Inside L) (loop (altCountRound env o n fno) c) := by
    intro k
    induction k with
    | zero =>
      refine ⟨{ len := 0, altno := 1 }, Int.add_zero o, Int.le_refl 0, by dsimp only; omega, fun ht => ?_, h⟩
      rw [Int.add_zero] at ht
      have := h2.2 ht
      dsimp only
      omega
    | succ k ih =>
      obtain ⟨c, hk, hc0, hcn, -, hem⟩ := ih
      obtain ⟨hbody, hrest⟩ := emits_loop.mp hem
      obtain ⟨hret, h3, h4, h5⟩ := count_round_goes_on hL31 h0 hL hc0 (by omega) hbody
      refine ⟨_, ?_, h3, h4, h5, hrest _ hret⟩
      rw [countNext_hop, hk, Function.iterate_succ_apply']
  intro k
  obtain ⟨c, hk, hc0, hcn, ht, -⟩ := hreach k
  rw [← hk]
  refine ⟨by omega, by omega, fun h => ?_⟩
  have := ht h
  omega

/-- A counting loop that stays inside never returns. -/
theorem count_inside_diverges (hL31 : L < 2 ^ 31) (h0 : 0 ≤ o) (hL : o + n = L) (hn : 0 < n)
    (h : Emits (Inside L) (loop (altCountRound env o n fno) { len := 0, altno := 1 })) {a : ℕ} :
    ¬ (loop (altCountRound env o n fno) { len := 0, altno := 1 }).Returns a := by
  intro ha
  obtain ⟨c, ⟨hc0, hcn, -⟩, hc⟩ := Returns.loop_inv
    (I := fun c : AltCount => 0 ≤ c.len ∧ c.len < (n : ℤ) ∧ Emits (Inside L) (loop (altCountRound env o n fno) c))
    (fun c c' ⟨hc0, hcn, hem⟩ hc' => by
      obtain ⟨hbody, hrest⟩ := emits_loop.mp hem
      obtain ⟨hret, h3, h4, -⟩ := count_round_goes_on hL31 h0 hL hc0 hcn hbody
      obtain rfl := Round.again.inj (hret.unique hc')
      exact ⟨h3, by omega, hrest _ hret⟩)
    ⟨Int.le_refl 0, by dsimp only; omega, h⟩ ha
  have hlt : CInt.toU32 c.len < n := by have := CInt.toU32_of_nonneg hc0 (by omega); omega
  rw [returns_altCountRound, if_pos hlt] at hc
  cases hc

end Count

/-! ## Interfaces -/

/-- What keeps `usbi_parse_interface` inside when it is called at `o`. -/
def SafeInterface (mem : ℤ → UInt8) (L : ℕ) (o : ℤ) : Prop :=
  o + 1 < L ∧ (mem (o + 1) = USB_DESC_TYPE_INTERFACE → HopsInside mem L o)

section Interfaces

variable {env : Env} {L : ℕ} {o : ℤ} {n : ℕ}

theorem intf_altno_inside (hL31 : L < 2 ^ 31) (h0 : 0 ≤ o) (hL : o + n = L) (h1 : o + 1 < L)
    (ht : env.mem (o + 1) = USB_DESC_TYPE_INTERFACE) :
    Emits (Inside L) (usbiGetIntfAltno env o n) ↔ HopsInside env.mem L o := by
  rw [usbiGetIntfAltno, (returns_rd.mpr rfl).emits_bind_iff, rd_inside]
  constructor
  · rintro ⟨h2, h⟩
    exact hops_of_count_inside hL31 h0 hL ⟨h1, fun _ => h2.2⟩ h
  · intro h
    exact ⟨⟨by omega, (h 0).2.2 ht⟩, count_inside hL31 h0 hL h⟩

theorem intf_altno_diverges (hL31 : L < 2 ^ 31) (h0 : 0 ≤ o) (hL : o + n = L) (hn : 0 < n)
    (h : Emits (Inside L) (usbiGetIntfAltno env o n)) {a : ℕ} : ¬ (usbiGetIntfAltno env o n).Returns a := by
  rw [usbiGetIntfAltno, (returns_rd.mpr rfl).emits_bind_iff] at h
  rw [usbiGetIntfAltno, (returns_rd.mpr rfl).bind_iff]
  exact count_inside_diverges hL31 h0 hL hn h.2

/-- `usbi_parse_interface` stays inside exactly when it meets no interface or counts for ever. -/
theorem parse_interface_inside (hL31 : L < 2 ^ 31) (h0 : 0 ≤ o) (hL : o + n = L) (hn : 0 < n) (i : ℕ)
    (intf : UsbiInterface) :
    Emits (Inside L) (usbiParseInterface env i intf o n) ↔ SafeInterface env.mem L o := by
  rw [usbiParseInterface, if_neg (by omega), (returns_rd.mpr rfl).emits_bind_iff, rd_inside]
  by_cases ht : env.mem (o + 1) = USB_DESC_TYPE_INTERFACE
  · rw [if_neg (by simpa using ht), emits_bind]
    constructor
    · rintro ⟨⟨-, h1⟩, h, -⟩
      exact ⟨h1, fun _ => (intf_altno_inside hL31 h0 hL h1 ht).mp h⟩
    · rintro ⟨h1, hhops⟩
      have h := (intf_altno_inside hL31 h0 hL h1 ht).mpr (hhops ht)
      exact ⟨⟨by omega, h1⟩, h, fun a ha => absurd ha (intf_altno_diverges hL31 h0 hL hn h)⟩
  · rw [if_pos ht]
    simp only [emits_pure, and_true]
    constructor
    · rintro ⟨-, h1⟩
      exact ⟨h1, fun h => absurd h ht⟩
    · rintro ⟨h1, -⟩
      exact ⟨by omega, h1⟩

/-- A call of `usbi_parse_interface` that stays inside and returns has met no interface, and consumes all that is left. -/
theorem parse_interface_returns_inside (hL31 : L < 2 ^ 31) (h0 : 0 ≤ o) (hL : o + n = L) (hn : 0 < n) {i : ℕ}
    {intf : UsbiInterface} (h : Emits (Inside L) (usbiParseInterface env i intf o n)) {r : ℤ × UsbiInterface}
    (hr : (usbiParseInterface env i intf o n).Returns r) : r = ((n : ℤ), intf) := by
  rw [usbiParseInterface, if_neg (by omega), (returns_rd.mpr rfl).emits_bind_iff] at h
  rw [usbiParseInterface, if_neg (by omega), (returns_rd.mpr rfl).bind_iff] at hr
  by_cases ht : env.mem (o + 1) = USB_DESC_TYPE_INTERFACE
  · rw [if_neg (by simpa using ht)] at h hr
    obtain ⟨a, ha, -⟩ := returns_bind.mp hr
    exact absurd ha (intf_altno_diverges hL31 h0 hL hn (emits_bind.mp h.2).1)
  · rw [if_pos ht, returns_pure, CInt.toI32_of_lt (by omega)] at hr
    exact hr.symm

/-- The interface loop stays inside exactly when its first call does. -/
theorem parse_interfaces_inside (hL31 : L < 2 ^ 31) (h0 : 0 ≤ o) (hL : o + n = L) (k : ℕ) :
    Emits (Inside L) (parseInterfaces env k { buf := o, buflen := n }) ↔ (0 < k → 0 < n → SafeInterface env.mem L o) := by
  cases k with
  | zero => simp [parseInterfaces]
  | succ k =>
    rw [parseInterfaces]
    dsimp only
    by_cases hn : n = 0
    · rw [if_pos hn]
      simp [hn]
    · rw [if_neg hn, Nat.mod_eq_of_lt (show n < 2 ^ 32 by omega), emits_bind,
        parse_interface_inside hL31 h0 hL (by omega)]
      constructor
      · exact fun h _ _ => h.1
      · intro h
        have hsafe := h (Nat.succ_pos k) (by omega)
        refine ⟨hsafe, fun r hr => ?_⟩
        obtain rfl := parse_interface_returns_inside hL31 h0 hL (by omega)
          ((parse_interface_inside hL31 h0 hL (by omega) _ _).mpr hsafe) hr
        dsimp only
        rw [if_neg (by omega), emits_emit_bind, Int.toNat_natCast, CInt.sub_of_le (show n < 2 ^ 64 by omega) le_rfl,
          Nat.sub_self]
        refine ⟨Int.le_refl _, ?_⟩
        cases k with
        | zero => exact emits_pure
        | succ k => rw [parseInterfaces, if_pos rfl]; exact emits_pure

theorem cfg_interfaces_inside (hL31 : L < 2 ^ 31) (h0 : 0 ≤ o) (hL : o + n = L) (cfg : UsbiConfig) :
    Emits (Inside L) (cfgInterfaces env cfg o n) ↔ (0 < cfg.num_interfaces → 0 < n → SafeInterface env.mem L o) := by
  rw [← parse_interfaces_inside hL31 h0 hL, cfgInterfaces, emits_bind]
  refine and_iff_left_of_imp fun _ r _ => ?_
  obtain ⟨r | r, s⟩ := r
  · exact emits_pure
  · exact emits_pure

end Interfaces

/-! ## Configurations -/

/-- The blobs on which the parser stays inside: those it gives up on before the first interface, and those whose first
interface is safe. -/
def SafeConfig (env : Env) (cfg : UsbiConfig) (L : ℕ) : Prop :=
  L = 0 ∨ numInterfaces env cfg L > USBI_MAXINTERFACES ∨ env.alloc .interfaces = false ∨
    ((env.mem 0).toNat ≤ L ∧ ∀ e, ExtrasEnd env.mem L (env.mem 0).toNat e → 0 < numInterfaces env cfg L → e < L →
      (e = (env.mem 0).toNat ∨ env.alloc .cfgExtra = true) → SafeInterface env.mem L e)

section Configurations

variable {env : Env} {L : ℕ}

/-- After the configuration descriptor, the parser stays inside when its first interface is safe. -/
theorem cfg_skipped_inside (hL31 : L < 2 ^ 31) {h : ℕ} (cfg : UsbiConfig) {c : Skip} (hh : (h : ℤ) ≤ c.buf)
    (hL : c.buf + c.buflen = L) (hex : (c.extra_len : ℤ) = c.buf - h) :
    Emits (Inside L) (if c.extra_len = 0 then cfgInterfaces env { cfg with extra := .absent } c.buf c.buflen
      else do
        let ok ← calloc env .cfgExtra
        if ok then do
          let extra ← copyBytes env (0 + h) c.extra_len
          cfgInterfaces env { cfg with extra := .live c.extra_len extra, extralen := c.extra_len } c.buf c.buflen
        else pure (OPENUSB_PARSE_ERROR, { cfg with extra := .absent })) ↔
      (0 < cfg.num_interfaces → c.buf < L → (c.buf = h ∨ env.alloc .cfgExtra = true) →
        SafeInterface env.mem L c.buf) := by
  have hlt : 0 < c.buflen ↔ c.buf < L := by omega
  by_cases hx : c.extra_len = 0
  · have hbuf : c.buf = h := by omega
    rw [if_pos hx, cfg_interfaces_inside hL31 (by omega) hL, hlt]
    exact ⟨fun hs h1 h2 _ => hs h1 h2, fun hs h1 h2 => hs h1 h2 (Or.inl hbuf)⟩
  · have hbuf : c.buf ≠ h := by omega
    rw [if_neg hx, (returns_calloc.mpr rfl).emits_bind_iff]
    cases hal : env.alloc .cfgExtra with
    | false =>
      simp only [Bool.false_eq_true, if_false, or_false, hbuf, false_implies, implies_true, iff_true]
      exact ⟨calloc_inside, emits_pure⟩
    | true =>
      rw [if_pos rfl, (returns_copyBytes.mpr rfl).emits_bind_iff, cfg_interfaces_inside hL31 (by omega) hL, hlt]
      have hcopy : Emits (Inside L) (copyBytes env (0 + h) c.extra_len) := copyBytes_inside (by omega) (by omega)
      exact ⟨fun hs h1 h2 _ => hs.2.2 h1 h2, fun hs => ⟨calloc_inside, hcopy, fun h1 h2 => hs h1 h2 (Or.inr rfl)⟩⟩

/-- The parser stays inside its blob exactly on the safe ones. -/
theorem parse_configuration_inside_iff (env : Env) (cfg : UsbiConfig) (L : ℕ) (hL31 : L < 2 ^ 31) :
    Emits (Inside L) (usbiParseConfiguration env cfg 0 L) ↔ SafeConfig env cfg L := by
  by_cases h0 : L = 0
  · rw [usbiParseConfiguration, if_pos h0]
    exact ⟨fun _ => Or.inl h0, fun _ => emits_pure⟩
  obtain ⟨desc, hdesc⟩ : (parseInto env UsbConfigDesc.store fmtConfig sizeofConfigDesc 0 L cfg.desc).Halts :=
    halts_parseInto
  have hheader : Emits (Inside L) (parseHeader env 0 L (env.junk 0)) := parseHeader_inside le_rfl (by omega)
  have hconfig : Emits (Inside L) (parseInto env UsbConfigDesc.store fmtConfig sizeofConfigDesc 0 L cfg.desc) :=
    parseInto_inside (by decide) le_rfl (by omega)
  have hnum : desc.bNumInterfaces.toNat = numInterfaces env cfg L := by
    rw [returns_parseConfig_num (by omega) hdesc]; rfl
  rw [usbiParseConfiguration, if_neg h0, ((returns_parseHeader (by omega)).mpr rfl).emits_bind_iff,
    hdesc.emits_bind_iff]
  simp only [hheader, hconfig, true_and, hnum]
  by_cases hmax : numInterfaces env cfg L > USBI_MAXINTERFACES
  · rw [if_pos hmax]
    exact ⟨fun _ => Or.inr (Or.inl hmax), fun _ => emits_pure⟩
  rw [if_neg hmax, (returns_calloc.mpr rfl).emits_bind_iff]
  cases hal : env.alloc .interfaces with
  | false =>
    rw [if_pos (by simp)]
    exact ⟨fun _ => Or.inr (Or.inr (Or.inl hal)), fun _ => ⟨calloc_inside, emits_pure⟩⟩
  | true =>
    rw [if_neg (by simp), emits_emit_bind]
    have hbyte : (headerParsed env.mem 0 L (env.junk 0)).bLength = env.mem 0 := if_pos (by omega)
    rw [hbyte]
    constructor
    · rintro ⟨-, htake, h⟩
      have hle : (env.mem 0).toNat ≤ L := Int.ofNat_le.mp htake
      rw [CInt.sub_of_le (show L < 2 ^ 64 by omega) hle] at h
      refine Or.inr (Or.inr (Or.inr ⟨hle, fun e he => ?_⟩))
      obtain ⟨c, hc, rfl⟩ := cfgSkip_of_extrasEnd (by omega) he
        { buf := 0 + (env.mem 0).toNat, buflen := L - (env.mem 0).toNat, parsed := (env.mem 0).toNat,
          header := headerParsed env.mem 0 L (env.junk 0) } (Int.zero_add _) (by dsimp only; omega)
        (by dsimp only; omega)
      obtain ⟨-, hL, hbuf, hex⟩ := cfgSkip_returns (show L < 2 ^ 32 by omega) (by dsimp only; omega)
        (by dsimp only; omega) hc
      dsimp only at hbuf hex
      have hrest := (emits_bind.mp h).2 _ hc
      dsimp only at hrest
      exact (cfg_skipped_inside hL31 { cfg with
        desc := desc, num_interfaces := numInterfaces env cfg L, interfaces := .live (numInterfaces env cfg L) [] }
        (by omega) hL (by omega)).mp hrest
    · rintro (h | h | h | ⟨hle, hsafe⟩)
      · exact absurd h h0
      · exact absurd h hmax
      · exact absurd (hal.symm.trans h) (by simp)
      · refine ⟨calloc_inside, Int.ofNat_le.mpr hle, ?_⟩
        rw [CInt.sub_of_le (show L < 2 ^ 64 by omega) hle, emits_bind]
        refine ⟨cfgSkip_inside (by omega) (by dsimp only; omega) (by dsimp only; omega), fun r hr => ?_⟩
        cases r with
        | none => exact emits_pure
        | some c =>
          obtain ⟨hend, hL, hbuf, hex⟩ := cfgSkip_returns (show L < 2 ^ 32 by omega) (by dsimp only; omega)
            (by dsimp only; omega) hr
          dsimp only at hend hbuf hex
          rw [Int.zero_add] at hend
          exact (cfg_skipped_inside hL31 { cfg with
            desc := desc, num_interfaces := numInterfaces env cfg L,
            interfaces := .live (numInterfaces env cfg L) [] } (by omega) hL (by omega)).mpr (hsafe _ hend)

end Configurations

/-- A configuration that goes on with an association and an endpoint, where it announces an interface. -/
def strayBlob : List UInt8 :=
  [9, 2, 24, 0, 1, 1, 0, 0x80, 50, 8, 11, 0, 1, 1, 0, 0, 0, 7, 5, 0x81, 3, 8, 0, 10]

/-- The association is skipped, and the endpoint is taken for an interface of all that is left. -/
theorem parse_configuration_inside_iff_stray :
    Emits (Inside 24) (usbiParseConfiguration (blobEnv strayBlob) {} 0 24) := by
  refine (parse_configuration_inside_iff (blobEnv strayBlob) {} 24 (by decide)).mpr ?_
  refine Or.inr (Or.inr (Or.inr ⟨by decide, fun e he _ _ _ => ?_⟩))
  have hend : e = 17 := by
    change ExtrasEnd (blobMem strayBlob) 24 9 e at he
    cases he with
    | short h => exact absurd h (by decide)
    | proper _ _ ht => exact absurd ht (by decide)
    | skip _ _ _ he =>
      change ExtrasEnd (blobMem strayBlob) 24 17 e at he
      cases he with
      | short h => exact absurd h (by decide)
      | proper => rfl
      | skip _ _ ht => exact absurd ht (by decide)
  subst hend
  exact ⟨by decide, fun htype => absurd htype (by decide)⟩

/-- A configuration with one interface and no endpoints. -/
def plainBlob : List UInt8 := [9, 2, 18, 0, 1, 1, 0, 0x80, 50, 9, 4, 0, 0, 0, 3, 1, 1, 0]

/-- On `plainBlob`, of 18 bytes, the counting pass looks for a type at offset 19. -/
theorem parse_plain_leaves_blob : ¬ Emits (Inside 18) (usbiParseConfiguration (blobEnv plainBlob) {} 0 18) := by
  intro h
  have hread : (usbiParseConfiguration (blobEnv plainBlob) {} 0 18).Logs (.read 19) := ⟨5, by decide +kernel⟩
  exact absurd (h _ hread).2 (by decide)

end OpenUsb
