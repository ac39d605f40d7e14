import OpenUsb.ParseReach
import OpenUsb.WalkersExact

/-!
# AltTable — the alternate settings and the table they are written to

`usbi_parse_interface` allocates as many entries as `usbi_get_intf_altno` counts, and keeps that number in eight bits.
The count hops by `bLength` as a plain char, and takes the interface descriptors with the number of the first one; the
loop that fills the table goes on at each interface descriptor with a nonzero alternate value, whatever its number.

* `table_fits_iff`: the entries fit into the table exactly when the alternates of the blob are no more than the first
  descriptor and its likes on the hops, modulo 256.
* `table_fits_of_same_number`: they do when no length is zero or a negative plain char, the alternates have the number of
  the first one, and fewer than 255 others have it.
-/

namespace OpenUsb

open Prog

section

variable (mem : ℤ → UInt8)

/-- Where `k` endpoint descriptors end. -/
def endpointsEnd : ℕ → ℤ × ℕ → Option (ℤ × ℕ)
  | 0, w => some w
  | k + 1, w => (endpointEnd mem w).bind (endpointsEnd k)

/-- Where the alternate setting behind `num` endpoints starts, if they are well formed and there is one. -/
def afterEndpoints (num : UInt8) (w : ℤ × ℕ) : Option (ℤ × ℕ) :=
  if Foreign mem w ∨ USBI_MAXENDPOINTS < num.toNat then none
  else (endpointsEnd mem num.toNat w).filter fun w' => decide (GoesOn mem w')

/-- Where the alternate setting behind the one at `w` starts. -/
def altEnd (w : ℤ × ℕ) : Option (ℤ × ℕ) :=
  if w.2 < (mem w.1).toNat then none
  else (extrasEnd mem (w.2 - (mem w.1).toNat) (w.1 + (mem w.1).toNat) (w.2 - (mem w.1).toNat)).bind
    (afterEndpoints mem (mem (w.1 + 4)))

/-- The alternate settings that follow one another from `w` on. -/
def alternatesFrom : ℕ → ℤ × ℕ → List (ℤ × ℕ)
  | 0, _ => []
  | fuel + 1, w => if w.2 < 9 then [] else w :: ((altEnd mem w).map (alternatesFrom fuel)).getD []

/-- The alternate settings of an interface. -/
def alternates (buf : ℤ) (n : ℕ) : List (ℤ × ℕ) :=
  if mem (buf + 1) = USB_DESC_TYPE_INTERFACE then alternatesFrom mem n (buf, n) else []

/-- Whenever the counting pass returns, `usbi_parse_interface` returns, and has written no more entries than the count as
it is stored. -/
def TableFits (buf : ℤ) (n : ℕ) : Prop :=
  ∀ (env : Env) (i altno : ℕ), env.mem = mem → (usbiGetIntfAltno env buf n).Returns altno →
    ∃ r, (usbiParseInterface env i {} buf n).Returns r ∧ r.2.num_altsettings ≤ altno % 2 ^ 8

end

/-! ## The alternate settings that are reached -/

/-- The run has found what is there, or has given up for want of memory. -/
def Reached {α : Type} (env : Env) (found there : Option α) : Prop := found = there ∨ ¬ AllocOk env ∧ found = none

section

variable {env : Env} {L : ℕ}

theorem Reached.filter {α : Type} {o : Option α} {p : α → Bool} (h : AllocOk env → ∀ a, p a = true) :
    Reached env (o.filter p) o := by
  cases o with
  | none => exact .inl rfl
  | some a =>
    rw [Option.filter_some]
    by_cases hp : p a = true
    · exact .inl (if_pos hp)
    · exact .inr ⟨fun hok => hp (h hok a), if_neg hp⟩

theorem Reached.bind {α β : Type} {o o' : Option α} (h : Reached env o o') {f g : α → Option β}
    (hf : ∀ a, Reached env (f a) (g a)) : Reached env (o.bind f) (o'.bind g) := by
  rcases h with rfl | ⟨hno, rfl⟩
  · cases o with
    | none => exact .inl rfl
    | some a => exact hf a
  · exact .inr ⟨hno, rfl⟩

theorem endpointStop_reached {i j k : ℕ} {w : ℤ × ℕ} :
    Reached env (endpointStop env i j k w) (endpointEnd env.mem w) :=
  .filter fun hok _ => decide_eq_true fun _ => Or.inr (hok _)

theorem endpointsStop_reached {i j : ℕ} (n : ℕ) {k : ℕ} {w : ℤ × ℕ} :
    Reached env (endpointsStop env i j k n w) (endpointsEnd env.mem n w) := by
  induction n generalizing k w with
  | zero => exact .inl rfl
  | succ n ih => exact endpointStop_reached.bind fun _ => ih

theorem bind_filter {α β : Type} (o : Option α) (f : α → Option β) (p : β → Bool) :
    (o.bind f).filter p = o.bind fun a => (f a).filter p := by
  cases o with
  | none => rfl
  | some a => rfl

/-- The altsetting loop goes on where the next alternate setting starts. -/
theorem altStop_reached {i j : ℕ} {w : ℤ × ℕ} :
    Reached env ((altStop env i j w).filter fun e => decide (GoesOn env.mem e)) (altEnd env.mem w) := by
  unfold altStop altExtrasStop altEnd
  by_cases hgt : w.2 < (env.mem w.1).toNat
  · rw [if_pos hgt, if_pos hgt]
    exact .inl rfl
  rw [if_neg hgt, if_neg hgt, bind_filter]
  refine Reached.bind (Reached.filter fun hok e => ?_) fun e => ?_
  · exact decide_eq_true (Or.inr (hok _))
  unfold afterEndpoints
  by_cases hstop : Foreign env.mem e
  · rw [if_pos hstop, if_pos (Or.inl hstop), Option.filter_some,
      if_neg (by simpa using hstop.not_goesOn)]
    exact .inl rfl
  by_cases hmax : USBI_MAXENDPOINTS < (env.mem (w.1 + 4)).toNat
  · rw [if_neg hstop, if_pos (Or.inr hmax), if_neg fun h => absurd h.2.1 (Nat.not_le.mpr hmax)]
    exact .inl rfl
  rw [if_neg hstop, if_neg (not_or.mpr ⟨hstop, hmax⟩)]
  by_cases hok : env.alloc (.endpoints i j) = true
  · rw [if_pos ⟨hstop, Nat.le_of_not_lt hmax, hok⟩]
    rcases @endpointsStop_reached env i j (env.mem (w.1 + 4)).toNat 0 e with h | ⟨hno, h⟩
    · exact .inl (by rw [h])
    · exact .inr ⟨hno, by rw [h]; rfl⟩
  · rw [if_neg fun h => hok h.2.2]
    exact .inr ⟨fun h => hok (h _), rfl⟩

theorem alternatesFrom_short {mem : ℤ → UInt8} {w : ℤ × ℕ} (h : w.2 < 9) : ∀ fuel, alternatesFrom mem fuel w = []
  | 0 => rfl
  | _ + 1 => if_pos h

theorem alternatesFrom_cons {mem : ℤ → UInt8} {w : ℤ × ℕ} (h : ¬ w.2 < 9) (fuel : ℕ) : alternatesFrom mem (fuel + 1) w =
    w :: ((altEnd mem w).map (alternatesFrom mem fuel)).getD [] := if_neg h

/-- The altsettings reached are alternate settings of the blob, and all of them unless memory runs out. -/
theorem altsFrom_length {i : ℕ} (fuel : ℕ) {j : ℕ} {w : ℤ × ℕ} :
    (altsFrom env i fuel j w).length ≤ (alternatesFrom env.mem fuel w).length ∧
      (AllocOk env → (altsFrom env i fuel j w).length = (alternatesFrom env.mem fuel w).length) := by
  induction fuel generalizing j w with
  | zero => exact ⟨le_rfl, fun _ => rfl⟩
  | succ fuel ih =>
    by_cases h9 : w.2 < 9
    · rw [altsFrom_short h9, alternatesFrom_short h9]
      exact ⟨le_rfl, fun _ => rfl⟩
    rw [altsFrom_cons h9, alternatesFrom_cons h9, List.length_cons, List.length_cons]
    rcases @altStop_reached env i j w with h | ⟨hno, h⟩
    · rw [h]
      cases altEnd env.mem w with
      | none => exact ⟨le_rfl, fun _ => rfl⟩
      | some e => exact ⟨Nat.succ_le_succ ih.1, fun hok => congrArg Nat.succ (ih.2 hok)⟩
    · rw [h]
      exact ⟨Nat.succ_le_succ (Nat.zero_le _), fun hok => absurd hok hno⟩

/-! ## The table -/

/-- `usbi_parse_interface` writes an entry for each alternate setting, unless memory runs out. -/
theorem parse_interface_entries (hz : ZeroSlack env.mem L) (hL31 : L < 2 ^ 31) {i : ℕ} {buf : ℤ} {n : ℕ}
    (hL : Left L buf n) {r : ℤ × UsbiInterface} (hr : (usbiParseInterface env i {} buf n).Returns r) :
    r.2.num_altsettings ≤ (alternates env.mem buf n).length ∧
      (AllocOk env → r.2.num_altsettings = (alternates env.mem buf n).length) := by
  unfold alternates
  rcases Nat.eq_zero_or_pos n with rfl | h0
  · rw [usbiParseInterface, if_pos rfl] at hr
    obtain rfl := returns_pure.mp hr
    have hnil : (if env.mem (buf + 1) = USB_DESC_TYPE_INTERFACE then alternatesFrom env.mem 0 (buf, 0) else []) = [] := by
      split_ifs <;> rfl
    rw [hnil]
    exact ⟨le_rfl, fun _ => rfl⟩
  rw [(parse_interface_stops hz hL31 hL h0 hr).2, interfaceAlts]
  by_cases htype : env.mem (buf + 1) = USB_DESC_TYPE_INTERFACE
  swap
  · rw [if_neg fun h => htype h.1, if_neg htype]
    exact ⟨le_rfl, fun _ => rfl⟩
  rw [if_pos htype]
  by_cases hok : env.alloc (.altsettings i) = true
  · rw [if_pos ⟨htype, hok⟩]
    exact altsFrom_length n
  · rw [if_neg fun h => hok h.2]
    exact ⟨Nat.zero_le _, fun h => absurd (h _) hok⟩

end

/-- A table that is large enough for all alternate settings. -/
theorem table_fits_of_le {mem : ℤ → UInt8} {buf : ℤ} {n L : ℕ} (hz : ZeroSlack mem L) (hL31 : L < 2 ^ 31)
    (hL : Left L buf n)
    (h : ∀ l, Hops mem buf n 0 l → (alternates mem buf n).length ≤ (1 + sameNumbers mem buf l) % 2 ^ 8) :
    TableFits mem buf n := by
  rintro env i altno rfl hcount
  obtain ⟨l, hl, haltno⟩ := (intf_altno_hops (hL.lt hL31)).mp hcount
  have hreturns : ∃ r, (usbiParseInterface env i {} buf n).Returns r := by
    rcases Nat.eq_zero_or_pos n with rfl | h0
    · exact ⟨_, returns_pure.mpr rfl⟩
    · exact (parse_interface_ends hz hL31 hL h0 fun _ => ⟨altno, hcount⟩).halts
  obtain ⟨r, hr⟩ := hreturns
  refine ⟨r, hr, (parse_interface_entries hz hL31 hL hr).1.trans ?_⟩
  rw [haltno]
  exact h l hl

/-! ## Interfaces that fit -/

section

variable {mem : ℤ → UInt8}

/-- The extras end further along the chain. -/
theorem extrasEnd_chain : ∀ (fuel : ℕ) (sp : ℤ) (n : ℕ) {w : ℤ × ℕ}, extrasEnd mem fuel sp n = some w →
    chain mem w.1 w.2 <:+ chain mem sp n
  | 0, _, _, _, h => by
    obtain rfl := Option.some_inj.mp h
    exact List.suffix_rfl
  | fuel + 1, sp, n, w, h => by
    rw [extrasEnd] at h
    split_ifs at h with h2 h3 h4 hle
    · obtain rfl := Option.some_inj.mp h
      exact List.suffix_rfl
    · obtain rfl := Option.some_inj.mp h
      exact List.suffix_rfl
    · rw [chain_hop ⟨by omega, hle⟩]
      exact (extrasEnd_chain fuel _ _ h).trans (List.suffix_cons _ _)

theorem endpointEnd_chain {w w' : ℤ × ℕ} (h : endpointEnd mem w = some w') :
    chain mem w'.1 w'.2 <:+ chain mem w.1 w.2 := by
  unfold endpointEnd at h
  split_ifs at h with hno hep
  · have hhop : 0 < (mem w.1).toNat ∧ (mem w.1).toNat ≤ w.2 := by omega
    rw [chain_hop hhop]
    exact (extrasEnd_chain _ _ _ h).trans (List.suffix_cons _ _)
  · obtain rfl := Option.some_inj.mp h
    exact List.suffix_rfl

theorem endpointsEnd_chain : ∀ (k : ℕ) {w w' : ℤ × ℕ}, endpointsEnd mem k w = some w' →
    chain mem w'.1 w'.2 <:+ chain mem w.1 w.2
  | 0, _, _, h => by
    obtain rfl := Option.some_inj.mp h
    exact List.suffix_rfl
  | k + 1, w, w', h => by
    obtain ⟨e, he, hrest⟩ := Option.bind_eq_some_iff.mp h
    exact (endpointsEnd_chain k hrest).trans (endpointEnd_chain he)

/-- The next alternate setting is further along the chain. -/
theorem altEnd_chain {w w' : ℤ × ℕ} (h9 : ¬ w.2 < 9) (h : altEnd mem w = some w') :
    GoesOn mem w' ∧ chain mem w'.1 w'.2 <:+ (chain mem w.1 w.2).tail := by
  unfold altEnd at h
  split_ifs at h with hgt
  obtain ⟨e, he, hrest⟩ := Option.bind_eq_some_iff.mp h
  unfold afterEndpoints at hrest
  split_ifs at hrest with hstop
  obtain ⟨hend, hgoes⟩ := Option.filter_eq_some_iff.mp hrest
  refine ⟨of_decide_eq_true hgoes, ?_⟩
  have hsuffix := (endpointsEnd_chain _ hend).trans (extrasEnd_chain _ _ _ he)
  by_cases hzero : (mem w.1).toNat = 0
  · -- a descriptor of length 0 is taken for its own malformed extra
    rw [hzero] at he
    obtain ⟨m, hm⟩ := Nat.exists_eq_succ_of_ne_zero (show w.2 - 0 ≠ 0 by omega)
    rw [Nat.cast_zero, add_zero, hm, extrasEnd, if_neg (by omega), if_pos (by omega)] at he
    cases he
  · have hhop : 0 < (mem w.1).toNat ∧ (mem w.1).toNat ≤ w.2 := by omega
    rwa [chain_hop hhop, List.tail_cons]

variable {buf : ℤ} {n L : ℕ}

theorem sameNumbers_mono {l l' : List (ℤ × ℕ)} (h : l <:+ l') :
    sameNumbers mem buf (l.map Prod.fst) ≤ sameNumbers mem buf (l'.map Prod.fst) :=
  (h.sublist.map Prod.fst).countP_le

/-- The alternate settings are on the chain. -/
theorem alternates_le : ∀ (fuel : ℕ) (w : ℤ × ℕ), ¬ w.2 < 9 →
    (∀ a ∈ alternatesFrom mem fuel w, mem (a.1 + 2) = mem (buf + 2)) →
    (alternatesFrom mem fuel w).length ≤ 1 + sameNumbers mem buf ((chain mem w.1 w.2).tail.map Prod.fst)
  | 0, _, _, _ => Nat.zero_le _
  | fuel + 1, w, h9, hsame => by
    rw [alternatesFrom_cons h9] at hsame ⊢
    cases hend : altEnd mem w with
    | none => exact Nat.le_add_right _ _
    | some w' =>
      rw [hend, Option.map_some, Option.getD_some] at hsame
      rw [Option.map_some, Option.getD_some, List.length_cons]
      obtain ⟨hgoes, hsuffix⟩ := altEnd_chain h9 hend
      have hmono := @sameNumbers_mono mem buf _ _ hsuffix
      rcases hgoes with hzero | ⟨h9', htype, -⟩
      · rw [alternatesFrom_short (by omega)]
        exact Nat.le_add_right _ _
      · have hrest := alternates_le fuel w' (Nat.not_lt.mpr h9') fun a ha => hsame a (List.mem_cons_of_mem _ ha)
        rcases fuel with _ | fuel
        · exact Nat.le_add_right _ _
        have hhead : SameNumber mem buf w'.1 := by
          refine ⟨htype, hsame w' (List.mem_cons_of_mem _ ?_)⟩
          rw [alternatesFrom_cons (Nat.not_lt.mpr h9')]
          exact List.mem_cons_self
        obtain ⟨rest, hchain⟩ := @chain_head mem w'.1 w'.2 (by omega)
        rw [hchain, List.map_cons, sameNumbers_cons, if_pos hhead] at hmono
        rw [hchain, List.tail_cons] at hrest
        omega

/-- The zeros behind the blob are no interface descriptor. -/
theorem sameNumbers_behind (hz : ZeroSlack mem L) {p : ℤ} (h : L ≤ p) : sameNumbers mem buf [p] = 0 := by
  have hno : ¬ SameNumber mem buf p := fun hsame => by
    have htype := hsame.1
    rw [hz (p + 1) (by omega)] at htype
    exact absurd htype (by decide)
  rw [sameNumbers_cons, if_neg hno]
  rfl

/-- With small lengths the hops are the chain. -/
theorem hops_chain (hz : ZeroSlack mem L) (hL : Left L buf n)
    (hsmall : ∀ w ∈ chain mem buf n, 0 < (mem w.1).toNat ∧ (mem w.1).toNat < 128) {len : ℤ} {l : List ℤ}
    (h : Hops mem buf n len l) (h0 : 0 ≤ len) (hsuffix : chain mem (buf + len) (n - len.toNat) <:+ chain mem buf n) :
    sameNumbers mem buf l = sameNumbers mem buf ((chain mem (buf + len) (n - len.toNat)).tail.map Prod.fst) := by
  induction h with
  | @out len hout =>
    rw [show n - len.toNat = 0 by omega]
    rfl
  | @hop len l hin hrest ih =>
    obtain ⟨hL0, hLn⟩ := hL
    have hleft : n - len.toNat ≠ 0 := by omega
    have hbyte : 0 < (mem (buf + len)).toNat ∧ (mem (buf + len)).toNat < 128 := by
      obtain ⟨rest, hchain⟩ := @chain_head mem (buf + len) _ hleft
      rw [hchain] at hsuffix
      exact hsmall (buf + len, n - len.toNat) (hsuffix.subset List.mem_cons_self)
    rw [CInt.schar_of_lt hbyte.2] at hrest ih ⊢
    by_cases hle : (mem (buf + len)).toNat ≤ n - len.toNat
    · have hnext : n - (len + (mem (buf + len)).toNat).toNat = n - len.toNat - (mem (buf + len)).toNat := by omega
      rw [hnext, ← add_assoc] at ih
      rw [chain_hop ⟨hbyte.1, hle⟩] at hsuffix ⊢
      have hih := ih (by omega) ((List.suffix_cons _ _).trans hsuffix)
      rw [List.tail_cons]
      by_cases hend : n - len.toNat - (mem (buf + len)).toNat = 0
      · rw [hend, chain_zero] at hih ⊢
        cases hrest with
        | out => exact sameNumbers_behind hz (by omega)
        | hop hin' => omega
      · obtain ⟨rest, hchain⟩ := @chain_head mem (buf + len + (mem (buf + len)).toNat) _ hend
        rw [hchain, List.tail_cons] at hih
        rw [hchain, List.map_cons, sameNumbers_cons, sameNumbers_cons, hih, add_assoc]
    · rw [chain_stop hleft fun h => hle h.2]
      cases hrest with
      | out => exact sameNumbers_behind hz (by omega)
      | hop hin' => omega

/-- It is enough that no length is zero or a negative plain char, that the alternate settings have the number of the
first one, and that fewer than 255 others have it. -/
theorem table_fits_of_same_number (hz : ZeroSlack mem L) (hL31 : L < 2 ^ 31) (hL : Left L buf n)
    (hsmall : ∀ w ∈ chain mem buf n, 0 < (mem w.1).toNat ∧ (mem w.1).toNat < 128)
    (hsame : ∀ a ∈ alternates mem buf n, mem (a.1 + 2) = mem (buf + 2))
    (hfew : sameNumbers mem buf ((chain mem buf n).tail.map Prod.fst) < 255) : TableFits mem buf n := by
  refine table_fits_of_le hz hL31 hL fun l hl => ?_
  have hhops := hops_chain hz hL hsmall hl le_rfl (by rw [add_zero]; exact List.suffix_rfl)
  rw [add_zero] at hhops
  change _ = sameNumbers mem buf ((chain mem buf n).tail.map Prod.fst) at hhops
  rw [hhops, Nat.mod_eq_of_lt (by omega)]
  unfold alternates at hsame ⊢
  by_cases htype : mem (buf + 1) = USB_DESC_TYPE_INTERFACE
  · rw [if_pos htype] at hsame ⊢
    by_cases h9 : n < 9
    · rw [alternatesFrom_short h9]
      exact Nat.zero_le _
    · exact alternates_le n (buf, n) h9 hsame
  · rw [if_neg htype]
    exact Nat.zero_le _

end

/-! ## The condition -/

/-- The entries fit into the table exactly when the alternate settings are no more than the first descriptor and those
with its number on the hops of the counting pass, modulo 256. -/
theorem table_fits_iff (mem : ℤ → UInt8) (buf : ℤ) (n L : ℕ) (hz : ZeroSlack mem L) (hL31 : L < 2 ^ 31)
    (hL : Left L buf n) :
    TableFits mem buf n ↔
      ∀ l, Hops mem buf n 0 l → (alternates mem buf n).length ≤ (1 + sameNumbers mem buf l) % 2 ^ 8 := by
  refine ⟨fun hfits l hl => ?_, table_fits_of_le hz hL31 hL⟩
  have hcount := (@intf_altno_hops ⟨mem, fun _ => true, fun _ => ⟨0, 0⟩⟩ buf n (hL.lt hL31) _).mpr ⟨l, hl, rfl⟩
  obtain ⟨r, hr, hle⟩ := hfits _ 0 _ rfl hcount
  rwa [(parse_interface_entries hz hL31 hL hr).2 fun _ => rfl] at hle

/-- Alternate settings 0 and 1 of interface 0. -/
def twoAltsBlob : List UInt8 := [9, 4, 0, 0, 0, 3, 1, 1, 0, 9, 4, 0, 1, 0, 3, 1, 1, 0]

theorem table_fits_two_alts : TableFits (blobMem twoAltsBlob) 0 18 := by
  have hz : ZeroSlack (blobMem twoAltsBlob) 18 := fun p hp => blobMem_of_le (show ((twoAltsBlob.length : ℕ) : ℤ) ≤ p from hp)
  have hL : Left 18 0 18 := ⟨le_rfl, rfl⟩
  have hsmall : ∀ w ∈ chain (blobMem twoAltsBlob) 0 18,
      0 < (blobMem twoAltsBlob w.1).toNat ∧ (blobMem twoAltsBlob w.1).toNat < 128 := by decide +kernel
  refine (table_fits_iff (blobMem twoAltsBlob) 0 18 18 hz (by decide) hL).mpr fun l hl => ?_
  have hcount : sameNumbers (blobMem twoAltsBlob) 0 l = 1 :=
    (hops_chain hz hL hsmall hl le_rfl List.suffix_rfl).trans (by decide +kernel)
  have htwo : (alternates (blobMem twoAltsBlob) 0 18).length = 2 := by decide +kernel
  rw [hcount, htwo]
  decide

/-- Alternate setting 0 of interface 0, followed by alternate setting 1 of interface 1. -/
def overrunBlob : List UInt8 := [9, 4, 0, 0, 0, 3, 1, 1, 0, 9, 4, 1, 1, 0, 3, 1, 1, 0]

/-- Two entries are written to a table of one. -/
theorem table_overrun : ¬ TableFits (blobMem overrunBlob) 0 18 := by
  intro h
  have hcount : (usbiGetIntfAltno (blobEnv overrunBlob) 0 18).Returns 1 := ⟨3, by decide +kernel⟩
  obtain ⟨r, hr, hle⟩ := h (blobEnv overrunBlob) 0 1 rfl hcount
  have hrun : ((usbiParseInterface (blobEnv overrunBlob) 0 {} 0 18).run 3).2.map (fun r => r.2.num_altsettings) = some 2 :=
    by decide +kernel
  obtain ⟨r', hr', htwo⟩ := Option.map_eq_some_iff.mp hrun
  rw [hr.unique ⟨3, hr'⟩, htwo] at hle
  exact absurd hle (by decide)

end OpenUsb
