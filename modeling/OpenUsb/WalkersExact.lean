import OpenUsb.NullBuffer

/-!
# WalkersExact — what the flat walkers accept

The chain of a buffer leads from its beginning by jumps of `bLength`, until a length is zero or exceeds the bytes that are
left.  On the chain the two walkers look for the first interface descriptor with a number and an alternate value; the
endpoint walker looks on from there, up to the next interface descriptor, for the endpoint descriptor with an index.

* `walkers_exact`: the walkers return, read inside of the buffer only, and find what is on the chain.
-/

namespace OpenUsb

open Prog

section

variable (mem : ℤ → UInt8)

/-- The chain from `sp` with `n` bytes left, for at most `fuel` jumps: the addresses, and the bytes left at each. -/
def chainFrom : ℕ → ℤ → ℕ → List (ℤ × ℕ)
  | 0, _, _ => []
  | fuel + 1, sp, n =>
    if n = 0 then []
    else (sp, n) :: if 0 < (mem sp).toNat ∧ (mem sp).toNat ≤ n then
      chainFrom fuel (sp + (mem sp).toNat) (n - (mem sp).toNat) else []

/-- The chain of a buffer. -/
def chain (buf : ℤ) (n : ℕ) : List (ℤ × ℕ) := chainFrom mem n buf n

/-- A descriptor of type `t` is there. -/
def isType (t : UInt8) (w : ℤ × ℕ) : Bool := decide (2 ≤ w.2 ∧ mem (w.1 + 1) = t)

/-- An interface descriptor with this number and alternate value is there. -/
def isAlt (ifcidx alt : UInt8) (w : ℤ × ℕ) : Bool :=
  decide (4 ≤ w.2 ∧ mem (w.1 + 1) = USB_DESC_TYPE_INTERFACE ∧ mem (w.1 + 2) = ifcidx ∧ mem (w.1 + 3) = alt)

/-- The first interface descriptor on the chain with this number and alternate value. -/
def altFound (ifcidx alt : UInt8) (buf : ℤ) (n : ℕ) : Option (ℤ × ℕ) := (chain mem buf n).find? (isAlt mem ifcidx alt)

/-- It must have its nine bytes. -/
def interfaceFound (ifcidx alt : UInt8) (buf : ℤ) (n : ℕ) : Option ℤ :=
  (altFound mem ifcidx alt buf n).bind fun w => if 9 ≤ w.2 then some w.1 else none

/-- The endpoint descriptors on a chain up to the next interface descriptor. -/
def endpointsOf (l : List (ℤ × ℕ)) : List (ℤ × ℕ) :=
  (l.takeWhile fun w => !isType mem USB_DESC_TYPE_INTERFACE w).filter (isType mem USB_DESC_TYPE_ENDPOINT)

/-- The endpoint descriptor with index `eptidx` behind that interface descriptor; it must have its seven bytes. -/
def endpointFound (ifcidx alt eptidx : UInt8) (buf : ℤ) (n : ℕ) : Option ℤ :=
  (altFound mem ifcidx alt buf n).bind fun w =>
    if 4 < w.2 ∧ eptidx < mem (w.1 + 4) then
      (endpointsOf mem (chain mem w.1 w.2).tail)[eptidx.toNat]?.bind fun e => if 7 ≤ e.2 then some e.1 else none
    else none

end

/-- The event stays inside of a buffer: a read, or a subtraction from a counter that holds enough. -/
def Within (buf : ℤ) (n : ℕ) : Ev → Prop
  | .read off => buf ≤ off ∧ off < buf + n
  | .take before amount => amount ≤ before
  | _ => True

/-- The call succeeds with the descriptor that is to be found, or fails when there is none. -/
def Answers {D : Type} (decode : ℤ → D) (found : Option ℤ) (r : ℤ × D) : Prop :=
  match found with
  | some sp => r = (OPENUSB_SUCCESS, decode sp)
  | none => r.1 < 0

/-- The call returns, stays inside of its buffer, and answers with the descriptor that is to be found. -/
def Exact {D : Type} (buf : ℤ) (n : ℕ) (decode : ℤ → D) (found : Option ℤ) (p : Prog Ev (ℤ × D)) : Prop :=
  p.Halts ∧ Emits (Within buf n) p ∧ ∀ r, p.Returns r → Answers decode found r

/-! ## The chain -/

section

variable {mem : ℤ → UInt8} {sp : ℤ} {n : ℕ} {ifcidx alt : UInt8}

theorem chainFrom_fuel : ∀ (fuel fuel' : ℕ) (sp : ℤ) (n : ℕ), n ≤ fuel → n ≤ fuel' →
    chainFrom mem fuel sp n = chainFrom mem fuel' sp n
  | 0, 0, _, _, _, _ => rfl
  | 0, fuel' + 1, sp, n, h, _ => by
    rw [chainFrom, chainFrom, if_pos (Nat.le_zero.mp h)]
  | fuel + 1, 0, sp, n, _, h => by
    rw [chainFrom, chainFrom, if_pos (Nat.le_zero.mp h)]
  | fuel + 1, fuel' + 1, sp, n, h, h' => by
    rw [chainFrom, chainFrom]
    by_cases hpos : 0 < (mem sp).toNat
    · rw [chainFrom_fuel fuel fuel' (sp + (mem sp).toNat) (n - (mem sp).toNat) (by omega) (by omega)]
    · simp only [hpos, false_and, if_false]

theorem chain_zero : chain mem sp 0 = [] := rfl

theorem chain_hop (h : 0 < (mem sp).toNat ∧ (mem sp).toNat ≤ n) :
    chain mem sp n = (sp, n) :: chain mem (sp + (mem sp).toNat) (n - (mem sp).toNat) := by
  obtain ⟨m, rfl⟩ := Nat.exists_eq_succ_of_ne_zero (show n ≠ 0 by omega)
  unfold chain
  rw [chainFrom, if_neg (Nat.succ_ne_zero m), if_pos h, chainFrom_fuel m _ _ _ (by omega) le_rfl]

theorem chain_stop (hn : n ≠ 0) (h : ¬ (0 < (mem sp).toNat ∧ (mem sp).toNat ≤ n)) : chain mem sp n = [(sp, n)] := by
  obtain ⟨m, rfl⟩ := Nat.exists_eq_succ_of_ne_zero hn
  unfold chain
  rw [chainFrom, if_neg (Nat.succ_ne_zero m), if_neg h]

/-- What is on the chain lies in the buffer. -/
theorem mem_chainFrom {w : ℤ × ℕ} : ∀ (fuel : ℕ) (sp : ℤ) (n : ℕ), w ∈ chainFrom mem fuel sp n →
    w.2 ≤ n ∧ w.1 + w.2 = sp + n
  | 0, _, _, h => absurd h List.not_mem_nil
  | fuel + 1, sp, n, h => by
    rw [chainFrom] at h
    split_ifs at h with hn hhop
    · exact absurd h List.not_mem_nil
    · rcases List.mem_cons.mp h with rfl | h
      · exact ⟨le_rfl, rfl⟩
      · obtain ⟨hle, htotal⟩ := mem_chainFrom fuel _ _ h
        exact ⟨by omega, by omega⟩
    · rw [List.mem_singleton] at h
      subst h
      exact ⟨le_rfl, rfl⟩

theorem mem_chain {w : ℤ × ℕ} (h : w ∈ chain mem sp n) : w.2 ≤ n ∧ w.1 + w.2 = sp + n := mem_chainFrom n sp n h

/-! ## The first interface descriptor -/

theorem isAlt_iff {w : ℤ × ℕ} : isAlt mem ifcidx alt w = true ↔ 4 ≤ w.2 ∧ AlternateAt mem ifcidx alt w.1 := by
  unfold isAlt AlternateAt
  rw [decide_eq_true_eq]

theorem altFound_le {w : ℤ × ℕ} (h : altFound mem ifcidx alt sp n = some w) : w.2 ≤ n ∧ 4 ≤ w.2 :=
  ⟨(mem_chain (List.mem_of_find?_eq_some h)).1, (isAlt_iff.mp (List.find?_some h)).1⟩

theorem altFound_short (h : n < 4) : altFound mem ifcidx alt sp n = none := by
  cases hfound : altFound mem ifcidx alt sp n with
  | none => rfl
  | some w =>
    obtain ⟨hle, h4⟩ := altFound_le hfound
    omega

theorem altFound_here (h4 : 4 ≤ n) (halt : AlternateAt mem ifcidx alt sp) : altFound mem ifcidx alt sp n = some (sp, n) := by
  have hhead : isAlt mem ifcidx alt (sp, n) = true := isAlt_iff.mpr ⟨h4, halt⟩
  unfold altFound
  by_cases hhop : 0 < (mem sp).toNat ∧ (mem sp).toNat ≤ n
  · rw [chain_hop hhop, List.find?_cons_of_pos hhead]
  · rw [chain_stop (by omega) hhop, List.find?_cons_of_pos hhead]

theorem altFound_hop (halt : ¬ AlternateAt mem ifcidx alt sp) (hhop : 0 < (mem sp).toNat ∧ (mem sp).toNat ≤ n) :
    altFound mem ifcidx alt sp n = altFound mem ifcidx alt (sp + (mem sp).toNat) (n - (mem sp).toNat) := by
  have hhead : ¬ isAlt mem ifcidx alt (sp, n) = true := fun h => halt (isAlt_iff.mp h).2
  unfold altFound
  rw [chain_hop hhop, List.find?_cons_of_neg hhead]

theorem altFound_stop (hn : n ≠ 0) (halt : ¬ AlternateAt mem ifcidx alt sp)
    (hhop : ¬ (0 < (mem sp).toNat ∧ (mem sp).toNat ≤ n)) : altFound mem ifcidx alt sp n = none := by
  have hhead : ¬ isAlt mem ifcidx alt (sp, n) = true := fun h => halt (isAlt_iff.mp h).2
  unfold altFound
  rw [chain_stop hn hhop, List.find?_cons_of_neg hhead, List.find?_nil]

/-! ## The endpoint descriptors behind it -/

theorem isType_iff {t : UInt8} {w : ℤ × ℕ} : isType mem t w = true ↔ 2 ≤ w.2 ∧ mem (w.1 + 1) = t := by
  unfold isType
  rw [decide_eq_true_eq]

theorem endpointsOf_cons (w : ℤ × ℕ) (l : List (ℤ × ℕ)) : endpointsOf mem (w :: l) =
    if isType mem USB_DESC_TYPE_INTERFACE w = true then []
    else if isType mem USB_DESC_TYPE_ENDPOINT w = true then w :: endpointsOf mem l else endpointsOf mem l := by
  unfold endpointsOf
  by_cases hstop : isType mem USB_DESC_TYPE_INTERFACE w = true
  · rw [List.takeWhile_cons_of_neg (by simp [hstop]), if_pos hstop, List.filter_nil]
  · rw [List.takeWhile_cons_of_pos (by simp [hstop]), if_neg hstop, List.filter_cons]

theorem endpointsOf_nil : endpointsOf mem [] = [] := rfl

theorem chain_head (hn : n ≠ 0) : ∃ rest, chain mem sp n = (sp, n) :: rest := by
  by_cases hhop : 0 < (mem sp).toNat ∧ (mem sp).toNat ≤ n
  · exact ⟨_, chain_hop hhop⟩
  · exact ⟨_, chain_stop hn hhop⟩

/-- What the descriptor at the head of a chain contributes. -/
theorem endpointsOf_chain {rest : List (ℤ × ℕ)} (h2 : 2 ≤ n) (hchain : chain mem sp n = (sp, n) :: rest) :
    endpointsOf mem (chain mem sp n) =
      if mem (sp + 1) = USB_DESC_TYPE_INTERFACE then []
      else if mem (sp + 1) = USB_DESC_TYPE_ENDPOINT then (sp, n) :: endpointsOf mem rest else endpointsOf mem rest := by
  have htype (t : UInt8) : isType mem t (sp, n) = true ↔ mem (sp + 1) = t := isType_iff.trans (and_iff_right h2)
  rw [hchain, endpointsOf_cons]
  simp only [htype]

/-- One byte is no descriptor. -/
theorem endpointsOf_short (h : n < 2) : endpointsOf mem (chain mem sp n) = [] := by
  refine List.filter_eq_nil_iff.mpr fun w hw htype => ?_
  have hle := (mem_chain ((List.takeWhile_sublist _).subset hw)).1
  have h2 := (isType_iff.mp htype).1
  omega

end

/-! ## The parts of the walkers -/

section

variable {env : Env} {buf sp : ℤ} {n k : ℕ}

theorem rd_within (hlo : buf ≤ sp) (hhi : sp < buf + n) : Emits (Within buf n) (rd env sp) := by
  simp only [rd, emits_emit_bind, emits_pure, and_true]
  exact ⟨hlo, hhi⟩

theorem isAlternate_within {ifcidx alt : UInt8} (hlo : buf ≤ sp) (hhi : sp + 3 < buf + n) :
    Emits (Within buf n) (isAlternate env ifcidx alt sp) := by
  rw [isAlternate, emits_bind]
  refine ⟨rd_within (by omega) (by omega), fun t _ => ?_⟩
  split_ifs
  · exact emits_pure
  · rw [emits_bind]
    refine ⟨rd_within (by omega) (by omega), fun m _ => ?_⟩
    split_ifs
    · exact emits_pure
    · rw [emits_bind]
      exact ⟨rd_within (by omega) (by omega), fun _ _ => emits_pure⟩

theorem parseChecked_within {D : Type} {store : D → DataStore → D} {fmt : List Char} {m size : ℕ} {d : D}
    (hdot : '.' ∉ fmt) (hlo : buf ≤ sp) (hhi : sp + k ≤ buf + n) :
    Emits (Within buf n) (parseChecked env store fmt m size sp k d) := by
  rw [parseChecked, emits_bind]
  refine ⟨emits_emitAll.mpr fun e he => ?_, fun _ _ => emits_pure⟩
  obtain ⟨q, hq, rfl⟩ := List.mem_map.mp he
  obtain ⟨h1, h2⟩ := openusbParseData_reads hdot hq
  exact ⟨by omega, by omega⟩

/-- The end of a round: the jump along the chain. -/
theorem walkStep_ends {α : Type} {Q : Round Walk α → Prop → Prop} {w : Walk} {fail : α} (hlo : buf ≤ w.sp)
    (htotal : w.sp + w.tmplen = buf + n) (hpos : 0 < w.tmplen) (hlt : w.tmplen < 2 ^ 16)
    (hagain : 0 < (env.mem w.sp).toNat ∧ (env.mem w.sp).toNat ≤ w.tmplen →
      Q (.again { sp := w.sp + (env.mem w.sp).toNat, tmplen := w.tmplen - (env.mem w.sp).toNat }) True)
    (hleave : ¬ (0 < (env.mem w.sp).toNat ∧ (env.mem w.sp).toNat ≤ w.tmplen) → Q (.leave fail) True) :
    Ends (Within buf n) Q (walkStep env w fail) := by
  rw [walkStep]
  refine (returns_rd.mpr rfl).ends_bind (rd_within hlo (by omega)) ?_
  by_cases hhop : 0 < (env.mem w.sp).toNat ∧ (env.mem w.sp).toNat ≤ w.tmplen
  · rw [if_pos hhop]
    refine ends_emit_bind_of (Int.ofNat_le.mpr hhop.2) (ends_pure ?_)
    rw [CInt.sub_of_le hlt hhop.2]
    exact hagain hhop
  · rw [if_neg hhop]
    exact ends_pure (hleave hhop)

/-- Where a walk is: inside of the buffer, with the same descriptor to be found as at the beginning. -/
structure OnChain (found : ℤ → ℕ → Option ℤ) (buf : ℤ) (n : ℕ) (w : Walk) : Prop where
  lo : buf ≤ w.sp
  total : w.sp + w.tmplen = buf + n
  small : w.tmplen < 2 ^ 16
  found : found w.sp w.tmplen = found buf n

/-- What a round of a walk must come to. -/
def RoundExact {D : Type} (found : ℤ → ℕ → Option ℤ) (buf : ℤ) (n : ℕ) (decode : ℤ → D) (w : Walk) :
    Round Walk (ℤ × D) → Prop → Prop
  | .again w', x => x ∧ OnChain found buf n w' ∧ w'.tmplen < w.tmplen
  | .leave r, x => x ∧ Answers decode (found buf n) r

/-- The step over a descriptor that is not looked for. -/
theorem walkStep_exact {D : Type} {found : ℤ → ℕ → Option ℤ} {decode : ℤ → D} {w : Walk} {fail : ℤ × D}
    (h : OnChain found buf n w) (hpos : 0 < w.tmplen) (hfail : fail.1 < 0)
    (hhop : 0 < (env.mem w.sp).toNat ∧ (env.mem w.sp).toNat ≤ w.tmplen →
      found w.sp w.tmplen = found (w.sp + (env.mem w.sp).toNat) (w.tmplen - (env.mem w.sp).toNat))
    (hstop : ¬ (0 < (env.mem w.sp).toNat ∧ (env.mem w.sp).toNat ≤ w.tmplen) → found w.sp w.tmplen = none) :
    Ends (Within buf n) (RoundExact found buf n decode w) (walkStep env w fail) := by
  obtain ⟨hlo, htotal, hlt, hfound⟩ := h
  refine walkStep_ends hlo htotal hpos hlt (fun hle => ⟨trivial, ⟨?_, ?_, ?_, ?_⟩, ?_⟩) fun hle => ⟨trivial, ?_⟩
  · dsimp only
    omega
  · dsimp only
    omega
  · dsimp only
    omega
  · rw [← hfound, hhop hle]
  · dsimp only
    omega
  · rw [← hfound, hstop hle]
    exact hfail

/-- The decoding of the descriptor that was found. -/
theorem checked_ends {D : Type} {store : D → DataStore → D} {fmt : List Char} {m size left : ℕ} {d : D} (decode : ℤ → D)
    (hdot : '.' ∉ fmt) (hsize : fmtSize fmt = size)
    (hchecked : size ≤ left → (parseChecked env store fmt m size sp left d).Returns (OPENUSB_SUCCESS, decode sp))
    (hlo : buf ≤ sp) (hhi : sp + left ≤ buf + n) :
    Ends (Within buf n) (fun r x => x ∧ Answers decode (if size ≤ left then some sp else none) r)
      (parseChecked env store fmt m size sp left d) := by
  have hwithin : Emits (Within buf n) (parseChecked env store fmt m size sp left d) := parseChecked_within hdot hlo hhi
  by_cases hle : size ≤ left
  · refine ⟨_, hchecked hle, hwithin, ?_⟩
    rw [if_pos hle]
    rfl
  · obtain ⟨r, hr⟩ : ∃ r, (parseChecked env store fmt m size sp left d).Returns r := ⟨_, returns_parseChecked.mpr rfl⟩
    refine ⟨r, hr, hwithin, ?_⟩
    rw [if_neg hle]
    exact parseChecked_short hdot (hsize ▸ Nat.lt_of_not_le hle) hr

/-- A walk whose rounds are right is exact. -/
theorem loop_exact {D : Type} {found : ℤ → ℕ → Option ℤ} {decode : ℤ → D} {body : Walk → Prog Ev (Round Walk (ℤ × D))}
    (hn : n < 2 ^ 16)
    (hbody : ∀ w, OnChain found buf n w → Ends (Within buf n) (RoundExact found buf n decode w) (body w)) :
    Exact buf n decode (found buf n) (loop body { sp := buf, tmplen := n }) := by
  have hends : Ends (Within buf n) (fun r x => x ∧ Answers decode (found buf n) r) (loop body { sp := buf, tmplen := n }) :=
    ends_loop Walk.tmplen (I := OnChain found buf n)
      (fun w hw => (hbody w hw).mono fun r x h => by
        cases r with
        | again w' => exact h
        | leave r => exact h)
      ⟨le_rfl, rfl, hn, rfl⟩
  obtain ⟨r, hr, hwithin, hanswers⟩ := hends
  refine ⟨⟨r, hr⟩, hwithin, fun r' hr' => ?_⟩
  rw [← hr.unique hr']
  exact hanswers

end

/-! ## The interface walker -/

section

variable {env : Env} {buf : ℤ} {n : ℕ} {ifcidx alt : UInt8}

theorem interfaceWalk_exact (d : UsbInterfaceDesc) {w : Walk}
    (h : OnChain (interfaceFound env.mem ifcidx alt) buf n w) :
    Ends (Within buf n) (RoundExact (interfaceFound env.mem ifcidx alt) buf n (interfaceAt env.mem) w)
      (interfaceWalk env ifcidx alt d w) := by
  have hlo := h.lo
  have htotal := h.total
  unfold interfaceWalk
  by_cases h3 : w.tmplen > 3
  · rw [if_pos h3]
    refine (returns_isAlternate.mpr rfl).ends_bind (isAlternate_within hlo (by omega)) ?_
    by_cases halt : AlternateAt env.mem ifcidx alt w.sp
    · rw [if_pos (by rw [decide_eq_true_eq]; exact halt)]
      have hhere : interfaceFound env.mem ifcidx alt w.sp w.tmplen = if 9 ≤ w.tmplen then some w.sp else none := by
        unfold interfaceFound
        rw [altFound_here h3 halt, Option.bind_some]
      refine (checked_ends (interfaceAt env.mem) (by decide) (by decide)
        (fun h9 => (returns_checkedInterface h9).mpr rfl) hlo htotal.le).bind fun r x hr => ends_pure ⟨⟨hr.1, trivial⟩, ?_⟩
      rw [← h.found, hhere]
      exact hr.2
    · rw [if_neg (by rw [decide_eq_true_eq]; exact halt)]
      refine walkStep_exact h (by omega) parse_error_neg (fun hhop => ?_) fun hhop => ?_
      · unfold interfaceFound
        rw [altFound_hop halt hhop]
      · unfold interfaceFound
        rw [altFound_stop (by omega) halt hhop, Option.bind_none]
  · rw [if_neg h3]
    refine ends_pure ⟨trivial, ?_⟩
    rw [← h.found]
    unfold interfaceFound
    rw [altFound_short (by omega)]
    exact parse_error_neg

end

/-! ## The endpoint walker -/

section

variable {env : Env} {buf buffer : ℤ} {n k buflen : ℕ}

theorem nthRound_within {type stop : UInt8} {w : Nth} (hlo : buf ≤ w.sp) (hhi : w.sp + w.buflen ≤ buf + n) :
    Emits (Within buf n) (nthRound env buffer type stop w) := by
  rw [nthRound]
  by_cases h2 : w.buflen ≥ 2
  · rw [if_pos h2, emits_bind]
    refine ⟨rd_within (by omega) (by omega), fun t _ => ?_⟩
    by_cases hstop : w.sp ≠ buffer ∧ t = stop
    · rw [if_pos hstop]
      exact emits_pure
    rw [if_neg hstop]
    by_cases hfound : t = type ∧ w.n = 0
    · rw [if_pos hfound]
      exact emits_pure
    rw [if_neg hfound, emits_bind]
    refine ⟨rd_within hlo (by omega), fun b _ => ?_⟩
    by_cases hfit : b.toNat = 0 ∨ w.buflen < b.toNat
    · rw [if_pos hfit]
      exact emits_pure
    · rw [if_neg hfit, emits_emit_bind]
      refine ⟨?_, emits_pure⟩
      show ((b.toNat : ℕ) : ℤ) ≤ (w.buflen : ℕ)
      omega
  · rw [if_neg h2]
    exact emits_pure

/-- Where `usbi_nth_desc` is: at the interface descriptor, or behind it with the same descriptor to be found. -/
structure OnEndpoints (mem : ℤ → UInt8) (buffer : ℤ) (buflen k : ℕ) (w : Nth) : Prop where
  lo : buffer ≤ w.sp
  total : w.sp + w.buflen = buffer + buflen
  small : w.buflen < 2 ^ 16
  place : w.sp = buffer ∧ w.buflen = buflen ∧ w.n = k ∨ buffer < w.sp ∧
    (endpointsOf mem (chain mem w.sp w.buflen))[w.n]? = (endpointsOf mem (chain mem buffer buflen).tail)[k]?

/-- What a round of `usbi_nth_desc` must come to. -/
def NthExact (mem : ℤ → UInt8) (buffer : ℤ) (buflen k : ℕ) (w : Nth) : Round Nth (Option ℤ) → Prop
  | .again w' => OnEndpoints mem buffer buflen k w' ∧ w'.buflen < w.buflen
  | .leave r => r = (endpointsOf mem (chain mem buffer buflen).tail)[k]?.map Prod.fst

/-- The first round leaves the interface descriptor itself. -/
theorem nth_first {type : UInt8} (hlt : buflen < 2 ^ 16) (h2 : 2 ≤ buflen) (htype : env.mem (buffer + 1) ≠ type)
    {r : Round Nth (Option ℤ)} {stop : UInt8}
    (hr : (nthRound env buffer type stop { sp := buffer, buflen := buflen, n := k }).Returns r) :
    NthExact env.mem buffer buflen k { sp := buffer, buflen := buflen, n := k } r := by
  rw [returns_nthRound] at hr
  dsimp only at hr
  rw [if_neg (by simp; omega), if_neg (fun h => htype h.1)] at hr
  by_cases hhop : 0 < (env.mem buffer).toNat ∧ (env.mem buffer).toNat ≤ buflen
  · rw [if_neg (by omega), if_neg htype] at hr
    subst hr
    have hsub := CInt.sub_of_le hlt hhop.2
    refine ⟨⟨by dsimp only; omega, by dsimp only; omega, by dsimp only; omega, Or.inr ⟨by dsimp only; omega, ?_⟩⟩,
      by dsimp only; omega⟩
    dsimp only
    rw [hsub, chain_hop hhop, List.tail_cons]
  · rw [if_pos (by omega)] at hr
    subst hr
    rw [NthExact, chain_stop (by omega) hhop, List.tail_cons, endpointsOf_nil, List.getElem?_nil, Option.map_none]

/-- A later round looks at the next descriptor of the chain. -/
theorem nth_next {w : Nth} (hlt : w.buflen < 2 ^ 16) (hlo : buffer < w.sp) (htotal : w.sp + w.buflen = buffer + buflen)
    (hplace : (endpointsOf env.mem (chain env.mem w.sp w.buflen))[w.n]? =
      (endpointsOf env.mem (chain env.mem buffer buflen).tail)[k]?) {r : Round Nth (Option ℤ)}
    (hr : (nthRound env buffer USB_DESC_TYPE_ENDPOINT USB_DESC_TYPE_INTERFACE w).Returns r) :
    NthExact env.mem buffer buflen k w r := by
  rw [returns_nthRound] at hr
  by_cases h2 : w.buflen < 2
  · rw [if_pos (Or.inl h2)] at hr
    subst hr
    rw [NthExact, ← hplace, endpointsOf_short h2, List.getElem?_nil, Option.map_none]
  obtain ⟨rest, hchain⟩ := @chain_head env.mem w.sp w.buflen (by omega)
  have hhead := endpointsOf_chain (Nat.le_of_not_lt h2) hchain
  by_cases hstop : env.mem (w.sp + 1) = USB_DESC_TYPE_INTERFACE
  · rw [if_pos (Or.inr ⟨by omega, hstop⟩)] at hr
    subst hr
    rw [NthExact, ← hplace, hhead, if_pos hstop, List.getElem?_nil, Option.map_none]
  rw [if_neg (not_or.mpr ⟨h2, fun h => hstop h.2⟩)] at hr
  rw [if_neg hstop] at hhead
  by_cases hfound : env.mem (w.sp + 1) = USB_DESC_TYPE_ENDPOINT ∧ w.n = 0
  · rw [if_pos hfound] at hr
    subst hr
    rw [NthExact, ← hplace, hhead, if_pos hfound.1, hfound.2, List.getElem?_cons_zero, Option.map_some]
  rw [if_neg hfound] at hr
  by_cases hhop : 0 < (env.mem w.sp).toNat ∧ (env.mem w.sp).toNat ≤ w.buflen
  · rw [if_neg (by omega)] at hr
    subst hr
    have hsub := CInt.sub_of_le hlt hhop.2
    have hrest : rest = chain env.mem (w.sp + (env.mem w.sp).toNat) (w.buflen - (env.mem w.sp).toNat) :=
      (List.cons.inj (hchain.symm.trans (chain_hop hhop))).2
    refine ⟨⟨by dsimp only; omega, by dsimp only; omega, by dsimp only; omega, Or.inr ⟨by dsimp only; omega, ?_⟩⟩,
      by dsimp only; omega⟩
    dsimp only
    rw [hsub, ← hrest, ← hplace, hhead]
    by_cases htype : env.mem (w.sp + 1) = USB_DESC_TYPE_ENDPOINT
    · rw [if_pos htype, if_pos htype]
      obtain ⟨m, hm⟩ := Nat.exists_eq_succ_of_ne_zero fun h => hfound ⟨htype, h⟩
      rw [hm, List.getElem?_cons_succ]
      rfl
    · rw [if_neg htype, if_neg htype]
  · -- the endpoint that is looked for is not the last descriptor of the chain
    rw [if_pos (by omega)] at hr
    subst hr
    have hrest : rest = [] := (List.cons.inj (hchain.symm.trans (chain_stop (by omega) hhop))).2
    rw [NthExact, ← hplace, hhead, hrest, endpointsOf_nil]
    by_cases htype : env.mem (w.sp + 1) = USB_DESC_TYPE_ENDPOINT
    · obtain ⟨m, hm⟩ := Nat.exists_eq_succ_of_ne_zero fun h => hfound ⟨htype, h⟩
      rw [if_pos htype, hm, List.getElem?_cons_succ, List.getElem?_nil, Option.map_none]
    · rw [if_neg htype, List.getElem?_nil, Option.map_none]

/-- `usbi_nth_desc` finds the endpoint descriptor with that index behind an interface descriptor. -/
theorem nth_exact (hlo : buf ≤ buffer) (hhi : buffer + buflen ≤ buf + n) (hlt : buflen < 2 ^ 16) (h2 : 2 ≤ buflen)
    (htype : env.mem (buffer + 1) = USB_DESC_TYPE_INTERFACE) (idx : UInt8) :
    Ends (Within buf n) (fun r x => x ∧
      r = (endpointsOf env.mem (chain env.mem buffer buflen).tail)[idx.toNat]?.map Prod.fst)
      (usbiNthDesc env buffer buflen USB_DESC_TYPE_ENDPOINT idx USB_DESC_TYPE_INTERFACE) := by
  refine ends_loop (I := OnEndpoints env.mem buffer buflen idx.toNat) Nth.buflen ?_
    ⟨le_rfl, rfl, hlt, Or.inl ⟨rfl, rfl, rfl⟩⟩
  intro w hw
  obtain ⟨hlow, htotal, hsmall, hplace⟩ := hw
  have hwithin : Emits (Within buf n) (nthRound env buffer USB_DESC_TYPE_ENDPOINT USB_DESC_TYPE_INTERFACE w) :=
    nthRound_within (by omega) (by omega)
  obtain ⟨r, hr⟩ : ∃ r, (nthRound env buffer USB_DESC_TYPE_ENDPOINT USB_DESC_TYPE_INTERFACE w).Returns r :=
    ⟨_, returns_nthRound.mpr rfl⟩
  have hexact : NthExact env.mem buffer buflen idx.toNat w r := by
    rcases hplace with ⟨hsp, hleft, hn⟩ | ⟨hbehind, hplace⟩
    · obtain ⟨sp, left, m⟩ := w
      obtain ⟨rfl, rfl, rfl⟩ : sp = buffer ∧ left = buflen ∧ m = idx.toNat := ⟨hsp, hleft, hn⟩
      exact nth_first hlt h2 (by rw [htype]; decide) hr
    · exact nth_next hsmall hbehind htotal hplace hr
  refine ⟨r, hr, ?_⟩
  cases r with
  | again w' => exact ⟨hwithin, hexact⟩
  | leave r => exact ⟨hwithin, hexact⟩

variable {ifcidx alt eptidx : UInt8}

/-- Four bytes hold no number of endpoints. -/
theorem endpointFound_short {sp : ℤ} (h : n ≤ 4) : endpointFound env.mem ifcidx alt eptidx sp n = none := by
  unfold endpointFound
  cases hfound : altFound env.mem ifcidx alt sp n with
  | none => rfl
  | some w =>
    obtain ⟨hle, -⟩ := altFound_le hfound
    rw [Option.bind_some, if_neg (by omega)]

/-- The round that has found the alternate setting. -/
theorem endpointWalk_here (d : UsbEndpointDesc) {w : Walk} (hlo : buf ≤ w.sp) (htotal : w.sp + w.tmplen = buf + n)
    (hlt : w.tmplen < 2 ^ 16) (h4 : 4 < w.tmplen) (halt : AlternateAt env.mem ifcidx alt w.sp) :
    Ends (Within buf n) (fun r x => ∃ a, r = .leave a ∧ x ∧
        Answers (fun p => endpointOver env.mem p d) (endpointFound env.mem ifcidx alt eptidx w.sp w.tmplen) a)
      (endpointWalk env OPENUSB_PARSE_ERROR ifcidx alt eptidx d w) := by
  have hfound : endpointFound env.mem ifcidx alt eptidx w.sp w.tmplen =
      if 4 < w.tmplen ∧ eptidx < env.mem (w.sp + 4) then
        (endpointsOf env.mem (chain env.mem w.sp w.tmplen).tail)[eptidx.toNat]?.bind fun e =>
          if 7 ≤ e.2 then some e.1 else none
      else none := by
    unfold endpointFound
    rw [altFound_here (by omega) halt, Option.bind_some]
  rw [endpointWalk, if_pos h4]
  refine (returns_isAlternate.mpr rfl).ends_bind (isAlternate_within hlo (by omega)) ?_
  rw [if_pos (by rw [decide_eq_true_eq]; exact halt)]
  refine (returns_rd.mpr rfl).ends_bind (rd_within (by omega) (by omega)) ?_
  by_cases hept : eptidx ≥ env.mem (w.sp + 4)
  · rw [if_pos hept]
    refine ends_pure ⟨_, rfl, trivial, ?_⟩
    rw [hfound, if_neg (fun h => absurd h.2 (UInt8.not_lt.mpr hept))]
    exact badarg_neg
  rw [if_neg hept]
  rw [if_pos ⟨h4, UInt8.not_le.mp hept⟩] at hfound
  refine (nth_exact hlo htotal.le hlt (by omega) halt.1 eptidx).bind fun sp x hx => ?_
  obtain ⟨hx, rfl⟩ := hx
  cases hnth : (endpointsOf env.mem (chain env.mem w.sp w.tmplen).tail)[eptidx.toNat]? with
  | none =>
    refine ends_pure ⟨_, rfl, ⟨hx, trivial⟩, ?_⟩
    rw [hfound, hnth]
    exact parse_error_neg
  | some e =>
    have hmem : e ∈ chain env.mem w.sp w.tmplen := by
      have hsub := List.mem_of_getElem? hnth
      exact List.mem_of_mem_tail ((List.takeWhile_sublist _).subset (List.mem_of_mem_filter hsub))
    obtain ⟨hle, hend⟩ := mem_chain hmem
    have hleft : CInt.sub 16 w.tmplen (e.1 - w.sp).toNat = e.2 := by
      rw [CInt.sub_of_le hlt (by omega)]
      omega
    rw [hnth, Option.bind_some] at hfound
    refine ends_emit_bind_of (show e.1 - w.sp ≤ (w.tmplen : ℤ) by omega) ?_
    rw [hleft]
    refine (checked_ends (fun p => endpointOver env.mem p d) (by decide) (by decide)
      (fun h7 => (returns_checkedEndpoint h7).mpr rfl) (by omega) (by omega)).bind fun r y hy =>
        ends_pure ⟨_, rfl, ⟨hx, hy.1, trivial⟩, ?_⟩
    rw [hfound]
    exact hy.2

theorem endpointWalk_exact (d : UsbEndpointDesc) {w : Walk}
    (h : OnChain (endpointFound env.mem ifcidx alt eptidx) buf n w) :
    Ends (Within buf n) (RoundExact (endpointFound env.mem ifcidx alt eptidx) buf n (fun p => endpointOver env.mem p d) w)
      (endpointWalk env OPENUSB_PARSE_ERROR ifcidx alt eptidx d w) := by
  obtain ⟨hlo, htotal, hlt, hfound⟩ := id h
  by_cases h4 : w.tmplen > 4
  · by_cases halt : AlternateAt env.mem ifcidx alt w.sp
    · refine (endpointWalk_here d hlo htotal hlt h4 halt).mono fun r x hr => ?_
      obtain ⟨a, rfl, hx, hanswers⟩ := hr
      rw [hfound] at hanswers
      exact ⟨hx, hanswers⟩
    · rw [endpointWalk, if_pos h4]
      refine (returns_isAlternate.mpr rfl).ends_bind (isAlternate_within hlo (by omega)) ?_
      rw [if_neg (by rw [decide_eq_true_eq]; exact halt)]
      refine walkStep_exact h (by omega) parse_error_neg (fun hhop => ?_) fun hhop => ?_
      · unfold endpointFound
        rw [altFound_hop halt hhop]
      · unfold endpointFound
        rw [altFound_stop (by omega) halt hhop, Option.bind_none]
  · rw [endpointWalk, if_neg h4]
    refine ends_pure ⟨trivial, ?_⟩
    rw [← hfound, endpointFound_short (by omega)]
    exact parse_error_neg

end

/-! ## The walkers -/

section

variable {env : Env} {buf : ℤ} {n : ℕ} (h9 : 9 ≤ n) (h16 : n < 2 ^ 16)

include h9 in
theorem walkBuffer_some (raw : ℤ × RawDesc) : walkBuffer true raw (some buf) n = .ok ⟨buf, n⟩ := by
  rw [walkBuffer, if_neg (by decide)]
  exact if_neg (Nat.not_lt.mpr h9)

include h9 h16

theorem parse_interface_desc_exact (raw : ℤ × RawDesc) (ifcidx alt : UInt8) (ifcdesc : UsbInterfaceDesc) :
    Exact buf n (interfaceAt env.mem) (interfaceFound env.mem ifcidx alt buf n)
      (openusbParseInterfaceDesc env true raw (some buf) n ifcidx alt ifcdesc) := by
  unfold openusbParseInterfaceDesc
  rw [walkBuffer_some h9]
  exact loop_exact h16 fun w hw => interfaceWalk_exact ifcdesc hw

theorem parse_endpoint_desc_exact (raw : ℤ × RawDesc) (ifcidx alt eptidx : UInt8) (eptdesc : UsbEndpointDesc) :
    Exact buf n (fun p => endpointOver env.mem p eptdesc) (endpointFound env.mem ifcidx alt eptidx buf n)
      (openusbParseEndpointDesc env true raw (some buf) n ifcidx alt eptidx eptdesc) := by
  unfold openusbParseEndpointDesc
  rw [walkBuffer_some h9]
  exact loop_exact h16 fun w hw => endpointWalk_exact eptdesc hw

end

/-- For a buffer of the caller the walkers return, read inside of it, and succeed with the descriptor that is found on its
chain, if there is one. -/
theorem walkers_exact (env : Env) (raw : ℤ × RawDesc) (buf : ℤ) (n : ℕ) (h9 : 9 ≤ n) (h16 : n < 2 ^ 16)
    (ifcidx alt eptidx : UInt8) (ifcdesc : UsbInterfaceDesc) (eptdesc : UsbEndpointDesc) :
    Exact buf n (interfaceAt env.mem) (interfaceFound env.mem ifcidx alt buf n)
        (openusbParseInterfaceDesc env true raw (some buf) n ifcidx alt ifcdesc) ∧
      Exact buf n (fun p => endpointOver env.mem p eptdesc) (endpointFound env.mem ifcidx alt eptidx buf n)
        (openusbParseEndpointDesc env true raw (some buf) n ifcidx alt eptidx eptdesc) :=
  ⟨parse_interface_desc_exact h9 h16 raw ifcidx alt ifcdesc, parse_endpoint_desc_exact h9 h16 raw ifcidx alt eptidx eptdesc⟩

/-- A keyboard: a class descriptor stands between the interface and its endpoint. -/
def keyboardBlob : List UInt8 :=
  [9, 2, 34, 0, 1, 1, 0, 0xa0, 50, 9, 4, 0, 0, 1, 3, 1, 1, 0, 9, 0x21, 0x11, 1, 0, 1, 0x22, 65, 0, 7, 5, 0x81, 3, 8, 0, 10]

/-- The walkers find the interface of the keyboard at 9 and its endpoint at 27. -/
theorem walkers_exact_keyboard :
    Exact 0 34 (interfaceAt (blobMem keyboardBlob)) (some 9)
        (openusbParseInterfaceDesc (blobEnv keyboardBlob) true (0, ⟨0, 0⟩) (some 0) 34 0 0 {}) ∧
      Exact 0 34 (fun p => endpointOver (blobMem keyboardBlob) p {}) (some 27)
        (openusbParseEndpointDesc (blobEnv keyboardBlob) true (0, ⟨0, 0⟩) (some 0) 34 0 0 0 {}) := by
  have hifc : interfaceFound (blobMem keyboardBlob) 0 0 0 34 = some 9 := by decide +kernel
  have hept : endpointFound (blobMem keyboardBlob) 0 0 0 0 34 = some 27 := by decide +kernel
  have hexact := walkers_exact (blobEnv keyboardBlob) (0, ⟨0, 0⟩) 0 34 (by decide) (by decide) 0 0 0 {} {}
  change Exact _ _ _ (interfaceFound (blobMem keyboardBlob) 0 0 0 34) _ ∧
    Exact _ _ _ (endpointFound (blobMem keyboardBlob) 0 0 0 0 34) _ at hexact
  rwa [hifc, hept] at hexact

end OpenUsb
