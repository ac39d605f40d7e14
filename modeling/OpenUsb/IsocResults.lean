import OpenUsb.IsocReaps

/-!
# IsocResults — the packet that a result belongs to

A packet of an isochronous request should have the result and the bytes of the frame that was built from it.

* `attributed_iff`: when each packet has the result and the bytes of its own frame.
* `reported_iff`: the same, with the packets of failed URBs.
-/

namespace OpenUsb

namespace IsocPacketBack

variable (p : IsocPacketBack)

/-- An entry shows the frame: its length, its error, or that there was none. -/
def Shows (old new : ℤ × ℕ) : Prop :=
  new.2 = p.actual_length ∧
    if p.status = 0 then new.1 = old.1 ∨ new.1 = OPENUSB_SUCCESS else new.1 = translateErrno (-p.status)

end IsocPacketBack

/-- The bytes that the successful URBs brought. -/
def transferred (us : List IsocUrbBack) : ℕ :=
  ((packetsOf us).map fun q => if q.1 = 0 then q.2.actual_length else 0).sum

namespace IsocReturn

variable (B : IsocReturn)

/-- When the request is completed each packet has the result and the bytes of its own frame; a packet of a failed URB has
what was there before. -/
def Attributed : Prop :=
  ∀ E : IsocEnv, (B.reaped E).io.completions ≠ [] → ∀ k status p, (packetsOf B.urbs)[k]? = some (status, p) →
    if status = 0 then
      p.Shows (E.isoc_results k) ((B.reaped E).isoc_results k) ∧
        (B.reaped E).payload k = p.bytes (E.data k) ++ (E.payload k).drop p.actual_length
    else (B.reaped E).isoc_results k = E.isoc_results k ∧ (B.reaped E).payload k = E.payload k

/-- The same, and each packet of a failed URB has the result of its own frame, too. -/
def Reported : Prop :=
  ∀ E : IsocEnv, (B.reaped E).io.completions ≠ [] → ∀ k status p, (packetsOf B.urbs)[k]? = some (status, p) →
    p.Shows (E.isoc_results k) ((B.reaped E).isoc_results k) ∧
      (B.reaped E).payload k = p.bytes (E.data k) ++ (E.payload k).drop p.actual_length

/-- The first packet's frame agrees with the result of the request. -/
def FirstAgrees (p : IsocPacketBack) : Prop :=
  p.actual_length = transferred B.urbs % 2 ^ 32 ∧
    if ∀ u ∈ B.urbs, u.status = 0 then p.status = 0
    else p.status ≠ 0 ∧ translateErrno (-p.status) = OPENUSB_SYS_FUNC_FAILURE

/-- Behind a packet of a failed URB there is none of a successful one, in a successful URB all frames in front of one with
data are full, and the first packet's frame agrees with the result of the request. -/
structure InStep : Prop where
  failed : (packetsOf B.urbs).Pairwise fun p q => p.1 ≠ 0 → q.1 ≠ 0
  short : ∀ u ∈ B.urbs, u.status = 0 → u.packets.Pairwise fun p q => p.actual_length = p.length ∨ q.actual_length = 0
  first : ∀ q ∈ (packetsOf B.urbs).head?, B.FirstAgrees q.2

end IsocReturn

/-- The packets of the successful URBs with their own bytes. -/
def own (data : ℕ → ℕ → UInt8) : ℕ → List (ℤ × IsocPacketBack) → List (IsocPacketBack × List UInt8)
  | _, [] => []
  | k, q :: qs => if q.1 = 0 then (q.2, q.2.bytes (data k)) :: own data (k + 1) qs else own data (k + 1) qs

/-! ## The entries and the packets they belong to -/

section

variable {data : ℕ → ℕ → UInt8} {k : ℕ}

/-- Frames without data take nothing. -/
theorem taken_empty {qs : List IsocPacketBack} (h : ∀ q ∈ qs, q.actual_length = 0) (b : List UInt8) (k : ℕ) :
    taken b qs = own data k (qs.map ((0 : ℤ), ·)) := by
  induction qs generalizing b k with
  | nil => rfl
  | cons q qs ih =>
    have hq := h q List.mem_cons_self
    have hrest := ih (fun r hr => h r (List.mem_cons_of_mem _ hr)) (b.drop q.actual_length) (k + 1)
    rw [taken, hrest, List.map_cons, own, if_pos rfl]
    simp [IsocPacketBack.bytes, hq]

/-- Where only full frames are in front of data, each frame is given its own bytes. -/
theorem taken_own {ps : List IsocPacketBack}
    (h : ps.Pairwise fun p q => p.actual_length = p.length ∨ q.actual_length = 0) (k : ℕ) :
    taken (urbMemory data k ps) ps = own data k (ps.map ((0 : ℤ), ·)) := by
  induction ps generalizing k with
  | nil => rfl
  | cons p ps ih =>
    obtain ⟨hp, hps⟩ := List.pairwise_cons.mp h
    have htake : ((List.range p.length).map (data k) ++ urbMemory data (k + 1) ps).take p.actual_length =
        p.bytes (data k) := by
      rw [List.take_append_of_le_length (by rw [List.length_map, List.length_range]; exact p.actual_le), ← List.map_take,
        List.take_range, Nat.min_eq_left p.actual_le]
      rfl
    rw [urbMemory, taken, htake, List.map_cons, own, if_pos rfl]
    congr 1
    by_cases hfull : p.actual_length = p.length
    · rw [List.drop_left' (by rw [List.length_map, List.length_range, hfull])]
      exact ih hps (k + 1)
    · exact taken_empty (fun q hq => (hp q hq).resolve_left hfull) _ _

theorem own_append (qs qs' : List (ℤ × IsocPacketBack)) (k : ℕ) :
    own data k (qs ++ qs') = own data k qs ++ own data (k + qs.length) qs' := by
  induction qs generalizing k with
  | nil => rfl
  | cons q qs ih =>
    have hrest := ih (k + 1)
    rw [List.cons_append, own, own, hrest, List.length_cons, Nat.add_assoc, Nat.add_comm 1]
    split_ifs <;> rfl

theorem own_failed {qs : List (ℤ × IsocPacketBack)} (h : ∀ q ∈ qs, q.1 ≠ 0) (k : ℕ) : own data k qs = [] := by
  induction qs generalizing k with
  | nil => rfl
  | cons q qs ih =>
    rw [own, if_neg (h q List.mem_cons_self)]
    exact ih (fun r hr => h r (List.mem_cons_of_mem _ hr)) (k + 1)

theorem own_length_le (qs : List (ℤ × IsocPacketBack)) (k : ℕ) : (own data k qs).length ≤ qs.length := by
  induction qs generalizing k with
  | nil => exact le_rfl
  | cons q qs ih =>
    have hrest := ih (k + 1)
    rw [own, List.length_cons]
    split_ifs
    · rw [List.length_cons]
      omega
    · omega

theorem own_length_lt {qs : List (ℤ × IsocPacketBack)} (h : ∃ q ∈ qs, q.1 ≠ 0) (k : ℕ) :
    (own data k qs).length < qs.length := by
  obtain ⟨q, hq, hfail⟩ := h
  obtain ⟨l, l', rfl⟩ := List.append_of_mem hq
  have hl := @own_length_le data l k
  have hl' := @own_length_le data l' (k + l.length + 1)
  rw [own_append, own, if_neg hfail, List.length_append, List.length_append, List.length_cons]
  omega

theorem own_length_pos {qs : List (ℤ × IsocPacketBack)} (h : ∃ q ∈ qs, q.1 = 0) (k : ℕ) :
    0 < (own data k qs).length := by
  obtain ⟨q, hq, hzero⟩ := h
  obtain ⟨l, l', rfl⟩ := List.append_of_mem hq
  rw [own_append, own, if_pos hzero, List.length_append, List.length_cons]
  omega

/-- The packets of one URB. -/
theorem own_urb (u : IsocUrbBack) (k : ℕ) : own data k (u.packets.map (u.status, ·)) =
    if u.status = 0 then own data k (u.packets.map ((0 : ℤ), ·)) else [] := by
  by_cases hstatus : u.status = 0
  · rw [if_pos hstatus, hstatus]
  · rw [if_neg hstatus]
    refine own_failed (fun q hq => ?_) k
    obtain ⟨p, -, rfl⟩ := List.mem_map.mp hq
    exact hstatus

theorem written_own {us : List IsocUrbBack} (h : ∀ u ∈ us, u.status = 0 →
    u.packets.Pairwise fun p q => p.actual_length = p.length ∨ q.actual_length = 0) (k : ℕ) :
    written data k us = own data k (packetsOf us) := by
  induction us generalizing k with
  | nil => rfl
  | cons u us ih =>
    have hrest := ih (fun v hv => h v (List.mem_cons_of_mem _ hv)) (k + u.packets.length)
    rw [written, hrest, packetsOf_cons, own_append, List.length_map, own_urb]
    congr 1
    by_cases hstatus : u.status = 0
    · rw [if_pos hstatus, if_pos hstatus, taken_own (h u List.mem_cons_self hstatus)]
    · rw [if_neg hstatus, if_neg hstatus]

/-- As long as no packet of a failed URB comes first, an entry is at the place of its packet. -/
theorem own_at {qs : List (ℤ × IsocPacketBack)} (h : qs.Pairwise fun p q => p.1 ≠ 0 → q.1 ≠ 0) {n k : ℕ} {status : ℤ}
    {p : IsocPacketBack} (hn : qs[n]? = some (status, p)) :
    if status = 0 then (own data k qs)[n]? = some (p, p.bytes (data (k + n))) else (own data k qs).length ≤ n := by
  induction qs generalizing n k with
  | nil => simp at hn
  | cons q qs ih =>
    obtain ⟨hq, hqs⟩ := List.pairwise_cons.mp h
    rw [own]
    by_cases hfail : q.1 = 0
    · rw [if_pos hfail]
      rcases n with _ | n
      · rw [List.getElem?_cons_zero, Option.some.injEq] at hn
        subst hn
        rw [if_pos hfail]
        rfl
      · rw [List.getElem?_cons_succ] at hn
        have hrest := ih hqs (k := k + 1) hn
        rw [show k + (n + 1) = k + 1 + n by omega]
        by_cases hstatus : status = 0
        · rw [if_pos hstatus] at hrest ⊢
          exact hrest
        · rw [if_neg hstatus] at hrest ⊢
          rw [List.length_cons]
          omega
    · have hall : ∀ r ∈ q :: qs, r.1 ≠ 0 := by
        intro r hr
        rcases List.mem_cons.mp hr with rfl | hr
        · exact hfail
        · exact hq r hr hfail
      rw [if_neg hfail, own_failed (fun r hr => hq r hr hfail), if_neg (hall _ (List.mem_of_getElem? hn))]
      exact Nat.zero_le n

theorem taken_fst (b : List UInt8) (ps : List IsocPacketBack) : (taken b ps).map Prod.fst = ps := by
  induction ps generalizing b with
  | nil => rfl
  | cons p ps ih => rw [taken, List.map_cons, ih]

theorem own_fst (ps : List IsocPacketBack) (k : ℕ) : (own data k (ps.map ((0 : ℤ), ·))).map Prod.fst = ps := by
  induction ps generalizing k with
  | nil => rfl
  | cons p ps ih => rw [List.map_cons, own, if_pos rfl, List.map_cons, ih]

/-- The packets that are written are those of the successful URBs. -/
theorem written_fst (us : List IsocUrbBack) (k : ℕ) :
    (written data k us).map Prod.fst = (own data k (packetsOf us)).map Prod.fst := by
  induction us generalizing k with
  | nil => rfl
  | cons u us ih =>
    rw [written, packetsOf_cons, own_append, List.map_append, List.map_append, ih, List.length_map, own_urb]
    congr 1
    by_cases hstatus : u.status = 0
    · rw [if_pos hstatus, if_pos hstatus, taken_fst, own_fst]
    · rw [if_neg hstatus, if_neg hstatus]

theorem written_length (us : List IsocUrbBack) (k : ℕ) :
    (written data k us).length = (own data k (packetsOf us)).length := by
  have hfst := congrArg List.length (@written_fst data us k)
  rwa [List.length_map, List.length_map] at hfst

theorem own_bytes (qs : List (ℤ × IsocPacketBack)) (k : ℕ) : ((own data k qs).map fun e => e.1.actual_length).sum =
    (qs.map fun q => if q.1 = 0 then q.2.actual_length else 0).sum := by
  induction qs generalizing k with
  | nil => rfl
  | cons q qs ih =>
    rw [own, List.map_cons, List.sum_cons]
    by_cases hstatus : q.1 = 0
    · rw [if_pos hstatus, if_pos hstatus, List.map_cons, List.sum_cons, ih]
    · rw [if_neg hstatus, if_neg hstatus, Nat.zero_add, ih]

theorem written_bytes (us : List IsocUrbBack) (k : ℕ) :
    ((written data k us).map fun e => e.1.actual_length).sum = transferred us := by
  have hfst := congrArg (fun ps => (ps.map IsocPacketBack.actual_length).sum) (@written_fst data us k)
  rw [List.map_map, List.map_map] at hfst
  exact hfst.trans (own_bytes (packetsOf us) k)

/-- The status that a completed request has in the end. -/
def IsocReturn.outcome (B : IsocReturn) : ℤ :=
  if ∀ u ∈ B.urbs, u.status = 0 then OPENUSB_SUCCESS else OPENUSB_SYS_FUNC_FAILURE

/-- A request that is completed: the results of its URBs have been written, and over the first that of the request. -/
theorem reaped_done {B : IsocReturn} {E : IsocEnv} (h : (B.reaped E).io.completions ≠ []) :
    ∃ mid, (B.submitted E).Writes (written E.data 0 B.urbs) mid ∧ (B.reaped E).payload = mid.payload ∧
      (B.reaped E).isoc_results = Function.update mid.isoc_results 0 (B.outcome, transferred B.urbs % 2 ^ 32) := by
  have hwaits := submitted_waits B E B.urbs.length
  obtain ⟨mid, hwrites, htells⟩ := @reapUrbs_tells (B.request E) _ E.kernel rfl B.count_lt B.urbs 0 0 _
    (brings_back B E B.urbs [] rfl) (Nat.zero_add _) hwaits
  have haction := @reapUrbs_action (B.request E) E.kernel B.count_lt B.urbs 0 _ (Nat.zero_add _) hwaits
  have hbytes : (B.reaped E).io.bytes_transferred = transferred B.urbs % 2 ^ 32 := by
    have hmid := hwrites.bytes 0 rfl
    rw [Nat.zero_add, written_bytes] at hmid
    exact htells.bytes.trans hmid
  have houtcome : (B.reaped E).io.outcome = B.outcome := by
    unfold UrbIo.outcome IsocReturn.outcome
    rw [IsocReturn.reaped, haction]
    by_cases hall : ∀ u ∈ B.urbs, u.status = 0
    · have hno : ¬ ((B.submitted E).io.reap_action = .normal ∧ ∃ u ∈ B.urbs, u.status ≠ 0) :=
        fun ⟨_, u, hu, hstatus⟩ => hstatus (hall u hu)
      rw [if_pos hall, if_neg hno]
      rfl
    · have hsome : (B.submitted E).io.reap_action = .normal ∧ ∃ u ∈ B.urbs, u.status ≠ 0 :=
        ⟨rfl, by simpa using hall⟩
      rw [if_neg hall, if_pos hsome]
  refine ⟨mid, hwrites, htells.payload, ?_⟩
  rw [← houtcome, ← hbytes]
  exact htells.ends h

/-! ## What a drift does -/

/-- The last packet of a successful URB has at most one entry for each packet up to it. -/
theorem last_entry {qs : List (ℤ × IsocPacketBack)} (h : ∃ q ∈ qs, q.1 = 0) (k : ℕ) :
    ∃ n p, qs[n]? = some ((0 : ℤ), p) ∧ (own data k qs).length ≤ n + 1 := by
  induction qs generalizing k with
  | nil => simp at h
  | cons r qs ih =>
    by_cases hlater : ∃ q ∈ qs, q.1 = 0
    · obtain ⟨n, p, hn, hle⟩ := ih hlater (k + 1)
      refine ⟨n + 1, p, hn, ?_⟩
      rw [own]
      split_ifs
      · rw [List.length_cons]
        omega
      · omega
    · have hnone : ∀ q ∈ qs, q.1 ≠ 0 := fun q hq hzero => hlater ⟨q, hq, hzero⟩
      obtain ⟨q, hq, hzero⟩ := h
      rcases List.mem_cons.mp hq with rfl | hq
      · obtain ⟨status, p⟩ := q
        subst hzero
        refine ⟨0, p, rfl, ?_⟩
        rw [own, if_pos rfl, own_failed hnone, List.length_singleton]
      · exact absurd hzero (hnone q hq)

/-- Behind a packet of a failed URB the entries fall short: the last successful packet has none at its place. -/
theorem entry_missing {qs : List (ℤ × IsocPacketBack)} (h : ¬ qs.Pairwise fun p q => p.1 ≠ 0 → q.1 ≠ 0) (k : ℕ) :
    ∃ n p, qs[n]? = some ((0 : ℤ), p) ∧ (own data k qs).length ≤ n := by
  induction qs generalizing k with
  | nil => exact absurd List.Pairwise.nil h
  | cons r qs ih =>
    by_cases hpair : qs.Pairwise fun p q => p.1 ≠ 0 → q.1 ≠ 0
    · -- the head failed, and a successful packet follows
      have hhead : ¬ ∀ q ∈ qs, r.1 ≠ 0 → q.1 ≠ 0 := fun hall => h (List.pairwise_cons.mpr ⟨hall, hpair⟩)
      push Not at hhead
      obtain ⟨q, hq, hr, hzero⟩ := hhead
      obtain ⟨n, p, hn, hle⟩ := @last_entry data _ ⟨q, hq, hzero⟩ (k + 1)
      refine ⟨n + 1, p, hn, ?_⟩
      rwa [own, if_neg hr]
    · obtain ⟨n, p, hn, hle⟩ := ih hpair (k + 1)
      refine ⟨n + 1, p, hn, ?_⟩
      rw [own]
      split_ifs
      · rw [List.length_cons]
        omega
      · omega

/-- A byte that no later frame begins with is given to the first of them that has data. -/
theorem empty_of_taken {ps : List IsocPacketBack} {x : UInt8} {b : List UInt8} {k : ℕ} (hx : ∀ j, k ≤ j → data j 0 ≠ x)
    (h : taken (x :: b) ps = own data k (ps.map ((0 : ℤ), ·))) : ∀ q ∈ ps, q.actual_length = 0 := by
  induction ps generalizing k with
  | nil => simp
  | cons q ps ih =>
    rw [taken, List.map_cons, own, if_pos rfl, List.cons.injEq] at h
    obtain ⟨hhead, htail⟩ := h
    have hzero : q.actual_length = 0 := by
      by_contra hpos
      obtain ⟨n, hn⟩ := Nat.exists_eq_succ_of_ne_zero hpos
      have hbytes : (x :: b).take q.actual_length = q.bytes (data k) := congrArg Prod.snd hhead
      unfold IsocPacketBack.bytes at hbytes
      rw [hn, List.take_succ_cons, List.range_succ_eq_map, List.map_cons, List.cons.injEq] at hbytes
      exact hx k le_rfl hbytes.1.symm
    rw [hzero, List.drop_zero] at htail
    intro r hr
    rcases List.mem_cons.mp hr with rfl | hr
    · exact hzero
    · exact ih (fun j hj => hx j (Nat.le_of_succ_le hj)) htail r hr

end

section

/-- Frames that are given their own bytes whatever the device sends have full frames in front of data. -/
theorem full_of_taken {ps : List IsocPacketBack} (k : ℕ)
    (h : ∀ data : ℕ → ℕ → UInt8, taken (urbMemory data k ps) ps = own data k (ps.map ((0 : ℤ), ·))) :
    ps.Pairwise fun p q => p.actual_length = p.length ∨ q.actual_length = 0 := by
  induction ps generalizing k with
  | nil => exact List.Pairwise.nil
  | cons p ps ih =>
    have htail : ∀ data : ℕ → ℕ → UInt8, taken (((List.range p.length).map (data k) ++ urbMemory data (k + 1) ps).drop
        p.actual_length) ps = own data (k + 1) (ps.map ((0 : ℤ), ·)) := by
      intro data
      have hdata := h data
      rw [urbMemory, taken, List.map_cons, own, if_pos rfl, List.cons.injEq] at hdata
      exact hdata.2
    by_cases hfull : p.actual_length = p.length
    · refine List.pairwise_cons.mpr ⟨fun _ _ => .inl hfull, ih (k + 1) fun data => ?_⟩
      have hdata := htail data
      rwa [List.drop_left' (by rw [List.length_map, List.length_range, hfull])] at hdata
    · have hshort : p.actual_length < p.length := lt_of_le_of_ne p.actual_le hfull
      -- only the frame that is short has a byte that is not 0
      have hdata := htail fun j _ => if j = k then 1 else 0
      rw [List.drop_append_of_le_length (by rw [List.length_map, List.length_range]; exact p.actual_le),
        List.drop_eq_getElem_cons (by rw [List.length_map, List.length_range]; exact hshort), List.getElem_map, if_pos rfl,
        List.cons_append] at hdata
      have hempty := empty_of_taken (fun j hj => by simp [show j ≠ k by omega]) hdata
      refine List.pairwise_cons.mpr ⟨fun q hq => .inr (hempty q hq), ?_⟩
      exact List.pairwise_of_forall_mem_list fun _ _ q hq => .inr (hempty q hq)

/-- The same for the URBs of a request. -/
theorem full_of_written {us : List IsocUrbBack} (k : ℕ)
    (h : ∀ data : ℕ → ℕ → UInt8, written data k us = own data k (packetsOf us)) : ∀ u ∈ us, u.status = 0 →
    u.packets.Pairwise fun p q => p.actual_length = p.length ∨ q.actual_length = 0 := by
  induction us generalizing k with
  | nil => simp
  | cons u us ih =>
    have hsplit : ∀ data : ℕ → ℕ → UInt8,
        (if u.status = 0 then taken (urbMemory data k u.packets) u.packets else []) =
          (if u.status = 0 then own data k (u.packets.map ((0 : ℤ), ·)) else []) ∧
        written data (k + u.packets.length) us = own data (k + u.packets.length) (packetsOf us) := by
      intro data
      have hdata := h data
      rw [written, packetsOf_cons, own_append, List.length_map, own_urb] at hdata
      exact List.append_inj' hdata (written_length us _)
    intro v hv hstatus
    rcases List.mem_cons.mp hv with rfl | hv
    · refine full_of_taken k fun data => ?_
      have hhead := (hsplit data).1
      rwa [if_pos hstatus, if_pos hstatus] at hhead
    · exact ih _ (fun data => (hsplit data).2) v hv hstatus

end

/-! ## The packets of a request -/

section

variable {B : IsocReturn}

theorem shows_result (p : IsocPacketBack) (old : ℤ × ℕ) : p.Shows old (p.result old) := by
  refine ⟨rfl, ?_⟩
  by_cases hstatus : p.status = 0 <;> simp [IsocPacketBack.result, hstatus]

theorem shows_outcome {p : IsocPacketBack} (h : B.FirstAgrees p) (old : ℤ × ℕ) :
    p.Shows old (B.outcome, transferred B.urbs % 2 ^ 32) := by
  obtain ⟨hbytes, hstatus⟩ := h
  refine ⟨hbytes.symm, ?_⟩
  unfold IsocReturn.outcome
  by_cases hall : ∀ u ∈ B.urbs, u.status = 0
  · rw [if_pos hall] at hstatus
    rw [if_pos hall, if_pos hstatus]
    exact .inr rfl
  · rw [if_neg hall] at hstatus
    rw [if_neg hall, if_neg hstatus.1, hstatus.2]

theorem agrees_of_shows {p : IsocPacketBack} {n : ℕ} (h : p.Shows (0, n) (B.outcome, transferred B.urbs % 2 ^ 32)) :
    B.FirstAgrees p := by
  obtain ⟨hbytes, hstatus⟩ := h
  refine ⟨hbytes.symm, ?_⟩
  unfold IsocReturn.outcome at hstatus
  by_cases hall : ∀ u ∈ B.urbs, u.status = 0
  · rw [if_pos hall] at hstatus ⊢
    by_contra hne
    rw [if_neg hne] at hstatus
    have hneg := translateErrno_neg (-p.status)
    rw [← hstatus] at hneg
    exact absurd (show OPENUSB_SUCCESS < 0 from hneg) (by decide)
  · rw [if_neg hall] at hstatus ⊢
    by_cases hzero : p.status = 0
    · rw [if_pos hzero] at hstatus
      exact absurd (show OPENUSB_SYS_FUNC_FAILURE = 0 ∨ OPENUSB_SYS_FUNC_FAILURE = OPENUSB_SUCCESS from hstatus) (by decide)
    · rw [if_neg hzero] at hstatus
      exact ⟨hzero, hstatus.symm⟩

theorem first_eq {qs : List (ℤ × IsocPacketBack)} {q : ℤ × IsocPacketBack} (h : qs[0]? = some q) : q ∈ qs.head? := by
  rwa [List.head?_eq_getElem?]

/-- In step, a packet of a successful URB has what is its own. -/
theorem shown_of_inStep {E : IsocEnv} {n : ℕ} {p : IsocPacketBack} (h : B.InStep)
    (hdone : (B.reaped E).io.completions ≠ []) (hn : (packetsOf B.urbs)[n]? = some (0, p)) :
    p.Shows (E.isoc_results n) ((B.reaped E).isoc_results n) ∧
      (B.reaped E).payload n = p.bytes (E.data n) ++ (E.payload n).drop p.actual_length := by
  obtain ⟨mid, hwrites, hpayload, hresults⟩ := reaped_done hdone
  rw [written_own h.short] at hwrites
  have hat := @own_at E.data _ h.failed _ 0 _ _ hn
  rw [if_pos rfl] at hat
  have hentry := hwrites.entry n p _ hat
  rw [show (B.submitted E).isoc_packet_offset + n = n from Nat.zero_add n, Nat.zero_add] at hentry
  refine ⟨?_, by rw [hpayload]; exact hentry.2⟩
  rw [hresults]
  rcases n with _ | n
  · rw [Function.update_self]
    exact shows_outcome (h.first _ (first_eq hn)) _
  · rw [Function.update_of_ne (Nat.succ_ne_zero n), hentry.1]
    exact shows_result p _

theorem attributed_of_inStep (h : Completable B.urbs → B.InStep ∧ ∀ q ∈ (packetsOf B.urbs).head?, q.1 = 0) :
    B.Attributed := by
  intro E hdone n status p hn
  obtain ⟨hstep, hfirst⟩ := h (completable_of_reaped hdone)
  by_cases hstatus : status = 0
  · subst hstatus
    rw [if_pos rfl]
    exact shown_of_inStep hstep hdone hn
  · obtain ⟨mid, hwrites, hpayload, hresults⟩ := reaped_done hdone
    rw [written_own hstep.short] at hwrites
    have hat := @own_at E.data _ hstep.failed _ 0 _ _ hn
    rw [if_neg hstatus] at hat ⊢
    have hne : n ≠ 0 := by
      rintro rfl
      exact hstatus (hfirst _ (first_eq hn))
    rw [hresults, hpayload, Function.update_of_ne hne]
    exact hwrites.others n (.inr ((Nat.zero_add _).trans_le hat))

/-- The surroundings in which the handler names no URB, and awaits each with the status that it will have. -/
def IsocReturn.plain (B : IsocReturn) (data : ℕ → ℕ → UInt8) (isoc_results : ℕ → ℤ × ℕ) : IsocEnv where
  names _ := none
  continuation j := decide ((B.urbs.getD j ⟨0, []⟩).status = -ENOENT)
  kernel _ _ := .idle
  data := data
  isoc_results := isoc_results
  payload _ := []

theorem plain_completes (hcomp : Completable B.urbs) (data : ℕ → ℕ → UInt8) (isoc_results : ℕ → ℤ × ℕ) :
    (B.reaped (B.plain data isoc_results)).io.completions ≠ [] := by
  refine reaped_of_completable (fun _ => rfl) (fun j u hu => ?_) hcomp
  show decide ((B.urbs.getD j ⟨0, []⟩).status = -ENOENT) = _
  rw [List.getD_eq_getElem?_getD, hu]
  rfl

/-- A packet without an entry, and not the first, has a result that is not its own. -/
theorem result_missing {n : ℕ} {p : IsocPacketBack} (hcomp : Completable B.urbs) (hne : n ≠ 0)
    (hle : (own (fun _ _ => 0) 0 (packetsOf B.urbs)).length ≤ n) :
    ¬ p.Shows (0, p.actual_length + 1)
      ((B.reaped (B.plain (fun _ _ => 0) fun _ => (0, p.actual_length + 1))).isoc_results n) := by
  intro hshows
  obtain ⟨mid, hwrites, -, hresults⟩ :=
    reaped_done (plain_completes hcomp (fun _ _ => 0) fun _ => (0, p.actual_length + 1))
  obtain ⟨hsame, -⟩ := hwrites.others n (.inr (by
    rw [written_length]
    exact (Nat.zero_add _).trans_le hle))
  have hlen := hshows.1
  rw [hresults, Function.update_of_ne hne, hsame] at hlen
  have hsucc : p.actual_length + 1 = p.actual_length := hlen
  omega

/-- The first packet with its own result agrees with the request. -/
theorem first_agrees {n : ℕ} {p : IsocPacketBack} (hcomp : Completable B.urbs)
    (h : p.Shows (0, n) ((B.reaped (B.plain (fun _ _ => 0) fun _ => (0, n))).isoc_results 0)) : B.FirstAgrees p := by
  obtain ⟨mid, -, -, hresults⟩ := reaped_done (plain_completes hcomp (fun _ _ => 0) fun _ => (0, n))
  rw [hresults, Function.update_self] at h
  exact agrees_of_shows h

/-- A packet of a successful URB that lies behind one of a failed URB has no entry, or another's. -/
theorem failed_of_attributed (h : B.Attributed) (hcomp : Completable B.urbs) :
    (packetsOf B.urbs).Pairwise fun p q => p.1 ≠ 0 → q.1 ≠ 0 := by
  by_contra hbad
  obtain ⟨n, p, hn, hle⟩ := @entry_missing (fun _ _ => 0) _ hbad 0
  have hpos := @own_length_pos (fun _ _ => 0) _ ⟨_, List.mem_of_getElem? hn, rfl⟩ 0
  have hrun := h _ (plain_completes hcomp (fun _ _ => 0) fun _ => (0, p.actual_length + 1)) n 0 p hn
  rw [if_pos rfl] at hrun
  exact result_missing hcomp (by omega) hle hrun.1

/-- The first packet of a failed URB does not keep what its result was. -/
theorem first_of_attributed (h : B.Attributed) (hcomp : Completable B.urbs) :
    ∀ q ∈ (packetsOf B.urbs).head?, q.1 = 0 ∧ B.FirstAgrees q.2 := by
  rintro ⟨status, p⟩ hq
  rw [List.head?_eq_getElem?] at hq
  have hrun := h _ (plain_completes hcomp (fun _ _ => 0) fun _ => (0, transferred B.urbs % 2 ^ 32 + 1)) 0 status p hq
  by_cases hstatus : status = 0
  · rw [if_pos hstatus] at hrun
    exact ⟨hstatus, first_agrees hcomp hrun.1⟩
  · rw [if_neg hstatus] at hrun
    obtain ⟨mid, -, -, hresults⟩ :=
      reaped_done (plain_completes hcomp (fun _ _ => 0) fun _ => (0, transferred B.urbs % 2 ^ 32 + 1))
    have hsame := hrun.1
    rw [hresults, Function.update_self] at hsame
    have hsucc : transferred B.urbs % 2 ^ 32 = transferred B.urbs % 2 ^ 32 + 1 := congrArg Prod.snd hsame
    omega

/-- Where the packets of the successful URBs have their own bytes, all frames in front of one with data are full. -/
theorem short_of_payloads (hfailed : (packetsOf B.urbs).Pairwise fun p q => p.1 ≠ 0 → q.1 ≠ 0)
    (hcomp : Completable B.urbs) (h : ∀ E : IsocEnv, (B.reaped E).io.completions ≠ [] → ∀ k p,
      (packetsOf B.urbs)[k]? = some (0, p) →
      (B.reaped E).payload k = p.bytes (E.data k) ++ (E.payload k).drop p.actual_length) :
    ∀ u ∈ B.urbs, u.status = 0 → u.packets.Pairwise fun p q => p.actual_length = p.length ∨ q.actual_length = 0 := by
  refine full_of_written 0 fun data => List.ext_getElem? fun n => ?_
  have hdone := plain_completes hcomp data fun _ => (0, 0)
  obtain ⟨mid, hwrites, hpayload, -⟩ := reaped_done hdone
  have hlen := @written_length data B.urbs 0
  by_cases hlt : n < (own data 0 (packetsOf B.urbs)).length
  · have hfst := congrArg (·[n]?) (@written_fst data B.urbs 0)
    obtain ⟨⟨status, p⟩, hn⟩ : ∃ q, (packetsOf B.urbs)[n]? = some q :=
      ⟨_, List.getElem?_eq_getElem (hlt.trans_le (own_length_le _ _))⟩
    have hat := @own_at data _ hfailed _ 0 _ _ hn
    have hstatus : status = 0 := by
      by_contra hne
      rw [if_neg hne] at hat
      omega
    rw [if_pos hstatus] at hat
    subst hstatus
    obtain ⟨⟨p', bytes⟩, he⟩ : ∃ e, (written data 0 B.urbs)[n]? = some e := ⟨_, List.getElem?_eq_getElem (by omega)⟩
    have hp : p' = p := by
      simpa [List.getElem?_map, he, hat] using hfst
    have hrun := h _ hdone n p hn
    have hentry := (hwrites.entry n p' bytes he).2
    have hzero : (B.submitted (B.plain data fun _ => (0, 0))).isoc_packet_offset + n = n := Nat.zero_add n
    rw [hzero, ← hpayload, hrun] at hentry
    have hbytes : p.bytes (data n) = bytes := by
      simpa [IsocReturn.submitted, IsocReturn.plain] using hentry
    rw [he, hat, hp, ← hbytes, Nat.zero_add]
  · rw [List.getElem?_eq_none (by omega), List.getElem?_eq_none (by omega)]

/-- A request that is completed gives each packet the result and the bytes of its own frame, whatever the device sends, if
and only if no packet of a successful URB comes behind one of a failed URB, in each successful URB all frames in front of
one with data are full, and the first packet's frame, in a successful URB, agrees with the result of the request. -/
theorem attributed_iff (B : IsocReturn) : B.Attributed ↔
    (Completable B.urbs → B.InStep ∧ ∀ q ∈ (packetsOf B.urbs).head?, q.1 = 0) := by
  refine ⟨fun h hcomp => ?_, attributed_of_inStep⟩
  have hfailed := failed_of_attributed h hcomp
  have hfirst := first_of_attributed h hcomp
  have hshort := short_of_payloads hfailed hcomp fun E hdone k p hk => by
    have hrun := h E hdone k 0 p hk
    rw [if_pos rfl] at hrun
    exact hrun.2
  exact ⟨⟨hfailed, hshort, fun q hq => (hfirst q hq).2⟩, fun q hq => (hfirst q hq).1⟩

/-- With a result for every packet, no URB that contains a packet but the first may fail. -/
theorem reported_iff (B : IsocReturn) : B.Reported ↔
    (Completable B.urbs → B.InStep ∧ ∀ q ∈ (packetsOf B.urbs).tail, q.1 = 0) := by
  constructor
  · intro h hcomp
    have hone : (∃ q ∈ packetsOf B.urbs, q.1 ≠ 0) → (packetsOf B.urbs).length ≤ 1 := by
      intro hbad
      by_contra hlong
      have hlt := @own_length_lt (fun _ _ => 0) _ hbad 0
      obtain ⟨⟨status, p⟩, hget⟩ : ∃ q, (packetsOf B.urbs)[(packetsOf B.urbs).length - 1]? = some q :=
        ⟨_, List.getElem?_eq_getElem (by omega)⟩
      have hrun := h _ (plain_completes hcomp (fun _ _ => 0) fun _ => (0, p.actual_length + 1)) _ status p hget
      exact result_missing hcomp (by omega) (Nat.le_sub_one_of_lt hlt) hrun.1
    have hfailed : (packetsOf B.urbs).Pairwise fun p q => p.1 ≠ 0 → q.1 ≠ 0 := by
      by_cases hbad : ∃ q ∈ packetsOf B.urbs, q.1 ≠ 0
      · match packetsOf B.urbs, hone hbad with
        | [], _ => exact List.Pairwise.nil
        | [q], _ => exact List.pairwise_singleton _ q
      · push Not at hbad
        exact List.pairwise_of_forall_mem_list fun p hp _ _ hne => absurd (hbad p hp) hne
    have hagrees : ∀ q ∈ (packetsOf B.urbs).head?, B.FirstAgrees q.2 := by
      rintro ⟨status, p⟩ hq
      rw [List.head?_eq_getElem?] at hq
      exact first_agrees hcomp (h _ (plain_completes hcomp (fun _ _ => 0) fun _ => (0, 0)) 0 status p hq).1
    have hshort := short_of_payloads hfailed hcomp fun E hdone k p hk => (h E hdone k 0 p hk).2
    refine ⟨⟨hfailed, hshort, hagrees⟩, fun q hq => ?_⟩
    by_contra hne
    have hle := hone ⟨q, List.mem_of_mem_tail hq, hne⟩
    have hlen := List.length_pos_of_mem hq
    rw [List.length_tail] at hlen
    omega
  · intro h E hdone k status p hk
    obtain ⟨hstep, htail⟩ := h (completable_of_reaped hdone)
    by_cases hstatus : status = 0
    · subst hstatus
      exact shown_of_inStep hstep hdone hk
    · -- the only packet of the request, in a failed URB
      obtain rfl : k = 0 := by
        rcases k with _ | k
        · rfl
        · rw [← List.getElem?_tail] at hk
          exact absurd (htail _ (List.mem_of_getElem? hk)) hstatus
      have hsingle : packetsOf B.urbs = [(status, p)] := by
        cases hqs : packetsOf B.urbs with
        | nil => simp [hqs] at hk
        | cons q qs =>
          rw [hqs, List.getElem?_cons_zero, Option.some.injEq] at hk
          subst hk
          have hpair := (List.pairwise_cons.mp (hqs ▸ hstep.failed)).1
          cases qs with
          | nil => rfl
          | cons r rs => exact absurd (htail r (by simp [hqs])) (hpair r List.mem_cons_self hstatus)
      have hagrees : B.FirstAgrees p := hstep.first _ (first_eq hk)
      have hempty : p.actual_length = 0 := by
        rw [hagrees.1, transferred, hsingle]
        simp [hstatus]
      obtain ⟨mid, hwrites, hpayload, hresults⟩ := reaped_done hdone
      have hnone : own E.data 0 (packetsOf B.urbs) = [] := by
        rw [hsingle]
        exact own_failed (by simpa using hstatus) 0
      obtain ⟨-, hsame⟩ := hwrites.others 0 (.inr (by rw [written_length, hnone]; exact le_rfl))
      refine ⟨?_, ?_⟩
      · rw [hresults, Function.update_self]
        exact shows_outcome hagrees _
      · rw [hpayload, hsame]
        simp [IsocPacketBack.bytes, hempty, IsocReturn.submitted]

/-- Two packets in one URB, both full and without an error. -/
def bothFull : IsocReturn := ⟨[⟨0, [⟨1, 0, 1, le_rfl⟩, ⟨1, 0, 1, le_rfl⟩]⟩], by decide⟩

/-- Two packets in one URB, the first of them short. -/
def shortFirst : IsocReturn := ⟨[⟨0, [⟨2, 0, 1, by decide⟩, ⟨1, 0, 1, le_rfl⟩]⟩], by decide⟩

/-- Two URBs of one packet, the first of them with an error. -/
def failedFirst : IsocReturn := ⟨[⟨-18, [⟨1, 0, 0, Nat.zero_le 1⟩]⟩, ⟨0, [⟨1, 0, 1, le_rfl⟩]⟩], by decide⟩

/-- The first packet is given the bytes of the whole request; the second packet is given a byte of the short first one; and
its result is written to the packet of a failed URB. -/
theorem results_drift : ¬ bothFull.Attributed ∧ ¬ shortFirst.Attributed ∧ ¬ failedFirst.Attributed := by
  refine ⟨fun h => ?_, fun h => ?_, fun h => ?_⟩
  · obtain ⟨hresult, -⟩ := h (bothFull.plain (fun _ _ => 9) fun _ => (0, 0)) (by decide) 0 0 _ rfl
    exact absurd hresult.1 (by decide)
  · obtain ⟨-, hpayload⟩ := h (shortFirst.plain (fun k b => if k = 0 then 7 else 9) fun _ => (0, 0)) (by decide) 1 0 _ rfl
    exact absurd hpayload (by decide)
  · obtain ⟨hresult, -⟩ := h (failedFirst.plain (fun _ _ => 9) fun _ => (0, 0)) (by decide) 1 0 _ rfl
    exact absurd hresult.1 (by decide)

end

end OpenUsb
