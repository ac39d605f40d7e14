import OpenUsb.Ownership

/-!
# IsocReaps — the URBs of an isochronous request come back

The URBs of an IN request are reaped in their order, each with a status, and each frame with a status and a length of its
own.  `handle_isoc_complete` copies the results of a URB behind those of the URBs before it: `isoc_packet_offset` counts the
packets whose results have been copied, and `urb_buffer` moves through the memory of one URB by the actual lengths.  The
kernel puts each frame where `linux_submit_isoc` puts OUT data, behind the requested lengths of the frames before it.
At the end `usbi_io_complete` writes the status and the bytes of the whole request to `isoc_results[0]`.

* `reapUrbs_tells`: what the reaps write.
* `completable_of_reaped`, `reaped_of_completable`: which requests are completed.
-/

namespace OpenUsb

/-- The frame of a packet as it comes back, with the requested length. -/
structure IsocPacketBack where
  length : ℕ
  status : ℤ
  actual_length : ℕ
  actual_le : actual_length ≤ length

/-- A URB with the status with which it is reaped. -/
structure IsocUrbBack where
  status : ℤ
  packets : List IsocPacketBack

/-- An IN request as it comes back; `num_urbs` is an `uint32_t`. -/
structure IsocReturn where
  urbs : List IsocUrbBack
  count_lt : urbs.length < 2 ^ 32

/-- Everything else that a run depends on: what is at the addresses `&io->priv->urbs[i]`, the places of the URBs at each
reap, byte `b` of the frame of packet `k`, and what the caller's results and payloads hold before. -/
structure IsocEnv where
  names : ℕ → Option ℕ
  continuation : ℕ → Bool
  kernel : ℕ → ℕ → UrbState
  data : ℕ → ℕ → UInt8
  isoc_results : ℕ → ℤ × ℕ
  payload : ℕ → List UInt8

namespace IsocPacketBack

variable (p : IsocPacketBack)

def frame : IsoFrame := ⟨p.status, p.actual_length⟩

/-- The entry that the frame leaves: a frame without an error keeps the status. -/
def result (old : ℤ × ℕ) : ℤ × ℕ := (if p.status = 0 then old.1 else translateErrno (-p.status), p.actual_length)

def bytes (data : ℕ → UInt8) : List UInt8 := (List.range p.actual_length).map data

end IsocPacketBack

/-- The memory of a URB whose first packet is `k`. -/
def urbMemory (data : ℕ → ℕ → UInt8) : ℕ → List IsocPacketBack → List UInt8
  | _, [] => []
  | k, p :: ps => (List.range p.length).map (data k) ++ urbMemory data (k + 1) ps

/-- The URBs from `i` on are reaped in their order. -/
def reapUrbs (R : IsocRequest) (kernel : ℕ → ℕ → UrbState) : ℕ → List IsocUrbBack → IsocState → IsocState
  | _, [], s => s
  | i, u :: us, s =>
    reapUrbs R kernel (i + 1) us (handleIsocComplete R i u.status { s with io := { s.io with kernel := kernel i } })

/-- The packets of URBs in order, each with the status of its URB. -/
def packetsOf (us : List IsocUrbBack) : List (ℤ × IsocPacketBack) := us.flatMap fun u => u.packets.map (u.status, ·)

namespace IsocReturn

variable (B : IsocReturn) (E : IsocEnv)

/-- The packets of the URBs before URB `i`. -/
def before (i : ℕ) : ℕ := (packetsOf (B.urbs.take i)).length

/-- The request as the handler sees it. -/
def request : IsocRequest where
  num_urbs := B.urbs.length
  names := E.names
  continuation := E.continuation
  toHost := true
  frames i := (B.urbs.getD i ⟨0, []⟩).packets.map IsocPacketBack.frame
  buffer i := urbMemory E.data (B.before i) (B.urbs.getD i ⟨0, []⟩).packets

/-- All URBs are submitted. -/
def submitted : IsocState where
  io := .fresh
  submitted := B.urbs.length
  returned := some OPENUSB_SUCCESS
  isoc_results := E.isoc_results
  payload := E.payload

/-- All URBs have been reaped, in their order. -/
def reaped : IsocState := reapUrbs (B.request E) E.kernel 0 B.urbs (B.submitted E)

end IsocReturn

/-- The URBs can complete a request: none fails, or the first that does is not the last and the others behind it are
successful or discarded. -/
def Completable : List IsocUrbBack → Prop
  | [] => False
  | u :: us =>
    if u.status = 0 then us = [] ∨ Completable us else us ≠ [] ∧ ∀ v ∈ us, v.status = 0 ∨ v.status = -ENOENT

/-! ## What the handler writes -/

/-- The frames of a URB with the bytes that the copying loop takes for each. -/
def taken : List UInt8 → List IsocPacketBack → List (IsocPacketBack × List UInt8)
  | _, [] => []
  | urb_buffer, p :: ps => (p, urb_buffer.take p.actual_length) :: taken (urb_buffer.drop p.actual_length) ps

/-- What the reaps of URBs write, in order; the first packet of these URBs is `k`. -/
def written (data : ℕ → ℕ → UInt8) : ℕ → List IsocUrbBack → List (IsocPacketBack × List UInt8)
  | _, [] => []
  | k, u :: us =>
    (if u.status = 0 then taken (urbMemory data k u.packets) u.packets else []) ++
      written data (k + u.packets.length) us

/-- The entries are written from `isoc_packet_offset` on, and nothing else is. -/
structure IsocState.Writes (l : List (IsocPacketBack × List UInt8)) (s t : IsocState) : Prop where
  offset : t.isoc_packet_offset = s.isoc_packet_offset + l.length
  entry : ∀ n p bytes, l[n]? = some (p, bytes) →
    t.isoc_results (s.isoc_packet_offset + n) = p.result (s.isoc_results (s.isoc_packet_offset + n)) ∧
      t.payload (s.isoc_packet_offset + n) = bytes ++ (s.payload (s.isoc_packet_offset + n)).drop p.actual_length
  others : ∀ m, m < s.isoc_packet_offset ∨ s.isoc_packet_offset + l.length ≤ m →
    t.isoc_results m = s.isoc_results m ∧ t.payload m = s.payload m
  bytes : ∀ n, s.io.bytes_transferred = n % 2 ^ 32 →
    t.io.bytes_transferred = (n + (l.map fun e => e.1.actual_length).sum) % 2 ^ 32

/-- The status with which `handle_isoc_complete` completes a request. -/
def UrbIo.outcome (io : UrbIo) : ℤ :=
  match io.reap_action with
  | .normal => OPENUSB_SUCCESS
  | .canceled => OPENUSB_IO_CANCELED
  | _ => OPENUSB_SYS_FUNC_FAILURE

/-- Nothing is written but the result of the request, if it is completed. -/
structure IsocState.Tells (s t : IsocState) : Prop where
  offset : t.isoc_packet_offset = s.isoc_packet_offset
  payload : t.payload = s.payload
  bytes : t.io.bytes_transferred = s.io.bytes_transferred
  goes : t.io.completions = [] → t.isoc_results = s.isoc_results
  ends : t.io.completions ≠ [] →
    t.isoc_results = Function.update s.isoc_results 0 (t.io.outcome, t.io.bytes_transferred)

section

variable {R : IsocRequest} {s t r : IsocState} {l l' : List (IsocPacketBack × List UInt8)} {p : IsocPacketBack}

theorem writes_nil (hoffset : t.isoc_packet_offset = s.isoc_packet_offset) (hresults : t.isoc_results = s.isoc_results)
    (hpayload : t.payload = s.payload) (hbytes : t.io.bytes_transferred = s.io.bytes_transferred) : s.Writes [] t where
  offset := hoffset
  entry n p bytes h := absurd h (by simp)
  others m _ := ⟨congrFun hresults m, congrFun hpayload m⟩
  bytes n h := hbytes.trans h

theorem IsocState.Writes.append (h : s.Writes l t) (h' : t.Writes l' r) : s.Writes (l ++ l') r where
  offset := by
    rw [h'.offset, h.offset, List.length_append, Nat.add_assoc]
  entry n p bytes hn := by
    by_cases hlt : n < l.length
    · rw [List.getElem?_append_left hlt] at hn
      obtain ⟨hresults, hpayload⟩ := h'.others (s.isoc_packet_offset + n) (.inl (by rw [h.offset]; omega))
      rw [hresults, hpayload]
      exact h.entry n p bytes hn
    · rw [List.getElem?_append_right (by omega)] at hn
      have hentry := h'.entry (n - l.length) p bytes hn
      rw [h.offset, show s.isoc_packet_offset + l.length + (n - l.length) = s.isoc_packet_offset + n by omega] at hentry
      obtain ⟨hresults, hpayload⟩ := h.others (s.isoc_packet_offset + n) (.inr (by omega))
      rwa [hresults, hpayload] at hentry
  others m hm := by
    rw [List.length_append] at hm
    obtain ⟨hresults, hpayload⟩ := h'.others m (by rw [h.offset]; omega)
    rw [hresults, hpayload]
    exact h.others m (by omega)
  bytes n hn := by
    rw [h'.bytes _ (h.bytes n hn), List.map_append, List.sum_append, Nat.add_assoc]

theorem copyFrame_writes (hR : R.toHost = true) (p : IsocPacketBack) (urb_buffer : List UInt8) (s : IsocState) :
    s.Writes [(p, urb_buffer.take p.actual_length)] (copyFrame R p.frame urb_buffer s) where
  offset := rfl
  entry n p' bytes hn := by
    rcases n with _ | n
    · rw [List.getElem?_cons_zero, Option.some.injEq, Prod.mk.injEq] at hn
      obtain ⟨rfl, rfl⟩ := hn
      by_cases hp : p.status = 0 <;> simp [copyFrame, hR, IsocPacketBack.result, IsocPacketBack.frame, hp]
    · simp at hn
  others m hm := by
    rw [List.length_singleton] at hm
    have hne : m ≠ s.isoc_packet_offset := by omega
    simp [copyFrame, hR, Function.update_of_ne hne]
  bytes n hn := by
    show (s.io.bytes_transferred + p.actual_length) % 2 ^ 32 = (n + p.actual_length) % 2 ^ 32
    rw [hn, Nat.mod_add_mod]

theorem copyFrames_writes (hR : R.toHost = true) (ps : List IsocPacketBack) (urb_buffer : List UInt8) (s : IsocState) :
    s.Writes (taken urb_buffer ps) (copyFrames R (ps.map IsocPacketBack.frame) urb_buffer s) := by
  induction ps generalizing urb_buffer s with
  | nil => exact writes_nil rfl rfl rfl rfl
  | cons p ps ih =>
    have hrest := ih (urb_buffer.drop p.actual_length) (copyFrame R p.frame urb_buffer s)
    have hboth := (copyFrame_writes hR p urb_buffer s).append hrest
    rw [List.map_cons, copyFrames, if_pos hR]
    exact hboth

end

/-! ## Reaps in order -/

/-- `m` URBs are still to be reaped: the request is not completed, and once it is not `NORMAL` it awaits them all. -/
structure IsocState.Waits (m : ℕ) (s : IsocState) : Prop where
  completions : s.io.completions = []
  frees : s.io.frees = 0
  small : s.io.urbs_to_cancel < 2 ^ 32
  zero : s.io.reap_action = .normal → s.io.urbs_to_reap = 0 ∧ s.io.urbs_to_cancel = 0
  awaited : s.io.reap_action ≠ .normal → m ≤ s.io.counted

section

variable {R : IsocRequest} {s t : IsocState} {l : List (IsocPacketBack × List UInt8)} {status : ℤ} {i m : ℕ}

theorem isocAwaited_owed (h : 0 < (s.io.countDown status).counted) :
    isocAwaited status s = { s with io := s.io.countDown status } := by
  unfold UrbIo.counted at h
  refine isocAwaited_goes fun hzero => ?_
  obtain ⟨hreap, hcancel⟩ := hzero
  omega

theorem handlePartialXfer_adds (L : UrbLayout) {idx : ℕ} {action : ReapAction} {io : UrbIo} (hn : L.num_urbs < 2 ^ 32)
    (hzero : io.urbs_to_reap = 0 ∧ io.urbs_to_cancel = 0) :
    (handlePartialXfer L idx action io).counted = L.num_urbs - idx ∧
      (handlePartialXfer L idx action io).urbs_to_cancel < 2 ^ 32 := by
  obtain ⟨hreap, hcancel⟩ := hzero
  have hadds := @foldl_adds (partialXferRound L) (fun s j h => partialXferRound_adds L h)
    (List.range' idx (L.num_urbs - idx)) { io with reap_action := action }
    (by rw [List.length_range']; exact ⟨by rw [hreap]; omega, by rw [hcancel]; omega⟩)
  rw [List.length_range'] at hadds
  have hcounted : (handlePartialXfer L idx action io).counted = io.counted + (L.num_urbs - idx) := hadds.counted
  have hle : (handlePartialXfer L idx action io).urbs_to_cancel ≤ io.urbs_to_cancel + (L.num_urbs - idx) := hadds.to_cancel
  have hnone : io.counted = 0 := by
    unfold UrbIo.counted
    rw [hreap, hcancel]
  omega

/-- The request is not completed and awaits URBs. -/
structure IsocState.Awaits (s : IsocState) : Prop where
  action : s.io.reap_action ≠ .normal
  completions : s.io.completions = []
  frees : s.io.frees = 0
  small : s.io.urbs_to_cancel < 2 ^ 32

theorem countDown_congr {io io' : UrbIo} (status : ℤ) (hreap : io'.urbs_to_reap = io.urbs_to_reap)
    (hcancel : io'.urbs_to_cancel = io.urbs_to_cancel) :
    (io'.countDown status).urbs_to_reap = (io.countDown status).urbs_to_reap ∧
      (io'.countDown status).urbs_to_cancel = (io.countDown status).urbs_to_cancel := by
  unfold UrbIo.countDown UrbIo.decCancel UrbIo.decReap
  rw [hcancel, hreap]
  split_ifs <;> simp [hreap, hcancel]

/-- A reap from a request that awaits URBs and goes on. -/
theorem handle_awaits {k : ℕ → UrbState} (i : ℕ) (status : ℤ) (h : s.Awaits) (howed : 0 < (s.io.countDown status).counted) :
    IsocState.Awaits (handleIsocComplete R i status { s with io := { s.io with kernel := k } }) ∧
      (handleIsocComplete R i status { s with io := { s.io with kernel := k } }).io.urbs_to_reap =
        (s.io.countDown status).urbs_to_reap ∧
      (handleIsocComplete R i status { s with io := { s.io with kernel := k } }).io.urbs_to_cancel =
        (s.io.countDown status).urbs_to_cancel := by
  obtain ⟨t, hc, hhandle⟩ := handle_live (R := R) (s := { s with io := { s.io with kernel := k } }) i status h.frees
  obtain ⟨hreap, hcancel⟩ := @countDown_congr s.io t.io status hc.to_reap hc.to_cancel
  have haction : t.io.reap_action ≠ .normal := by
    rw [hc.action]
    exact h.action
  have hsettles := @countDown_settles t.io status (by rw [hc.to_cancel]; exact h.small)
  have hdone : isocHandled R i status t = { t with io := t.io.countDown status } := by
    unfold isocHandled
    rw [if_pos haction, isocAwaited_owed]
    unfold UrbIo.counted at howed ⊢
    rwa [hreap, hcancel]
  rw [hhandle, hdone]
  refine ⟨⟨?_, hsettles.completions.trans (hc.completions.trans h.completions),
    hsettles.frees.trans (hc.frees.trans h.frees), hsettles.small⟩, hreap, hcancel⟩
  rw [← hsettles.action] at haction
  exact haction

/-- A reap from a `NORMAL` request: it goes on, is completed by the last URB, or awaits the others after an error. -/
theorem handle_normal {k : ℕ → UrbState} {i : ℕ} {status : ℤ} (hn : R.num_urbs < 2 ^ 32) (h : s.Waits m)
    (hnormal : s.io.reap_action = .normal) :
    ∃ t, handleIsocComplete R i status { s with io := { s.io with kernel := k } } = t ∧
      (status = 0 → i + 1 ≠ R.num_urbs → t.Waits m ∧ t.io.reap_action = .normal) ∧
      (status = 0 → i + 1 = R.num_urbs → t.io.completions ≠ []) ∧
      (status ≠ 0 → t.Awaits ∧ t.io.counted = R.num_urbs - (i + 1) ∧ ∃ io : UrbIo, io.urbs_to_reap = 0 ∧
        io.urbs_to_cancel = 0 ∧ t.io = handlePartialXfer R.toUrbLayout (i + 1) .unknownFailure io) := by
  obtain ⟨t, hc, hhandle⟩ := handle_live (R := R) (s := { s with io := { s.io with kernel := k } }) i status h.frees
  have haction : t.io.reap_action = .normal := hc.action.trans hnormal
  obtain ⟨hreap, hcancel⟩ := h.zero hnormal
  have hcompletions : t.io.completions = [] := hc.completions.trans h.completions
  have hfrees : t.io.frees = 0 := hc.frees.trans h.frees
  refine ⟨_, hhandle, fun hstatus hlast => ?_, fun hstatus hlast => ?_, fun hstatus => ?_⟩
  · rw [hstatus, handled_earlier haction hlast]
    exact ⟨⟨hcompletions, hfrees, by rw [hc.to_cancel]; exact h.small,
      fun _ => ⟨hc.to_reap.trans hreap, hc.to_cancel.trans hcancel⟩, fun hne => absurd haction hne⟩, haction⟩
  · subst hstatus
    have hclose := (handled_last haction hlast).2.1
    rw [hcompletions] at hclose
    exact List.ne_nil_of_length_pos (by omega)
  · unfold isocHandled
    rw [if_neg (not_not_intro haction), if_pos hstatus]
    have hframe := handlePartialXfer_frame R.toUrbLayout (i + 1) .unknownFailure t.io
    obtain ⟨hcounted, hsmall⟩ := @handlePartialXfer_adds R.toUrbLayout (i + 1) .unknownFailure t.io hn
      ⟨hc.to_reap.trans hreap, hc.to_cancel.trans hcancel⟩
    exact ⟨⟨fun hnormal => absurd (hframe.action.symm.trans hnormal) (by simp), hframe.completions.trans hcompletions,
      hframe.frees.trans hfrees, hsmall⟩, hcounted, t.io, hc.to_reap.trans hreap, hc.to_cancel.trans hcancel, rfl⟩

/-- A reap while others are to come: the request goes on. -/
theorem handle_waits {k : ℕ → UrbState} (hn : R.num_urbs < 2 ^ 32) (hm : 0 < m) (hi : i + 1 + m = R.num_urbs)
    (h : s.Waits (m + 1)) :
    (handleIsocComplete R i status { s with io := { s.io with kernel := k } }).Waits m := by
  by_cases haction : s.io.reap_action = .normal
  · obtain ⟨t, ht, hgoes, -, hbreaks⟩ := @handle_normal R s _ k i status hn h haction
    rw [ht]
    by_cases hstatus : status = 0
    · obtain ⟨hwaits, hnormal⟩ := hgoes hstatus (by omega)
      exact ⟨hwaits.completions, hwaits.frees, hwaits.small, hwaits.zero, fun hne => absurd hnormal hne⟩
    · obtain ⟨hawaits, hcounted, -⟩ := hbreaks hstatus
      exact ⟨hawaits.completions, hawaits.frees, hawaits.small, fun hnormal => absurd hnormal hawaits.action,
        fun _ => by omega⟩
  · have hsettles := @countDown_settles s.io status h.small
    have hcounted := h.awaited haction
    have hdown := hsettles.counted
    obtain ⟨hawaits, hreap, hcancel⟩ := handle_awaits (R := R) (k := k) i status
      ⟨haction, h.completions, h.frees, h.small⟩ (by omega)
    refine ⟨hawaits.completions, hawaits.frees, hawaits.small, fun hnormal => absurd hnormal hawaits.action, fun _ => ?_⟩
    unfold UrbIo.counted at hcounted hdown ⊢
    rw [hreap, hcancel]
    omega

theorem countDown_same (status : ℤ) (io : UrbIo) : (io.countDown status).bytes_transferred = io.bytes_transferred ∧
    (io.countDown status).reap_action = io.reap_action ∧ (io.countDown status).completions = io.completions := by
  unfold UrbIo.countDown UrbIo.decCancel UrbIo.decReap
  split_ifs <;> exact ⟨rfl, rfl, rfl⟩

theorem tells_refl (h : s.io.completions = []) : s.Tells s := ⟨rfl, rfl, rfl, fun _ => rfl, fun hne => absurd h hne⟩

/-- What the handler writes after the results have been copied. -/
theorem isocHandled_tells (i : ℕ) (status : ℤ) (h : s.io.completions = []) : s.Tells (isocHandled R i status s) := by
  unfold isocHandled
  by_cases haction : s.io.reap_action = .normal
  · rw [if_neg (not_not_intro haction)]
    by_cases hstatus : status = 0
    · rw [if_neg (not_not_intro hstatus)]
      by_cases hlast : i + 1 = R.num_urbs
      · rw [if_pos hlast]
        refine ⟨rfl, rfl, rfl, fun hgoes => absurd hgoes (List.append_ne_nil_of_right_ne_nil _ (List.cons_ne_nil _ _)),
          fun _ => ?_⟩
        show Function.update s.isoc_results 0 (OPENUSB_SUCCESS, s.io.bytes_transferred) =
          Function.update s.isoc_results 0 (s.io.outcome, s.io.bytes_transferred)
        rw [UrbIo.outcome, haction]
      · rw [if_neg hlast]
        exact tells_refl h
    · rw [if_pos hstatus]
      have hframe := handlePartialXfer_frame R.toUrbLayout (i + 1) .unknownFailure s.io
      exact ⟨rfl, rfl, hframe.bytes, fun _ => rfl, fun hne => absurd (hframe.completions.trans h) hne⟩
  · obtain ⟨hbytes, hsame, hnone⟩ := countDown_same status s.io
    rw [if_pos haction]
    by_cases hzero : (s.io.countDown status).urbs_to_reap = 0 ∧ (s.io.countDown status).urbs_to_cancel = 0
    · rw [isocAwaited_ends hzero]
      refine ⟨rfl, rfl, hbytes, fun hgoes => absurd hgoes (List.append_ne_nil_of_right_ne_nil _ (List.cons_ne_nil _ _)),
        fun _ => ?_⟩
      show Function.update s.isoc_results 0 (_, (s.io.countDown status).bytes_transferred) =
        Function.update s.isoc_results 0 ((s.io.countDown status).outcome, (s.io.countDown status).bytes_transferred)
      rw [UrbIo.outcome, hsame]
      cases hcase : s.io.reap_action with
      | normal => exact absurd hcase haction
      | canceled => rfl
      | _ => rfl
    · rw [isocAwaited_goes hzero]
      exact ⟨rfl, rfl, hbytes, fun _ => rfl, fun hne => absurd (hnone.trans h) hne⟩

/-- Only an error of a `NORMAL` request changes the mode. -/
theorem isocHandled_action (i : ℕ) (status : ℤ) (s : IsocState) : (isocHandled R i status s).io.reap_action =
    if s.io.reap_action = .normal ∧ status ≠ 0 then .unknownFailure else s.io.reap_action := by
  unfold isocHandled
  by_cases haction : s.io.reap_action = .normal
  · rw [if_neg (not_not_intro haction)]
    by_cases hstatus : status = 0
    · have hno : ¬ (s.io.reap_action = .normal ∧ status ≠ 0) := fun h => h.2 hstatus
      rw [if_neg (not_not_intro hstatus), if_neg hno]
      split_ifs <;> rfl
    · rw [if_pos hstatus, if_pos ⟨haction, hstatus⟩]
      exact (handlePartialXfer_frame R.toUrbLayout (i + 1) .unknownFailure s.io).action
  · obtain ⟨-, hsame, -⟩ := countDown_same status s.io
    have hno : ¬ (s.io.reap_action = .normal ∧ status ≠ 0) := fun h => haction h.1
    rw [if_pos haction, if_neg hno]
    by_cases hzero : (s.io.countDown status).urbs_to_reap = 0 ∧ (s.io.countDown status).urbs_to_cancel = 0
    · rw [isocAwaited_ends hzero]
      exact hsame
    · rw [isocAwaited_goes hzero]
      exact hsame

/-- What a reap writes: the results of the URB, and that of the request. -/
theorem handle_tells {ps : List IsocPacketBack} (hR : R.toHost = true) (hframes : R.frames i = ps.map IsocPacketBack.frame)
    (hfrees : s.io.frees = 0) (hnone : s.io.completions = []) :
    ∃ mid, s.Writes (if status = 0 then taken (R.buffer i) ps else []) mid ∧
      mid.Tells (handleIsocComplete R i status s) := by
  unfold handleIsocComplete
  rw [if_neg (not_not_intro hfrees)]
  by_cases hstatus : status = 0
  · rw [if_pos hstatus, if_pos hstatus, hframes]
    have hcopies := @copyFrames_copies R (ps.map IsocPacketBack.frame) (R.buffer i) s
    exact ⟨_, copyFrames_writes hR ps (R.buffer i) s, isocHandled_tells i status (hcopies.completions.trans hnone)⟩
  · rw [if_neg hstatus, if_neg hstatus]
    exact ⟨s, writes_nil rfl rfl rfl rfl, isocHandled_tells i status hnone⟩

/-- A request that goes on has only the results of its URBs. -/
theorem IsocState.Writes.goes {mid : IsocState} (h : s.Writes l mid) (htells : mid.Tells t)
    (hnone : t.io.completions = []) : s.Writes l t where
  offset := htells.offset.trans h.offset
  entry n p bytes hn := by
    rw [htells.goes hnone, htells.payload]
    exact h.entry n p bytes hn
  others m hm := by
    rw [htells.goes hnone, htells.payload]
    exact h.others m hm
  bytes n hn := htells.bytes.trans (h.bytes n hn)

/-- The URBs from `i` on are those of the request, and `k` is their first packet. -/
def IsocRequest.BringsBack (R : IsocRequest) (data : ℕ → ℕ → UInt8) : ℕ → ℕ → List IsocUrbBack → Prop
  | _, _, [] => True
  | i, k, u :: us => R.frames i = u.packets.map IsocPacketBack.frame ∧ R.buffer i = urbMemory data k u.packets ∧
    R.BringsBack data (i + 1) (k + u.packets.length) us

/-- A new place of the URBs is of no account to what a reap writes. -/
theorem IsocState.Writes.of_kernel {kernel : ℕ → UrbState}
    (h : IsocState.Writes l { s with io := { s.io with kernel := kernel } } t) : s.Writes l t :=
  ⟨h.offset, h.entry, h.others, h.bytes⟩

/-- What the reaps of all URBs from `i` on write. -/
theorem reapUrbs_tells {data : ℕ → ℕ → UInt8} {kernel : ℕ → ℕ → UrbState} (hR : R.toHost = true)
    (hn : R.num_urbs < 2 ^ 32) : ∀ (us : List IsocUrbBack) (i k : ℕ) (s : IsocState), R.BringsBack data i k us →
    i + us.length = R.num_urbs → s.Waits us.length →
    ∃ mid, s.Writes (written data k us) mid ∧ mid.Tells (reapUrbs R kernel i us s)
  | [], _, _, s, _, _, h => ⟨s, writes_nil rfl rfl rfl rfl, tells_refl h.completions⟩
  | u :: us, i, k, s, hback, hlen, h => by
    obtain ⟨hframes, hbuffer, hlater⟩ := hback
    rw [List.length_cons] at hlen h
    obtain ⟨mid, hwrites, htells⟩ := @handle_tells R { s with io := { s.io with kernel := kernel i } } u.status i _ hR
      hframes h.frees h.completions
    have hhead := hwrites.of_kernel
    rw [hbuffer] at hhead
    cases us with
    | nil =>
      refine ⟨mid, ?_, htells⟩
      rwa [written, written, List.append_nil]
    | cons v vs =>
      have hwaits := @handle_waits R s u.status i _ (kernel i) hn (List.length_pos_iff.mpr (List.cons_ne_nil v vs))
        (by omega) h
      obtain ⟨last, hlast, hend⟩ := reapUrbs_tells hR hn (v :: vs) (i + 1) _ _ hlater (by omega) hwaits
      exact ⟨last, (hhead.goes htells hwaits.completions).append hlast, hend⟩

/-- The mode after the reaps of all URBs from `i` on. -/
theorem reapUrbs_action {kernel : ℕ → ℕ → UrbState} (hn : R.num_urbs < 2 ^ 32) : ∀ (us : List IsocUrbBack) (i : ℕ)
    (s : IsocState), i + us.length = R.num_urbs → s.Waits us.length →
    (reapUrbs R kernel i us s).io.reap_action =
      if s.io.reap_action = .normal ∧ ∃ u ∈ us, u.status ≠ 0 then .unknownFailure else s.io.reap_action
  | [], _, _, _, _ => by simp [reapUrbs]
  | u :: us, i, s, hlen, h => by
    rw [List.length_cons] at hlen h
    obtain ⟨t, hc, hhandle⟩ := handle_live (R := R) (s := { s with io := { s.io with kernel := kernel i } }) i u.status h.frees
    have haction : (handleIsocComplete R i u.status { s with io := { s.io with kernel := kernel i } }).io.reap_action =
        if s.io.reap_action = .normal ∧ u.status ≠ 0 then .unknownFailure else s.io.reap_action := by
      rw [hhandle, isocHandled_action, hc.action]
    cases us with
    | nil => simpa [reapUrbs] using haction
    | cons v vs =>
      have hwaits := @handle_waits R s u.status i _ (kernel i) hn (List.length_pos_iff.mpr (List.cons_ne_nil v vs))
        (by omega) h
      have hrest := @reapUrbs_action kernel hn (v :: vs) (i + 1) _ (by omega) hwaits
      rw [reapUrbs, hrest, haction]
      by_cases hnormal : s.io.reap_action = .normal <;> by_cases hstatus : u.status = 0 <;> simp [hnormal, hstatus]

end

/-! ## Whether the request is completed -/

section

variable {R : IsocRequest} {s : IsocState} {kernel : ℕ → ℕ → UrbState}

/-- The URBs that take one off the counters. -/
def countable (us : List IsocUrbBack) : ℕ := us.countP fun u => decide (u.status = 0 ∨ u.status = -ENOENT)

/-- The discarded ones. -/
def discarded (us : List IsocUrbBack) : ℕ := us.countP fun u => decide (u.status = -ENOENT)

def undiscarded (us : List IsocUrbBack) : ℕ := us.countP fun u => !decide (u.status = -ENOENT)

theorem countDown_counted (status : ℤ) (io : UrbIo) (hsmall : io.urbs_to_cancel < 2 ^ 32) :
    io.counted ≤ (io.countDown status).counted + if status = 0 ∨ status = -ENOENT then 1 else 0 := by
  by_cases hstatus : status = 0 ∨ status = -ENOENT
  · rw [if_pos hstatus]
    exact (countDown_settles status hsmall).counted
  · have hsame : io.countDown status = io := by
      unfold UrbIo.countDown
      rw [if_neg fun h => hstatus (.inr h), if_neg fun h => hstatus (.inl h)]
    rw [if_neg hstatus, hsame, Nat.add_zero]

/-- A request that awaits more URBs than can be counted down is never completed. -/
theorem reapUrbs_never : ∀ (us : List IsocUrbBack) (i : ℕ) (s : IsocState), s.Awaits → countable us < s.io.counted →
    (reapUrbs R kernel i us s).io.completions = []
  | [], _, _, h, _ => h.completions
  | u :: us, i, s, h, hlt => by
    have hdown := countDown_counted u.status s.io h.small
    have hstep : countable us + (if u.status = 0 ∨ u.status = -ENOENT then 1 else 0) = countable (u :: us) := by
      unfold countable
      rw [List.countP_cons]
      simp
    obtain ⟨hawaits, hreap, hcancel⟩ := handle_awaits (R := R) (k := kernel i) i u.status h (by omega)
    refine reapUrbs_never us (i + 1) _ hawaits ?_
    unfold UrbIo.counted at hdown hlt ⊢
    rw [hreap, hcancel]
    omega

theorem discarded_add (us : List IsocUrbBack) : discarded us + undiscarded us = us.length := by
  unfold discarded undiscarded
  rw [List.length_eq_countP_add_countP (fun u : IsocUrbBack => decide (u.status = -ENOENT))]
  congr 2
  ext u
  simp

theorem discarded_cons (u : IsocUrbBack) (us : List IsocUrbBack) :
    discarded (u :: us) = discarded us + (if u.status = -ENOENT then 1 else 0) ∧
      undiscarded (u :: us) = undiscarded us + if u.status = -ENOENT then 0 else 1 := by
  unfold discarded undiscarded
  rw [List.countP_cons, List.countP_cons]
  by_cases h : u.status = -ENOENT <;> simp [h]

/-- The counters after one of the awaited URBs. -/
theorem countDown_awaited {u : IsocUrbBack} {us : List IsocUrbBack} {io : UrbIo} (hu : u.status = 0 ∨ u.status = -ENOENT)
    (hcancel : io.urbs_to_cancel = discarded (u :: us)) (hreap : io.urbs_to_reap = undiscarded (u :: us)) :
    (io.countDown u.status).urbs_to_cancel = discarded us ∧ (io.countDown u.status).urbs_to_reap = undiscarded us := by
  obtain ⟨hcons, hcons'⟩ := discarded_cons u us
  rw [hcons] at hcancel
  rw [hcons'] at hreap
  unfold UrbIo.countDown
  by_cases hstatus : u.status = -ENOENT
  · rw [if_pos hstatus] at hcancel hreap ⊢
    unfold UrbIo.decCancel
    rw [if_neg (by omega)]
    exact ⟨Nat.sub_eq_of_eq_add hcancel, hreap⟩
  · rw [if_neg hstatus] at hcancel hreap ⊢
    rw [if_pos (hu.resolve_right hstatus)]
    unfold UrbIo.decReap
    rw [if_neg (by omega)]
    exact ⟨hcancel, Nat.sub_eq_of_eq_add hreap⟩

/-- With the counters right the last URB completes the request. -/
theorem reapUrbs_ends : ∀ (us : List IsocUrbBack) (i : ℕ) (s : IsocState), us ≠ [] → s.Awaits →
    (∀ v ∈ us, v.status = 0 ∨ v.status = -ENOENT) → s.io.urbs_to_cancel = discarded us →
    s.io.urbs_to_reap = undiscarded us → (reapUrbs R kernel i us s).io.completions ≠ []
  | [], _, _, hne, _, _, _, _ => absurd rfl hne
  | u :: us, i, s, _, h, hall, hcancel, hreap => by
    obtain ⟨hcancel', hreap'⟩ := countDown_awaited (hall u List.mem_cons_self) hcancel hreap
    have hsum := discarded_add us
    cases us with
    | nil =>
      obtain ⟨t, hc, hhandle⟩ := handle_live (R := R) (s := { s with io := { s.io with kernel := kernel i } }) i u.status h.frees
      obtain ⟨hr, hc'⟩ := @countDown_congr s.io t.io u.status hc.to_reap hc.to_cancel
      have haction : t.io.reap_action ≠ .normal := by
        rw [hc.action]
        exact h.action
      have hzero : (t.io.countDown u.status).urbs_to_reap = 0 ∧ (t.io.countDown u.status).urbs_to_cancel = 0 :=
        ⟨hr.trans hreap', hc'.trans hcancel'⟩
      rw [reapUrbs, reapUrbs, hhandle]
      unfold isocHandled
      rw [if_pos haction, isocAwaited_ends hzero]
      exact List.append_ne_nil_of_right_ne_nil _ (List.cons_ne_nil _ _)
    | cons v vs =>
      rw [List.length_cons] at hsum
      obtain ⟨hawaits, hr, hc⟩ := handle_awaits (R := R) (k := kernel i) i u.status h (by
        unfold UrbIo.counted
        omega)
      exact reapUrbs_ends (v :: vs) (i + 1) _ (List.cons_ne_nil _ _) hawaits (fun w hw => hall w (List.mem_cons_of_mem _ hw))
        (hc.trans hcancel') (hr.trans hreap')

/-- Where `handle_partial_xfer` names no URB, the flags alone decide which counter counts. -/
theorem rounds_counted {L : UrbLayout} (hnames : ∀ j, L.names j = none) : ∀ (us : List IsocUrbBack) (i : ℕ) (io : UrbIo),
    (∀ j u, us[j]? = some u → L.continuation (i + j) = decide (u.status = -ENOENT)) →
    io.urbs_to_reap + us.length < 2 ^ 32 → io.urbs_to_cancel + us.length < 2 ^ 32 →
    ((List.range' i us.length).foldl (partialXferRound L) io).urbs_to_cancel = io.urbs_to_cancel + discarded us ∧
      ((List.range' i us.length).foldl (partialXferRound L) io).urbs_to_reap = io.urbs_to_reap + undiscarded us
  | [], _, _, _, _, _ => ⟨rfl, rfl⟩
  | u :: us, i, io, hcont, hreap, hcancel => by
    rw [List.length_cons] at hreap hcancel
    have hu : L.continuation i = decide (u.status = -ENOENT) := hcont 0 u rfl
    obtain ⟨hcons, hcons'⟩ := discarded_cons u us
    have hround : (partialXferRound L io i).urbs_to_cancel = io.urbs_to_cancel + (if u.status = -ENOENT then 1 else 0) ∧
        (partialXferRound L io i).urbs_to_reap = io.urbs_to_reap + if u.status = -ENOENT then 0 else 1 := by
      unfold partialXferRound discardUrb
      rw [hu, hnames i]
      have hreap' : io.urbs_to_reap + 1 < 2 ^ 32 := by omega
      have hcancel' : io.urbs_to_cancel + 1 < 2 ^ 32 := by omega
      by_cases hstatus : u.status = -ENOENT
      · rw [if_pos hstatus, if_pos hstatus, if_pos (by simp [hstatus])]
        exact ⟨Nat.mod_eq_of_lt hcancel', rfl⟩
      · rw [if_neg hstatus, if_neg hstatus, if_neg (by simp [hstatus])]
        exact ⟨rfl, Nat.mod_eq_of_lt hreap'⟩
    obtain ⟨hc, hr⟩ := rounds_counted hnames us (i + 1) (partialXferRound L io i)
      (fun j v hv => by rw [← hcont (j + 1) v hv, Nat.add_assoc, Nat.add_comm 1 j])
      (by rw [hround.2]; split_ifs <;> omega) (by rw [hround.1]; split_ifs <;> omega)
    rw [List.length_cons, List.range'_succ, List.foldl_cons, hc, hr, hround.1, hround.2, hcons, hcons']
    exact ⟨by omega, by omega⟩

theorem completable_of_completions (hn : R.num_urbs < 2 ^ 32) : ∀ (us : List IsocUrbBack) (i : ℕ) (s : IsocState),
    i + us.length = R.num_urbs → s.Waits 0 → s.io.reap_action = .normal →
    (reapUrbs R kernel i us s).io.completions ≠ [] → Completable us
  | [], _, _, _, h, _, hdone => absurd h.completions hdone
  | u :: us, i, s, hlen, h, hnormal, hdone => by
    rw [List.length_cons] at hlen
    obtain ⟨t, ht, hgoes, -, hbreaks⟩ := @handle_normal R s 0 (kernel i) i u.status hn h hnormal
    rw [reapUrbs, ht] at hdone
    unfold Completable
    by_cases hstatus : u.status = 0
    · rw [if_pos hstatus]
      rcases us with _ | ⟨v, vs⟩
      · exact .inl rfl
      · rw [List.length_cons] at hlen
        obtain ⟨hwaits, hnormal'⟩ := hgoes hstatus (by omega)
        exact .inr (completable_of_completions hn (v :: vs) (i + 1) t (by rw [List.length_cons]; omega) hwaits hnormal' hdone)
    · rw [if_neg hstatus]
      obtain ⟨hawaits, hcounted, -⟩ := hbreaks hstatus
      refine ⟨?_, ?_⟩
      · rintro rfl
        exact hdone hawaits.completions
      · by_contra hbad
        refine hdone (reapUrbs_never us (i + 1) t hawaits ?_)
        have hlt : countable us < us.length := by
          refine lt_of_le_of_ne List.countP_le_length fun hall => hbad fun v hv => ?_
          simpa using List.countP_eq_length.mp hall v hv
        omega

theorem completions_of_completable (hn : R.num_urbs < 2 ^ 32) (hnames : ∀ j, R.names j = none) :
    ∀ (us : List IsocUrbBack) (i : ℕ) (s : IsocState), i + us.length = R.num_urbs → s.Waits 0 →
    s.io.reap_action = .normal → (∀ j u, us[j]? = some u → R.continuation (i + j) = decide (u.status = -ENOENT)) →
    Completable us → (reapUrbs R kernel i us s).io.completions ≠ []
  | [], _, _, _, _, _, _, h => h.elim
  | u :: us, i, s, hlen, h, hnormal, hcont, hcomp => by
    rw [List.length_cons] at hlen
    obtain ⟨t, ht, hgoes, hends, hbreaks⟩ := @handle_normal R s 0 (kernel i) i u.status hn h hnormal
    have hcont' : ∀ j v, us[j]? = some v → R.continuation (i + 1 + j) = decide (v.status = -ENOENT) := by
      intro j v hv
      rw [← hcont (j + 1) v hv, Nat.add_assoc, Nat.add_comm 1 j]
    rw [reapUrbs, ht]
    unfold Completable at hcomp
    by_cases hstatus : u.status = 0
    · rw [if_pos hstatus] at hcomp
      rcases us with _ | ⟨v, vs⟩
      · exact hends hstatus hlen
      · rw [List.length_cons] at hlen
        obtain ⟨hwaits, hnormal'⟩ := hgoes hstatus (by omega)
        exact completions_of_completable hn hnames (v :: vs) (i + 1) t (by rw [List.length_cons]; omega) hwaits hnormal' hcont'
          (hcomp.resolve_left (List.cons_ne_nil _ _))
    · rw [if_neg hstatus] at hcomp
      obtain ⟨hawaits, -, io, hreap, hcancel, hio⟩ := hbreaks hstatus
      obtain ⟨hc, hr⟩ := rounds_counted (L := R.toUrbLayout) hnames us (i + 1) { io with reap_action := .unknownFailure } hcont'
        (by rw [hreap]; omega) (by rw [hcancel]; omega)
      have hlen' : R.num_urbs - (i + 1) = us.length := by omega
      refine reapUrbs_ends us (i + 1) t hcomp.1 hawaits hcomp.2 ?_ ?_
      · rw [hio, handlePartialXfer, hlen', hc, hcancel, Nat.zero_add]
      · rw [hio, handlePartialXfer, hlen', hr, hreap, Nat.zero_add]

end

/-! ## The run of a request -/

section

theorem packetsOf_cons (u : IsocUrbBack) (us : List IsocUrbBack) :
    packetsOf (u :: us) = u.packets.map (u.status, ·) ++ packetsOf us := List.flatMap_cons

theorem brings_back (B : IsocReturn) (E : IsocEnv) : ∀ (us pre : List IsocUrbBack), B.urbs = pre ++ us →
    (B.request E).BringsBack E.data pre.length (packetsOf pre).length us
  | [], _, _ => trivial
  | u :: us, pre, h => by
    have hget : B.urbs.getD pre.length ⟨0, []⟩ = u := by
      rw [h]
      simp
    have hbefore : B.before pre.length = (packetsOf pre).length := by
      unfold IsocReturn.before
      rw [h, List.take_left]
    refine ⟨?_, ?_, ?_⟩
    · show (B.urbs.getD pre.length ⟨0, []⟩).packets.map IsocPacketBack.frame = _
      rw [hget]
    · show urbMemory E.data (B.before pre.length) (B.urbs.getD pre.length ⟨0, []⟩).packets = _
      rw [hget, hbefore]
    · have hrest := brings_back B E us (pre ++ [u]) (by rw [h, List.append_assoc, List.singleton_append])
      have hlen : (packetsOf (pre ++ [u])).length = (packetsOf pre).length + u.packets.length := by
        unfold packetsOf
        simp
      rwa [hlen, List.length_append, List.length_singleton] at hrest

theorem submitted_waits (B : IsocReturn) (E : IsocEnv) (m : ℕ) : (B.submitted E).Waits m :=
  ⟨rfl, rfl, Nat.two_pow_pos 32, fun _ => ⟨rfl, rfl⟩, fun h => absurd rfl h⟩

theorem completable_of_reaped {B : IsocReturn} {E : IsocEnv} (h : (B.reaped E).io.completions ≠ []) : Completable B.urbs :=
  completable_of_completions B.count_lt B.urbs 0 _ (Nat.zero_add _) (submitted_waits B E 0) rfl h

theorem reaped_of_completable {B : IsocReturn} {E : IsocEnv} (hnames : ∀ j, E.names j = none)
    (hcont : ∀ j u, B.urbs[j]? = some u → E.continuation j = decide (u.status = -ENOENT)) (h : Completable B.urbs) :
    (B.reaped E).io.completions ≠ [] := by
  refine completions_of_completable B.count_lt hnames B.urbs 0 _ (Nat.zero_add _) (submitted_waits B E 0) rfl
    (fun j u hu => ?_) h
  rw [Nat.zero_add]
  exact hcont j u hu

end

end OpenUsb
