import OpenUsb.BulkSplit

/-!
# BulkPrefix — the bytes that `transferred_bytes` counts

Each URB of a bulk or interrupt request has its own 16 KiB of the payload, while `bytes_transferred` adds the actual
lengths of the URBs that are handed back.  The steps of a request are extended by the bytes that the device sends: those
with which a URB finishes, and those that are in the buffer of a URB when it is discarded.

* `payload_prefix`: runs after which the first `transferred_bytes` bytes of the payload are what the device has sent.
-/

namespace OpenUsb

/-- A request with the bytes that have been received into the buffer of each URB. -/
structure DataState where
  s : BulkState
  data : ℕ → List UInt8

/-- A URB finishes with its bytes, or another step is taken, with the bytes of the URBs that it discards. -/
inductive DataLabel where
  | finish (i : ℕ) (status : ℤ) (bytes : List UInt8)
  | other (l : BulkLabel) (cut : ℕ → List UInt8)

/-- A URB that is not with the device any more. -/
def UrbState.Ended (u : UrbState) : Prop := u ≠ .idle ∧ u ≠ .pending

/-- The status of a URB whose bytes are counted. -/
def Carries (status : ℤ) : Prop := status = 0 ∨ status = - EREMOTEIO

instance (status : ℤ) : Decidable (Carries status) := inferInstanceAs (Decidable (_ ∨ _))

/-- Bytes written to memory. -/
def writeAt (memory : ℤ → UInt8) (offset : ℤ) (bytes : List UInt8) : ℤ → UInt8 :=
  fun q => if offset ≤ q ∧ q < offset + bytes.length then bytes.getD (q - offset).toNat 0 else memory q

section

variable (B : BulkRequest)

/-- The steps of `BulkStep`; no URB brings more than its buffer takes. -/
inductive DataStep : DataState → DataLabel → DataState → Prop where
  | finish {x : DataState} {i : ℕ} {status : ℤ} {bytes : List UInt8} {t : BulkState}
      (hroom : bytes.length ≤ B.buffer_length i) (h : BulkStep B x.s (.finish i status bytes.length) t) :
      DataStep x (.finish i status bytes) ⟨t, Function.update x.data i bytes⟩
  | other {x : DataState} {l : BulkLabel} {cut : ℕ → List UInt8} {t : BulkState}
      (hl : ∀ i status len, l ≠ .finish i status len) (hroom : ∀ j, (cut j).length ≤ B.buffer_length j)
      (h : BulkStep B x.s l t) :
      DataStep x (.other l cut)
        ⟨t, fun j => if x.s.io.kernel j = .pending ∧ t.io.kernel j = .done (-ENOENT) 0 then cut j else x.data j⟩

/-- The payload as the first `n` URBs leave it. -/
def BulkRequest.payload (old : ℤ → UInt8) (data : ℕ → List UInt8) : ℕ → ℤ → UInt8
  | 0 => old
  | n + 1 => writeAt (BulkRequest.payload old data n) (B.urb n).offset (data n)

namespace DataState

variable (x : DataState)

/-- If the request has ended with `OPENUSB_SUCCESS`, the bytes that it reports are those that the device has sent. -/
def Prefix (old : ℤ → UInt8) : Prop :=
  ∀ transferred_bytes, (OPENUSB_SUCCESS, transferred_bytes) ∈ x.s.io.completions →
    (List.range transferred_bytes).map (fun q : ℕ => B.payload old x.data B.num_urbs q) =
      (List.range B.num_urbs).flatMap x.data

/-- The request can still end with `OPENUSB_SUCCESS`, or has done so. -/
def Live : Prop := x.s.io.reap_action = .normal ∨ x.s.io.reap_action = .completedEarly

/-- The reap of URB `i` ends the request with `OPENUSB_SUCCESS`: the last URB of a `NORMAL` request, or the last awaited one
after a short URB. -/
def Ends (i : ℕ) : Prop :=
  ∃ status len, x.s.io.kernel i = .done status len ∧ x.s.io.frees = 0 ∧
    (x.s.io.reap_action = .normal ∧ Carries status ∧ i = B.num_urbs - 1 ∨
      x.s.io.reap_action = .completedEarly ∧ (awaitedReap (B.continuation i) status x.s.io).urbs_to_reap = 0 ∧
        (awaitedReap (B.continuation i) status x.s.io).urbs_to_cancel = 0)

/-- While the request can end with `OPENUSB_SUCCESS`, bytes come with a status that counts them, before the end, and
behind full URBs only; nothing is discarded with bytes after a successful URB; and the request does not end as long as a
URB that is not reaped has bytes in it or behind it. -/
def InOrder : DataLabel → Prop
  | .finish i status bytes => x.Live →
      (bytes ≠ [] → Carries status ∧ x.s.io.completions = [] ∧
        ∀ j < i, (x.s.io.kernel j).Ended → (x.data j).length = B.buffer_length j) ∧
      (bytes.length < B.buffer_length i → ∀ j, i < j → x.data j = [])
  | .other (.reap i) cut =>
      (∀ status len, x.s.io.kernel i = .done status len → Carries status → ∀ j, cut j = []) ∧
      (x.Ends B i → ∀ j, j ≠ i → x.s.io.kernel j ≠ .reaped → ∀ k, j ≤ k → x.data k = [])
  | .other _ _ => True

end DataState

/-- The request is to be submitted. -/
def DataState.start : DataState := ⟨.start, fun _ => []⟩

end

/-! ## The payload -/

section

variable {B : BulkRequest} {data : ℕ → List UInt8} {old : ℤ → UInt8}

/-- The bytes of the first `n` URBs. -/
def sent (data : ℕ → List UInt8) (n : ℕ) : ℕ := total List.length data (List.range n)

theorem sent_succ (data : ℕ → List UInt8) (n : ℕ) : sent data (n + 1) = sent data n + (data n).length := by
  unfold sent
  rw [List.range_succ, total_append, total_cons, total_nil, Nat.add_zero]

/-- Bytes come behind full URBs only. -/
def Packed (B : BulkRequest) (data : ℕ → List UInt8) (n : ℕ) : Prop :=
  ∀ i j, i < j → j < n → data j ≠ [] → (data i).length = B.buffer_length i

theorem buffer_length_earlier {i j : ℕ} (hij : i < j) (hj : j < B.num_urbs) :
    B.buffer_length i = LINUX_MAX_BULK_INTR_XFER := by
  unfold BulkRequest.buffer_length
  rw [if_neg (by omega)]

theorem slot_end_le {i : ℕ} (hi : i < B.num_urbs) : i * LINUX_MAX_BULK_INTR_XFER + B.buffer_length i ≤ B.length := by
  rw [urb_end hi]
  split_ifs with hlast
  · exact le_rfl
  · exact (offset_lt (by omega)).le

/-- In front of a URB with bytes the buffers are full. -/
theorem sent_full {n : ℕ} (hpacked : Packed B data B.num_urbs) (hn : n < B.num_urbs) (hne : data n ≠ []) :
    ∀ m ≤ n, sent data m = m * LINUX_MAX_BULK_INTR_XFER
  | 0, _ => rfl.trans (Nat.zero_mul _).symm
  | m + 1, hm => by
    rw [sent_succ, sent_full hpacked hn hne m (by omega), hpacked m n (by omega) hn hne,
      buffer_length_earlier (show m < n by omega) hn, Nat.succ_mul]

theorem payload_succ (n : ℕ) :
    B.payload old data (n + 1) = writeAt (B.payload old data n) (B.urb n).offset (data n) := rfl

/-- The bytes of the first URBs are the beginning of the payload. -/
theorem payload_sent (hlength : B.length ≤ 2 ^ 31) (hpacked : Packed B data B.num_urbs)
    (hroom : ∀ j, (data j).length ≤ B.buffer_length j) : ∀ n ≤ B.num_urbs,
    sent data n ≤ B.length ∧
      (List.range (sent data n)).map (fun q : ℕ => B.payload old data n q) = (List.range n).flatMap data
  | 0, _ => ⟨Nat.zero_le _, rfl⟩
  | n + 1, hn => by
    obtain ⟨hle, hprefix⟩ := payload_sent hlength hpacked hroom n (by omega)
    rw [sent_succ, List.range_succ, List.flatMap_append, List.flatMap_singleton, ← hprefix, List.range_add, List.map_append]
    by_cases hempty : data n = []
    · refine ⟨by rw [hempty]; exact hle, ?_⟩
      simp [hempty, BulkRequest.payload, writeAt]
    · have hfull := sent_full hpacked (by omega) hempty n le_rfl
      have hlt := offset_lt (B := B) (i := n) (by omega)
      have hend := slot_end_le (B := B) (i := n) (by omega)
      have hoffset : (B.urb n).offset = (sent data n : ℕ) := by
        rw [hfull]
        exact CInt.toI32_of_lt (hlt.trans_le hlength)
      refine ⟨?_, ?_⟩
      · have hlen := hroom n
        omega
      · congr 1
        · refine List.map_congr_left fun q hq => ?_
          rw [List.mem_range] at hq
          rw [payload_succ]
          unfold writeAt
          rw [hoffset, if_neg (by omega)]
        · rw [List.map_map]
          refine List.ext_getElem (by simp) fun q hq hq' => ?_
          simp only [List.getElem_map, List.getElem_range, Function.comp_apply]
          rw [payload_succ]
          unfold writeAt
          rw [hoffset, if_pos (by omega), show (((sent data n + q : ℕ) : ℤ) - (sent data n : ℕ)).toNat = q by omega,
            List.getD_eq_getElem _ _ hq']

end

/-! ## What the URBs hold -/

/-- The bytes of the URBs that have been reaped. -/
def received (B : BulkRequest) (kernel : ℕ → UrbState) (data : ℕ → List UInt8) : ℕ :=
  total (fun u : UrbState × ℕ => if u.1 = .reaped then u.2 else 0) (fun j => (kernel j, (data j).length))
    (List.range B.num_urbs)

/-- The bytes of a request that can still end with `OPENUSB_SUCCESS`. -/
structure Tracks (B : BulkRequest) (io : UrbIo) (data : ℕ → List UInt8) : Prop where
  fresh : ∀ j, ¬ (io.kernel j).Ended → data j = []
  done : ∀ j status len, io.kernel j = .done status len → (data j).length = len ∧ (data j ≠ [] → Carries status)
  packed : ∀ i j, i < j → (io.kernel i).Ended → data j ≠ [] → (data i).length = B.buffer_length i
  room : ∀ j, (data j).length ≤ B.buffer_length j
  counted : io.bytes_transferred = received B io.kernel data % 2 ^ 32

section

variable {B : BulkRequest} {io io' : UrbIo} {data : ℕ → List UInt8} {i : ℕ} {status : ℤ}

theorem ended_done {len : ℕ} : (UrbState.done status len).Ended := ⟨by simp, by simp⟩

theorem received_congr {kernel kernel' : ℕ → UrbState} {data' : ℕ → List UInt8}
    (h : ∀ j, (kernel' j = .reaped ↔ kernel j = .reaped) ∧ (kernel j = .reaped → data' j = data j)) :
    received B kernel' data' = received B kernel data := by
  refine total_congr fun j _ => ?_
  by_cases hj : kernel j = .reaped
  · simp only [if_pos hj, if_pos ((h j).1.mpr hj), (h j).2 hj]
  · simp only [if_neg hj, if_neg fun hj' => hj ((h j).1.mp hj')]

theorem Tracks.congr (h : Tracks B io data) (hkernel : io'.kernel = io.kernel)
    (hbytes : io'.bytes_transferred = io.bytes_transferred) : Tracks B io' data := by
  obtain ⟨hfresh, hdone, hpacked, hroom, hcounted⟩ := h
  rw [← hkernel] at hfresh hdone hpacked hcounted
  exact ⟨hfresh, hdone, hpacked, hroom, hbytes.trans hcounted⟩

/-- Which URBs have ended, where the new state of URB `i` makes no difference. -/
theorem setKernel_ended {u : UrbState} (hu : u.Ended ↔ (io.kernel i).Ended) (j : ℕ) :
    ((io.setKernel i u).kernel j).Ended ↔ (io.kernel j).Ended := by
  by_cases hji : j = i
  · rw [hji, UrbIo.setKernel_self, hu]
  · rw [UrbIo.setKernel_of_ne _ _ hji]

/-- A URB that is in another state than the new one of URB `i` was in it before. -/
theorem of_setKernel {u v : UrbState} (huv : u ≠ v) {j : ℕ} (hj : (io.setKernel i u).kernel j = v) : io.kernel j = v := by
  by_cases hji : j = i
  · rw [hji, UrbIo.setKernel_self] at hj
    exact absurd hj huv
  · rwa [UrbIo.setKernel_of_ne _ _ hji] at hj

/-- A URB is submitted. -/
theorem Tracks.accept (h : Tracks B io data) (hi : io.kernel i = .idle) : Tracks B (io.setKernel i .pending) data := by
  have hended : ∀ j, ((io.setKernel i .pending).kernel j).Ended ↔ (io.kernel j).Ended := by
    refine setKernel_ended ?_
    rw [hi]
    exact ⟨fun hj => absurd rfl hj.2, fun hj => absurd rfl hj.1⟩
  refine ⟨fun j hj => h.fresh j (mt (hended j).mpr hj), fun j status len hj => h.done j status len ?_,
    fun a b hab ha => h.packed a b hab ((hended a).mp ha), h.room, h.counted.trans ?_⟩
  · exact of_setKernel (by simp) hj
  · refine congrArg (· % 2 ^ 32) (received_congr fun j => ⟨?_, fun _ => rfl⟩).symm
    by_cases hji : j = i
    · rw [hji, UrbIo.setKernel_self, hi]
      simp
    · rw [UrbIo.setKernel_of_ne _ _ hji]

/-- A URB finishes in its order. -/
theorem Tracks.finish {bytes : List UInt8} (h : Tracks B io data) (hi : io.kernel i = .pending)
    (hroom : bytes.length ≤ B.buffer_length i) (hcarries : bytes ≠ [] → Carries status)
    (hearlier : bytes ≠ [] → ∀ j < i, (io.kernel j).Ended → (data j).length = B.buffer_length j)
    (hlater : bytes.length < B.buffer_length i → ∀ j, i < j → data j = []) :
    Tracks B (io.setKernel i (.done status bytes.length)) (Function.update data i bytes) where
  fresh j hj := by
    by_cases hji : j = i
    · rw [hji, UrbIo.setKernel_self] at hj
      exact absurd ended_done hj
    · rw [UrbIo.setKernel_of_ne _ _ hji] at hj
      rw [Function.update_of_ne hji]
      exact h.fresh j hj
  done j st len hj := by
    by_cases hji : j = i
    · subst hji
      rw [UrbIo.setKernel_self, UrbState.done.injEq] at hj
      obtain ⟨rfl, rfl⟩ := hj
      rw [Function.update_self]
      exact ⟨rfl, hcarries⟩
    · rw [UrbIo.setKernel_of_ne _ _ hji] at hj
      rw [Function.update_of_ne hji]
      exact h.done j st len hj
  packed a b hab ha hb := by
    by_cases hai : a = i
    · subst hai
      rw [Function.update_of_ne hab.ne'] at hb
      rw [Function.update_self]
      by_contra hshort
      exact hb (hlater (lt_of_le_of_ne hroom hshort) b hab)
    · rw [UrbIo.setKernel_of_ne _ _ hai] at ha
      rw [Function.update_of_ne hai]
      by_cases hbi : b = i
      · subst hbi
        rw [Function.update_self] at hb
        exact hearlier hb a hab ha
      · rw [Function.update_of_ne hbi] at hb
        exact h.packed a b hab ha hb
  room j := by
    by_cases hji : j = i
    · rw [hji, Function.update_self]
      exact hroom
    · rw [Function.update_of_ne hji]
      exact h.room j
  counted := by
    refine h.counted.trans (congrArg (· % 2 ^ 32) (received_congr fun j => ?_).symm)
    by_cases hji : j = i
    · rw [hji, UrbIo.setKernel_self, hi]
      simp
    · rw [UrbIo.setKernel_of_ne _ _ hji, Function.update_of_ne hji]
      exact ⟨Iff.rfl, fun _ => rfl⟩

/-- A URB is reaped, and its bytes are counted. -/
theorem Tracks.taken {len : ℕ} (h : Tracks B io data) (hi : i < B.num_urbs) (hdone : io.kernel i = .done status len) :
    Tracks B (if Carries status then (io.setKernel i .reaped).addBytes len else io.setKernel i .reaped) data := by
  have hended : ∀ j, ((io.setKernel i .reaped).kernel j).Ended ↔ (io.kernel j).Ended := by
    refine setKernel_ended ?_
    rw [hdone]
    exact ⟨fun _ => ended_done, fun _ => ⟨by simp, by simp⟩⟩
  have hkernel : (if Carries status then (io.setKernel i .reaped).addBytes len else io.setKernel i .reaped).kernel =
      (io.setKernel i .reaped).kernel := by
    split_ifs <;> rfl
  have hreceived : received B (io.setKernel i .reaped).kernel data = received B io.kernel data + (data i).length := by
    have hupdate := total_update (w := fun u : UrbState × ℕ => if u.1 = .reaped then u.2 else 0)
      (f := fun j => (io.kernel j, (data j).length)) (u := (.reaped, (data i).length)) List.nodup_range (List.mem_range.mpr hi)
    rw [hdone] at hupdate
    simp only [reduceCtorEq, if_false, if_true, Nat.add_zero] at hupdate
    rw [received, received, ← hupdate]
    refine congrArg (fun f => total _ f _) (funext fun j => ?_)
    by_cases hji : j = i
    · rw [hji, UrbIo.setKernel_self, Function.update_self]
    · rw [UrbIo.setKernel_of_ne _ _ hji, Function.update_of_ne hji]
  obtain ⟨hlen, hcarries⟩ := h.done i status len hdone
  refine ⟨fun j hj => h.fresh j (mt (hended j).mpr (hkernel ▸ hj)), fun j st l hj => ?_,
    fun a b hab ha => h.packed a b hab ((hended a).mp (hkernel ▸ ha)), h.room, ?_⟩
  · rw [hkernel] at hj
    exact h.done j st l (of_setKernel (by simp) hj)
  · rw [hkernel, hreceived]
    by_cases hstatus : Carries status
    · rw [if_pos hstatus]
      show (io.bytes_transferred + len) % 2 ^ 32 = _
      rw [h.counted, hlen, Nat.mod_add_mod]
    · have hempty : data i = [] := by
        by_contra hne
        exact hstatus (hcarries hne)
      rw [if_neg hstatus, hempty]
      exact h.counted

/-- URBs without bytes behind them are discarded. -/
theorem Tracks.discard (h : Tracks B io data) (hframe : io.Frame io')
    (hlater : ∀ a b, io'.kernel a ≠ io.kernel a → a < b → data b = []) : Tracks B io' data where
  fresh j hj := by
    rcases hframe.kernel j with hk | ⟨-, hk⟩
    · exact h.fresh j (hk ▸ hj)
    · exact absurd (hk ▸ ended_done) hj
  done j st len hj := by
    rcases hframe.kernel j with hk | ⟨hpending, hk⟩
    · exact h.done j st len (hk ▸ hj)
    · have hempty := h.fresh j (by rw [hpending]; exact fun hended => hended.2 rfl)
      rw [hk, UrbState.done.injEq] at hj
      rw [hempty]
      exact ⟨hj.2, fun hne => absurd rfl hne⟩
  packed a b hab ha hb := by
    by_cases hk : io'.kernel a = io.kernel a
    · exact h.packed a b hab (hk ▸ ha) hb
    · exact absurd (hlater a b hk hab) hb
  room := h.room
  counted := by
    refine hframe.bytes.trans (h.counted.trans (congrArg (· % 2 ^ 32) (received_congr fun j => ⟨?_, fun _ => rfl⟩).symm))
    rcases hframe.kernel j with hk | ⟨hpending, hk⟩
    · rw [hk]
    · rw [hk, hpending]
      simp

end

/-! ## The stages of a request -/

section

variable (B : BulkRequest) (x : DataState)

/-- The request is not completed and can still end with `OPENUSB_SUCCESS`. -/
structure DataState.Open : Prop where
  live : x.Live
  completions : x.s.io.completions = []
  frees : x.s.io.frees = 0
  idle : ∀ i, x.s.submitted ≤ i → x.s.io.kernel i = .idle
  le : x.s.submitted ≤ B.num_urbs
  tracks : Tracks B x.s.io x.data

/-- It will not end with `OPENUSB_SUCCESS`. -/
structure DataState.Lost : Prop where
  dead : ¬ x.Live
  failed : ∀ n, (OPENUSB_SUCCESS, n) ∉ x.s.io.completions

/-- It has ended with `OPENUSB_SUCCESS`. -/
structure DataState.Over : Prop where
  all : ∀ old, x.Prefix B old
  live : x.Live
  completions : x.s.io.completions ≠ []
  frees : x.s.io.frees ≠ 0
  listed : x.s.listed = false
  returned : x.s.returned ≠ none
  fresh : ∀ j, x.s.io.kernel j = .pending → x.data j = []

def DataState.Staged : Prop := x.Open B ∨ x.Lost ∨ x.Over B

end

section

variable {B : BulkRequest} {x : DataState} {s t : BulkState} {data cut : ℕ → List UInt8} {i : ℕ} {status : ℤ} {len : ℕ}

theorem DataState.Staged.prefixed (h : x.Staged B) (old : ℤ → UInt8) : x.Prefix B old := by
  intro n hn
  rcases h with hopen | hlost | hover
  · rw [hopen.completions] at hn
    exact absurd hn List.not_mem_nil
  · exact absurd hn (hlost.failed n)
  · exact hover.all old n hn

theorem lost_of_action {a : ReapAction} (ha : t.io.reap_action = a) (hnormal : a ≠ .normal) (hearly : a ≠ .completedEarly)
    (hfailed : ∀ n, (OPENUSB_SUCCESS, n) ∉ t.io.completions) : DataState.Lost ⟨t, data⟩ := by
  refine ⟨?_, hfailed⟩
  rintro (hlive | hlive)
  · exact hnormal (ha.symm.trans hlive)
  · exact hearly (ha.symm.trans hlive)

/-- A step that discards no bytes leaves the data as they are. -/
theorem other_data (h : ∀ j, x.s.io.kernel j = .pending → t.io.kernel j = .done (-ENOENT) 0 → cut j = x.data j) :
    (fun j => if x.s.io.kernel j = .pending ∧ t.io.kernel j = .done (-ENOENT) 0 then cut j else x.data j) = x.data := by
  funext j
  by_cases hj : x.s.io.kernel j = .pending ∧ t.io.kernel j = .done (-ENOENT) 0
  · rw [if_pos hj]
    exact h j hj.1 hj.2
  · rw [if_neg hj]

/-- `handle_partial_xfer` leaves the URBs before its range alone. -/
theorem handlePartialXfer_earlier {j : ℕ} (hj : j ≤ i) (action : ReapAction) (io : UrbIo) :
    (handlePartialXfer B.layout (i + 1) action io).kernel j = io.kernel j := by
  have hround : ∀ (l : List ℕ) (io : UrbIo), (∀ k ∈ l, k ≠ j) →
      (l.foldl (partialXferRound B.layout) io).kernel j = io.kernel j := by
    intro l
    induction l with
    | nil => exact fun _ _ => rfl
    | cons k l ih =>
      intro io hl
      rw [List.foldl_cons, ih _ fun k' hk' => hl k' (List.mem_cons_of_mem k hk')]
      have hkj := hl k List.mem_cons_self
      unfold partialXferRound discardUrb
      split_ifs
      · rfl
      · by_cases hk : k < B.num_urbs
        · simp only [BulkRequest.layout, if_pos hk]
          split_ifs
          · exact UrbIo.setKernel_of_ne _ _ (Ne.symm hkj) _
          · rfl
        · simp only [BulkRequest.layout, if_neg hk]
          rfl
  refine hround _ _ fun k hk => ?_
  rw [List.mem_range'_1] at hk
  omega

/-- The counters after an awaited reap depend on the counters only. -/
theorem awaitedReap_congr {io io' : UrbIo} (c : Bool) (status : ℤ) (hreap : io'.urbs_to_reap = io.urbs_to_reap)
    (hcancel : io'.urbs_to_cancel = io.urbs_to_cancel) :
    (awaitedReap c status io').urbs_to_reap = (awaitedReap c status io).urbs_to_reap ∧
      (awaitedReap c status io').urbs_to_cancel = (awaitedReap c status io).urbs_to_cancel := by
  unfold awaitedReap UrbIo.decCancel UrbIo.decReap
  rw [hreap, hcancel]
  split_ifs <;> simp [hreap, hcancel]

/-- The request ends with all bytes counted. -/
theorem over_of_ends (hlength : B.length ≤ 2 ^ 31) (hnone : s.io.completions = []) (hreturned : s.returned ≠ none)
    (hlive : DataState.Live ⟨s, data⟩) (htracks : Tracks B s.io data)
    (hrest : ∀ j, s.io.kernel j ≠ .reaped → ∀ k, j ≤ k → data k = []) :
    DataState.Over B ⟨(s.complete OPENUSB_SUCCESS).release, data⟩ where
  all old n hn := by
    have hn' : (OPENUSB_SUCCESS, n) ∈ s.io.completions ++ [(OPENUSB_SUCCESS, s.io.bytes_transferred)] := hn
    rw [hnone, List.nil_append, List.mem_singleton, Prod.mk.injEq] at hn'
    obtain ⟨-, rfl⟩ := hn'
    have hpacked : Packed B data B.num_urbs := by
      intro a b hab _ hb
      by_cases ha : s.io.kernel a = .reaped
      · exact htracks.packed a b hab (by rw [ha]; exact ⟨by simp, by simp⟩) hb
      · exact absurd (hrest a ha b hab.le) hb
    have hall : received B s.io.kernel data = sent data B.num_urbs := by
      refine congrArg List.sum (List.map_congr_left fun j _ => ?_)
      by_cases hj : s.io.kernel j = .reaped
      · exact if_pos hj
      · rw [hrest j hj j le_rfl]
        exact if_neg hj
    obtain ⟨hle, hprefix⟩ := @payload_sent _ _ old hlength hpacked htracks.room B.num_urbs le_rfl
    have htotal : s.io.bytes_transferred = sent data B.num_urbs := by
      rw [htracks.counted, hall]
      exact Nat.mod_eq_of_lt (hle.trans_lt B.length_lt)
    rw [htotal]
    exact hprefix
  live := hlive
  completions := List.append_ne_nil_of_right_ne_nil _ (List.cons_ne_nil _ _)
  frees := Nat.succ_ne_zero _
  listed := rfl
  returned := hreturned
  fresh j hj := htracks.fresh j (by
    have hpending : s.io.kernel j = .pending := hj
    rw [hpending]
    exact fun hended => hended.2 rfl)

/-- The reaped URB has been taken and counted: the state at which `handle_bulk_intr_complete` branches. -/
theorem reap_counted (h : x.Open B) (hdone : x.s.io.kernel i = .done status len) :
    ∃ s, (x.s.taken i).countBytes status len = s ∧ s.io.reap_action = x.s.io.reap_action ∧ s.io.completions = [] ∧
      s.io.frees = 0 ∧ s.io.urbs_to_reap = x.s.io.urbs_to_reap ∧ s.io.urbs_to_cancel = x.s.io.urbs_to_cancel ∧
      s.returned = x.s.returned ∧ s.submitted = x.s.submitted ∧ s.io.kernel = Function.update x.s.io.kernel i .reaped ∧
      Tracks B s.io x.data := by
  have hi : i < B.num_urbs := by
    by_contra hge
    have hidle := h.idle i (h.le.trans (not_lt.mp hge))
    rw [hdone] at hidle
    exact absurd hidle (by simp)
  have htaken := h.tracks.taken hi hdone
  have hio : ((x.s.taken i).countBytes status len).io =
      if Carries status then (x.s.io.setKernel i .reaped).addBytes len else x.s.io.setKernel i .reaped := by
    unfold BulkState.countBytes
    by_cases hstatus : status = 0 ∨ status = - EREMOTEIO
    · rw [if_pos hstatus, if_pos (show Carries status from hstatus)]
      rfl
    · rw [if_neg hstatus, if_neg (show ¬ Carries status from hstatus)]
      rfl
  rw [← hio] at htaken
  obtain ⟨b, hb⟩ := countBytes_eq (x.s.taken i) status len
  refine ⟨_, rfl, ?_, ?_, ?_, ?_, ?_, ?_, ?_, ?_, htaken⟩ <;> rw [hb]
  · rfl
  · exact h.completions
  · exact h.frees
  · rfl
  · rfl
  · rfl
  · rfl
  · rfl

/-- A reap discards nothing. -/
theorem reaped_data (hdone : x.s.io.kernel i = .done status len)
    (hkernel : t.io.kernel = Function.update x.s.io.kernel i .reaped) :
    (fun j => if x.s.io.kernel j = .pending ∧ t.io.kernel j = .done (-ENOENT) 0 then cut j else x.data j) = x.data := by
  refine other_data fun j hj hj' => ?_
  have hne : j ≠ i := by
    rintro rfl
    rw [hdone] at hj
    exact absurd hj (by simp)
  rw [hkernel, Function.update_of_ne hne, hj] at hj'
  exact absurd hj' (by simp)

/-- What is left of the URBs when the reap of URB `i` ends the request. -/
theorem rest_of_ends {k : ℕ → UrbState} (hkernel : k = Function.update x.s.io.kernel i .reaped)
    (hrest : ∀ j, j ≠ i → x.s.io.kernel j ≠ .reaped → ∀ m, j ≤ m → x.data m = []) :
    ∀ j, k j ≠ .reaped → ∀ m, j ≤ m → x.data m = [] := by
  intro j hj
  have hne : j ≠ i := by
    rintro rfl
    exact hj (by rw [hkernel, Function.update_self])
  rw [hkernel, Function.update_of_ne hne] at hj
  exact hrest j hne hj

/-- The URBs that are not submitted yet stay idle. -/
theorem idle_of_reaped (h : x.Open B) (hdone : x.s.io.kernel i = .done status len)
    (hsub : s.submitted = x.s.submitted) (hkernel : s.io.kernel = Function.update x.s.io.kernel i .reaped) :
    ∀ j, s.submitted ≤ j → s.io.kernel j = .idle := by
  intro j hj
  have hj' := h.idle j (hsub ▸ hj)
  have hne : j ≠ i := by
    rintro rfl
    rw [hdone] at hj'
    exact absurd hj' (by simp)
  rw [hkernel, Function.update_of_ne hne, hj']

/-- A status that counts no bytes makes the request fail. -/
theorem failed_lost (hnone : s.io.completions = []) (hstatus : ¬ Carries status) :
    DataState.Lost ⟨s.reapNormal B i status len, data⟩ := by
  by_cases hstall : status = -EPIPE
  · rw [normal_stall hstall]
    have hframe := handlePartialXfer_frame B.layout (i + 1) .stall s.io
    refine lost_of_action (a := .stall) hframe.action nofun nofun fun n hn => ?_
    have hn' : (OPENUSB_SUCCESS, n) ∈ (handlePartialXfer B.layout (i + 1) .stall s.io).completions ++
        [(OPENUSB_IO_STALL, _)] := hn
    rw [hframe.completions, hnone, List.nil_append, List.mem_singleton, Prod.mk.injEq] at hn'
    exact absurd hn'.1 (by decide)
  · have hfail : s.reapNormal B i status len =
        { s with io := handlePartialXfer B.layout (i + 1) .unknownFailure s.io } := by
      have hother : ¬ (status = 0 ∨ status = - EREMOTEIO) := hstatus
      unfold BulkState.reapNormal
      rw [if_neg hother, if_neg hstall]
    have hframe := handlePartialXfer_frame B.layout (i + 1) .unknownFailure s.io
    rw [hfail]
    refine lost_of_action (a := .unknownFailure) hframe.action nofun nofun fun n hn => ?_
    have hn' : (OPENUSB_SUCCESS, n) ∈ (handlePartialXfer B.layout (i + 1) .unknownFailure s.io).completions := hn
    rw [hframe.completions, hnone] at hn'
    exact absurd hn' List.not_mem_nil

/-- The reap of a URB of a `NORMAL` request. -/
theorem reap_open_normal (hlength : B.length ≤ 2 ^ 31) (h : x.Open B) (haction : x.s.io.reap_action = .normal)
    (hreturned : x.s.returned ≠ none) (hdone : x.s.io.kernel i = .done status len)
    (hcut : Carries status → ∀ j, cut j = [])
    (hends : x.Ends B i → ∀ j, j ≠ i → x.s.io.kernel j ≠ .reaped → ∀ k, j ≤ k → x.data k = [])
    (ht : t = (x.s.taken i).handleBulkIntrComplete B i status len) :
    DataState.Staged B
      ⟨t, fun j => if x.s.io.kernel j = .pending ∧ t.io.kernel j = .done (-ENOENT) 0 then cut j else x.data j⟩ := by
  obtain ⟨s, hs, hact, hnone, hfrees, -, -, hret, hsub, hkernel, htracks⟩ := reap_counted h hdone
  have hidle := idle_of_reaped h hdone hsub hkernel
  rw [bulk_handle_normal (s := x.s.taken i) i status len h.frees haction, hs] at ht
  by_cases hstatus : Carries status
  · by_cases hlast : i = B.num_urbs - 1
    · rw [normal_last hstatus hlast] at ht
      rw [reaped_data hdone (by rw [ht]; exact hkernel), ht]
      refine .inr (.inr (over_of_ends hlength hnone (hret ▸ hreturned) (.inl (hact.trans haction)) htracks ?_))
      exact rest_of_ends hkernel (hends ⟨status, len, hdone, h.frees, .inl ⟨haction, hstatus, hlast⟩⟩)
    · by_cases hfull : len < B.buffer_length i
      · -- a short URB: nothing comes behind it, and what is discarded has no bytes
        rw [normal_short hstatus hlast hfull] at ht
        have hframe := handlePartialXfer_frame B.layout (i + 1) .completedEarly s.io
        have hdata := @other_data x t cut fun j hj _ =>
          (hcut hstatus j).trans (h.tracks.fresh j (by rw [hj]; exact fun hended => hended.2 rfl)).symm
        rw [hdata, ht]
        have haction' : Tracks B { s.io with reap_action := .completedEarly } x.data := htracks.congr rfl rfl
        have hlater : ∀ b, i < b → x.data b = [] := by
          intro b hb
          by_contra hne
          have hlen := h.tracks.packed i b hb (hdone ▸ ended_done) hne
          rw [(h.tracks.done i status len hdone).1] at hlen
          omega
        refine .inl ⟨.inr hframe.action, hframe.completions.trans hnone, hframe.frees.trans hfrees, ?_, ?_, ?_⟩
        · intro j hj
          exact (hframe.kernel_of_ne (by rw [hidle j hj]; simp)).trans (hidle j hj)
        · exact hsub.trans_le h.le
        · refine haction'.discard hframe fun a b ha hab => hlater b ?_
          have hia : i < a := by
            by_contra hle
            exact ha (handlePartialXfer_earlier (not_lt.mp hle) _ _)
          omega
      · rw [normal_quiet hstatus hlast hfull] at ht
        rw [reaped_data hdone (by rw [ht]; exact hkernel), ht]
        exact .inl ⟨.inl (hact.trans haction), hnone, hfrees, hidle, hsub.trans_le h.le, htracks⟩
  · rw [ht]
    exact .inr (.inl (failed_lost hnone hstatus))

/-- The reap of a URB after a short one. -/
theorem reap_open_early (hlength : B.length ≤ 2 ^ 31) (h : x.Open B) (haction : x.s.io.reap_action = .completedEarly)
    (hreturned : x.s.returned ≠ none) (hdone : x.s.io.kernel i = .done status len)
    (hends : x.Ends B i → ∀ j, j ≠ i → x.s.io.kernel j ≠ .reaped → ∀ k, j ≤ k → x.data k = [])
    (ht : t = (x.s.taken i).handleBulkIntrComplete B i status len) :
    DataState.Staged B
      ⟨t, fun j => if x.s.io.kernel j = .pending ∧ t.io.kernel j = .done (-ENOENT) 0 then cut j else x.data j⟩ := by
  obtain ⟨s, hs, hact, hnone, hfrees, hreap, hcancel, hret, hsub, hkernel, htracks⟩ := reap_counted h hdone
  obtain ⟨hkeep, hbytes, hkcomp, hkact, hkfrees, -⟩ := awaitedReap_keeps (B.continuation i) status s.io
  obtain ⟨hreap', hcancel'⟩ := awaitedReap_congr (B.continuation i) status hreap hcancel
  have hearly : (awaitedReap (B.continuation i) status s.io).reap_action = .completedEarly :=
    hkact.trans (hact.trans haction)
  have htracks' : Tracks B (awaitedReap (B.continuation i) status s.io) x.data := htracks.congr hkeep hbytes
  rw [bulk_handle_awaited (s := x.s.taken i) i status len h.frees (by
    show x.s.io.reap_action ≠ .normal
    rw [haction]
    simp), hs] at ht
  unfold BulkState.reapAwaited at ht
  by_cases hzero : (awaitedReap (B.continuation i) status s.io).urbs_to_reap = 0 ∧
      (awaitedReap (B.continuation i) status s.io).urbs_to_cancel = 0
  · have hresult : (awaitedReap (B.continuation i) status s.io).reap_action.result = some OPENUSB_SUCCESS := by
      rw [hearly]
      rfl
    rw [drain_of_zero hzero hresult] at ht
    rw [reaped_data hdone (by rw [ht]; exact hkeep.trans hkernel), ht]
    refine .inr (.inr (over_of_ends hlength (hkcomp.trans hnone) (hret.trans_ne hreturned) (.inr hearly) htracks' ?_))
    refine rest_of_ends (hkeep.trans hkernel) (hends ⟨status, len, hdone, h.frees, .inr ⟨haction, ?_, ?_⟩⟩)
    · exact hreap'.symm.trans hzero.1
    · exact hcancel'.symm.trans hzero.2
  · rw [drain_of_owed hzero] at ht
    rw [reaped_data hdone (by rw [ht]; exact hkeep.trans hkernel), ht]
    refine .inl ⟨.inr hearly, hkcomp.trans hnone, hkfrees.trans hfrees, fun j hj => ?_, hsub.trans_le h.le, htracks'⟩
    show (awaitedReap (B.continuation i) status s.io).kernel j = .idle
    rw [hkeep]
    exact idle_of_reaped h hdone hsub hkernel j hj

theorem result_ne_success {a : ReapAction} (h : a ≠ .completedEarly) : a.result ≠ some OPENUSB_SUCCESS := by
  cases a <;> first | exact absurd rfl h | decide

/-- Only a request that has completed early is reported as a success when nothing is awaited. -/
theorem drain_lost (h : DataState.Lost ⟨s, data⟩) : DataState.Lost ⟨s.drain, data⟩ := by
  by_cases hzero : s.io.urbs_to_reap = 0 ∧ s.io.urbs_to_cancel = 0
  · cases hresult : s.io.reap_action.result with
    | none =>
      have hsame : s.drain = s := by
        unfold BulkState.drain
        rw [if_pos hzero, hresult]
      rwa [hsame]
    | some result =>
      have hne : result ≠ OPENUSB_SUCCESS := by
        rintro rfl
        exact result_ne_success (fun hearly => h.dead (.inr hearly)) hresult
      rw [drain_of_zero hzero hresult]
      refine ⟨h.dead, fun n hn => ?_⟩
      rcases List.mem_append.mp hn with hn | hn
      · exact h.failed n hn
      · rw [List.mem_singleton, Prod.mk.injEq] at hn
        exact hne hn.1.symm
  · rwa [drain_of_owed hzero]

/-- A reap that cannot lead to `OPENUSB_SUCCESS` any more. -/
theorem bulk_reap_lost (h : x.Lost) : DataState.Lost ⟨(x.s.taken i).handleBulkIntrComplete B i status len, data⟩ := by
  by_cases hfrees : x.s.io.frees = 0
  · have haction : (x.s.taken i).io.reap_action ≠ .normal := fun hnormal => h.dead (.inl hnormal)
    obtain ⟨b, hb⟩ := countBytes_eq (x.s.taken i) status len
    obtain ⟨-, -, hkcomp, hkact, -⟩ := awaitedReap_keeps (B.continuation i) status ((x.s.taken i).withBytes b).io
    rw [bulk_handle_awaited (s := x.s.taken i) i status len hfrees haction, hb]
    refine drain_lost ⟨?_, fun n hn => h.failed n (hkcomp ▸ hn)⟩
    rintro (hlive | hlive)
    · exact h.dead (.inl (hkact.symm.trans hlive))
    · exact h.dead (.inr (hkact.symm.trans hlive))
  · have htouch : (x.s.taken i).handleBulkIntrComplete B i status len =
        { x.s.taken i with io := (x.s.taken i).io.touch } := if_pos hfrees
    rw [htouch]
    exact ⟨h.dead, h.failed⟩

/-- A reap when the URBs have been freed. -/
theorem bulk_reap_over (h : x.Over B) (hdone : x.s.io.kernel i = .done status len)
    (ht : t = (x.s.taken i).handleBulkIntrComplete B i status len) :
    DataState.Over B
      ⟨t, fun j => if x.s.io.kernel j = .pending ∧ t.io.kernel j = .done (-ENOENT) 0 then cut j else x.data j⟩ := by
  have htouch : t = { x.s.taken i with io := (x.s.taken i).io.touch } := ht.trans (if_pos h.frees)
  have hkernel : t.io.kernel = Function.update x.s.io.kernel i .reaped := by
    rw [htouch]
    rfl
  rw [reaped_data hdone hkernel, htouch]
  refine ⟨h.all, h.live, h.completions, h.frees, h.listed, h.returned, fun j hj => ?_⟩
  have hj' : (x.s.io.setKernel i .reaped).kernel j = .pending := hj
  exact h.fresh j (of_setKernel (by simp) hj')

/-- Discarding all URBs, for a cancel or a timeout, gives the success up. -/
theorem discard_lost {a : ReapAction} (hnormal : a ≠ .normal) (hearly : a ≠ .completedEarly)
    (hfailed : ∀ n, (OPENUSB_SUCCESS, n) ∉ x.s.io.completions) (ht : t.io = discardUrbs B.layout a x.s.io.touch) :
    DataState.Lost ⟨t, data⟩ := by
  have hframe := discardUrbs_frame B.layout a x.s.io.touch
  refine lost_of_action (by rw [ht]; exact hframe.action) hnormal hearly fun n hn => hfailed n ?_
  rw [ht, hframe.completions] at hn
  exact hn

theorem staged_failed (h : x.Open B ∨ x.Lost) : ∀ n, (OPENUSB_SUCCESS, n) ∉ x.s.io.completions := by
  intro n hn
  rcases h with hopen | hlost
  · rw [hopen.completions] at hn
    exact absurd hn List.not_mem_nil
  · exact hlost.failed n hn

theorem finish_staged {bytes : List UInt8} (h : x.Staged B) (hG : x.InOrder B (.finish i status bytes))
    (hroom : bytes.length ≤ B.buffer_length i) (hpending : x.s.io.kernel i = .pending) :
    DataState.Staged B ⟨{ x.s with io := x.s.io.setKernel i (.done status bytes.length) }, Function.update x.data i bytes⟩ := by
  rcases h with hopen | hlost | hover
  · obtain ⟨hsome, hlater⟩ := hG hopen.live
    refine .inl ⟨hopen.live, hopen.completions, hopen.frees, fun j hj => ?_, hopen.le, ?_⟩
    · have hidle := hopen.idle j hj
      have hne : j ≠ i := by
        rintro rfl
        rw [hpending] at hidle
        exact absurd hidle (by simp)
      exact (UrbIo.setKernel_of_ne _ _ hne _).trans hidle
    · exact hopen.tracks.finish hpending hroom (fun hne => (hsome hne).1) (fun hne => (hsome hne).2.2) hlater
  · exact .inr (.inl ⟨hlost.dead, hlost.failed⟩)
  · have hempty : bytes = [] := by
      by_contra hne
      exact hover.completions ((hG hover.live).1 hne).2.1
    have hdata : Function.update x.data i bytes = x.data := by
      rw [hempty, ← hover.fresh i hpending, Function.update_eq_self]
    rw [hdata]
    refine .inr (.inr ⟨hover.all, hover.live, hover.completions, hover.frees, hover.listed, hover.returned, fun j hj => ?_⟩)
    have hj' : (x.s.io.setKernel i (.done status bytes.length)).kernel j = .pending := hj
    exact hover.fresh j (of_setKernel (by simp) hj')

theorem accept_staged (h : x.Staged B) (hnone : x.s.returned = none) (hlt : x.s.submitted < B.num_urbs) :
    DataState.Staged B ⟨x.s.accepted B,
      fun j => if x.s.io.kernel j = .pending ∧ (x.s.accepted B).io.kernel j = .done (-ENOENT) 0 then cut j else x.data j⟩ := by
  rcases h with hopen | hlost | hover
  · have hdata := @other_data x (x.s.accepted B) cut fun j hj hj' => by
      have hkernel : (x.s.io.setKernel x.s.submitted .pending).kernel j = .done (-ENOENT) 0 := hj'
      by_cases hjs : j = x.s.submitted
      · rw [hjs, UrbIo.setKernel_self] at hkernel
        exact absurd hkernel (by simp)
      · rw [UrbIo.setKernel_of_ne _ _ hjs, hj] at hkernel
        exact absurd hkernel (by simp)
    rw [hdata]
    refine .inl ⟨hopen.live, hopen.completions, hopen.frees, fun j hj => ?_, hlt,
      hopen.tracks.accept (hopen.idle x.s.submitted le_rfl)⟩
    have hlt' : x.s.submitted < j := hj
    exact (UrbIo.setKernel_of_ne _ _ hlt'.ne' _).trans (hopen.idle j hlt'.le)
  · exact .inr (.inl ⟨hlost.dead, hlost.failed⟩)
  · exact absurd hnone hover.returned

theorem refused_staged {errno : ℤ} (h : x.Staged B) (hnone : x.s.returned = none) :
    DataState.Staged B ⟨x.s.refused B errno,
      fun j => if x.s.io.kernel j = .pending ∧ (x.s.refused B errno).io.kernel j = .done (-ENOENT) 0 then cut j
        else x.data j⟩ := by
  have hcase : x.Open B ∨ x.Lost := by
    rcases h with hopen | hlost | hover
    · exact .inl hopen
    · exact .inr hlost
    · exact absurd hnone hover.returned
  by_cases hzero : x.s.submitted = 0
  · have hrefused : x.s.refused B errno = { x.s with status := .completedFail, returned := some (translateErrno errno) } :=
      if_pos hzero
    have hdata := @other_data x (x.s.refused B errno) cut fun j hj hj' => by
      rw [hrefused] at hj'
      exact absurd (hj.symm.trans hj') (by simp)
    rw [hdata, hrefused]
    rcases hcase with hopen | hlost
    · exact .inl ⟨hopen.live, hopen.completions, hopen.frees, hopen.idle, hopen.le, hopen.tracks⟩
    · exact .inr (.inl ⟨hlost.dead, hlost.failed⟩)
  · have hrefused : x.s.refused B errno =
        { x.s with io := handlePartialSubmit B.layout x.s.submitted x.s.io, returned := some OPENUSB_SUCCESS } := by
      unfold BulkState.refused
      rw [if_neg hzero, if_neg (by decide)]
    have hframe := handlePartialSubmit_frame B.layout x.s.submitted x.s.io
    refine .inr (.inl (lost_of_action (a := .submitFailed) (by rw [hrefused]; exact hframe.action) nofun nofun fun n hn => ?_))
    rw [hrefused] at hn
    have hn' : (OPENUSB_SUCCESS, n) ∈ (handlePartialSubmit B.layout x.s.submitted x.s.io).completions := hn
    rw [hframe.completions] at hn'
    exact staged_failed hcase n hn'

/-- One step in order. -/
theorem prefix_step (hlength : B.length ≤ 2 ^ 31) {y : DataState} {l : DataLabel} (h : x.Staged B) (hG : x.InOrder B l)
    (hstep : DataStep B x l y) : y.Staged B := by
  cases hstep with
  | @finish i status bytes t hroom hbulk =>
    cases hbulk with
    | finish hpending => exact finish_staged h hG hroom hpending
  | @other l cut t hl hroom hbulk =>
    cases hbulk with
    | finish => exact absurd rfl (hl _ _ _)
    | accept hnone hlt => exact accept_staged h hnone hlt
    | refuse hnone hlt => exact refused_staged h hnone
    | @reap i status len hreturned hdone =>
      obtain ⟨hcut, hends⟩ := hG
      rcases h with hopen | hlost | hover
      · rcases hopen.live with haction | haction
        · exact reap_open_normal hlength hopen haction hreturned hdone (hcut status len hdone) hends rfl
        · exact reap_open_early hlength hopen haction hreturned hdone hends rfl
      · exact .inr (.inl (bulk_reap_lost hlost))
      · exact .inr (.inr (bulk_reap_over hover hdone rfl))
    | cancel hreturned hlisted =>
      rcases h with hopen | hlost | hover
      · exact .inr (.inl (discard_lost (a := .canceled) nofun nofun (staged_failed (.inl hopen)) rfl))
      · exact .inr (.inl (discard_lost (a := .canceled) nofun nofun (staged_failed (B := B) (.inr hlost)) rfl))
      · rw [hover.listed] at hlisted
        exact absurd hlisted (by simp)
    | timeout hreturned hlisted hstatus =>
      rcases h with hopen | hlost | hover
      · exact .inr (.inl (discard_lost (a := .timedout) nofun nofun (staged_failed (.inl hopen)) rfl))
      · exact .inr (.inl (discard_lost (a := .timedout) nofun nofun (staged_failed (B := B) (.inr hlost)) rfl))
      · rw [hover.listed] at hlisted
        exact absurd hlisted (by simp)

theorem start_staged (B : BulkRequest) : DataState.start.Staged B := by
  refine .inl ⟨.inl rfl, rfl, rfl, fun _ _ => rfl, Nat.zero_le _, fun _ _ => rfl, fun j status len hj => ?_,
    fun i j _ hi => absurd rfl hi.1, fun _ => Nat.zero_le _, ?_⟩
  · exact absurd hj (by simp [DataState.start, BulkState.start, UrbIo.fresh])
  · have hnone : received B DataState.start.s.io.kernel DataState.start.data = 0 :=
      total_eq_zero.mpr fun j _ => if_neg (by simp [DataState.start, BulkState.start, UrbIo.fresh])
    rw [hnone]
    rfl

/-- A request of at most `2 ^ 31` bytes whose steps are all in order: whenever it has ended with `OPENUSB_SUCCESS`, the
first `transferred_bytes` bytes of its payload are those that the device has sent. -/
theorem payload_prefix (B : BulkRequest) (hlength : B.length ≤ 2 ^ 31) (old : ℤ → UInt8) (ls : List DataLabel) (x : DataState)
    (hrun : Run (DataStep B) (DataState.InOrder B) .start ls x) : x.Prefix B old := by
  have hstaged : x.Staged B :=
    hrun.inv (fun _ _ _ hs hG hstep => prefix_step hlength hs hG hstep) (start_staged B)
  exact hstaged.prefixed old

/-- A step with no bytes in what it discards. -/
theorem step_quiet {l : BulkLabel} (hl : ∀ i status len, l ≠ .finish i status len)
    (hempty : ∀ j, x.s.io.kernel j = .pending → x.data j = []) (h : BulkStep B x.s l t) :
    DataStep B x (.other l fun _ => []) ⟨t, x.data⟩ := by
  have hstep := @DataStep.other _ _ _ (fun _ => []) _ hl (fun _ => Nat.zero_le _) h
  rwa [other_data fun j hj _ => (hempty j hj).symm] at hstep

end

theorem twoSlots_fit : 20000 < 2 ^ 32 := by decide

/-- Two URBs, on a kernel without the continuation flag. -/
def twoSlots : BulkRequest := ⟨20000, twoSlots_fit, false⟩

/-- The first URB is short, and the second one is discarded. -/
theorem payload_prefix_short :
    ∃ x : DataState, x.Prefix twoSlots (fun _ => 0) ∧ x.s.io.completions = [(OPENUSB_SUCCESS, 3)] := by
  refine ⟨_, payload_prefix twoSlots (by decide) (fun _ => 0)
    [.other .accept fun _ => [], .other .accept fun _ => [], .finish 0 0 [1, 2, 3], .other (.reap 0) fun _ => [],
      .other (.reap 1) fun _ => []] _
    (.cons trivial (step_quiet nofun (fun _ _ => rfl) (.accept rfl (by decide)))
      (.cons trivial (step_quiet nofun (fun _ _ => rfl) (.accept rfl (by decide)))
        (.cons ?_ (.finish (by decide) (.finish rfl))
          (.cons ⟨fun _ _ _ _ _ => rfl, ?_⟩ (step_quiet nofun ?_ (.reap (by decide) rfl))
            (.cons ⟨fun _ _ _ _ _ => rfl, ?_⟩ (step_quiet nofun ?_ (.reap (by decide) rfl)) (.nil _)))))), rfl⟩
  · exact fun _ => ⟨fun _ => ⟨.inl rfl, rfl, fun j hj => absurd hj (Nat.not_lt_zero j)⟩, fun _ _ _ => rfl⟩
  · intro _ j hj _ k hk
    have hne : k ≠ 0 := by omega
    exact Function.update_of_ne hne _ _
  · intro j hj
    have hne : j ≠ 0 := by
      rintro rfl
      exact absurd hj nofun
    exact Function.update_of_ne hne _ _
  · intro _ j hj hleft k hk
    have hne : j ≠ 0 := by
      rintro rfl
      exact hleft rfl
    have hne' : k ≠ 0 := by omega
    exact Function.update_of_ne hne' _ _
  · intro j hj
    have hne : j ≠ 0 := by
      rintro rfl
      exact absurd hj nofun
    exact Function.update_of_ne hne _ _

/-- The second URB has finished with a byte before the first one, which is short, is reaped: the byte is counted, and lies
behind a gap. -/
theorem payload_gap : ¬ ∀ (B : BulkRequest) (old : ℤ → UInt8) (ls : List DataLabel) (x : DataState),
    Run (DataStep B) (fun _ _ => True) .start ls x → x.Prefix B old := by
  intro h
  have hprefix := h twoSlots (fun _ => 0)
    [.other .accept fun _ => [], .other .accept fun _ => [], .finish 0 0 [1, 2, 3], .finish 1 0 [9],
      .other (.reap 0) fun _ => [], .other (.reap 1) fun _ => []] _
    (.cons trivial (step_quiet nofun (fun _ _ => rfl) (.accept rfl (by decide)))
      (.cons trivial (step_quiet nofun (fun _ _ => rfl) (.accept rfl (by decide)))
        (.cons trivial (.finish (by decide) (.finish rfl))
          (.cons trivial (.finish (by decide) (.finish rfl))
            (.cons trivial (.other nofun (fun _ => Nat.zero_le _) (.reap (by decide) rfl))
              (.cons trivial (.other nofun (fun _ => Nat.zero_le _) (.reap (by decide) rfl)) (.nil _)))))))
    4 (List.mem_singleton.mpr rfl)
  exact absurd hprefix (by decide)

end OpenUsb
