import OpenUsb.Descr
import OpenUsb.Lib.CInt

/-!
# IsocSplit — the URBs of an isochronous request

`linux_submit_isoc` reads the packet lengths twice: a first pass counts the URBs, a second one fills that many.  The first
pass keeps the length of a URB in an `int` and compares unsigned; the second one counts the room down from 32 KiB.

* `agrees_iff`: when the two passes agree.
-/

namespace OpenUsb

def LINUX_MAX_ISOC_XFER : ℕ := 32768

/-- The packets of a request: `num_packets` lengths, and what the memory around the array reads as. -/
structure IsocPackets where
  lengths : List UInt32
  count_lt : lengths.length < 2 ^ 32
  around : ℤ → UInt32

/-- A filled URB: `number_of_packets`, `buffer_length`, and the packets from which its frame descriptors were set up. -/
structure IsocUrb where
  number_of_packets : ℕ
  buffer_length : ℕ
  frames : List ℤ
  deriving DecidableEq, Repr

/-- What the allocations of `linux_submit_isoc` give. -/
structure IsocAlloc where
  priv : Bool
  table : Bool
  urb : ℕ → Bool
  buffer : ℕ → Bool

namespace IsocPackets

variable (P : IsocPackets)

/-- `num_packets`. -/
def num_packets : ℕ := P.lengths.length

/-- `packets[i].length`, for an `int` index. -/
def lengthAt (i : ℤ) : UInt32 := if 0 ≤ i then P.lengths.getD i.toNat (P.around i) else P.around i

/-- The lengths in the order in which a loop reads them: its index is an `int` that is compared as unsigned. -/
def reads : List UInt32 := (List.range P.num_packets).map fun k => P.lengthAt (CInt.toI32 k)

end IsocPackets

/-- One round of the counting pass: `num_urbs` and `this_urb_len`. -/
def countRound (s : ℕ × ℤ) (packet_len : UInt32) : ℕ × ℤ :=
  let space_remaining_in_urb := CInt.toI32 (CInt.toU32 (LINUX_MAX_ISOC_XFER - s.2))
  if packet_len.toNat > CInt.toU32 space_remaining_in_urb then ((s.1 + 1) % 2 ^ 32, CInt.toI32 packet_len.toNat)
  else (s.1, CInt.toI32 (CInt.toU32 s.2 + packet_len.toNat))

/-- The packets that fit in the room of a URB: how many, and their bytes. -/
def fitting : ℕ → List UInt32 → ℕ × ℕ
  | _, [] => (0, 0)
  | space_remaining_in_urb, packet_len :: rest =>
    if packet_len.toNat ≤ space_remaining_in_urb then
      let fit := fitting (space_remaining_in_urb - packet_len.toNat) rest
      (fit.1 + 1, packet_len.toNat + fit.2)
    else (0, 0)

/-- The indices of a loop `for (k = packet_offset - urb_packet_offset; k < packet_offset; k++)` over `int`s. -/
def frameLoop (packet_offset urb_packet_offset : ℕ) : List ℤ :=
  let stop := CInt.toI32 packet_offset
  let first := CInt.toI32 (CInt.toU32 (stop - urb_packet_offset))
  (List.range (stop - first).toNat).map fun j : ℕ => first + j

/-- The second pass from URB `i` on, with `k` to go, behind `packet_offset` packets: the URBs, or the return after a failed
allocation. -/
def fillUrbs (alloc : IsocAlloc) : ℕ → ℕ → ℕ → List UInt32 → Except ℤ (List IsocUrb)
  | 0, _, _, _ => .ok []
  | k + 1, i, packet_offset, rest =>
    let fit := fitting LINUX_MAX_ISOC_XFER rest
    if alloc.urb i && alloc.buffer i then do
      let urbs ← fillUrbs alloc k (i + 1) (packet_offset + fit.1) (rest.drop fit.1)
      return ⟨fit.1, fit.2, frameLoop (packet_offset + fit.1) fit.1⟩ :: urbs
    else .error OPENUSB_NO_RESOURCES

namespace IsocPackets

variable (P : IsocPackets)

/-- `io->priv->num_urbs` after the counting pass. -/
def num_urbs : ℕ := (P.reads.foldl countRound (1, 0)).1

/-- `linux_submit_isoc` up to the first submission. -/
def linuxSubmitIsoc (alloc : IsocAlloc) : Except ℤ (List IsocUrb) :=
  if alloc.priv && alloc.table then fillUrbs alloc P.num_urbs 0 0 P.reads else .error OPENUSB_NO_RESOURCES

/-- An allocation of the call fails. -/
def AllocFails (alloc : IsocAlloc) : Prop :=
  ¬ (alloc.priv = true ∧ alloc.table = true ∧ ∀ i < P.num_urbs, alloc.urb i = true ∧ alloc.buffer i = true)

/-- The URBs contain every packet once and in order, each has at most 32 KiB, and as many are filled as were counted, none
of them empty. -/
structure Agrees (urbs : List IsocUrb) : Prop where
  count : urbs.length = P.num_urbs
  packets : urbs.flatMap IsocUrb.frames = (List.range P.num_packets).map fun k : ℕ => (k : ℤ)
  sized : ∀ u ∈ urbs, u.number_of_packets = u.frames.length ∧
    u.buffer_length = (u.frames.map fun k => (P.lengthAt k).toNat).sum
  small : ∀ u ∈ urbs, u.buffer_length ≤ LINUX_MAX_ISOC_XFER
  filled : P.num_packets ≠ 0 → ∀ u ∈ urbs, u.frames ≠ []

end IsocPackets

/-! ## The second pass -/

section

variable {alloc : IsocAlloc} {k i packet_offset space : ℕ} {rest : List UInt32}

/-- The second pass with memory for everything. -/
def fillAll : ℕ → ℕ → List UInt32 → List IsocUrb
  | 0, _, _ => []
  | k + 1, packet_offset, rest =>
    let fit := fitting LINUX_MAX_ISOC_XFER rest
    ⟨fit.1, fit.2, frameLoop (packet_offset + fit.1) fit.1⟩ :: fillAll k (packet_offset + fit.1) (rest.drop fit.1)

theorem fillUrbs_ok : ∀ (k i packet_offset : ℕ) (rest : List UInt32),
    (∀ j, i ≤ j → j < i + k → alloc.urb j = true ∧ alloc.buffer j = true) →
    fillUrbs alloc k i packet_offset rest = .ok (fillAll k packet_offset rest)
  | 0, _, _, _, _ => rfl
  | k + 1, i, packet_offset, rest, h => by
    obtain ⟨hurb, hbuffer⟩ := h i le_rfl (by omega)
    have hlater := fillUrbs_ok k (i + 1) (packet_offset + (fitting LINUX_MAX_ISOC_XFER rest).1)
      (rest.drop (fitting LINUX_MAX_ISOC_XFER rest).1) fun j hlo hhi => h j (by omega) (by omega)
    simp only [fillUrbs, hurb, hbuffer, Bool.and_self, if_true, hlater]
    rfl

theorem fillUrbs_error : ∀ (k i packet_offset : ℕ) (rest : List UInt32) (j : ℕ), i ≤ j → j < i + k →
    ¬ (alloc.urb j = true ∧ alloc.buffer j = true) → ∃ code, fillUrbs alloc k i packet_offset rest = .error code
  | 0, _, _, _, _, hlo, hhi, _ => by omega
  | k + 1, i, packet_offset, rest, j, hlo, hhi, h => by
    unfold fillUrbs
    by_cases hi : (alloc.urb i && alloc.buffer i) = true
    · have hne : j ≠ i := by
        rintro rfl
        exact h (by simpa using hi)
      obtain ⟨code, hcode⟩ := fillUrbs_error k (i + 1) (packet_offset + (fitting LINUX_MAX_ISOC_XFER rest).1)
        (rest.drop (fitting LINUX_MAX_ISOC_XFER rest).1) j (by omega) (by omega) h
      simp only [if_pos hi, hcode]
      exact ⟨code, rfl⟩
    · simp only [if_neg hi]
      exact ⟨_, rfl⟩

/-- What fits: a prefix, its bytes, and the packet behind it is too long. -/
theorem fitting_spec (space : ℕ) (rest : List UInt32) : (fitting space rest).1 ≤ rest.length ∧
    (fitting space rest).2 = ((rest.take (fitting space rest).1).map UInt32.toNat).sum ∧
    (fitting space rest).2 ≤ space ∧
    ∀ l ls, rest.drop (fitting space rest).1 = l :: ls → space < (fitting space rest).2 + l.toNat := by
  induction rest generalizing space with
  | nil => simp [fitting]
  | cons l ls ih =>
    unfold fitting
    by_cases hfit : l.toNat ≤ space
    · obtain ⟨hlen, hsum, hle, hnext⟩ := ih (space - l.toNat)
      simp only [if_pos hfit]
      refine ⟨?_, ?_, ?_, fun l' ls' hdrop => ?_⟩
      · rw [List.length_cons]
        omega
      · rw [List.take_succ_cons, List.map_cons, List.sum_cons, ← hsum]
      · omega
      · rw [List.drop_succ_cons] at hdrop
        have hlong := hnext l' ls' hdrop
        omega
    · simp only [if_neg hfit]
      refine ⟨Nat.zero_le _, rfl, Nat.zero_le _, fun l' ls' hdrop => ?_⟩
      rw [List.drop_zero, List.cons.injEq] at hdrop
      obtain ⟨rfl, -⟩ := hdrop
      omega

theorem fitting_pos {l : UInt32} (hl : l.toNat ≤ space) : 0 < (fitting space (l :: rest)).1 := by
  unfold fitting
  simp only [if_pos hl]
  exact Nat.succ_pos _

/-- While the index does not overflow, the frames are of the packets that were taken. -/
theorem frameLoop_eq {n : ℕ} (h : packet_offset + n < 2 ^ 31) :
    frameLoop (packet_offset + n) n = (List.range n).map fun j : ℕ => ((packet_offset + j : ℕ) : ℤ) := by
  have hstop : CInt.toI32 (packet_offset + n) = (packet_offset + n : ℕ) := CInt.toI32_of_lt h
  have hback : CInt.toU32 (((packet_offset + n : ℕ) : ℤ) - n) = packet_offset := by
    unfold CInt.toU32
    omega
  have hfirst : CInt.toI32 packet_offset = packet_offset := CInt.toI32_of_lt (by omega)
  have hcount : (((packet_offset + n : ℕ) : ℤ) - packet_offset).toNat = n := by
    omega
  unfold frameLoop
  simp only [hstop, hback, hfirst, hcount]
  refine List.map_congr_left fun j _ => ?_
  exact (Nat.cast_add _ _).symm

/-- No frame is of the last packet that an `int` can index. -/
theorem frameLoop_lt {n : ℕ} {k : ℤ} (hk : k ∈ frameLoop packet_offset n) : k < 2 ^ 31 - 1 := by
  unfold frameLoop at hk
  obtain ⟨j, hj, rfl⟩ := List.mem_map.mp hk
  rw [List.mem_range] at hj
  have hstop : CInt.toI32 packet_offset < 2 ^ 31 := by
    unfold CInt.toI32
    split_ifs <;> omega
  omega

theorem fillAll_lt {u : IsocUrb} {j : ℤ} (hu : u ∈ fillAll k packet_offset rest) (hj : j ∈ u.frames) : j < 2 ^ 31 - 1 := by
  induction k generalizing packet_offset rest with
  | zero => exact absurd hu List.not_mem_nil
  | succ k ih =>
    rcases List.mem_cons.mp hu with rfl | hu
    · exact frameLoop_lt hj
    · exact ih hu

end

/-! ## The first pass -/

section

variable {u t l : ℕ} {rest : List UInt32}

/-- A round of the counting pass, for a packet and a length of at most 32 KiB. -/
theorem countRound_eq {l : UInt32} (ht : t ≤ LINUX_MAX_ISOC_XFER) (hl : l.toNat ≤ LINUX_MAX_ISOC_XFER) :
    countRound (u, t) l = if LINUX_MAX_ISOC_XFER < t + l.toNat then ((u + 1) % 2 ^ 32, (l.toNat : ℤ))
      else (u, ((t + l.toNat : ℕ) : ℤ)) := by
  have hspace : CInt.toU32 (CInt.toI32 (CInt.toU32 ((LINUX_MAX_ISOC_XFER : ℤ) - t))) = LINUX_MAX_ISOC_XFER - t := by
    unfold CInt.toU32 CInt.toI32 LINUX_MAX_ISOC_XFER at *
    split_ifs <;> omega
  have hlen : CInt.toI32 l.toNat = l.toNat := by
    unfold LINUX_MAX_ISOC_XFER at hl
    exact CInt.toI32_of_lt (by omega)
  have hsum : CInt.toI32 (CInt.toU32 t + l.toNat) = (t + l.toNat : ℕ) := by
    unfold LINUX_MAX_ISOC_XFER at ht hl
    have ht' : CInt.toU32 t = t := by
      unfold CInt.toU32
      omega
    rw [ht']
    exact CInt.toI32_of_lt (by omega)
  unfold countRound
  simp only [hspace, hlen, hsum]
  by_cases hlong : LINUX_MAX_ISOC_XFER < t + l.toNat
  · rw [if_pos hlong, if_pos (by omega)]
  · rw [if_neg hlong, if_neg (by omega)]

/-- The packets that fit into the current URB add to its length. -/
theorem count_fitting : ∀ (rest : List UInt32) (t : ℕ), t ≤ LINUX_MAX_ISOC_XFER →
    (∀ l ∈ rest, l.toNat ≤ LINUX_MAX_ISOC_XFER) →
    rest.foldl countRound (u, (t : ℤ)) = (rest.drop (fitting (LINUX_MAX_ISOC_XFER - t) rest).1).foldl countRound
      (u, ((t + (fitting (LINUX_MAX_ISOC_XFER - t) rest).2 : ℕ) : ℤ))
  | [], t, _, _ => rfl
  | l :: ls, t, ht, hls => by
    have hl := hls l List.mem_cons_self
    unfold fitting
    by_cases hfit : l.toNat ≤ LINUX_MAX_ISOC_XFER - t
    · have hround := countRound_eq (u := u) ht hl
      rw [if_neg (by omega)] at hround
      simp only [if_pos hfit]
      rw [List.foldl_cons, hround, List.drop_succ_cons,
        count_fitting ls (t + l.toNat) (by omega) fun l' hl' => hls l' (List.mem_cons_of_mem _ hl')]
      rw [show LINUX_MAX_ISOC_XFER - (t + l.toNat) = LINUX_MAX_ISOC_XFER - t - l.toNat by omega, Nat.add_assoc]
    · simp only [if_neg hfit, List.drop_zero, Nat.add_zero]

/-- The first packet that does not fit begins a URB, as it would from an empty one. -/
theorem count_next {l : UInt32} {ls : List UInt32} (ht : t ≤ LINUX_MAX_ISOC_XFER) (hl : l.toNat ≤ LINUX_MAX_ISOC_XFER)
    (hlong : LINUX_MAX_ISOC_XFER < t + l.toNat) (hu : u + 1 < 2 ^ 32) :
    (l :: ls).foldl countRound (u, (t : ℤ)) = (l :: ls).foldl countRound (u + 1, ((0 : ℕ) : ℤ)) := by
  have hround := countRound_eq (u := u) ht hl
  rw [if_pos hlong, Nat.mod_eq_of_lt hu] at hround
  have hfresh := countRound_eq (u := u + 1) (Nat.zero_le _) hl
  rw [if_neg (by omega), Nat.zero_add] at hfresh
  rw [List.foldl_cons, List.foldl_cons, hround, hfresh]

/-! ## Both passes -/

theorem lengthAt_natCast {P : IsocPackets} {k : ℕ} (hk : k < P.lengths.length) :
    P.lengthAt (k : ℤ) = P.lengths[k] := by
  unfold IsocPackets.lengthAt
  rw [if_pos (Int.natCast_nonneg k), Int.toNat_natCast, List.getD_eq_getElem]

/-- The frames have the bytes of the packets from which they were set up. -/
theorem frames_lengths {P : IsocPackets} {packet_offset n : ℕ} (hn : n ≤ (P.lengths.drop packet_offset).length) :
    ((List.range n).map fun j : ℕ => ((packet_offset + j : ℕ) : ℤ)).map (fun k => (P.lengthAt k).toNat) =
      ((P.lengths.drop packet_offset).take n).map UInt32.toNat := by
  rw [List.length_drop] at hn
  apply List.ext_getElem
  · simp
    omega
  · intro j hj hj'
    have hlt : j < n := by simpa using hj
    simp only [List.getElem_map, List.getElem_range, List.getElem_take, List.getElem_drop]
    rw [lengthAt_natCast (by omega)]

theorem range_split {a n m : ℕ} (h : n ≤ m) : (List.range m).map (fun j : ℕ => ((a + j : ℕ) : ℤ)) =
    (List.range n).map (fun j : ℕ => ((a + j : ℕ) : ℤ)) ++
      (List.range (m - n)).map fun j : ℕ => ((a + n + j : ℕ) : ℤ) := by
  obtain ⟨d, rfl⟩ := Nat.exists_eq_add_of_le h
  rw [List.range_add, List.map_append, List.map_map, Nat.add_sub_cancel_left]
  simp [Function.comp_def, Nat.add_assoc]

/-- The URB that the second pass fills behind `packet_offset` packets. -/
theorem urb_packed {P : IsocPackets} (hcount : P.num_packets < 2 ^ 31)
    (hsmall : ∀ l ∈ P.lengths, l.toNat ≤ LINUX_MAX_ISOC_XFER) {packet_offset : ℕ} (hoff : packet_offset ≤ P.num_packets)
    {fit : ℕ × ℕ} (hfit : fit = fitting LINUX_MAX_ISOC_XFER (P.lengths.drop packet_offset)) {urb : IsocUrb}
    (hurb : urb = ⟨fit.1, fit.2, frameLoop (packet_offset + fit.1) fit.1⟩) :
    urb.frames = (List.range fit.1).map (fun j : ℕ => ((packet_offset + j : ℕ) : ℤ)) ∧
      (urb.number_of_packets = urb.frames.length ∧
        urb.buffer_length = (urb.frames.map fun k => (P.lengthAt k).toNat).sum) ∧
      urb.buffer_length ≤ LINUX_MAX_ISOC_XFER ∧ (packet_offset ≠ P.num_packets → urb.frames ≠ []) := by
  subst hurb
  obtain ⟨hn, hbytes, hroom, -⟩ := fitting_spec LINUX_MAX_ISOC_XFER (P.lengths.drop packet_offset)
  rw [← hfit] at hn hbytes hroom
  have hlen : (P.lengths.drop packet_offset).length = P.num_packets - packet_offset := List.length_drop
  rw [hlen] at hn
  have hframes := @frameLoop_eq packet_offset fit.1 (by omega)
  refine ⟨hframes, ⟨?_, ?_⟩, hroom, fun hne hnil => ?_⟩
  · rw [hframes, List.length_map, List.length_range]
  · rw [hframes, frames_lengths (by rw [hlen]; exact hn)]
    exact hbytes
  · rcases hcase : P.lengths.drop packet_offset with _ | ⟨l, ls⟩
    · rw [hcase, List.length_nil] at hlen
      omega
    · have hl : l ∈ P.lengths := List.mem_of_mem_drop (hcase ▸ List.mem_cons_self)
      have hpos : 0 < fit.1 := by
        rw [hfit, hcase]
        exact fitting_pos (hsmall l hl)
      have hzero : fit.1 = 0 := by
        simpa [hframes] using hnil
      omega

/-- From an empty URB on: as many URBs as the first pass counts take all packets. -/
theorem passes_agree {P : IsocPackets} (hcount : P.num_packets < 2 ^ 31)
    (hsmall : ∀ l ∈ P.lengths, l.toNat ≤ LINUX_MAX_ISOC_XFER) : ∀ (m packet_offset u : ℕ),
    P.num_packets - packet_offset ≤ m → packet_offset ≤ P.num_packets →
    u + (P.num_packets - packet_offset) < 2 ^ 32 → ∃ e,
      ((P.lengths.drop packet_offset).foldl countRound (u, ((0 : ℕ) : ℤ))).1 = u + e ∧
      (fillAll (e + 1) packet_offset (P.lengths.drop packet_offset)).flatMap IsocUrb.frames =
        (List.range (P.num_packets - packet_offset)).map (fun j : ℕ => ((packet_offset + j : ℕ) : ℤ)) ∧
      ∀ urb ∈ fillAll (e + 1) packet_offset (P.lengths.drop packet_offset),
        (urb.number_of_packets = urb.frames.length ∧
          urb.buffer_length = (urb.frames.map fun k => (P.lengthAt k).toNat).sum) ∧
        urb.buffer_length ≤ LINUX_MAX_ISOC_XFER ∧ (packet_offset ≠ P.num_packets → urb.frames ≠ []) := by
  intro m packet_offset u hm hoff hu
  have hlen : (P.lengths.drop packet_offset).length = P.num_packets - packet_offset := List.length_drop
  obtain ⟨hn, -, hroom, hnext⟩ := fitting_spec LINUX_MAX_ISOC_XFER (P.lengths.drop packet_offset)
  have hpass := count_fitting (u := u) (P.lengths.drop packet_offset) 0 (Nat.zero_le _)
    fun l hl => hsmall l (List.mem_of_mem_drop hl)
  rw [Nat.sub_zero, Nat.zero_add] at hpass
  obtain ⟨fit, hfit⟩ : ∃ fit, fit = fitting LINUX_MAX_ISOC_XFER (P.lengths.drop packet_offset) := ⟨_, rfl⟩
  rw [← hfit] at hn hroom hnext hpass
  obtain ⟨hframes, hpacked⟩ := urb_packed hcount hsmall hoff hfit rfl
  have hloop : frameLoop (packet_offset + fit.1) fit.1 =
      (List.range fit.1).map (fun j : ℕ => ((packet_offset + j : ℕ) : ℤ)) := hframes
  rcases hrest : (P.lengths.drop packet_offset).drop fit.1 with _ | ⟨l, ls⟩
  · -- everything that is left fits into this URB
    have hall : fit.1 = P.num_packets - packet_offset := by
      have hle := List.drop_eq_nil_iff.mp hrest
      omega
    refine ⟨0, ?_, ?_, fun urb hurb => ?_⟩
    · rw [hpass, hrest]
      rfl
    · simp only [fillAll, ← hfit, List.flatMap_cons, List.flatMap_nil, List.append_nil]
      rw [hloop, hall]
    · simp only [fillAll, ← hfit, List.mem_singleton] at hurb
      rw [hurb]
      exact hpacked
  · -- the next packet begins a URB
    have hleft : (P.lengths.drop (packet_offset + fit.1)).length = ls.length + 1 := by
      rw [← List.drop_drop, hrest, List.length_cons]
    rw [List.length_drop] at hleft
    have hnum : P.num_packets = P.lengths.length := rfl
    have hl : l ∈ P.lengths := List.mem_of_mem_drop (List.mem_of_mem_drop (hrest ▸ List.mem_cons_self))
    have hpos : 0 < fit.1 := by
      have hne := hpacked.2.2 (by omega)
      rw [hframes] at hne
      by_contra hzero
      exact hne (by rw [show fit.1 = 0 by omega]; rfl)
    cases m with
    | zero => omega
    | succ m =>
      obtain ⟨e, hcounted, hflat, hlater⟩ := passes_agree hcount hsmall m (packet_offset + fit.1) (u + 1) (by omega)
        (by omega) (by omega)
      refine ⟨e + 1, ?_, ?_, fun urb hurb => ?_⟩
      · rw [hpass, hrest, count_next hroom (hsmall l hl) (hnext l ls hrest) (by omega), ← hrest, List.drop_drop, hcounted]
        omega
      · rw [fillAll]
        simp only [← hfit, List.flatMap_cons, List.drop_drop]
        rw [hflat, hloop, range_split (n := fit.1) (m := P.num_packets - packet_offset) (by omega), Nat.sub_sub]
      · rw [fillAll] at hurb
        simp only [← hfit, List.drop_drop, List.mem_cons] at hurb
        rcases hurb with rfl | hurb
        · exact hpacked
        · obtain ⟨hsized, hlen32, hne⟩ := hlater urb hurb
          exact ⟨hsized, hlen32, fun _ => hne (by omega)⟩

/-- Below 2³¹ packets the index of the loops never turns negative. -/
theorem reads_eq {P : IsocPackets} (hcount : P.num_packets < 2 ^ 31) : P.reads = P.lengths := by
  unfold IsocPackets.num_packets at hcount
  unfold IsocPackets.reads IsocPackets.num_packets
  apply List.ext_getElem
  · rw [List.length_map, List.length_range]
  · intro k hk hk'
    rw [List.getElem_map, List.getElem_range, CInt.toI32_of_lt (by omega), lengthAt_natCast hk']

theorem fillAll_length : ∀ (k packet_offset : ℕ) (rest : List UInt32), (fillAll k packet_offset rest).length = k
  | 0, _, _ => rfl
  | k + 1, packet_offset, rest => by
    rw [fillAll, List.length_cons, fillAll_length k]

/-- Whatever the allocations give: an error, or what the second pass makes of all packets. -/
theorem linuxSubmitIsoc_cases (P : IsocPackets) (alloc : IsocAlloc) :
    (P.AllocFails alloc ∧ ∃ code, P.linuxSubmitIsoc alloc = .error code) ∨
      (¬ P.AllocFails alloc ∧ P.linuxSubmitIsoc alloc = .ok (fillAll P.num_urbs 0 P.reads)) := by
  unfold IsocPackets.AllocFails IsocPackets.linuxSubmitIsoc
  by_cases hall : alloc.priv = true ∧ alloc.table = true ∧
      ∀ i < P.num_urbs, alloc.urb i = true ∧ alloc.buffer i = true
  · obtain ⟨hpriv, htable, hurbs⟩ := hall
    refine .inr ⟨not_not.mpr ⟨hpriv, htable, hurbs⟩, ?_⟩
    rw [if_pos (by rw [hpriv, htable]; rfl)]
    exact fillUrbs_ok _ _ _ _ fun j _ hj => hurbs j (by omega)
  · refine .inl ⟨hall, ?_⟩
    by_cases htables : (alloc.priv && alloc.table) = true
    · rw [if_pos htables]
      rw [Bool.and_eq_true] at htables
      obtain ⟨j, hj, hfail⟩ : ∃ j, j < P.num_urbs ∧ ¬ (alloc.urb j = true ∧ alloc.buffer j = true) := by
        by_contra hnone
        push Not at hnone
        exact hall ⟨htables.1, htables.2, hnone⟩
      exact fillUrbs_error _ _ _ _ j (Nat.zero_le _) (by omega) hfail
    · rw [if_neg htables]
      exact ⟨_, rfl⟩

/-- A packet is no longer than the URB that contains it. -/
theorem packet_le_urb {P : IsocPackets} {urbs : List IsocUrb} (h : P.Agrees urbs) {l : UInt32} (hl : l ∈ P.lengths) :
    l.toNat ≤ LINUX_MAX_ISOC_XFER := by
  obtain ⟨j, hj, rfl⟩ := List.getElem_of_mem hl
  have hin : (j : ℤ) ∈ urbs.flatMap IsocUrb.frames := by
    rw [h.packets]
    exact List.mem_map.mpr ⟨j, List.mem_range.mpr hj, rfl⟩
  obtain ⟨urb, hurb, hframe⟩ := List.mem_flatMap.mp hin
  have hle : (P.lengthAt j).toNat ≤ (urb.frames.map fun k => (P.lengthAt k).toNat).sum :=
    List.single_le_sum (fun _ _ => Nat.zero_le _) _ (List.mem_map.mpr ⟨_, hframe, rfl⟩)
  rw [lengthAt_natCast hj, ← (h.sized urb hurb).2] at hle
  exact hle.trans (h.small urb hurb)

/-- With 2³¹ packets or more the last of them is in no URB. -/
theorem packets_overflow {P : IsocPackets} (hcount : 2 ^ 31 ≤ P.num_packets) :
    ¬ P.Agrees (fillAll P.num_urbs 0 P.reads) := by
  intro h
  have hin : ((2 ^ 31 - 1 : ℕ) : ℤ) ∈ (fillAll P.num_urbs 0 P.reads).flatMap IsocUrb.frames := by
    rw [h.packets]
    exact List.mem_map.mpr ⟨2 ^ 31 - 1, List.mem_range.mpr (by omega), rfl⟩
  obtain ⟨urb, hurb, hframe⟩ := List.mem_flatMap.mp hin
  have hlt := fillAll_lt hurb hframe
  omega

/-- The two passes agree unless an allocation fails first, exactly for fewer than 2³¹ packets of at most 32 KiB each. -/
theorem agrees_iff (P : IsocPackets) (alloc : IsocAlloc) :
    (∀ urbs, P.linuxSubmitIsoc alloc = .ok urbs → P.Agrees urbs) ↔
      P.AllocFails alloc ∨ (P.num_packets < 2 ^ 31 ∧ ∀ l ∈ P.lengths, l.toNat ≤ LINUX_MAX_ISOC_XFER) := by
  rcases linuxSubmitIsoc_cases P alloc with ⟨hfails, code, herror⟩ | ⟨hmemory, hok⟩
  · refine ⟨fun _ => .inl hfails, fun _ urbs hurbs => ?_⟩
    rw [herror] at hurbs
    exact absurd hurbs (by simp)
  · constructor
    · intro h
      have hagrees := h _ hok
      by_cases hcount : P.num_packets < 2 ^ 31
      · exact .inr ⟨hcount, fun l hl => packet_le_urb hagrees hl⟩
      · exact absurd hagrees (packets_overflow (by omega))
    · rintro (hfails | ⟨hcount, hsmall⟩) urbs hurbs
      · exact absurd hfails hmemory
      · rw [hok, Except.ok.injEq] at hurbs
        subst hurbs
        obtain ⟨e, hcounted, hflat, hpacked⟩ := passes_agree hcount hsmall P.num_packets 0 1 (by omega) (Nat.zero_le _)
          (by omega)
        rw [List.drop_zero] at hcounted hflat hpacked
        have hnum : P.num_urbs = e + 1 := by
          unfold IsocPackets.num_urbs
          rw [reads_eq hcount, Nat.add_comm]
          exact hcounted
        rw [reads_eq hcount, hnum]
        refine ⟨by rw [fillAll_length, hnum], ?_, fun urb hurb => (hpacked urb hurb).1,
          fun urb hurb => (hpacked urb hurb).2.1, fun hne urb hurb => (hpacked urb hurb).2.2 (Ne.symm hne)⟩
        simpa using hflat

/-- A packet of 32769 bytes is counted into a URB of its own and then put into none. -/
theorem long_packet_dropped :
    ¬ ∀ (P : IsocPackets) (alloc : IsocAlloc) (urbs : List IsocUrb), P.linuxSubmitIsoc alloc = .ok urbs →
      P.Agrees urbs := by
  intro h
  have hagrees := h ⟨[32769], by decide, fun _ => 0⟩ ⟨true, true, fun _ => true, fun _ => true⟩
    [⟨0, 0, []⟩, ⟨0, 0, []⟩] (by decide)
  exact absurd hagrees.packets (by decide)

end

end OpenUsb
