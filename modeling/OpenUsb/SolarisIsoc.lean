import OpenUsb.SolarisTransfer
import OpenUsb.Lib.Stores
import OpenUsb.Lib.Runs

/-!
# SolarisIsoc — the buffers of isochronous transfers on Solaris

A request for the kernel is a header with the number of packets, a descriptor of each with its length, and behind them the
data.  The answer to a request to the device, and the status of one from the host, are descriptors and data again.  The number
of packets and their lengths have 16 bits there, and 32 in the request.

* `isoc_sent_iff`: when the kernel is given the packets of a request.
* `isoc_received_iff`: when the packets of the kernel reach the requests, through a sequence of them.
-/

namespace OpenUsb

namespace Solaris

/-! ## The request -/

/-- `struct openusb_isoc_packet`; the payload has its length in memory. -/
structure IsocPacket where
  payload : List UInt8
  length : UInt32
  payload_length : payload.length = length.toNat

/-- The packets of an `openusb_isoc_request_t`. -/
structure IsocPackets where
  packets : List IsocPacket
  num_packets_lt : packets.length < 2 ^ 32

/-- The size of `struct usbk_isoc_pkt_descr`: two words and a dword. -/
def descrSize : ℕ := 8

namespace IsocPackets

variable (R : IsocPackets) (toHost : Bool)

/-- `n_pkt`, a word. -/
def nPkt : ℕ := R.packets.length % 2 ^ 16

/-- The packets that the loops reach. -/
def used : List IsocPacket := R.packets.take R.nPkt

/-- `pkts_len`. -/
def pktsLen : UInt32 := R.used.foldl (fun len packet => len + packet.length) 0

/-- `len` for the first buffer. -/
def bufLen : UInt32 :=
  if toHost then 4 + .ofNat (descrSize * R.nPkt) else R.pktsLen + 4 + .ofNat (descrSize * R.nPkt)

/-- `len` for the second buffer. -/
def readLen : UInt32 := R.pktsLen + .ofNat (R.nPkt * descrSize)

end IsocPackets

/-- The loop that fills the descriptors from `pkt` on, and puts the data at `p`. -/
def packetStores (toHost : Bool) : ℕ → ℤ → List IsocPacket → List MemStore
  | _, _, [] => []
  | pkt, p, packet :: rest =>
    let descr : ℤ := 4 + descrSize * pkt
    [⟨descr, leBytes 2 packet.length.toUInt16.toNat⟩, ⟨descr + 2, leBytes 2 0⟩, ⟨descr + 4, leBytes 4 0⟩] ++
      if toHost then packetStores toHost (pkt + 1) p rest
      else ⟨p, packet.payload⟩ :: packetStores toHost (pkt + 1) (p + packet.length.toNat) rest

/-- The stores into the first buffer, which is all zeros. -/
def IsocPackets.stores (R : IsocPackets) (toHost : Bool) : List MemStore :=
  ⟨0, leBytes 4 R.nPkt⟩ :: packetStores toHost 0 (4 + descrSize * R.nPkt) R.used

/-- Memory from the first buffer on; `heap` is what lies behind it. -/
def IsocPackets.buffer (R : IsocPackets) (toHost : Bool) (heap : ℤ → UInt8) : ℤ → UInt8 :=
  storeAll (fun q => if q < (R.bufLen toHost).toNat then 0 else heap q) (R.stores toHost)

/-- The loops that copy status and actual length from the descriptors at the start of a buffer. -/
def IsocPackets.isocResults (R : IsocPackets) (buf : ℤ → UInt8) : List (ℕ × ℕ) :=
  (List.range R.nPkt).map fun pkt : ℕ => (leValue buf (descrSize * pkt + 4) 4, leValue buf (descrSize * pkt + 2) 2)

/-- The lengths of the packets. -/
def lengths (packets : List IsocPacket) : List ℕ := packets.map fun packet => packet.length.toNat

/-- The loop that copies the data behind the descriptors to the packets. -/
def IsocPackets.payloads (R : IsocPackets) (buf : ℤ → UInt8) : List (List UInt8) :=
  cutRow buf (R.nPkt * descrSize) (lengths R.used)

/-- What a request meets: the return value of `usb_check_device_and_status_open`, is memory for the buffers there, the calls
of the system, and what the `read` puts into the buffer; `heap` is what lies behind a buffer. -/
structure IsocCalls where
  check : ℤ
  alloc : Bool
  write : IoCall
  readAlloc : Bool
  read : IoCall
  answer : List UInt8
  heap : ℤ → UInt8

/-- What a request leaves: the memory from the buffer on that is written to the data file, the flag of the endpoint, and what
the application gets. -/
structure IsocOut where
  ret : ℤ
  written : Option (ℤ → UInt8)
  inited : Bool
  isocStatus : ℤ
  isocResults : Option (List (ℕ × ℕ))
  payloads : Option (List (List UInt8))

/-- The bytes of a `read` in a buffer. -/
def readInto (buf : ℤ → UInt8) (answer : List UInt8) : ℤ → UInt8 := writeBytes buf 0 answer

/-- The second buffer, all zeros. -/
def IsocPackets.readBuffer (R : IsocPackets) (heap : ℤ → UInt8) : ℤ → UInt8 :=
  fun q => if q < R.readLen.toNat then 0 else heap q

section

variable (lcs : LcStats) (R : IsocPackets) (calls : IsocCalls)

/-- The status of a request from the host. -/
def readOutStatus (inited : Bool) (status : ℤ) : IsocOut :=
  let buf := R.buffer false calls.heap
  let (ret, status) := usbDoIo lcs (descrSize * R.nPkt) calls.read status
  if ret < 0 then ⟨OPENUSB_PLATFORM_FAILURE, some buf, inited, status, none, none⟩
  else ⟨0, some buf, inited, status, some (R.isocResults (readInto buf calls.answer)), none⟩

/-- The data of a request to the device. -/
def readInData (written : Option (ℤ → UInt8)) (status : ℤ) : IsocOut :=
  if !calls.readAlloc then ⟨OPENUSB_NO_RESOURCES, written, true, status, none, none⟩
  else
    let (ret, status) := usbDoIo lcs R.readLen.toNat calls.read status
    if ret < 0 then ⟨OPENUSB_PLATFORM_FAILURE, written, true, status, none, none⟩
    else
      let buf := readInto (R.readBuffer calls.heap) calls.answer
      ⟨0, written, true, status, some (R.isocResults buf), some (R.payloads buf)⟩

/-- `solaris_submit_isoc`. -/
def solarisSubmitIsoc (flags : UInt32) (toHost inited : Bool) (isocStatus : ℤ) : IsocOut :=
  if flags = 1 then ⟨OPENUSB_BADARG, none, inited, isocStatus, none, none⟩
  else if calls.check ≠ 0 then ⟨OPENUSB_NOACCESS, none, inited, isocStatus, none, none⟩
  else if R.pktsLen = 0 then ⟨OPENUSB_BADARG, none, inited, isocStatus, none, none⟩
  else if !calls.alloc then ⟨OPENUSB_NO_RESOURCES, none, inited, isocStatus, none, none⟩
  else if toHost && inited then readInData lcs R calls none isocStatus
  else
    let buf := R.buffer toHost calls.heap
    let (ret, status) := usbDoIo lcs (R.bufLen toHost).toNat calls.write isocStatus
    let inited := inited || toHost
    if ret < 0 then ⟨OPENUSB_PLATFORM_FAILURE, some buf, inited, status, none, none⟩
    else if toHost then readInData lcs R calls (some buf) status
    else readOutStatus lcs R calls inited status

end

/-! ## What the kernel reads and writes -/

/-- The lengths in the descriptors of a request. -/
def kernelLengths (mem : ℤ → UInt8) : List ℕ :=
  (List.range (leValue mem 0 4)).map fun k : ℕ => leValue mem (4 + descrSize * k) 2

/-- The data behind the descriptors. -/
def kernelPayloads (mem : ℤ → UInt8) : List (List UInt8) :=
  cutRow mem (4 + descrSize * leValue mem 0 4) (kernelLengths mem)

/-- A packet that the kernel has done; one from the device has the data, with the length that was asked for. -/
structure KernelPacket where
  status : ℕ
  actual : ℕ
  data : List UInt8
  status_lt : status < 2 ^ 32
  actual_lt : actual < 2 ^ 16

/-- What the application is told of a packet. -/
def KernelPacket.result (k : KernelPacket) : ℕ × ℕ := (k.status, k.actual)

/-- The descriptors of an answer. -/
def descriptors (ks : List KernelPacket) : List UInt8 :=
  ks.flatMap fun k => leBytes 2 k.data.length ++ (leBytes 2 k.actual ++ leBytes 4 k.status)

/-- An answer with data. -/
def answer (ks : List KernelPacket) : List UInt8 := descriptors ks ++ (ks.map KernelPacket.data).flatten

/-! ## The stores -/

section

variable {R : IsocPackets} {packets : List IsocPacket} {toHost : Bool} {k : ℕ} {p : ℤ} {mem heap : ℤ → UInt8} {s : MemStore}
  {ks : List KernelPacket}

/-- The stores of the loop go to the descriptors and to the data of its packets. -/
theorem packetStores_range (hs : s ∈ packetStores toHost k p packets) :
    (4 + descrSize * k ≤ s.addr ∧ s.stop ≤ 4 + descrSize * (k + packets.length)) ∨
      toHost = false ∧ p ≤ s.addr ∧ s.stop ≤ p + (lengths packets).sum := by
  induction packets generalizing k p with
  | nil => exact absurd hs List.not_mem_nil
  | cons packet rest ih =>
    rw [packetStores] at hs
    unfold MemStore.stop descrSize at *
    rcases List.mem_append.mp hs with hs | hs
    · left
      simp only [List.mem_cons, List.not_mem_nil, or_false] at hs
      rcases hs with rfl | rfl | rfl <;> simp only [length_leBytes, List.length_cons] <;> constructor <;> omega
    · have hsum : (lengths (packet :: rest)).sum = packet.length.toNat + (lengths rest).sum := rfl
      rw [hsum, List.length_cons]
      cases toHost with
      | true =>
        rcases ih (if_pos rfl ▸ hs) with h | ⟨h, -⟩
        · omega
        · exact absurd h (by decide)
      | false =>
        rcases List.mem_cons.mp (show s ∈ _ :: _ from hs) with rfl | hs
        · right
          simp only [packet.payload_length]
          exact ⟨trivial, le_rfl, by omega⟩
        · rcases ih hs with h | ⟨-, h⟩
          · omega
          · exact .inr ⟨rfl, by omega⟩

/-- No two stores of the loop overlap. -/
theorem packetStores_apart (hp : 4 + descrSize * (k + packets.length) ≤ p) :
    (packetStores toHost k p packets).Pairwise MemStore.Apart := by
  induction packets generalizing k p with
  | nil => exact .nil
  | cons packet rest ih =>
    rw [List.length_cons] at hp
    unfold descrSize at hp
    -- a store for the packets behind is behind the descriptor of this one
    have hbehind : ∀ p', p ≤ p' → ∀ t ∈ packetStores toHost (k + 1) p' rest, 4 + 8 * k + 8 ≤ t.addr := by
      intro p' hp' t ht
      have hrange := packetStores_range ht
      unfold descrSize at hrange
      omega
    have hdescr : ∀ tail : List MemStore, (∀ t ∈ tail, (4 : ℤ) + 8 * k + 8 ≤ t.addr) → tail.Pairwise MemStore.Apart →
        (([⟨4 + descrSize * k, leBytes 2 packet.length.toUInt16.toNat⟩, ⟨4 + descrSize * k + 2, leBytes 2 0⟩,
          ⟨4 + descrSize * k + 4, leBytes 4 0⟩] : List MemStore) ++ tail).Pairwise MemStore.Apart := by
      intro tail htail hapart
      have hsize : (descrSize : ℤ) = 8 := rfl
      refine List.pairwise_append.mpr ⟨?_, hapart, ?_⟩
      · simp [MemStore.Apart, MemStore.stop]
        omega
      · intro s hs t ht
        have hle := htail t ht
        simp only [List.mem_cons, List.not_mem_nil, or_false] at hs
        refine .inl ?_
        unfold MemStore.stop
        rcases hs with rfl | rfl | rfl <;> simp only [length_leBytes, hsize] <;> omega
    rw [packetStores]
    cases toHost with
    | true =>
      refine hdescr _ (hbehind p le_rfl) (ih ?_)
      unfold descrSize
      omega
    | false =>
      refine hdescr _ ?_ (List.pairwise_cons.mpr ⟨fun t ht => ?_, ih ?_⟩)
      · rintro t (- | ⟨-, ht⟩)
        · dsimp only
          omega
        · exact hbehind _ (by omega) t ht
      · have hrange := packetStores_range ht
        unfold MemStore.Apart MemStore.stop at *
        unfold descrSize at hrange
        simp only [packet.payload_length]
        omega
      · unfold descrSize
        omega

theorem nPkt_lt : R.nPkt < 2 ^ 16 := Nat.mod_lt _ (Nat.two_pow_pos 16)

theorem length_used : R.used.length = R.nPkt := by
  unfold IsocPackets.used
  rw [List.length_take, Nat.min_eq_left]
  exact Nat.mod_le _ _

/-- The header is apart from the rest. -/
theorem stores_apart : (R.stores toHost).Pairwise MemStore.Apart := by
  refine List.pairwise_cons.mpr ⟨fun t ht => ?_, packetStores_apart (by rw [length_used, Nat.cast_zero, zero_add])⟩
  have hrange := packetStores_range ht
  unfold MemStore.Apart MemStore.stop at *
  unfold descrSize at hrange
  simp only [length_leBytes]
  omega

/-- The descriptors of a request that is in memory have the lengths, cut to words. -/
theorem lengths_of_held (hmem : ∀ s ∈ packetStores toHost k p packets, HoldsBytes mem s.addr s.bytes) :
    (List.range' k packets.length).map (fun j : ℕ => leValue mem (4 + descrSize * j) 2) =
      (lengths packets).map (· % 2 ^ 16) := by
  induction packets generalizing k p with
  | nil => rfl
  | cons packet rest ih =>
    rw [packetStores] at hmem
    have hfirst := hmem ⟨4 + descrSize * k, leBytes 2 packet.length.toUInt16.toNat⟩ (by simp)
    have hrest : ∃ p', ∀ s ∈ packetStores toHost (k + 1) p' rest, HoldsBytes mem s.addr s.bytes := by
      cases toHost with
      | true => exact ⟨p, fun s hs => hmem s (List.mem_append_right _ hs)⟩
      | false => exact ⟨_, fun s hs => hmem s (List.mem_append_right _ (List.mem_cons_of_mem _ hs))⟩
    obtain ⟨p', hrest⟩ := hrest
    have hword : packet.length.toUInt16.toNat = packet.length.toNat % 2 ^ 16 := UInt32.toNat_toUInt16 _
    rw [List.length_cons, List.range'_succ, List.map_cons, ih hrest, leValue_of_holds hfirst, hword]
    show _ = packet.length.toNat % 2 ^ 16 :: (lengths rest).map (· % 2 ^ 16)
    rw [show 256 ^ 2 = 2 ^ 16 from rfl, Nat.mod_mod]

/-- The data of a request that is in memory lie one behind another. -/
theorem payloads_of_held (hmem : ∀ s ∈ packetStores false k p packets, HoldsBytes mem s.addr s.bytes) :
    HoldsRow mem p (packets.map IsocPacket.payload) := by
  induction packets generalizing k p with
  | nil => trivial
  | cons packet rest ih =>
    rw [packetStores] at hmem
    refine ⟨hmem ⟨p, packet.payload⟩ (by simp), ?_⟩
    rw [packet.payload_length]
    exact ih fun s hs => hmem s (List.mem_append_right _ (List.mem_cons_of_mem _ hs))

/-! ## The first buffer -/

theorem buffer_held (hs : s ∈ R.stores toHost) : HoldsBytes (R.buffer toHost heap) s.addr s.bytes :=
  holds_storeAll stores_apart hs

theorem buffer_count : leValue (R.buffer toHost heap) 0 4 = R.nPkt := by
  rw [leValue_of_holds (buffer_held (s := ⟨0, leBytes 4 R.nPkt⟩) List.mem_cons_self)]
  exact Nat.mod_eq_of_lt (nPkt_lt.trans (by decide))

/-- The kernel finds the lengths of the packets that the loops reach, cut to words. -/
theorem kernelLengths_buffer : kernelLengths (R.buffer toHost heap) = (lengths R.used).map (· % 2 ^ 16) := by
  unfold kernelLengths
  rw [buffer_count, List.range_eq_range', ← length_used]
  exact lengths_of_held fun s hs => buffer_held (List.mem_cons_of_mem _ hs)

theorem lengths_payload : packets.map (fun packet => packet.payload.length) = lengths packets :=
  List.map_congr_left fun packet _ => packet.payload_length

/-- It finds their data, if no length is cut. -/
theorem kernelPayloads_buffer (hlengths : ∀ packet ∈ R.used, packet.length.toNat < 2 ^ 16) :
    kernelPayloads (R.buffer false heap) = R.used.map IsocPacket.payload := by
  have hrow : HoldsRow (R.buffer false heap) (4 + descrSize * R.nPkt) (R.used.map IsocPacket.payload) :=
    payloads_of_held fun s hs => buffer_held (List.mem_cons_of_mem _ hs)
  have hcut : (lengths R.used).map (· % 2 ^ 16) = (R.used.map IsocPacket.payload).map List.length := by
    unfold lengths
    rw [List.map_map, List.map_map]
    refine List.map_congr_left fun packet hpacket => ?_
    show packet.length.toNat % 2 ^ 16 = packet.payload.length
    rw [packet.payload_length, Nat.mod_eq_of_lt (hlengths packet hpacket)]
  unfold kernelPayloads
  rw [kernelLengths_buffer, buffer_count, hcut]
  exact cutRow_of_holds hrow

/-- The sum of the lengths, which has 32 bits. -/
theorem pktsLen_toNat : R.pktsLen.toNat = (lengths R.used).sum % 2 ^ 32 := by
  have hfold : ∀ (l : List IsocPacket) (len : UInt32),
      (l.foldl (fun len packet => len + packet.length) len).toNat = (len.toNat + (lengths l).sum) % 2 ^ 32 := by
    intro l
    induction l with
    | nil => exact fun len => (Nat.mod_eq_of_lt len.toNat_lt).symm
    | cons packet rest ih =>
      intro len
      show (rest.foldl _ (len + packet.length)).toNat = (len.toNat + (packet.length.toNat + (lengths rest).sum)) % 2 ^ 32
      rw [ih, UInt32.toNat_add]
      omega
  unfold IsocPackets.pktsLen
  rw [hfold, show (0 : UInt32).toNat = 0 from rfl, zero_add]

theorem bufLen_toNat : (R.bufLen false).toNat = (4 + descrSize * R.nPkt + (lengths R.used).sum) % 2 ^ 32 := by
  have hsum := @pktsLen_toNat R
  show (R.pktsLen + 4 + UInt32.ofNat (descrSize * R.nPkt)).toNat = _
  rw [UInt32.toNat_add, UInt32.toNat_add, UInt32.toNat_ofNat', show (4 : UInt32).toNat = 4 from rfl]
  omega

/-- The data of the last packet end where the lengths add up. -/
theorem last_store (hne : packets ≠ []) :
    ∃ s ∈ packetStores false k p packets, s.stop = p + (lengths packets).sum := by
  induction packets generalizing k p with
  | nil => exact absurd rfl hne
  | cons packet rest ih =>
    have hsum : ((lengths (packet :: rest)).sum : ℤ) = packet.length.toNat + (lengths rest).sum := by
      exact_mod_cast (rfl : (lengths (packet :: rest)).sum = _)
    rw [packetStores, hsum]
    by_cases hrest : rest = []
    · subst hrest
      refine ⟨⟨p, packet.payload⟩, by simp, ?_⟩
      unfold MemStore.stop
      rw [packet.payload_length]
      exact (congrArg (p + ·) (add_zero _)).symm
    · obtain ⟨s, hs, hstop⟩ := @ih (k + 1) (p + packet.length.toNat) hrest
      refine ⟨s, List.mem_append_right _ (List.mem_cons_of_mem _ hs), ?_⟩
      rw [hstop]
      omega

/-- The stores stay in the buffer if and only if its length does not wrap. -/
theorem stores_inside : (∀ s ∈ R.stores false, s.Inside (R.bufLen false).toNat) ↔
    4 + descrSize * R.nPkt + (lengths R.used).sum < 2 ^ 32 := by
  rw [bufLen_toNat]
  constructor
  · intro hinside
    by_cases hempty : R.used = []
    · have hn : R.nPkt = 0 := by rw [← length_used, hempty, List.length_nil]
      rw [hempty, hn]
      decide
    · obtain ⟨s, hs, hstop⟩ := @last_store R.used 0 (4 + descrSize * R.nPkt) hempty
      have hle := (hinside s (List.mem_cons_of_mem _ hs)).2
      rw [hstop] at hle
      have hlt := Nat.mod_lt (4 + descrSize * R.nPkt + (lengths R.used).sum) (Nat.two_pow_pos 32)
      omega
  · intro htotal s hs
    rw [Nat.mod_eq_of_lt htotal]
    unfold MemStore.Inside
    rcases List.mem_cons.mp hs with rfl | hs
    · unfold MemStore.stop
      simp only [length_leBytes]
      omega
    · have hrange := packetStores_range hs
      rw [length_used] at hrange
      have hstop : s.addr ≤ s.stop := by
        unfold MemStore.stop
        omega
      unfold descrSize at hrange ⊢
      omega

/-! ## Answers -/

theorem length_descriptors : (descriptors ks).length = descrSize * ks.length := by
  induction ks with
  | nil => rfl
  | cons k ks ih =>
    have hcons : descriptors (k :: ks) = (leBytes 2 k.data.length ++ (leBytes 2 k.actual ++ leBytes 4 k.status)) ++
      descriptors ks := List.flatMap_cons
    rw [hcons, List.length_append, ih]
    simp only [List.length_append, length_leBytes, List.length_cons]
    unfold descrSize
    omega

/-- The descriptors of an answer give the results. -/
theorem results_of_held (hmem : HoldsBytes mem (descrSize * k) (descriptors ks)) :
    (List.range' k ks.length).map
      (fun pkt : ℕ => (leValue mem (descrSize * pkt + 4) 4, leValue mem (descrSize * pkt + 2) 2)) =
        ks.map KernelPacket.result := by
  induction ks generalizing k with
  | nil => rfl
  | cons packet ks ih =>
    have hcons : descriptors (packet :: ks) =
      (leBytes 2 packet.data.length ++ (leBytes 2 packet.actual ++ leBytes 4 packet.status)) ++ descriptors ks :=
      List.flatMap_cons
    rw [hcons, holdsBytes_append, holdsBytes_append, holdsBytes_append] at hmem
    obtain ⟨⟨-, hactual, hstatus⟩, hrest⟩ := hmem
    simp only [length_leBytes, List.length_append] at hactual hstatus hrest
    have hnext : (descrSize * k + (2 + (2 + 4) : ℕ) : ℤ) = descrSize * (k + 1 : ℕ) := by
      unfold descrSize
      omega
    have hstatusAt : (descrSize * k + (2 : ℕ) + (2 : ℕ) : ℤ) = descrSize * k + 4 := by omega
    rw [hnext] at hrest
    rw [hstatusAt] at hstatus
    rw [Nat.cast_ofNat] at hactual
    have hstatusValue : leValue mem (descrSize * k + 4) 4 = packet.status :=
      (leValue_of_holds hstatus).trans (Nat.mod_eq_of_lt packet.status_lt)
    have hactualValue : leValue mem (descrSize * k + 2) 2 = packet.actual :=
      (leValue_of_holds hactual).trans (Nat.mod_eq_of_lt packet.actual_lt)
    rw [List.length_cons, List.range'_succ, List.map_cons, ih hrest, hstatusValue, hactualValue]
    rfl

/-- The results are those of the kernel, if there are as many. -/
theorem isocResults_readInto {tail : List UInt8} (hlen : ks.length = R.nPkt) :
    R.isocResults (readInto mem (descriptors ks ++ tail)) = ks.map KernelPacket.result := by
  have hheld : HoldsBytes (readInto mem (descriptors ks ++ tail)) (descrSize * (0 : ℕ)) (descriptors ks) := by
    rw [Nat.cast_zero, mul_zero]
    exact (holdsBytes_append.mp (holds_writeBytes mem 0 (descriptors ks ++ tail))).1
  unfold IsocPackets.isocResults
  rw [← hlen, List.range_eq_range']
  exact results_of_held hheld

end

/-! ## Requests from the host -/

/-- What a request from the host meets when nothing fails: the status of each packet that the loops reach is read. -/
structure Answers (R : IsocPackets) (calls : IsocCalls) (ks : List KernelPacket) : Prop where
  check : calls.check = 0
  alloc : calls.alloc = true
  write : 0 ≤ calls.write.ret
  read : 0 ≤ calls.read.ret
  answer : calls.answer = descriptors ks
  length : ks.length = R.nPkt

/-- The buffer is filled in its bounds, the kernel finds the data of all packets in it, and the application gets the result of
each. -/
structure IsocPackets.Sent (R : IsocPackets) (ks : List KernelPacket) (out : IsocOut) : Prop where
  inside : ∀ s ∈ R.stores false, s.Inside (R.bufLen false).toNat
  data : ∃ mem, out.written = some mem ∧ kernelPayloads mem = R.packets.map IsocPacket.payload
  results : out.ret = 0 ∧ out.isocResults = some (ks.map KernelPacket.result)

/-- The number of the packets and their lengths fit into the fields of the descriptors, and the size of the buffer fits into
32 bits. -/
structure IsocPackets.Fits (R : IsocPackets) : Prop where
  num_packets : R.packets.length < 2 ^ 16
  length : ∀ packet ∈ R.packets, packet.length.toNat < 2 ^ 16
  total : 4 + descrSize * R.packets.length + (lengths R.packets).sum < 2 ^ 32

section

variable {lcs : LcStats} {R : IsocPackets} {calls : IsocCalls} {ks : List KernelPacket} {flags : UInt32} {inited : Bool}
  {isocStatus status : ℤ}

theorem used_eq (h : R.packets.length < 2 ^ 16) : R.used = R.packets := by
  unfold IsocPackets.used IsocPackets.nPkt
  rw [Nat.mod_eq_of_lt h, List.take_length]

/-- Lengths that are cut to words stay the same only if nothing is cut. -/
theorem lengths_cut (h : (lengths R.used).map (· % 2 ^ 16) = lengths R.packets) :
    R.packets.length < 2 ^ 16 ∧ ∀ packet ∈ R.packets, packet.length.toNat < 2 ^ 16 := by
  have hnum : R.packets.length < 2 ^ 16 := by
    have hlen := congrArg List.length h
    unfold lengths at hlen
    rw [List.length_map, List.length_map, List.length_map, length_used] at hlen
    exact hlen ▸ nPkt_lt
  refine ⟨hnum, fun packet hpacket => ?_⟩
  rw [used_eq hnum] at h
  have hmem : packet.length.toNat ∈ (lengths R.packets).map (· % 2 ^ 16) := by
    rw [h]
    exact List.mem_map_of_mem hpacket
  obtain ⟨n, -, hn⟩ := List.mem_map.mp hmem
  rw [← hn]
  exact Nat.mod_lt _ (Nat.two_pow_pos 16)

theorem usbDoIo_done {size : ℕ} {call : IoCall} (h : 0 ≤ call.ret) : 0 ≤ (usbDoIo lcs size call status).1 := by
  unfold usbDoIo
  split_ifs with hsize hneg
  · exact le_rfl
  · exact absurd h (not_le.mpr hneg)
  · exact h

/-- A request from the host whose calls succeed. -/
theorem submit_out (hflags : flags ≠ 1) (hlen : R.pktsLen ≠ 0) (h : Answers R calls ks) :
    (solarisSubmitIsoc lcs R calls flags false inited isocStatus).ret = 0 ∧
      (solarisSubmitIsoc lcs R calls flags false inited isocStatus).written = some (R.buffer false calls.heap) ∧
      (solarisSubmitIsoc lcs R calls flags false inited isocStatus).isocResults =
        some (ks.map KernelPacket.result) := by
  have hresults : R.isocResults (readInto (R.buffer false calls.heap) calls.answer) = ks.map KernelPacket.result := by
    have htail := @isocResults_readInto R (R.buffer false calls.heap) ks [] h.length
    rw [List.append_nil] at htail
    rw [h.answer, htail]
  unfold solarisSubmitIsoc
  rw [if_neg hflags, if_neg (not_not.mpr h.check), if_neg hlen, if_neg (by simp [h.alloc]), if_neg (by simp)]
  dsimp only
  rw [if_neg (not_lt.mpr (usbDoIo_done h.write)), if_neg Bool.false_ne_true]
  unfold readOutStatus
  dsimp only
  rw [if_neg (not_lt.mpr (usbDoIo_done h.read)), hresults]
  exact ⟨rfl, rfl, rfl⟩

/-- A request that is not refused reaches the kernel if and only if it fits. -/
theorem sent_iff_fits (hflags : flags ≠ 1) (hlen : R.pktsLen ≠ 0) (h : Answers R calls ks) :
    R.Sent ks (solarisSubmitIsoc lcs R calls flags false inited isocStatus) ↔ R.Fits := by
  obtain ⟨hret, hwritten, hresults⟩ := @submit_out lcs R calls ks flags inited isocStatus hflags hlen h
  constructor
  · rintro ⟨hinside, ⟨mem, hmem, hdata⟩, -⟩
    rw [hwritten] at hmem
    obtain rfl := Option.some.inj hmem
    have htotal := stores_inside.mp hinside
    -- what the kernel finds has the lengths of its descriptors
    have hcut : (lengths R.used).map (· % 2 ^ 16) = lengths R.packets := by
      have hrow : kernelLengths (R.buffer false calls.heap) = (R.packets.map IsocPacket.payload).map List.length := by
        rw [← hdata]
        exact length_cutRow.symm
      rw [kernelLengths_buffer, List.map_map] at hrow
      exact hrow.trans lengths_payload
    obtain ⟨hnum, hlengths⟩ := lengths_cut hcut
    refine ⟨hnum, hlengths, ?_⟩
    rw [← length_used, used_eq hnum] at htotal
    exact htotal
  · intro hfits
    have hused := used_eq hfits.num_packets
    refine ⟨?_, ⟨_, hwritten, ?_⟩, hret, hresults⟩
    · rw [stores_inside, ← length_used, hused]
      exact hfits.total
    · rw [kernelPayloads_buffer (hused ▸ hfits.length), hused]

/-- With flag 1, or without a byte in its packets, a request is refused. -/
theorem refused_not_sent (hrefused : flags = 1 ∨ R.pktsLen = 0) (h : Answers R calls ks) :
    ¬ R.Sent ks (solarisSubmitIsoc lcs R calls flags false inited isocStatus) := by
  have hbadarg : (solarisSubmitIsoc lcs R calls flags false inited isocStatus).ret = OPENUSB_BADARG := by
    unfold solarisSubmitIsoc
    by_cases hflags : flags = 1
    · rw [if_pos hflags]
    · rw [if_neg hflags, if_neg (not_not.mpr h.check), if_pos (hrefused.resolve_left hflags)]
  rintro ⟨-, -, hret, -⟩
  rw [hbadarg] at hret
  exact absurd hret (by decide)

/-- A request from the host reaches the kernel, whatever its packets are, if and only if its flags are not 1, there is a byte
in them, their number and lengths fit into words, and the size of the buffer into 32 bits. -/
theorem isoc_sent_iff (h : Answers R calls ks) : R.Sent ks (solarisSubmitIsoc lcs R calls flags false inited isocStatus) ↔
    flags ≠ 1 ∧ 0 < (lengths R.packets).sum ∧ R.Fits := by
  by_cases hflags : flags = 1
  · exact iff_of_false (refused_not_sent (.inl hflags) h) fun hc => hc.1 hflags
  have hlen : R.Fits → R.pktsLen.toNat = (lengths R.packets).sum := by
    intro hfits
    rw [pktsLen_toNat, used_eq hfits.num_packets, Nat.mod_eq_of_lt (by have := hfits.total; omega)]
  by_cases hzero : R.pktsLen = 0
  · refine iff_of_false (refused_not_sent (.inr hzero) h) ?_
    rintro ⟨-, hpos, hfits⟩
    rw [← hlen hfits, hzero] at hpos
    exact lt_irrefl 0 hpos
  · rw [sent_iff_fits hflags hzero h, and_iff_right hflags]
    refine ⟨fun hfits => ⟨?_, hfits⟩, And.right⟩
    rw [← hlen hfits]
    exact UInt32.pos_iff_ne_zero.mpr hzero

/-- Two packets of three and one bytes. -/
def twoPackets : IsocPackets where
  packets := [⟨[1, 2, 3], 3, rfl⟩, ⟨[4], 1, rfl⟩]
  num_packets_lt := by decide

theorem isoc_sent_iff_two : twoPackets.Sent [⟨0, 3, [], by decide, by decide⟩, ⟨7, 0, [], by decide, by decide⟩]
    (solarisSubmitIsoc plainStats twoPackets ⟨0, true, ⟨24, none⟩, true, ⟨16, none⟩,
      [0, 0, 3, 0, 0, 0, 0, 0, 0, 0, 0, 0, 7, 0, 0, 0], fun _ => 0xff⟩ 0 false false 0) :=
  (isoc_sent_iff ⟨rfl, rfl, by decide, by decide, by decide, rfl⟩).mpr
    ⟨by decide, by decide, by decide, by decide, by decide⟩

end

/-! ## Requests to the device -/

/-- A request to the device, with what it meets and the packets that the kernel answers with. -/
structure InRequest where
  R : IsocPackets
  calls : IsocCalls
  flags : UInt32
  isocStatus : ℤ
  ks : List KernelPacket

namespace InRequest

variable (lcs : LcStats) (r : InRequest) (started : Option (List ℕ))

/-- The lengths that an endpoint has been started with decide whether its flag is set. -/
def out : IsocOut := solarisSubmitIsoc lcs r.R r.calls r.flags true started.isSome r.isocStatus

/-- What is written to the data file starts the endpoint. -/
def after : Option (List ℕ) :=
  match (r.out lcs started).written with
  | some mem => some (kernelLengths mem)
  | none => started

/-- Nothing fails, and the kernel answers with packets of the lengths that the endpoint has been started with.  The `read` gets
what the buffer takes. -/
structure Possible : Prop where
  flags : r.flags ≠ 1
  check : r.calls.check = 0
  len : r.R.pktsLen ≠ 0
  alloc : r.calls.alloc = true
  write : 0 ≤ r.calls.write.ret
  readAlloc : r.calls.readAlloc = true
  read : 0 ≤ r.calls.read.ret
  answer : r.calls.answer = (Solaris.answer r.ks).take r.R.readLen.toNat
  lengths : r.after lcs started = some (r.ks.map fun k => k.data.length)

/-- The data are copied out of the buffer in its bounds, and each packet of the request gets the result and the data of its
own. -/
structure Received : Prop where
  inside : descrSize * r.R.nPkt + (Solaris.lengths r.R.used).sum ≤ r.R.readLen.toNat
  all : r.R.packets.length = r.ks.length
  results : (r.out lcs started).ret = 0 ∧ (r.out lcs started).isocResults = some (r.ks.map KernelPacket.result) ∧
    (r.out lcs started).payloads = some (r.ks.map KernelPacket.data)

/-- The request has the lengths that the endpoint has been started with, and the buffer fits into 32 bits. -/
structure Fits : Prop where
  num_packets : r.R.packets.length < 2 ^ 16
  length : ∀ packet ∈ r.R.packets, packet.length.toNat < 2 ^ 16
  total : descrSize * r.R.packets.length + (Solaris.lengths r.R.packets).sum < 2 ^ 32
  same : ∀ ls, started = some ls → ls = Solaris.lengths r.R.packets

end InRequest

/-- The requests for one endpoint, as long as its files are open. -/
inductive IsocIn (lcs : LcStats) : Option (List ℕ) → InRequest → Option (List ℕ) → Prop where
  | request {started : Option (List ℕ)} {r : InRequest} (h : r.Possible lcs started) : IsocIn lcs started r (r.after lcs started)

section

variable {lcs : LcStats} {r : InRequest} {started : Option (List ℕ)} {R : IsocPackets} {ks : List KernelPacket}
  {heap : ℤ → UInt8}

theorem readLen_toNat : R.readLen.toNat = (descrSize * R.nPkt + (lengths R.used).sum) % 2 ^ 32 := by
  have hsum := @pktsLen_toNat R
  show (R.pktsLen + UInt32.ofNat (R.nPkt * descrSize)).toNat = _
  rw [UInt32.toNat_add, UInt32.toNat_ofNat']
  unfold descrSize
  omega

/-- A request to the device whose calls succeed. -/
theorem submit_in (h : r.Possible lcs started) :
    (r.out lcs started).ret = 0 ∧
      (r.out lcs started).written = (if started.isSome then none else some (r.R.buffer true r.calls.heap)) ∧
      (r.out lcs started).isocResults = some (r.R.isocResults (readInto (r.R.readBuffer r.calls.heap) r.calls.answer)) ∧
      (r.out lcs started).payloads = some (r.R.payloads (readInto (r.R.readBuffer r.calls.heap) r.calls.answer)) := by
  have hread : ∀ written status, readInData lcs r.R r.calls written status =
      ⟨0, written, true, (usbDoIo lcs r.R.readLen.toNat r.calls.read status).2,
        some (r.R.isocResults (readInto (r.R.readBuffer r.calls.heap) r.calls.answer)),
        some (r.R.payloads (readInto (r.R.readBuffer r.calls.heap) r.calls.answer))⟩ := by
    intro written status
    unfold readInData
    dsimp only
    rw [if_neg (by simp [h.readAlloc]), if_neg (not_lt.mpr (usbDoIo_done h.read))]
  unfold InRequest.out solarisSubmitIsoc
  rw [if_neg h.flags, if_neg (not_not.mpr h.check), if_neg h.len, if_neg (by simp [h.alloc])]
  cases started with
  | some ls =>
    rw [if_pos (by rfl), hread]
    exact ⟨rfl, rfl, rfl, rfl⟩
  | none =>
    rw [if_neg (by simp)]
    dsimp only
    rw [if_neg (not_lt.mpr (usbDoIo_done h.write)), if_pos rfl, hread]
    exact ⟨rfl, rfl, rfl, rfl⟩

theorem length_answer : (answer ks).length = descrSize * ks.length + (ks.map fun k => k.data.length).sum := by
  unfold answer
  rw [List.length_append, length_descriptors, List.length_flatten, List.map_map]
  rfl

/-- An answer with the lengths of the request gives the data. -/
theorem payloads_readInto {mem : ℤ → UInt8} (hnum : R.nPkt = ks.length) (hused : lengths R.used = ks.map fun k => k.data.length) :
    R.payloads (readInto mem (answer ks)) = ks.map KernelPacket.data := by
  have hheld := (holdsBytes_append.mp (holds_writeBytes mem 0 (answer ks))).2
  rw [length_descriptors, ← holdsRow_iff, zero_add] at hheld
  have hrow := cutRow_of_holds hheld
  rw [List.map_map] at hrow
  unfold IsocPackets.payloads
  rw [hused, hnum, mul_comm, ← Nat.cast_mul]
  exact hrow

/-- The packets of an answer reach a request that has their lengths, and no other. -/
theorem received_lengths (h : r.Possible lcs started) : r.Received lcs started ↔
    lengths r.R.packets = r.ks.map (fun k => k.data.length) ∧ r.R.packets.length < 2 ^ 16 ∧
      descrSize * r.R.packets.length + (lengths r.R.packets).sum < 2 ^ 32 := by
  obtain ⟨hret, -, hresults, hpayloads⟩ := submit_in h
  constructor
  · rintro ⟨hinside, hall, -, hks, hdata⟩
    rw [hresults] at hks
    rw [hpayloads] at hdata
    have hnum : r.R.nPkt = r.ks.length := by
      have hlen := congrArg List.length (Option.some.inj hks)
      unfold IsocPackets.isocResults at hlen
      rwa [List.length_map, List.length_map, List.length_range] at hlen
    have hlt : r.R.packets.length < 2 ^ 16 := hall ▸ hnum ▸ nPkt_lt
    have hcut := congrArg (List.map List.length) (Option.some.inj hdata)
    unfold IsocPackets.payloads at hcut
    rw [length_cutRow, List.map_map, used_eq hlt] at hcut
    rw [used_eq hlt, hnum, ← hall] at hinside
    exact ⟨hcut, hlt, hinside.trans_lt r.R.readLen.toNat_lt⟩
  · rintro ⟨hsame, hlt, htotal⟩
    have hused := used_eq hlt
    have hall : r.R.packets.length = r.ks.length := by
      have hlen := congrArg List.length hsame
      unfold lengths at hlen
      rwa [List.length_map, List.length_map] at hlen
    have hnum : r.R.nPkt = r.R.packets.length := by rw [← length_used, hused]
    have hread : r.R.readLen.toNat = descrSize * r.R.packets.length + (lengths r.R.packets).sum := by
      rw [readLen_toNat, hused, hnum, Nat.mod_eq_of_lt htotal]
    have hanswer : r.calls.answer = answer r.ks := by
      rw [h.answer, hread, hsame, hall, ← length_answer, List.take_length]
    refine ⟨?_, hall, hret, ?_, ?_⟩
    · rw [hread, hused, hnum]
    · rw [hresults, hanswer]
      exact congrArg some (isocResults_readInto (hall.symm.trans hnum.symm))
    · rw [hpayloads, hanswer]
      exact congrArg some (payloads_readInto (hnum.trans hall) (hused ▸ hsame))

/-- An endpoint is started with lengths that are words. -/
def Words (started : Option (List ℕ)) : Prop := ∀ ls, started = some ls → ∀ n ∈ ls, n < 2 ^ 16

theorem after_words (hwords : Words started) (h : r.Possible lcs started) : Words (r.after lcs started) := by
  obtain ⟨-, hwritten, -, -⟩ := submit_in h
  unfold InRequest.after
  rw [hwritten]
  cases started with
  | some ls => exact hwords
  | none =>
    intro ls hls n hn
    obtain rfl : _ = ls := Option.some.inj hls
    rw [kernelLengths_buffer] at hn
    obtain ⟨m, -, rfl⟩ := List.mem_map.mp hn
    exact Nat.mod_lt _ (Nat.two_pow_pos 16)

/-- The lengths that the endpoint has been started with decide. -/
theorem received_iff (hwords : Words started) (h : r.Possible lcs started) : r.Received lcs started ↔ r.Fits started := by
  rw [received_lengths h]
  have hafter := h.lengths
  obtain ⟨-, hwritten, -, -⟩ := submit_in h
  unfold InRequest.after at hafter
  rw [hwritten] at hafter
  cases started with
  | some ls =>
    obtain rfl : ls = _ := Option.some.inj hafter
    constructor
    · rintro ⟨hsame, hlt, htotal⟩
      refine ⟨hlt, fun packet hpacket => ?_, htotal, fun ls hls => (Option.some.inj hls).symm.trans hsame.symm⟩
      refine hwords _ rfl _ ?_
      rw [← hsame]
      exact List.mem_map_of_mem hpacket
    · intro hfits
      exact ⟨(hfits.same _ rfl).symm, hfits.num_packets, hfits.total⟩
  | none =>
    have hkernel : (lengths r.R.used).map (· % 2 ^ 16) = r.ks.map fun k => k.data.length := by
      rw [← @kernelLengths_buffer r.R true r.calls.heap]
      exact Option.some.inj hafter
    constructor
    · rintro ⟨hsame, hlt, htotal⟩
      exact ⟨hlt, (lengths_cut (hkernel.trans hsame.symm)).2, htotal, fun ls hls => absurd hls.symm (Option.some_ne_none ls)⟩
    · intro hfits
      refine ⟨?_, hfits.num_packets, hfits.total⟩
      rw [← hkernel, used_eq hfits.num_packets]
      unfold lengths
      rw [List.map_map]
      refine List.map_congr_left fun packet hpacket => ?_
      exact (Nat.mod_eq_of_lt (hfits.length packet hpacket)).symm

/-- Through every sequence of requests for the packets of an endpoint, each request gets the packets of the kernel, with their
results and their data, exactly as long as all of them have the same lengths, which fit into words. -/
theorem isoc_received_iff {rs : List InRequest} {t : Option (List ℕ)} :
    Run (IsocIn lcs) (fun started r => r.Received lcs started) none rs t ↔
      Run (IsocIn lcs) (fun started r => r.Fits started) none rs t := by
  refine run_iff (I := Words) ?_ ?_ fun ls hls => absurd hls.symm (Option.some_ne_none ls)
  · intro s r t hwords hstep
    cases hstep with
    | request h => exact received_iff hwords h
  · intro s r t hwords _ hstep
    cases hstep with
    | request h => exact after_words hwords h

end

end Solaris

end OpenUsb
