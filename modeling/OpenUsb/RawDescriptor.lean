import OpenUsb.AllOrNothing
import OpenUsb.Claim

/-!
# RawDescriptor — reading raw descriptors from usbfs

`linux_get_raw_desc` reads the file of a device from its beginning: the device descriptor, and then one configuration after
the other, each in two reads, the first for its `wTotalLength`.

* `raw_desc_iff`: when it hands out exactly the descriptor, or fails.
-/

namespace OpenUsb

/-! ## The file -/

/-- The places where the function reads or allocates. -/
inductive RawSite where
  | devdescr
  | device
  | header (i : ℕ)
  | data (i : ℕ)
  | body (i : ℕ)
  | cfgdescr
  deriving DecidableEq, Repr

/-- The outcome of a read: an error, or at most `k` bytes. -/
inductive ReadOutcome where
  | error
  | upTo (k : ℕ)
  deriving DecidableEq, Repr

/-- The file of a device, with what `device_open` returns, the outcome of each read and of each allocation, and `errno`
after it. -/
structure DeviceFile where
  content : List UInt8
  fd : ℤ := 3
  outcome : RawSite → ReadOutcome
  alloc : RawSite → Bool := fun _ => true
  errno : RawSite → ℤ := fun _ => 0

/-- A read with its value, or `n` bytes that are written at `off` into a buffer of `size` bytes. -/
inductive RawEv where
  | read (count : ℕ) (ret : ℤ)
  | write (size off n : ℕ)
  deriving DecidableEq, Repr

/-- The return code, `*buffer` and `*buflen` where they are set, and what was done. -/
structure RawRun where
  ret : ℤ
  buffer : Option (List UInt8) := none
  buflen : Option ℕ := none
  log : List RawEv := []
  deriving DecidableEq, Repr

def RawRun.after (r : RawRun) (log : List RawEv) : RawRun := { r with log := log ++ r.log }

@[simp] theorem RawRun.after_ret (r : RawRun) (log : List RawEv) : (r.after log).ret = r.ret := rfl

namespace DeviceFile

variable (file : DeviceFile)

/-- `read`, with the file at `pos`: its value and the bytes that it delivers. -/
def readFile (site : RawSite) (pos count : ℕ) : ℤ × List UInt8 :=
  match file.outcome site with
  | .error => (-1, [])
  | .upTo k => ((((file.content.drop pos).take count).take k).length, ((file.content.drop pos).take count).take k)

/-! ## The function -/

/-- A round of the loop behind the header `buf`, which says `len`; `count` is `cfgr.len - 8`, and `next` are the rounds that
follow, with the file at their position. -/
def rawBody (descidx : UInt8) (i pos len count : ℕ) (buf : List UInt8) (next : ℕ → RawRun) : RawRun :=
  let (ret, body) := file.readFile (.body i) (pos + 8) count
  let log := [.write len 0 8, .read count ret, .write len 8 body.length]
  -- an `int` against a `size_t`
  if CInt.toU64 ret < count then { ret := translateErrno (file.errno (.body i)), log := log }
  else if i = descidx.toNat then
    if !file.alloc .cfgdescr then { ret := OPENUSB_NO_RESOURCES, buflen := some len, log := log }
    else
      { ret := OPENUSB_SUCCESS, buffer := some ((buf ++ body ++ List.replicate len 0).take len), buflen := some len,
        log := log ++ [.write len 0 len] }
  else (next (pos + 8 + body.length)).after log

/-- The loop over the configurations, with `n` rounds to go and the file at `pos`. -/
def rawConfigs (descidx : UInt8) : ℕ → ℕ → ℕ → RawRun
  | 0, _, _ => { ret := OPENUSB_BADARG }
  | n + 1, i, pos =>
    let (ret, buf) := file.readFile (.header i) pos 8
    if ret < 8 then { ret := translateErrno (file.errno (.header i)), log := [.read 8 ret] }
    else
      let out := openusbParseData (bufMem buf fun _ => 0) (some fmtTotalLength) (some 0) 8 (some 0) sizeofConfigDesc true
      let cfg_desc := out.stores.foldl UsbConfigDesc.store {}
      let len := cfg_desc.wTotalLength.toNat
      if !file.alloc (.data i) then { ret := translateErrno (file.errno (.data i)), log := [.read 8 ret] }
      else (file.rawBody descidx i pos len (CInt.sub 64 len 8) buf (rawConfigs descidx n (i + 1))).after [.read 8 ret]

/-- `linux_get_raw_desc`; the flags say that its arguments of these names are not NULL. -/
def linuxGetRawDesc (idev buflen : Bool) (type descidx : UInt8) : RawRun :=
  if !idev ∨ !buflen then { ret := OPENUSB_BADARG }
  else if type ≠ USB_DESC_TYPE_DEVICE ∧ type ≠ USB_DESC_TYPE_CONFIG then { ret := OPENUSB_BADARG }
  else if file.fd < 0 then { ret := OPENUSB_UNKNOWN_DEVICE }
  else if !file.alloc .devdescr then { ret := OPENUSB_NO_RESOURCES }
  else
    let (ret, got) := file.readFile .device 0 USBI_DEVICE_DESC_SIZE
    let log := [.read USBI_DEVICE_DESC_SIZE ret, .write USBI_DEVICE_DESC_SIZE 0 got.length]
    if ret < 0 then { ret := translateErrno (file.errno .device), log := log }
    else if type = USB_DESC_TYPE_DEVICE then
      { ret := OPENUSB_SUCCESS, buffer := some ((got ++ List.replicate USBI_DEVICE_DESC_SIZE 0).take USBI_DEVICE_DESC_SIZE),
        buflen := some USBI_DEVICE_DESC_SIZE, log := log }
    else
      let out := openusbParseData (bufMem got fun _ => 0) (some fmtDevice) (some 0) USBI_DEVICE_DESC_SIZE (some 0)
        USBI_DEVICE_DESC_SIZE true
      let device := out.stores.foldl UsbDeviceDesc.store {}
      (file.rawConfigs descidx device.bNumConfigurations.toNat 0 got.length).after log

end DeviceFile

/-! ## What it should do -/

/-- `wTotalLength` of the configuration at `pos`. -/
def lengthAt (content : List UInt8) (pos : ℕ) : ℕ := totalLength ((content.drop pos).take 8)

/-- Where a configuration begins. -/
def configStart (content : List UInt8) : ℕ → ℕ
  | 0 => USBI_DEVICE_DESC_SIZE
  | i + 1 => configStart content i + lengthAt content (configStart content i)

/-- The run hands out these bytes of the file. -/
def HandsOut (content : List UInt8) (start len : ℕ) (r : RawRun) : Prop :=
  r.buffer = some ((content.drop start).take len) ∧ start + len ≤ content.length ∧ r.buflen = some len

/-- It hands out the descriptor. -/
def Delivers (content : List UInt8) (type descidx : UInt8) (r : RawRun) : Prop :=
  if type = USB_DESC_TYPE_DEVICE then HandsOut content 0 USBI_DEVICE_DESC_SIZE r
  else HandsOut content (configStart content descidx.toNat) (lengthAt content (configStart content descidx.toNat)) r

/-- The write stays inside of its buffer. -/
def RawEv.Inside : RawEv → Prop
  | .read _ _ => True
  | .write size off n => off + n ≤ size

/-- The read delivers all that was asked for. -/
def RawEv.Full : RawEv → Prop
  | .read count ret => (count : ℤ) ≤ ret
  | .write _ _ _ => True

instance : DecidablePred RawEv.Inside
  | .read _ _ => isTrue trivial
  | .write _ _ _ => inferInstanceAs (Decidable (_ ≤ _))

instance : DecidablePred RawEv.Full
  | .read _ _ => inferInstanceAs (Decidable (_ ≤ _))
  | .write _ _ _ => isTrue trivial

/-- Reading raw descriptors is exact or fails. -/
structure ExactOrFails (content : List UInt8) (type descidx : UInt8) (r : RawRun) : Prop where
  delivers : r.ret = OPENUSB_SUCCESS → Delivers content type descidx r
  fails : (∃ e ∈ r.log, ¬ e.Full) → r.ret < 0
  inside : ∀ e ∈ r.log, e.Inside

/-! ## When it does -/

namespace DeviceFile

variable (file : DeviceFile)

/-- Where the header of a configuration is read: behind the configuration before it, or behind the header of that when the
read of the rest failed. -/
def headerPos : ℕ → ℕ
  | 0 => USBI_DEVICE_DESC_SIZE
  | i + 1 => headerPos i + if file.outcome (.body i) = .error then 8 else lengthAt file.content (headerPos i)

/-- `wTotalLength` in that header. -/
def len (i : ℕ) : ℕ := lengthAt file.content (file.headerPos i)

/-- The read delivers all bytes. -/
def ReadsAll (site : RawSite) (pos count : ℕ) : Prop := (file.readFile site pos count).1 = count

/-- The header of the configuration is read, and there is memory for all of it. -/
def HeaderRead (i : ℕ) : Prop := file.ReadsAll (.header i) (file.headerPos i) 8 ∧ file.alloc (.data i) = true

/-- The configuration is passed: the rest of it is read, or that read fails. -/
def Passed (i : ℕ) : Prop :=
  file.HeaderRead i ∧ (file.outcome (.body i) = .error ∨ file.ReadsAll (.body i) (file.headerPos i + 8) (file.len i - 8))

/-- The condition on the configurations, of which there are `num`: none that is come to is shorter than its header, and
where all up to the wanted one are passed and there is memory for the answer, no read failed. -/
def ConfigsClean (descidx num : ℕ) : Prop :=
  (∀ i ≤ descidx, i < num → (∀ j < i, file.Passed j) → file.HeaderRead i → 8 ≤ file.len i) ∧
    (descidx < num → (∀ j ≤ descidx, file.Passed j) → file.alloc .cfgdescr = true →
      ∀ j ≤ descidx, file.outcome (.body j) ≠ .error)

/-- The condition on the file: the device descriptor is not cut short when it is asked for, and the configurations are clean
when one of them is. -/
def Clean (idev buflen : Bool) (type descidx : UInt8) : Prop :=
  idev = true → buflen = true → 0 ≤ file.fd → file.alloc .devdescr = true →
    (type = USB_DESC_TYPE_DEVICE → file.outcome .device = .error ∨ file.ReadsAll .device 0 USBI_DEVICE_DESC_SIZE) ∧
      (type = USB_DESC_TYPE_CONFIG → file.ReadsAll .device 0 USBI_DEVICE_DESC_SIZE →
        file.ConfigsClean descidx.toNat (file.content.getD 17 0).toNat)

end DeviceFile

/-! ## Reads -/

section

variable {file : DeviceFile} {site : RawSite} {pos count : ℕ}

theorem readFile_error (h : file.outcome site = .error) : file.readFile site pos count = (-1, []) := by
  rw [DeviceFile.readFile, h]

theorem readFile_ok (h : file.outcome site ≠ .error) :
    (file.readFile site pos count).1 = (file.readFile site pos count).2.length := by
  unfold DeviceFile.readFile
  cases hsite : file.outcome site with
  | error => exact absurd hsite h
  | upTo k => rfl

theorem length_readFile : (file.readFile site pos count).2.length ≤ count := by
  unfold DeviceFile.readFile
  cases file.outcome site with
  | error => exact Nat.zero_le _
  | upTo k =>
    dsimp only
    rw [List.length_take, List.length_take]
    omega

theorem readFile_le : (file.readFile site pos count).1 ≤ count := by
  by_cases h : file.outcome site = .error
  · rw [readFile_error h]
    dsimp only
    omega
  · rw [readFile_ok h]
    exact Int.ofNat_le.mpr length_readFile

/-- A read that delivers all delivers the bytes of the file. -/
theorem readFile_all (h : file.ReadsAll site pos count) :
    (file.readFile site pos count).2 = (file.content.drop pos).take count ∧ count ≤ file.content.length - pos := by
  unfold DeviceFile.ReadsAll at h
  unfold DeviceFile.readFile at h ⊢
  cases hsite : file.outcome site with
  | error =>
    rw [hsite] at h
    dsimp only at h
    omega
  | upTo k =>
    rw [hsite] at h
    dsimp only at h ⊢
    rw [List.length_take, List.length_take, List.length_drop] at h
    refine ⟨List.take_of_length_le ?_, by omega⟩
    rw [List.length_take, List.length_drop]
    omega

theorem readFile_not_error (h : file.ReadsAll site pos count) : file.outcome site ≠ .error := by
  intro herr
  unfold DeviceFile.ReadsAll at h
  rw [readFile_error herr] at h
  dsimp only at h
  omega

/-- The header was read to its end. -/
theorem header_iff : ¬ (file.readFile site pos count).1 < count ↔ file.ReadsAll site pos count := by
  have hle := @readFile_le file site pos count
  unfold DeviceFile.ReadsAll
  omega

/-- The comparison with an unsigned length takes an error for a read of all bytes. -/
theorem body_iff (hlt : count < 2 ^ 16) :
    ¬ CInt.toU64 (file.readFile site pos count).1 < count ↔
      file.outcome site = .error ∨ file.ReadsAll site pos count := by
  by_cases h : file.outcome site = .error
  · have hneg := CInt.toU64_of_neg (z := -1) (by decide) (by decide)
    rw [readFile_error h]
    exact iff_of_true (by dsimp only; omega) (.inl h)
  · have hle := @length_readFile file site pos count
    rw [or_iff_right h, ← header_iff, readFile_ok h, CInt.toU64_natCast (by omega), Int.ofNat_lt]

theorem lengthAt_lt (content : List UInt8) (pos : ℕ) : lengthAt content pos < 2 ^ 16 := totalLength_lt _

/-- `wTotalLength` as the loop reads it. -/
theorem parse_lengthAt (h : file.ReadsAll site pos 8) :
    ((openusbParseData (bufMem (file.readFile site pos 8).2 fun _ => 0) (some fmtTotalLength) (some 0) 8 (some 0)
      sizeofConfigDesc true).stores.foldl UsbConfigDesc.store {}).wTotalLength.toNat = lengthAt file.content pos := by
  rw [(readFile_all h).1, lengthAt]
  have hparse := parse_totalLength ((file.content.drop pos).take 8)
  rwa [List.take_take, Nat.min_self] at hparse

/-- `bNumConfigurations` as the function reads it: zero when the device descriptor is cut short. -/
theorem parse_numConfigurations (got : List UInt8) :
    ((openusbParseData (bufMem got fun _ => 0) (some fmtDevice) (some 0) USBI_DEVICE_DESC_SIZE (some 0)
      USBI_DEVICE_DESC_SIZE true).stores.foldl UsbDeviceDesc.store {}).bNumConfigurations = got.getD 17 0 := by
  simp [openusbParseData, parseChars, parseChar, parseField, fmtDevice, USBI_DEVICE_DESC_SIZE, UsbDeviceDesc.store,
    leValue, bufMem]

end

/-! ## The loop over the configurations -/

namespace DeviceFile

variable (file : DeviceFile) (descidx : ℕ)

/-- None of the configurations that `n` rounds come to from `i` on is shorter than its header. -/
def SizesFrom (i n : ℕ) : Prop :=
  ∀ k, i ≤ k → k ≤ descidx → k < i + n → (∀ j, i ≤ j → j < k → file.Passed j) → file.HeaderRead k → 8 ≤ file.len k

/-- What `n` rounds from configuration `i` on come to. -/
structure RoundsRight (i n : ℕ) (r : RawRun) : Prop where
  sizes : (∀ e ∈ r.log, e.Inside) ↔ file.SizesFrom descidx i n
  error : r.ret = OPENUSB_SUCCESS ∨ r.ret < 0
  success : file.SizesFrom descidx i n →
    (r.ret = OPENUSB_SUCCESS ↔
      descidx < i + n ∧ (∀ j, i ≤ j → j ≤ descidx → file.Passed j) ∧ file.alloc .cfgdescr = true)
  full : file.SizesFrom descidx i n → r.ret = OPENUSB_SUCCESS →
    ((∀ e ∈ r.log, e.Full) ↔ ∀ j, i ≤ j → j ≤ descidx → file.outcome (.body j) ≠ .error)
  handsOut : file.SizesFrom descidx i n → r.ret = OPENUSB_SUCCESS → file.outcome (.body descidx) ≠ .error →
    HandsOut file.content (file.headerPos descidx) (file.len descidx) r

end DeviceFile

section

variable {file : DeviceFile} {descidx i n : ℕ} {r : RawRun}

theorem success_not_neg {ret : ℤ} (h : ret < 0) : ret ≠ OPENUSB_SUCCESS := by
  rintro rfl
  exact absurd h (by decide)

theorem sizesFrom_one (hle : i ≤ descidx) (hlast : ¬ file.Passed i ∨ i = descidx) :
    file.SizesFrom descidx i (n + 1) ↔ (file.HeaderRead i → 8 ≤ file.len i) := by
  constructor
  · exact fun h => h i le_rfl hle (by omega) fun j hij hji => by omega
  · intro h k hik hkd hkn hpassed
    rcases Nat.eq_or_lt_of_le hik with rfl | hlt
    · exact h
    · rcases hlast with hlast | rfl
      · exact absurd (hpassed i le_rfl hlt) hlast
      · omega

theorem sizesFrom_succ (hlt : i < descidx) (hpassed : file.Passed i) :
    file.SizesFrom descidx i (n + 1) ↔ 8 ≤ file.len i ∧ file.SizesFrom descidx (i + 1) n := by
  constructor
  · intro h
    refine ⟨h i le_rfl hlt.le (by omega) (fun j hij hji => by omega) hpassed.1, ?_⟩
    intro k hik hkd hkn hbefore
    refine h k (by omega) hkd (by omega) fun j hij hjk => ?_
    rcases Nat.eq_or_lt_of_le hij with rfl | hlt
    · exact hpassed
    · exact hbefore j hlt hjk
  · rintro ⟨hlen, h⟩ k hik hkd hkn hbefore
    rcases Nat.eq_or_lt_of_le hik with rfl | hlt
    · exact fun _ => hlen
    · exact h k hlt hkd (by omega) fun j hij hjk => hbefore j (by omega) hjk

/-- What holds from `i` on holds at `i` and from there on. -/
theorem from_succ {P : ℕ → Prop} (hle : i ≤ descidx) :
    (∀ j, i ≤ j → j ≤ descidx → P j) ↔ P i ∧ ∀ j, i + 1 ≤ j → j ≤ descidx → P j := by
  constructor
  · exact fun h => ⟨h i le_rfl hle, fun j hij hjd => h j (by omega) hjd⟩
  · rintro ⟨hi, h⟩ j hij hjd
    rcases Nat.eq_or_lt_of_le hij with rfl | hlt
    · exact hi
    · exact h j hlt hjd

/-- A round that does not pass its configuration fails. -/
theorem roundsRight_fails (hle : i ≤ descidx) (hnot : ¬ file.Passed i) (hret : r.ret < 0)
    (hinside : ∀ e ∈ r.log, e.Inside) (hlen : file.HeaderRead i → 8 ≤ file.len i) :
    file.RoundsRight descidx i (n + 1) r where
  sizes := iff_of_true hinside ((sizesFrom_one hle (.inl hnot)).mpr hlen)
  error := .inr hret
  success _ := iff_of_false (success_not_neg hret) fun h => hnot (h.2.1 i le_rfl hle)
  full _ h := absurd h (success_not_neg hret)
  handsOut _ h := absurd h (success_not_neg hret)

/-- A round that overflows its buffer. -/
theorem roundsRight_overflows (hle : i ≤ descidx) (hread : file.HeaderRead i) (hlen : file.len i < 8)
    (hret : r.ret = OPENUSB_SUCCESS ∨ r.ret < 0) (hover : ¬ ∀ e ∈ r.log, e.Inside) :
    file.RoundsRight descidx i (n + 1) r := by
  have hnot : ¬ file.SizesFrom descidx i (n + 1) := fun h =>
    absurd (h i le_rfl hle (by omega) (fun j hij hji => by omega) hread) (Nat.not_le.mpr hlen)
  exact ⟨iff_of_false hover hnot, hret, fun h => absurd h hnot, fun h => absurd h hnot, fun h => absurd h hnot⟩

/-- A round that passes its configuration, with the rounds behind it. -/
theorem roundsRight_passes (hlt : i < descidx) (hpassed : file.Passed i) (hlen : 8 ≤ file.len i) {log : List RawEv}
    (hinside : ∀ e ∈ log, e.Inside) (hfull : (∀ e ∈ log, e.Full) ↔ file.outcome (.body i) ≠ .error)
    (hrest : file.RoundsRight descidx (i + 1) n r) : file.RoundsRight descidx i (n + 1) (r.after log) := by
  have hsizes : file.SizesFrom descidx i (n + 1) ↔ file.SizesFrom descidx (i + 1) n :=
    (sizesFrom_succ hlt hpassed).trans (and_iff_right hlen)
  refine ⟨?_, hrest.error, fun h => ?_, fun h hret => ?_, fun h => hrest.handsOut (hsizes.mp h)⟩
  · rw [hsizes, ← hrest.sizes, RawRun.after, List.forall_mem_append]
    exact and_iff_right hinside
  · rw [from_succ hlt.le, and_iff_right hpassed, show i + (n + 1) = i + 1 + n by omega]
    exact hrest.success (hsizes.mp h)
  · rw [from_succ hlt.le, ← hrest.full (hsizes.mp h) hret, RawRun.after, List.forall_mem_append]
    exact and_congr_left' hfull

end

/-- The round of the wanted configuration, when it is passed. -/
theorem roundsRight_last {file : DeviceFile} {i n : ℕ} {r : RawRun} (hpassed : file.Passed i) (hlen : 8 ≤ file.len i)
    (hret : r.ret = OPENUSB_SUCCESS ∨ r.ret < 0) (hinside : ∀ e ∈ r.log, e.Inside)
    (hsuccess : r.ret = OPENUSB_SUCCESS ↔ file.alloc .cfgdescr = true)
    (hfull : (∀ e ∈ r.log, e.Full) ↔ file.outcome (.body i) ≠ .error)
    (hout : r.ret = OPENUSB_SUCCESS → file.outcome (.body i) ≠ .error →
      HandsOut file.content (file.headerPos i) (file.len i) r) :
    file.RoundsRight i i (n + 1) r := by
  have hone {P : ℕ → Prop} : (∀ j, i ≤ j → j ≤ i → P j) ↔ P i :=
    ⟨fun h => h i le_rfl le_rfl, fun h j hij hji => le_antisymm hij hji ▸ h⟩
  refine ⟨iff_of_true hinside ((sizesFrom_one le_rfl (.inr rfl)).mpr fun _ => hlen), hret, fun _ => ?_, fun _ _ => ?_,
    fun _ => hout⟩
  · rw [hone, hsuccess]
    exact ⟨fun h => ⟨by omega, hpassed, h⟩, fun h => h.2.2⟩
  · rw [hone, hfull]

/-- A read in front that delivers all. -/
theorem roundsRight_after {file : DeviceFile} {descidx i n : ℕ} {r : RawRun} {e : RawEv} (hinside : e.Inside) (hfull : e.Full)
    (h : file.RoundsRight descidx i n r) : file.RoundsRight descidx i n (r.after [e]) := by
  refine ⟨?_, h.error, h.success, fun hsizes hret => ?_, h.handsOut⟩
  · rw [← h.sizes, RawRun.after, List.forall_mem_append, List.forall_mem_singleton]
    exact and_iff_right hinside
  · rw [← h.full hsizes hret, RawRun.after, List.forall_mem_append, List.forall_mem_singleton]
    exact and_iff_right hfull

section

variable {file : DeviceFile} {descidx : UInt8} {i n : ℕ}

/-- The bytes of a configuration that was read in two parts. -/
theorem take_two_parts {content : List UInt8} {pos len : ℕ} (h8 : 8 ≤ len) (rest : List UInt8)
    (hroom : pos + len ≤ content.length) :
    (((content.drop pos).take 8 ++ (content.drop (pos + 8)).take (len - 8)) ++ rest).take len =
      (content.drop pos).take len := by
  have hparts : (content.drop pos).take 8 ++ (content.drop (pos + 8)).take (len - 8) = (content.drop pos).take len := by
    have hsum : len = 8 + (len - 8) := by omega
    rw [hsum, List.take_add, List.drop_drop]
    rw [show 8 + (len - 8) - 8 = len - 8 by omega]
  have hlength : ((content.drop pos).take len).length = len := by
    rw [List.length_take, List.length_drop]
    omega
  rw [hparts, List.take_append_of_le_length (by omega), List.take_of_length_le (by omega)]

/-- The position behind a configuration that is passed. -/
theorem headerPos_succ (hlen : 8 ≤ file.len i)
    (hbody : file.outcome (.body i) = .error ∨ file.ReadsAll (.body i) (file.headerPos i + 8) (file.len i - 8)) :
    file.headerPos i + 8 + (file.readFile (.body i) (file.headerPos i + 8) (file.len i - 8)).2.length =
      file.headerPos (i + 1) := by
  rw [DeviceFile.headerPos]
  change _ = file.headerPos i + if file.outcome (.body i) = .error then 8 else file.len i
  by_cases herr : file.outcome (.body i) = .error
  · rw [if_pos herr, readFile_error herr]
    rfl
  · have hall := hbody.resolve_left herr
    have hcount : ((file.readFile (.body i) (file.headerPos i + 8) (file.len i - 8)).2.length : ℤ) =
        (file.len i - 8 : ℕ) := by
      rw [← readFile_ok herr]
      exact hall
    rw [if_neg herr]
    omega

/-- The loop returns success or an error. -/
theorem rawBody_ret {pos len count : ℕ} {buf : List UInt8} {next : ℕ → RawRun}
    (hnext : ∀ pos, (next pos).ret = OPENUSB_SUCCESS ∨ (next pos).ret < 0) :
    (file.rawBody descidx i pos len count buf next).ret = OPENUSB_SUCCESS ∨
      (file.rawBody descidx i pos len count buf next).ret < 0 := by
  unfold DeviceFile.rawBody
  dsimp only
  by_cases hshort : CInt.toU64 (file.readFile (.body i) (pos + 8) count).1 < count
  · rw [if_pos hshort]
    exact .inr (translateErrno_neg _)
  rw [if_neg hshort]
  by_cases hhit : i = descidx.toNat
  · rw [if_pos hhit]
    by_cases halloc : (!file.alloc .cfgdescr) = true
    · rw [if_pos halloc]
      exact .inr (show OPENUSB_NO_RESOURCES < 0 by decide)
    · rw [if_neg halloc]
      exact .inl rfl
  · rw [if_neg hhit, RawRun.after_ret]
    exact hnext _

theorem rawConfigs_ret (n i pos : ℕ) :
    (file.rawConfigs descidx n i pos).ret = OPENUSB_SUCCESS ∨ (file.rawConfigs descidx n i pos).ret < 0 := by
  induction n generalizing i pos with
  | zero => exact .inr (show OPENUSB_BADARG < 0 by decide)
  | succ n ih =>
    rw [DeviceFile.rawConfigs]
    dsimp only
    by_cases hshort : (file.readFile (.header i) pos 8).1 < 8
    · rw [if_pos hshort]
      exact .inr (translateErrno_neg _)
    rw [if_neg hshort]
    by_cases halloc : (!file.alloc (.data i)) = true
    · rw [if_pos halloc]
      exact .inr (translateErrno_neg _)
    · rw [if_neg halloc, RawRun.after_ret]
      exact rawBody_ret fun pos => ih (i + 1) pos

/-- The header is written into the buffer, whatever its size. -/
theorem rawBody_header {pos len count : ℕ} {buf : List UInt8} {next : ℕ → RawRun} :
    RawEv.write len 0 8 ∈ (file.rawBody descidx i pos len count buf next).log := by
  unfold DeviceFile.rawBody
  dsimp only
  by_cases hshort : CInt.toU64 (file.readFile (.body i) (pos + 8) count).1 < count
  · rw [if_pos hshort]
    exact List.mem_cons_self
  rw [if_neg hshort]
  by_cases hhit : i = descidx.toNat
  · rw [if_pos hhit]
    by_cases halloc : (!file.alloc .cfgdescr) = true
    · rw [if_pos halloc]
      exact List.mem_cons_self
    · rw [if_neg halloc]
      exact List.mem_cons_self
  · rw [if_neg hhit]
    exact List.mem_cons_self

/-- A round whose configuration has been announced. -/
theorem rawBody_right (hle : i ≤ descidx.toNat) (hhere : file.HeaderRead i) {next : ℕ → RawRun}
    (hret : ∀ pos, (next pos).ret = OPENUSB_SUCCESS ∨ (next pos).ret < 0)
    (hnext : i < descidx.toNat → file.RoundsRight descidx.toNat (i + 1) n (next (file.headerPos (i + 1)))) :
    file.RoundsRight descidx.toNat i (n + 1)
      (file.rawBody descidx i (file.headerPos i) (file.len i) (CInt.sub 64 (file.len i) 8)
        (file.readFile (.header i) (file.headerPos i) 8).2 next) := by
  by_cases hlen : file.len i < 8
  · refine roundsRight_overflows hle hhere hlen (rawBody_ret hret) fun h => ?_
    have hwrite : (RawEv.write (file.len i) 0 8).Inside := h _ rawBody_header
    rw [RawEv.Inside] at hwrite
    omega
  have hlen : 8 ≤ file.len i := Nat.not_lt.mp hlen
  have hlt : file.len i < 2 ^ 16 := lengthAt_lt _ _
  have hsub : CInt.sub 64 (file.len i) 8 = file.len i - 8 := CInt.sub_of_le (by omega) hlen
  have hpassed := @body_iff file (.body i) (file.headerPos i + 8) (file.len i - 8) (by omega)
  have hwritten := @length_readFile file (.body i) (file.headerPos i + 8) (file.len i - 8)
  have hpos := @headerPos_succ file i hlen
  have herror := @readFile_not_error file (.body i) (file.headerPos i + 8) (file.len i - 8)
  have hread : (file.readFile (.body i) (file.headerPos i + 8) (file.len i - 8)).1 = (file.len i - 8 : ℕ) ↔
      file.ReadsAll (.body i) (file.headerPos i + 8) (file.len i - 8) := Iff.rfl
  have hall := @readFile_all file (.body i) (file.headerPos i + 8) (file.len i - 8)
  have hle' := @readFile_le file (.body i) (file.headerPos i + 8) (file.len i - 8)
  rw [hsub]
  unfold DeviceFile.rawBody
  rcases hgot : file.readFile (.body i) (file.headerPos i + 8) (file.len i - 8) with ⟨ret, body⟩
  rw [hgot] at hpassed hwritten hpos hread hall hle'
  dsimp only at hpassed hwritten hpos hread hall hle' ⊢
  by_cases hshort : CInt.toU64 ret < file.len i - 8
  · have hnot : ¬ file.Passed i := fun h => hpassed.mpr h.2 hshort
    rw [if_pos hshort]
    refine roundsRight_fails hle hnot (translateErrno_neg _) ?_ fun _ => hlen
    simp only [List.forall_mem_cons, RawEv.Inside, true_and, List.not_mem_nil, false_imp_iff, implies_true, and_true]
    omega
  have hbody := hpassed.mp hshort
  have hpass : file.Passed i := ⟨hhere, hbody⟩
  rw [if_neg hshort]
  have hinside : ∀ e ∈ [RawEv.write (file.len i) 0 8, .read (file.len i - 8) ret, .write (file.len i) 8 body.length],
      e.Inside := by
    simp only [List.forall_mem_cons, RawEv.Inside, true_and, List.not_mem_nil, false_imp_iff, implies_true, and_true]
    omega
  have hfull : (∀ e ∈ [RawEv.write (file.len i) 0 8, .read (file.len i - 8) ret, .write (file.len i) 8 body.length],
      e.Full) ↔ file.outcome (.body i) ≠ .error := by
    simp only [List.forall_mem_cons, RawEv.Full, true_and, List.not_mem_nil, false_imp_iff, implies_true, and_true]
    constructor
    · exact fun h => herror (hread.mp (le_antisymm hle' h))
    · exact fun h => (hread.mpr (hbody.resolve_left h)).ge
  by_cases hhit : i = descidx.toNat
  · rw [if_pos hhit]
    subst hhit
    by_cases halloc : file.alloc .cfgdescr = true
    · rw [if_neg (by simp [halloc])]
      refine roundsRight_last hpass hlen (.inl rfl) ?_ (iff_of_true rfl halloc) ?_ fun _ herr => ?_
      · rw [List.forall_mem_append, List.forall_mem_singleton]
        exact ⟨hinside, (Nat.zero_add _).le⟩
      · rw [List.forall_mem_append, List.forall_mem_singleton, hfull]
        exact and_iff_left trivial
      · obtain ⟨hbytes, hroom⟩ := hall (hbody.resolve_left herr)
        obtain ⟨hfirst, hstart⟩ := readFile_all hhere.1
        have hend : file.headerPos descidx.toNat + file.len descidx.toNat ≤ file.content.length := by omega
        refine ⟨?_, hend, rfl⟩
        rw [hfirst, hbytes, take_two_parts hlen _ hend]
    · have hneg : OPENUSB_NO_RESOURCES < 0 := by decide
      rw [if_pos (by simpa using halloc)]
      exact roundsRight_last hpass hlen (.inr hneg) hinside (iff_of_false (success_not_neg hneg) halloc) hfull
        fun h => absurd h (success_not_neg hneg)
  · rw [if_neg hhit, hpos hbody]
    have hlt : i < descidx.toNat := lt_of_le_of_ne hle hhit
    exact roundsRight_passes hlt hpass hlen hinside hfull (hnext hlt)

/-- The rounds of the loop. -/
theorem rawConfigs_right (n i : ℕ) (hle : i ≤ descidx.toNat) :
    file.RoundsRight descidx.toNat i n (file.rawConfigs descidx n i (file.headerPos i)) := by
  induction n generalizing i with
  | zero =>
    have hneg : OPENUSB_BADARG < 0 := by decide
    exact ⟨iff_of_true (fun e he => absurd he List.not_mem_nil) fun k hik _ hkn => by omega, .inr hneg,
      fun _ => iff_of_false (success_not_neg hneg) fun h => by omega, fun _ h => absurd h (success_not_neg hneg),
      fun _ h => absurd h (success_not_neg hneg)⟩
  | succ n ih =>
    rw [DeviceFile.rawConfigs]
    dsimp only
    have hheader := @header_iff file (.header i) (file.headerPos i) 8
    by_cases hshort : (file.readFile (.header i) (file.headerPos i) 8).1 < 8
    · have hnot : ¬ file.HeaderRead i := fun h => hheader.mpr h.1 hshort
      rw [if_pos hshort]
      refine roundsRight_fails hle (fun h => hnot h.1) (translateErrno_neg _) ?_ fun h => absurd h hnot
      exact List.forall_mem_singleton.mpr trivial
    have hall := hheader.mp hshort
    have hread : (file.readFile (.header i) (file.headerPos i) 8).1 = 8 := hall
    rw [if_neg hshort, hread]
    by_cases halloc : file.alloc (.data i) = true
    · rw [if_neg (by simp [halloc]), parse_lengthAt hall]
      refine roundsRight_after trivial le_rfl (rawBody_right hle ⟨hall, halloc⟩ (fun pos => rawConfigs_ret n (i + 1) pos) ?_)
      exact fun hlt => ih (i + 1) hlt
    · have hnot : ¬ file.HeaderRead i := fun h => halloc h.2
      rw [if_pos (by simpa using halloc)]
      refine roundsRight_fails hle (fun h => hnot h.1) (translateErrno_neg _) ?_ fun h => absurd h hnot
      exact List.forall_mem_singleton.mpr trivial

end

/-! ## The function -/

section

variable {file : DeviceFile} {r : RawRun} {type descidx : UInt8}

/-- Without a failed read the headers are read where the configurations begin. -/
theorem headerPos_eq (k : ℕ) (h : ∀ j < k, file.outcome (.body j) ≠ .error) :
    file.headerPos k = configStart file.content k := by
  induction k with
  | zero => rfl
  | succ k ih =>
    have heq := ih fun j hj => h j (by omega)
    rw [DeviceFile.headerPos, configStart, if_neg (h k (by omega)), heq]

/-- A run that fails, and writes inside of its buffers. -/
theorem exactOrFails_of_neg {content : List UInt8} (hret : r.ret < 0) (hinside : ∀ e ∈ r.log, e.Inside) :
    ExactOrFails content type descidx r :=
  ⟨fun h => absurd h (success_not_neg hret), fun _ => hret, hinside⟩

/-- The loop behind a device descriptor that was read. -/
theorem configs_iff {num : ℕ} {log : List RawEv} (hinside : ∀ e ∈ log, e.Inside) (hfull : ∀ e ∈ log, e.Full)
    (htype : type ≠ USB_DESC_TYPE_DEVICE) :
    ExactOrFails file.content type descidx ((file.rawConfigs descidx num 0 USBI_DEVICE_DESC_SIZE).after log) ↔
      file.ConfigsClean descidx.toNat num := by
  have hright := @rawConfigs_right file descidx num 0 (Nat.zero_le _)
  change file.RoundsRight descidx.toNat 0 num (file.rawConfigs descidx num 0 USBI_DEVICE_DESC_SIZE) at hright
  generalize file.rawConfigs descidx num 0 USBI_DEVICE_DESC_SIZE = r at hright
  have hsizes : file.SizesFrom descidx.toNat 0 num ↔
      ∀ i ≤ descidx.toNat, i < num → (∀ j < i, file.Passed j) → file.HeaderRead i → 8 ≤ file.len i := by
    unfold DeviceFile.SizesFrom
    simp only [Nat.zero_le, true_imp_iff, Nat.zero_add]
  have hwrites : (∀ e ∈ (r.after log).log, e.Inside) ↔ file.SizesFrom descidx.toNat 0 num := by
    rw [RawRun.after, List.forall_mem_append, ← hright.sizes]
    exact and_iff_right hinside
  unfold DeviceFile.ConfigsClean
  rw [← hsizes]
  constructor
  · intro h
    have hs := hwrites.mp h.inside
    refine ⟨hs, fun hnum hpassed halloc => ?_⟩
    have hret : r.ret = OPENUSB_SUCCESS := (hright.success hs).mpr
      ⟨by omega, fun j _ hj => hpassed j hj, halloc⟩
    have hreads : ∀ e ∈ r.log, e.Full := by
      intro e he
      by_contra hnot
      exact absurd hret (success_not_neg (h.fails ⟨e, List.mem_append_right _ he, hnot⟩))
    exact fun j hj => (hright.full hs hret).mp hreads j (Nat.zero_le j) hj
  · rintro ⟨hs, hclean⟩
    have hinside' := hwrites.mpr hs
    rcases hright.error with hret | hneg
    · obtain ⟨hnum, hpassed, halloc⟩ := (hright.success hs).mp hret
      have hno := hclean (by omega) (fun j hj => hpassed j (Nat.zero_le j) hj) halloc
      refine ⟨fun _ => ?_, ?_, hinside'⟩
      · have hpos := @headerPos_eq file descidx.toNat fun j hj => hno j hj.le
        have hout := hright.handsOut hs hret (hno _ le_rfl)
        rw [DeviceFile.len, hpos] at hout
        rw [Delivers, if_neg htype]
        exact hout
      · rintro ⟨e, he, hnot⟩
        rcases List.mem_append.mp he with he | he
        · exact absurd (hfull e he) hnot
        · exact absurd ((hright.full hs hret).mpr (fun j _ hj => hno j hj) e he) hnot
    · exact exactOrFails_of_neg hneg hinside'

/-- The read of the device descriptor, when it is asked for. -/
theorem device_iff {ret : ℤ} {got : List UInt8} (hread : file.readFile .device 0 USBI_DEVICE_DESC_SIZE = (ret, got)) :
    ExactOrFails file.content USB_DESC_TYPE_DEVICE descidx
      { ret := OPENUSB_SUCCESS, buffer := some ((got ++ List.replicate USBI_DEVICE_DESC_SIZE 0).take USBI_DEVICE_DESC_SIZE),
        buflen := some USBI_DEVICE_DESC_SIZE,
        log := [.read USBI_DEVICE_DESC_SIZE ret, .write USBI_DEVICE_DESC_SIZE 0 got.length] } ↔
      file.ReadsAll .device 0 USBI_DEVICE_DESC_SIZE := by
  have hle := @readFile_le file .device 0 USBI_DEVICE_DESC_SIZE
  have hwritten := @length_readFile file .device 0 USBI_DEVICE_DESC_SIZE
  have hall := @readFile_all file .device 0 USBI_DEVICE_DESC_SIZE
  have hiff : file.ReadsAll .device 0 USBI_DEVICE_DESC_SIZE ↔ ret = (USBI_DEVICE_DESC_SIZE : ℕ) := by
    rw [DeviceFile.ReadsAll, hread]
  rw [hread] at hle hwritten hall
  dsimp only at hle hwritten hall
  constructor
  · intro h
    refine hiff.mpr (le_antisymm hle ?_)
    by_contra hshort
    exact success_not_neg (h.fails ⟨_, List.mem_cons_self, hshort⟩) rfl
  · intro h
    obtain ⟨hbytes, hroom⟩ := hall h
    have hlength : got.length = USBI_DEVICE_DESC_SIZE := by
      rw [hbytes, List.length_take, List.length_drop]
      omega
    refine ⟨fun _ => ?_, ?_, ?_⟩
    · rw [Delivers, if_pos rfl]
      refine ⟨?_, by omega, rfl⟩
      rw [List.take_append_of_le_length hlength.ge, List.take_of_length_le hlength.le, ← hbytes]
    · rintro ⟨e, he, hnot⟩
      rcases List.mem_cons.mp he with rfl | he
      · exact absurd (hiff.mp h).ge hnot
      · obtain rfl := List.mem_singleton.mp he
        exact absurd trivial hnot
    · intro e he
      rcases List.mem_cons.mp he with rfl | he
      · trivial
      · obtain rfl := List.mem_singleton.mp he
        exact (Nat.zero_add _).trans_le hwritten

/-- The loop behind the read of the device descriptor: one that is cut short announces no configuration. -/
theorem configs_behind_device {ret : ℤ} {got : List UInt8}
    (hread : file.readFile .device 0 USBI_DEVICE_DESC_SIZE = (ret, got)) (hnoerr : file.outcome .device ≠ .error)
    (hinside : ∀ e ∈ [RawEv.read USBI_DEVICE_DESC_SIZE ret, .write USBI_DEVICE_DESC_SIZE 0 got.length], e.Inside)
    (htype : type ≠ USB_DESC_TYPE_DEVICE) :
    ExactOrFails file.content type descidx
        ((file.rawConfigs descidx (got.getD 17 0).toNat 0 got.length).after
          [.read USBI_DEVICE_DESC_SIZE ret, .write USBI_DEVICE_DESC_SIZE 0 got.length]) ↔
      (file.ReadsAll .device 0 USBI_DEVICE_DESC_SIZE →
        file.ConfigsClean descidx.toNat (file.content.getD 17 0).toNat) := by
  have hok := @readFile_ok file .device 0 USBI_DEVICE_DESC_SIZE hnoerr
  have hall := @readFile_all file .device 0 USBI_DEVICE_DESC_SIZE
  have hiff : file.ReadsAll .device 0 USBI_DEVICE_DESC_SIZE ↔ ret = (USBI_DEVICE_DESC_SIZE : ℕ) := by
    rw [DeviceFile.ReadsAll, hread]
  rw [hread] at hok hall
  dsimp only at hok hall
  by_cases hfull : file.ReadsAll .device 0 USBI_DEVICE_DESC_SIZE
  · have hlength : got.length = USBI_DEVICE_DESC_SIZE := by
      have hret := hiff.mp hfull
      omega
    have hnum : got.getD 17 0 = file.content.getD 17 0 := by
      rw [(hall hfull).1, List.drop_zero, List.getD_eq_getElem?_getD, List.getElem?_take_of_lt (by decide),
        ← List.getD_eq_getElem?_getD]
    rw [hlength, hnum, configs_iff (by rwa [hlength] at hinside) ?_ htype, forall_prop_of_true hfull]
    intro e he
    rcases List.mem_cons.mp he with rfl | he
    · exact (hiff.mp hfull).ge
    · obtain rfl := List.mem_singleton.mp he
      trivial
  · have hshort : got.length < USBI_DEVICE_DESC_SIZE := by
      have hle := @readFile_le file .device 0 USBI_DEVICE_DESC_SIZE
      have hne : ¬ ret = (USBI_DEVICE_DESC_SIZE : ℕ) := fun h => hfull (hiff.mpr h)
      rw [hread] at hle
      dsimp only at hle
      omega
    have hnum : got.getD 17 0 = 0 := List.getD_eq_default _ _ (Nat.le_of_lt_succ hshort)
    rw [hnum]
    refine iff_of_true (exactOrFails_of_neg (show OPENUSB_BADARG < 0 by decide) ?_) fun h => absurd h hfull
    show ∀ e ∈ _ ++ [], _
    rwa [List.append_nil]

end

/-- Reading a raw descriptor is exact or fails exactly for a clean file: the read of the device descriptor is not short when
it is asked for; no configuration on the way announces less than its header; and where the wanted one is reached, no read of
a configuration failed. -/
theorem raw_desc_iff (file : DeviceFile) (idev buflen : Bool) (type descidx : UInt8) :
    ExactOrFails file.content type descidx (file.linuxGetRawDesc idev buflen type descidx) ↔
      file.Clean idev buflen type descidx := by
  have hrefused {ret : ℤ} (h : ret < 0) : ExactOrFails file.content type descidx { ret := ret } :=
    exactOrFails_of_neg h fun e he => absurd he List.not_mem_nil
  unfold DeviceFile.linuxGetRawDesc DeviceFile.Clean
  by_cases hargs : (!idev) = true ∨ (!buflen) = true
  · rw [if_pos hargs]
    refine iff_of_true (hrefused (by decide)) fun h1 h2 => ?_
    simp [h1, h2] at hargs
  rw [if_neg hargs]
  have hidev : idev = true := by simpa using fun h => hargs (.inl h)
  have hbuflen : buflen = true := by simpa using fun h => hargs (.inr h)
  by_cases htype : type ≠ USB_DESC_TYPE_DEVICE ∧ type ≠ USB_DESC_TYPE_CONFIG
  · rw [if_pos htype]
    exact iff_of_true (hrefused (by decide)) fun _ _ _ _ => ⟨fun h => absurd h htype.1, fun h => absurd h htype.2⟩
  rw [if_neg htype]
  by_cases hfd : file.fd < 0
  · rw [if_pos hfd]
    exact iff_of_true (hrefused (by decide)) fun _ _ h => absurd h (Int.not_le.mpr hfd)
  rw [if_neg hfd]
  by_cases halloc : file.alloc .devdescr = true
  swap
  · rw [if_pos (by simpa using halloc)]
    exact iff_of_true (hrefused (by decide)) fun _ _ _ h => absurd h halloc
  rw [if_neg (by simp [halloc]), forall_prop_of_true hidev, forall_prop_of_true hbuflen,
    forall_prop_of_true (Int.not_lt.mp hfd), forall_prop_of_true halloc]
  have hok := @readFile_ok file .device 0 USBI_DEVICE_DESC_SIZE
  have hwritten := @length_readFile file .device 0 USBI_DEVICE_DESC_SIZE
  have herror := @readFile_error file .device 0 USBI_DEVICE_DESC_SIZE
  rcases hread : file.readFile .device 0 USBI_DEVICE_DESC_SIZE with ⟨ret, got⟩
  rw [hread] at hok hwritten herror
  dsimp only at hok hwritten herror ⊢
  have hinside : ∀ e ∈ [RawEv.read USBI_DEVICE_DESC_SIZE ret, .write USBI_DEVICE_DESC_SIZE 0 got.length], e.Inside := by
    simp only [List.forall_mem_cons, RawEv.Inside, true_and, List.not_mem_nil, false_imp_iff, implies_true, and_true]
    omega
  by_cases hret : ret < 0
  · have herr : file.outcome .device = .error := by
      by_contra h
      have := hok h
      omega
    rw [if_pos hret]
    exact iff_of_true (exactOrFails_of_neg (translateErrno_neg _) hinside)
      ⟨fun _ => .inl herr, fun _ h => absurd herr (readFile_not_error h)⟩
  have hnoerr : file.outcome .device ≠ .error := fun h => hret (by
    have := congrArg Prod.fst (herror h)
    dsimp only at this
    omega)
  rw [if_neg hret]
  by_cases hdev : type = USB_DESC_TYPE_DEVICE
  · have hcfg : type ≠ USB_DESC_TYPE_CONFIG := by
      rw [hdev]
      decide
    rw [if_pos hdev, forall_prop_of_true hdev, or_iff_right hnoerr, hdev]
    rw [hdev] at hcfg
    rw [device_iff hread]
    exact ⟨fun h => ⟨h, fun h => absurd h hcfg⟩, fun h => h.1⟩
  · have hcfg : type = USB_DESC_TYPE_CONFIG := by
      by_contra h
      exact htype ⟨hdev, h⟩
    rw [if_neg hdev, parse_numConfigurations, forall_prop_of_true hcfg, configs_behind_device hread hnoerr hinside hdev]
    exact ⟨fun h => ⟨fun h' => absurd h' hdev, h⟩, fun h => h.2⟩

/-- Where a device with one configuration of nine bytes loses the read of its ninth byte, the function succeeds with a zero in
its place; where the device descriptor is cut short, it succeeds with zeros at its end; and a configuration that announces no
bytes is written beyond its buffer. -/
theorem raw_desc_not_exact :
    let device : List UInt8 := [18, 1, 0, 2, 0, 0, 0, 64, 1, 2, 3, 4, 5, 6, 0, 0, 0, 1]
    let failed : DeviceFile :=
      { content := device ++ [9, 2, 9, 0, 1, 1, 0, 0x80, 50], outcome := fun s => if s = .body 0 then .error else .upTo 18 }
    let cut : DeviceFile := { content := device, outcome := fun _ => .upTo 10 }
    let empty : DeviceFile := { content := device ++ [9, 2, 0, 0, 0, 1, 0, 0x80], outcome := fun _ => .upTo 18 }
    (failed.linuxGetRawDesc true true USB_DESC_TYPE_CONFIG 0).buffer = some [9, 2, 9, 0, 1, 1, 0, 0x80, 0] ∧
      ¬ ExactOrFails failed.content USB_DESC_TYPE_CONFIG 0 (failed.linuxGetRawDesc true true USB_DESC_TYPE_CONFIG 0) ∧
      ¬ ExactOrFails cut.content USB_DESC_TYPE_DEVICE 0 (cut.linuxGetRawDesc true true USB_DESC_TYPE_DEVICE 0) ∧
      ¬ ExactOrFails empty.content USB_DESC_TYPE_CONFIG 0 (empty.linuxGetRawDesc true true USB_DESC_TYPE_CONFIG 0) := by
  refine ⟨by decide +kernel, fun h => ?_, fun h => ?_, fun h => ?_⟩
  · exact absurd (h.fails ⟨.read 1 (-1), by decide +kernel, by decide⟩) (by decide +kernel)
  · exact absurd (h.fails ⟨.read 18 10, by decide +kernel, by decide⟩) (by decide +kernel)
  · exact absurd (h.inside (.write 0 0 8) (by decide +kernel)) (by decide)

end OpenUsb
