import OpenUsb.Fetch
import OpenUsb.SetupPacket

/-!
# Strings — `usbi_get_string` and `usbi_get_string_simple`

The descriptor that lists the languages is read first, then the string in the first of them.  Both go to `tbuf`, an array of
plain chars on the stack: its lengths and the bytes of the language are signed.

* `string_decoded_iff`: the languages and the lengths for which the string is decoded.
-/

namespace OpenUsb

def USB_DESC_TYPE_STRING : UInt8 := 3
def USB_REQ_GET_DESCRIPTOR : UInt8 := 6
def USB_REQ_DEV_TO_HOST : UInt8 := 0x80
def EIO : ℤ := 5
def EFBIG : ℤ := 27

/-- The request of `usbi_get_string`. -/
def stringRequest (index langid : BitVec 32) (buflen : ℕ) : CtrlRequest where
  bmRequestType := USB_REQ_DEV_TO_HOST
  bRequest := USB_REQ_GET_DESCRIPTOR
  wValue := ⟨((USB_DESC_TYPE_STRING.toBitVec.setWidth 32 <<< 8) + index).setWidth 16⟩
  wIndex := ⟨langid.setWidth 16⟩
  length := UInt32.ofNat buflen

/-- `usbi_get_string`: its requests, its value, and the bytes that it leaves in the buffer. -/
def usbiGetString (index langid : BitVec 32) (buf : Bool) (buflen : ℕ) (reply : Reply) :
    List CtrlRequest × ℤ × List UInt8 :=
  if !buf ∨ buflen = 0 then ([], OPENUSB_BADARG, [])
  else ([stringRequest index langid buflen],
    match reply with
    | .error bytes => (-1, bytes.take buflen)
    | .ok bytes => ((bytes.take buflen).length, bytes.take buflen))

/-- A buffer over which bytes are written from its beginning. -/
def fill (bytes : List UInt8) (buf : ℕ → UInt8) (k : ℕ) : UInt8 := bytes.getD k (buf k)

/-- The loop of `usbi_get_string_simple`: what it writes to `buf`, and the value of `di` at its end. -/
def copyUnits (tbuf : ℕ → UInt8) (buflen si di : ℕ) : List (ℕ × UInt8) × ℕ :=
  if (si : ℤ) < CInt.schar (tbuf 0) then
    if buflen - 1 ≤ di then ([], di)
    else
      let rest := copyUnits tbuf buflen (si + 2) (di + 1)
      ((di, if tbuf (si + 1) ≠ 0 then '?'.toUInt8 else tbuf si) :: rest.1, rest.2)
  else ([], di)
termination_by (CInt.schar (tbuf 0) - si).toNat

/-- `langid` after the first reply. -/
def langidOf (ret : ℤ) (tbuf : ℕ → UInt8) : BitVec 32 :=
  if ret < 4 then 0x409 else (tbuf 2).toBitVec.signExtend 32 ||| (tbuf 3).toBitVec.signExtend 32 <<< 8

/-- A call: the requests that it sends, what it writes to `buf`, and its value. -/
structure StringCall where
  requests : List CtrlRequest := []
  writes : List (ℕ × UInt8) := []
  ret : ℤ

/-- `usbi_get_string_simple` with these replies of the device; `stack` is what `tbuf` holds before. -/
def usbiGetStringSimple (stack : ℕ → UInt8) (index : BitVec 32) (buf : Bool) (buflen : ℕ) (first second : Reply) :
    StringCall :=
  if index = 0 then { ret := OPENUSB_BADARG }
  else if !buf ∨ buflen = 0 then { ret := OPENUSB_BADARG }
  else
    let zeros : List (ℕ × UInt8) := (List.range buflen).map fun k => (k, 0)
    let first := usbiGetString 0 0 true 256 first
    let tbuf := fill first.2.2 stack
    let second := usbiGetString index (langidOf first.2.1 tbuf) true 256 second
    let tbuf := fill second.2.2 tbuf
    let requests := first.1 ++ second.1
    let ret := second.2.1
    if ret < 0 then { requests := requests, writes := zeros, ret := ret }
    else if tbuf 1 ≠ USB_DESC_TYPE_STRING then { requests := requests, writes := zeros, ret := - EIO }
    else if ret < CInt.schar (tbuf 0) then { requests := requests, writes := zeros, ret := -EFBIG }
    else
      let copied := copyUnits tbuf buflen 2 0
      { requests := requests, writes := zeros ++ copied.1 ++ [(copied.2, 0)], ret := copied.2 }

/-- What a buffer holds after writes to it. -/
def afterWrites (writes : List (ℕ × UInt8)) (buf : ℕ → UInt8) : ℕ → UInt8 :=
  writes.foldl (fun buf w => Function.update buf w.1 w.2) buf

/-! ## What the call is for -/

/-- The first of the languages, if the reply has one. -/
def firstLangid : Reply → BitVec 16
  | .ok (_ :: _ :: lo :: hi :: _) => lo.toBitVec.setWidth 16 ||| hi.toBitVec.setWidth 16 <<< 8
  | _ => 0x409

/-- A string descriptor of `bytes[0]` bytes, all delivered. -/
structure StringDescriptor (bytes : List UInt8) : Prop where
  two_le : 2 ≤ (bytes.getD 0 0).toNat
  delivered : (bytes.getD 0 0).toNat ≤ bytes.length
  small : bytes.length ≤ 256
  type : bytes.getD 1 0 = USB_DESC_TYPE_STRING

/-- The number of characters that there are and that fit. -/
def stringUnits (buflen : ℕ) (bytes : List UInt8) : ℕ := min (buflen - 1) (((bytes.getD 0 0).toNat - 2) / 2)

/-- The string is asked for in the first language, and decoded. -/
structure StringCall.Decodes (c : StringCall) (index : BitVec 32) (buflen : ℕ) (first : Reply) (bytes : List UInt8) :
    Prop where
  asked : c.requests = [stringRequest 0 0 256, stringRequest index ((firstLangid first).setWidth 32) 256]
  units : c.ret = stringUnits buflen bytes
  chars : ∀ (buf : ℕ → UInt8), ∀ k < stringUnits buflen bytes, afterWrites c.writes buf k =
    if bytes.getD (2 * k + 3) 0 ≠ 0 then '?'.toUInt8 else bytes.getD (2 * k + 2) 0
  terminated : ∀ buf : ℕ → UInt8, afterWrites c.writes buf (stringUnits buflen bytes) = 0
  inside : ∀ w ∈ c.writes, w.1 < buflen

/-- As plain chars the two bytes of the language give the language. -/
def LangidPlain : Reply → Prop
  | .ok (_ :: _ :: lo :: hi :: _) => lo.toNat < 128 ∨ hi = 0xFF
  | _ => True

/-- No character fits; or the length is no negative plain char, and even unless the buffer is full before the end. -/
def LengthPlain (buflen len : ℕ) : Prop :=
  buflen = 1 ∨ len < 128 ∧ (len % 2 = 0 ∨ buflen - 1 ≤ (len - 2) / 2)

/-! ## The language -/

/-- Two signed bytes make the word of their bits, unless the sign of the lower one spoils the upper one. -/
theorem word_of_signed_iff (lo hi : BitVec 8) :
    (lo.signExtend 32 ||| hi.signExtend 32 <<< 8).setWidth 16 = lo.setWidth 16 ||| hi.setWidth 16 <<< 8 ↔
      lo.msb = false ∨ hi = BitVec.allOnes 8 := by
  have hbits : ∀ i < 16, ((lo.signExtend 32 ||| hi.signExtend 32 <<< 8).setWidth 16).getLsbD i =
      if i < 8 then lo.getLsbD i else lo.msb || hi.getLsbD (i - 8) := by
    intro i h
    rw [BitVec.getLsbD_setWidth, BitVec.getLsbD_or, BitVec.getLsbD_shiftLeft, BitVec.getLsbD_signExtend,
      BitVec.getLsbD_signExtend]
    by_cases h8 : i < 8
    · simp [h, h8, show i < 32 by omega]
    · simp [h, h8, show i < 32 by omega, show i - 8 < 8 by omega, show i - 8 < 32 by omega]
  have hword : ∀ i < 16, (lo.setWidth 16 ||| hi.setWidth 16 <<< 8).getLsbD i =
      if i < 8 then lo.getLsbD i else hi.getLsbD (i - 8) := by
    intro i h
    by_cases h8 : i < 8
    · simp [h, h8]
    · simp [h, h8, BitVec.getLsbD_of_ge lo i (by omega)]
  constructor
  · intro heq
    by_contra hno
    obtain ⟨hmsb, hhi⟩ := not_or.mp hno
    apply hhi
    apply BitVec.eq_of_getLsbD_eq
    intro i h
    have hbit := hbits (i + 8) (by omega)
    rw [heq, hword (i + 8) (by omega), if_neg (by omega), if_neg (by omega), Nat.add_sub_cancel,
      Bool.eq_true_of_not_eq_false hmsb, Bool.true_or] at hbit
    rw [hbit, BitVec.getLsbD_allOnes, decide_eq_true h]
  · intro hplain
    apply BitVec.eq_of_getLsbD_eq
    intro i h
    rw [hbits i h, hword i h]
    by_cases h8 : i < 8
    · rw [if_pos h8, if_pos h8]
    · rw [if_neg h8, if_neg h8]
      rcases hplain with hmsb | rfl
      · rw [hmsb, Bool.false_or]
      · rw [BitVec.getLsbD_allOnes, decide_eq_true (show i - 8 < 8 by omega), Bool.or_true]

theorem langid_iff (stack : ℕ → UInt8) (first : Reply) :
    (langidOf (usbiGetString 0 0 true 256 first).2.1 (fill (usbiGetString 0 0 true 256 first).2.2 stack)).setWidth 16 =
      firstLangid first ↔ LangidPlain first := by
  cases first with
  | error bytes => exact iff_of_true rfl trivial
  | ok bytes =>
    match bytes with
    | [] => exact iff_of_true rfl trivial
    | [_] => exact iff_of_true rfl trivial
    | [_, _] => exact iff_of_true rfl trivial
    | [_, _, _] => exact iff_of_true rfl trivial
    | b₀ :: b₁ :: lo :: hi :: bytes =>
      have hlong : ¬ ((((b₀ :: b₁ :: lo :: hi :: bytes).take 256).length : ℤ) < 4) := by
        rw [List.length_take]
        simp only [List.length_cons]
        omega
      show (langidOf (((b₀ :: b₁ :: lo :: hi :: bytes).take 256).length : ℤ) _).setWidth 16 = _ ↔ _
      rw [langidOf, if_neg hlong]
      refine (word_of_signed_iff lo.toBitVec hi.toBitVec).trans (or_congr ?_ ?_)
      · rw [BitVec.msb_eq_decide, decide_eq_false_iff_not]
        show ¬ 2 ^ 7 ≤ lo.toNat ↔ _
        omega
      · rw [← UInt8.toBitVec_inj]
        rfl

/-! ## The characters -/

section

variable {tbuf : ℕ → UInt8} {buflen si di : ℕ}

/-- The character for a unit of the string. -/
def unitChar (tbuf : ℕ → UInt8) (si : ℕ) : UInt8 := if tbuf (si + 1) ≠ 0 then '?'.toUInt8 else tbuf si

/-- The loop writes one character for each unit that starts before the length, as a plain char, until the buffer is full. -/
theorem copyUnits_eq (hdi : di ≤ buflen - 1) : copyUnits tbuf buflen si di =
    ((List.range (min (buflen - 1 - di) ((CInt.schar (tbuf 0) - si + 1) / 2).toNat)).map fun k =>
        (di + k, unitChar tbuf (si + 2 * k)),
      di + min (buflen - 1 - di) ((CInt.schar (tbuf 0) - si + 1) / 2).toNat) := by
  fun_induction copyUnits tbuf buflen si di with
  | case1 si di hlt hfull =>
    rw [show buflen - 1 - di = 0 by omega, Nat.zero_min]
    rfl
  | case2 si di hlt hfull rest ih =>
    have hcount : min (buflen - 1 - di) ((CInt.schar (tbuf 0) - si + 1) / 2).toNat =
        min (buflen - 1 - (di + 1)) ((CInt.schar (tbuf 0) - (si + 2 : ℕ) + 1) / 2).toNat + 1 := by omega
    have hshift : ((fun k => (di + k, unitChar tbuf (si + 2 * k))) ∘ Nat.succ) =
        fun k => (di + 1 + k, unitChar tbuf (si + 2 + 2 * k)) := by
      funext k
      rw [Function.comp_apply, show di + k.succ = di + 1 + k by omega, show si + 2 * k.succ = si + 2 + 2 * k by omega]
    rw [hcount, List.range_succ_eq_map, List.map_cons, List.map_map, hshift, show rest = _ from ih (by omega)]
    refine Prod.ext rfl ?_
    dsimp only
    omega
  | case3 si di hend =>
    rw [show ((CInt.schar (tbuf 0) - si + 1) / 2).toNat = 0 by omega, Nat.min_zero]
    rfl

theorem afterWrites_append (ws ws' : List (ℕ × UInt8)) (buf : ℕ → UInt8) :
    afterWrites (ws ++ ws') buf = afterWrites ws' (afterWrites ws buf) :=
  List.foldl_append ..

/-- Writing a buffer from its beginning. -/
theorem afterWrites_range (g : ℕ → UInt8) (n : ℕ) (buf : ℕ → UInt8) (k : ℕ) :
    afterWrites ((List.range n).map fun k => (k, g k)) buf k = if k < n then g k else buf k := by
  induction n with
  | zero => rfl
  | succ n ih =>
    rw [List.range_succ, List.map_append, afterWrites_append]
    show Function.update (afterWrites ((List.range n).map fun k => (k, g k)) buf) n (g n) k = _
    by_cases hk : k = n
    · rw [hk, Function.update_self, if_pos (Nat.lt_succ_self n)]
    · rw [Function.update_of_ne hk, ih]
      by_cases hlt : k < n
      · rw [if_pos hlt, if_pos (by omega)]
      · rw [if_neg hlt, if_neg (by omega)]

theorem fill_of_lt {bytes : List UInt8} {buf : ℕ → UInt8} {k : ℕ} (h : k < bytes.length) :
    fill bytes buf k = bytes.getD k 0 := by
  rw [fill, List.getD_eq_getElem _ _ h, List.getD_eq_getElem _ _ h]

end

/-! ## The call -/

section

variable {stack : ℕ → UInt8} {index : BitVec 32} {buflen : ℕ} {first : Reply} {bytes : List UInt8}

/-- The number of characters that the loop writes. -/
def loopUnits (buflen : ℕ) (bytes : List UInt8) : ℕ := min (buflen - 1) ((CInt.schar (bytes.getD 0 0) - 1) / 2).toNat

/-- `tbuf` after the two replies. -/
def replies (stack : ℕ → UInt8) (first : Reply) (bytes : List UInt8) : ℕ → UInt8 :=
  fill bytes (fill (usbiGetString 0 0 true 256 first).2.2 stack)

/-- `langid` for the second request. -/
def langidRead (stack : ℕ → UInt8) (first : Reply) : BitVec 32 :=
  langidOf (usbiGetString 0 0 true 256 first).2.1 (fill (usbiGetString 0 0 true 256 first).2.2 stack)

theorem usbiGetStringSimple_eq (hindex : index ≠ 0) (hbuflen : 1 ≤ buflen) (h : StringDescriptor bytes) :
    usbiGetStringSimple stack index true buflen first (.ok bytes) =
      { requests := [stringRequest 0 0 256, stringRequest index (langidRead stack first) 256]
        writes := ((List.range buflen).map fun k => (k, 0)) ++
          ((List.range (loopUnits buflen bytes)).map fun k => (k, unitChar (replies stack first bytes) (2 + 2 * k))) ++
          [(loopUnits buflen bytes, 0)]
        ret := loopUnits buflen bytes } := by
  have htake : bytes.take 256 = bytes := List.take_of_length_le h.small
  have hlen : 2 ≤ bytes.length := h.two_le.trans h.delivered
  have hzero : replies stack first bytes 0 = bytes.getD 0 0 := fill_of_lt (by omega)
  have hone : replies stack first bytes 1 = USB_DESC_TYPE_STRING := (fill_of_lt (by omega)).trans h.type
  have hsigned : ¬ ((bytes.length : ℤ) < CInt.schar (replies stack first bytes 0)) := by
    have hdelivered := h.delivered
    rw [hzero, CInt.schar]
    split_ifs <;> omega
  have hloop : copyUnits (replies stack first bytes) buflen 2 0 =
      ((List.range (loopUnits buflen bytes)).map fun k => (k, unitChar (replies stack first bytes) (2 + 2 * k)),
        loopUnits buflen bytes) := by
    have hcount : CInt.schar (bytes.getD 0 0) - (2 : ℕ) + 1 = CInt.schar (bytes.getD 0 0) - 1 := by omega
    rw [copyUnits_eq (Nat.zero_le _), hzero, Nat.sub_zero, hcount]
    simp only [Nat.zero_add, loopUnits]
  have hreply : usbiGetString index (langidRead stack first) true 256 (.ok bytes) =
      ([stringRequest index (langidRead stack first) 256], (bytes.length : ℤ), bytes) := by
    rw [usbiGetString, if_neg (by decide), htake]
  rw [usbiGetStringSimple, if_neg hindex, if_neg (by simp; omega)]
  dsimp only
  rw [← langidRead, hreply]
  dsimp only
  rw [← replies, if_neg (by omega), if_neg (not_not.mpr hone), if_neg hsigned, hloop]
  rfl

/-- What the call does right in any case, and where it goes wrong. -/
theorem string_decodes_iff (hindex : index ≠ 0) (hbuflen : 1 ≤ buflen) (h : StringDescriptor bytes) :
    (usbiGetStringSimple stack index true buflen first (.ok bytes)).Decodes index buflen first bytes ↔
      (langidRead stack first).setWidth 16 = firstLangid first ∧ loopUnits buflen bytes = stringUnits buflen bytes := by
  have hround : ((firstLangid first).setWidth 32).setWidth 16 = firstLangid first := by simp
  rw [usbiGetStringSimple_eq hindex hbuflen h]
  constructor
  · rintro ⟨hasked, hunits, -, -, -⟩
    have hword := congrArg CtrlRequest.wIndex (List.cons.inj (List.cons.inj hasked).2).1
    have hbits : (langidRead stack first).setWidth 16 = ((firstLangid first).setWidth 32).setWidth 16 :=
      congrArg UInt16.toBitVec hword
    exact ⟨hbits.trans hround, Int.ofNat_inj.mp hunits⟩
  · rintro ⟨hlangid, hunits⟩
    have hwrites : ∀ (buf : ℕ → UInt8) (k : ℕ), afterWrites (((List.range buflen).map fun k => (k, 0)) ++
        ((List.range (loopUnits buflen bytes)).map fun k => (k, unitChar (replies stack first bytes) (2 + 2 * k))) ++
        [(loopUnits buflen bytes, 0)]) buf k = if k = loopUnits buflen bytes then 0 else
          if k < loopUnits buflen bytes then unitChar (replies stack first bytes) (2 + 2 * k)
          else if k < buflen then 0 else buf k := by
      intro buf k
      rw [afterWrites_append, afterWrites_append]
      show Function.update (afterWrites _ _) (loopUnits buflen bytes) 0 k = _
      by_cases hk : k = loopUnits buflen bytes
      · rw [hk, Function.update_self, if_pos rfl]
      · rw [Function.update_of_ne hk, afterWrites_range, if_neg hk, afterWrites_range (fun _ => 0)]
    refine ⟨?_, congrArg Nat.cast hunits, ?_, ?_, ?_⟩
    · rw [stringRequest, stringRequest, stringRequest, hround, hlangid]
    · intro buf k hk
      have hdelivered := h.delivered
      have hlt : 2 * k + 3 < bytes.length := by
        unfold stringUnits at hk
        omega
      rw [hwrites, hunits, if_neg (by omega), if_pos hk, unitChar, replies, show 2 + 2 * k + 1 = 2 * k + 3 by omega,
        show 2 + 2 * k = 2 * k + 2 by omega, fill_of_lt hlt, fill_of_lt (by omega)]
    · intro buf
      rw [hwrites, hunits, if_pos rfl]
    · intro w hw
      have hle : loopUnits buflen bytes ≤ buflen - 1 := Nat.min_le_left ..
      rcases List.mem_append.mp hw with hw | hw
      · rcases List.mem_append.mp hw with hw | hw
        · obtain ⟨k, hk, rfl⟩ := List.mem_map.mp hw
          exact List.mem_range.mp hk
        · obtain ⟨k, hk, rfl⟩ := List.mem_map.mp hw
          have := List.mem_range.mp hk
          dsimp only
          omega
      · rw [List.mem_singleton.mp hw]
        dsimp only
        omega

theorem loopUnits_eq_iff (hbuflen : 1 ≤ buflen) (h : StringDescriptor bytes) :
    loopUnits buflen bytes = stringUnits buflen bytes ↔ LengthPlain buflen (bytes.getD 0 0).toNat := by
  have htwo := h.two_le
  have hbyte := (bytes.getD 0 0).toNat_lt
  unfold loopUnits stringUnits LengthPlain CInt.schar
  split_ifs <;> omega

/-- The string is decoded exactly when the plain chars do not spoil the language, and the length is as plain chars and
pairs of them have it. -/
theorem string_decoded_iff (hindex : index ≠ 0) (hbuflen : 1 ≤ buflen) (h : StringDescriptor bytes) :
    (usbiGetStringSimple stack index true buflen first (.ok bytes)).Decodes index buflen first bytes ↔
      LangidPlain first ∧ LengthPlain buflen (bytes.getD 0 0).toNat := by
  rw [string_decodes_iff hindex hbuflen h, loopUnits_eq_iff hbuflen h]
  exact and_congr_left' (langid_iff stack first)

end

/-- "USB" in the language 0x0409. -/
theorem string_decoded_usb :
    (usbiGetStringSimple (fun _ => 0) 1 true 256 (.ok [4, 3, 9, 4]) (.ok [8, 3, 85, 0, 83, 0, 66, 0])).Decodes 1 256
      (.ok [4, 3, 9, 4]) [8, 3, 85, 0, 83, 0, 66, 0] :=
  (string_decoded_iff (by decide) (by decide) ⟨by decide, by decide, by decide, rfl⟩).mpr
    ⟨.inl (by decide), .inr (by decide)⟩

/-- A string of 64 characters: its length is a negative plain char, and no character is copied. -/
theorem long_string_not_decoded :
    StringDescriptor (130 :: 3 :: (List.replicate 64 [97, 0]).flatten) ∧
    ¬ (usbiGetStringSimple (fun _ => 0) 1 true 256 (.ok [4, 3, 9, 4])
        (.ok (130 :: 3 :: (List.replicate 64 [97, 0]).flatten))).Decodes 1 256 (.ok [4, 3, 9, 4])
      (130 :: 3 :: (List.replicate 64 [97, 0]).flatten) := by
  have hstring : StringDescriptor (130 :: 3 :: (List.replicate 64 [97, 0]).flatten) :=
    ⟨by decide +kernel, by decide +kernel, by decide +kernel, rfl⟩
  refine ⟨hstring, fun h => ?_⟩
  have hunits := ((string_decodes_iff (by decide) (by decide) hstring).mp h).2
  exact absurd hunits (by decide +kernel)

end OpenUsb
