import OpenUsb.ParseBounds

/-!
# ParseLayout — `openusb_parse_data` and the layout of a C struct

The fields of a struct lie at their natural alignment; their encoding is packed.  The function reproduces the layout by
the bits `dp & 1` in front of a word and `dp & 2` in front of a dword, which is not enough behind an odd address.

* `decodes_iff`: the encoding of every struct of a shape is decoded, if and only if its dwords come behind even offsets.
-/

namespace OpenUsb

/-! ## Structs and their encoding -/

inductive FieldKind where
  | u8
  | u16
  | u32
  deriving DecidableEq, Repr

namespace FieldKind

def width : FieldKind → ℕ
  | u8 => 1
  | u16 => 2
  | u32 => 4

/-- The format character for a field. -/
def letter : FieldKind → Char
  | u8 => 'b'
  | u16 => 'w'
  | u32 => 'd'

end FieldKind

/-- A field of a struct with its value. -/
structure CField where
  kind : FieldKind
  value : ℕ
  value_lt : value < 256 ^ kind.width

/-- The bytes of the fields, little-endian and without padding. -/
def encodeFields (fields : List CField) : List UInt8 := fields.flatMap fun f => leBytes f.kind.width f.value

/-- The format that matches a shape. -/
def formatOf (shape : List FieldKind) : List Char := shape.map FieldKind.letter

/-- The offset behind the last field of a struct. -/
def structEnd (shape : List FieldKind) : ℕ := shape.foldl (fun off k => alignUp off k.width + k.width) 0

/-- The offset of a field behind the fields `pre`. -/
def structOffset (pre : List FieldKind) (k : FieldKind) : ℕ := alignUp (structEnd pre) k.width

/-- The stores into the destination, whose first byte is at 0. -/
def applyStores (contents : ℤ → UInt8) (stores : List DataStore) : ℤ → UInt8 :=
  stores.foldl (fun contents w => writeBytes contents w.off (leBytes w.width w.value)) contents

/-- The call succeeds, has consumed the encoding, and leaves each field at its offset. -/
def Decoded (out : ParseOut) (fields : List CField) (contents : ℤ → UInt8) : Prop :=
  out.ret = OPENUSB_SUCCESS ∧ out.count = some (encodeFields fields).length ∧
    ∀ pre f post, fields = pre ++ f :: post →
      leValue (applyStores contents out.stores) (structOffset (pre.map CField.kind) f.kind) f.kind.width = f.value

/-- Every struct of the shape is decoded from its encoding, into a destination with any contents. -/
def DecodesAll (shape : List FieldKind) (dest m : ℕ) : Prop :=
  ∀ fields : List CField, fields.map CField.kind = shape →
    ∀ (mem : ℤ → UInt8) (src : ℤ), HoldsBytes mem src (encodeFields fields) → ∀ contents,
      Decoded (openusbParseData mem (some (formatOf shape)) (some src) (encodeFields fields).length (some dest) m true)
        fields contents

/-- Every dword comes behind an even offset. -/
def EvenDwords (shape : List FieldKind) : Prop :=
  ∀ pre post, shape = pre ++ .u32 :: post → structEnd pre % 2 = 0

/-! ## Widths and offsets -/

section

variable {shape pre : List FieldKind} {k : FieldKind} {dest : ℕ}

@[simp] theorem fieldWidth_letter (k : FieldKind) : fieldWidth k.letter = k.width := by
  cases k <;> rfl

@[simp] theorem sourceWidth_letter (k : FieldKind) : sourceWidth k.letter = k.width := by
  cases k <;> rfl

theorem FieldKind.width_pos (k : FieldKind) : 0 < k.width := by
  cases k <;> decide

theorem letter_field (k : FieldKind) : fieldWidth k.letter ≠ 0 := by
  rw [fieldWidth_letter]
  exact k.width_pos.ne'

theorem formatOf_append : formatOf (pre ++ [k]) = formatOf pre ++ [k.letter] := by
  simp [formatOf]

theorem structEnd_append : structEnd (pre ++ [k]) = structOffset pre k + k.width := by
  simp [structEnd, structOffset, List.foldl_append]

theorem packed_append_list (p q : List Char) : packed (p ++ q) = packed p + packed q := by
  induction q using List.reverseRecOn with
  | nil => simp [packed]
  | append_singleton q c ih => rw [← List.append_assoc, packed_append, packed_append, ih, Nat.add_assoc]

theorem formatOf_append_list : formatOf (pre ++ shape) = formatOf pre ++ formatOf shape := by
  simp [formatOf]

/-- Without skips the source bytes are those of the fields. -/
theorem consumed_formatOf : consumed (formatOf shape) = packed (formatOf shape) := by
  induction shape using List.reverseRecOn with
  | nil => rfl
  | append_singleton pre k ih =>
    rw [formatOf_append, consumed_append, packed_append, ih, sourceWidth_letter, fieldWidth_letter]

theorem packed_le_structEnd (shape : List FieldKind) : packed (formatOf shape) ≤ structEnd shape := by
  induction shape using List.reverseRecOn with
  | nil => exact le_rfl
  | append_singleton pre k ih =>
    have halign := le_alignUp (structEnd pre) k.width
    rw [formatOf_append, packed_append, structEnd_append, fieldWidth_letter]
    unfold structOffset
    omega

theorem length_encodeFields (fields : List CField) :
    (encodeFields fields).length = packed (formatOf (fields.map CField.kind)) := by
  induction fields using List.reverseRecOn with
  | nil => rfl
  | append_singleton fs f ih =>
    have hlast : encodeFields (fs ++ [f]) = encodeFields fs ++ leBytes f.kind.width f.value := by
      simp [encodeFields]
    have hkinds : (fs ++ [f]).map CField.kind = fs.map CField.kind ++ [f.kind] := by
      simp
    rw [hlast, hkinds, List.length_append, length_leBytes, ih, formatOf_append, packed_append, fieldWidth_letter]

theorem EvenDwords.of_append (h : EvenDwords (pre ++ shape)) : EvenDwords pre := by
  intro p q hpre
  refine h p (q ++ shape) ?_
  rw [hpre, List.append_assoc, List.cons_append]

theorem and_two (p : ℕ) : p &&& 2 = p / 2 % 2 * 2 := by
  have htest := Nat.and_two_pow p 1
  rw [Nat.pow_one] at htest
  rw [htest, Nat.testBit_eq_decide_div_mod_eq]
  rcases Nat.mod_two_eq_zero_or_one (p / 2 ^ 1) with h | h
  · rw [Nat.pow_one] at h
    simp [h]
  · rw [Nat.pow_one] at h
    simp [h]

/-- Behind an even offset the bits of the address are the padding of the layout. -/
theorem padding_eq (hdest : dest % 4 = 0) {off : ℕ} (heven : k = .u32 → off % 2 = 0) :
    dest + off + (dest + off &&& fieldMask k.letter) = dest + alignUp off k.width := by
  unfold alignUp
  cases k with
  | u8 =>
    show dest + off + (dest + off &&& 0) = dest + (off + (1 - off % 1) % 1)
    rw [Nat.and_zero]
    omega
  | u16 =>
    show dest + off + (dest + off &&& 1) = dest + (off + (2 - off % 2) % 2)
    rw [Nat.and_one_is_mod]
    omega
  | u32 =>
    show dest + off + (dest + off &&& 2) = dest + (off + (4 - off % 4) % 4)
    have hoff := heven rfl
    rw [and_two]
    omega

/-- Behind an odd offset they are not. -/
theorem padding_ne (dest : ℕ) {off : ℕ} (hodd : off % 2 ≠ 0) :
    dest + off + (dest + off &&& fieldMask FieldKind.u32.letter) ≠ dest + alignUp off FieldKind.u32.width := by
  show dest + off + (dest + off &&& 2) ≠ dest + (off + (4 - off % 4) % 4)
  rw [and_two]
  omega

/-- While the dwords come behind even offsets, the function is at the end of the layout. -/
theorem place_formatOf (hdest : dest % 4 = 0) (heven : EvenDwords shape) :
    place dest (formatOf shape) = dest + structEnd shape := by
  induction shape using List.reverseRecOn with
  | nil => rfl
  | append_singleton pre k ih =>
    have hk : k = .u32 → structEnd pre % 2 = 0 := by
      rintro rfl
      exact heven pre [] rfl
    rw [formatOf_append, place_append_field (letter_field k), ih heven.of_append, padding_eq hdest hk, structEnd_append,
      fieldWidth_letter, Nat.add_assoc]
    rfl

end

/-! ## The stores of a run -/

section

variable {mem contents : ℤ → UInt8} {src : ℤ} {dest n m : ℕ} {s : ParseState}

/-- The stores of the function for the fields behind `pre`. -/
def codeStores (dest : ℕ) : List FieldKind → List CField → List DataStore
  | _, [] => []
  | pre, f :: fs =>
    ⟨place dest (formatOf (pre ++ [f.kind])) - f.kind.width - dest, f.kind.width, f.value⟩ ::
      codeStores dest (pre ++ [f.kind]) fs

/-- The stores at the offsets of the layout. -/
def layoutStores : List FieldKind → List CField → List DataStore
  | _, [] => []
  | pre, f :: fs => ⟨structOffset pre f.kind, f.kind.width, f.value⟩ :: layoutStores (pre ++ [f.kind]) fs

/-- With room for the widths of all fields each of them is decoded and stored. -/
theorem parseChars_fields (hn : n < 2 ^ 32) : ∀ (fs : List CField) (pre : List FieldKind) (s : ParseState),
    s.At src dest n m (formatOf pre) → HoldsBytes mem (src + consumed (formatOf pre)) (encodeFields fs) →
    n = consumed (formatOf (pre ++ fs.map CField.kind)) → packed (formatOf (pre ++ fs.map CField.kind)) ≤ m →
    ∃ s', parseChars mem dest (formatOf (fs.map CField.kind)) s = (true, s') ∧
      s'.At src dest n m (formatOf (pre ++ fs.map CField.kind)) ∧ s'.stores = s.stores ++ codeStores dest pre fs
  | [], pre, s, h, _, _, _ => by
    refine ⟨s, rfl, ?_, by simp [codeStores]⟩
    rwa [List.map_nil, List.append_nil]
  | f :: fs, pre, s, h, hmem, hsource, hroom => by
    have hsplit : pre ++ (f :: fs).map CField.kind = pre ++ [f.kind] ++ fs.map CField.kind := by
      simp
    have hwidths : packed (formatOf (pre ++ (f :: fs).map CField.kind)) =
        packed (formatOf pre) + f.kind.width + packed (formatOf (fs.map CField.kind)) := by
      rw [hsplit, formatOf_append_list, packed_append_list, formatOf_append, packed_append, fieldWidth_letter]
    have hbytes : encodeFields (f :: fs) = leBytes f.kind.width f.value ++ encodeFields fs := by
      simp [encodeFields]
    rw [hbytes, holdsBytes_append, length_leBytes] at hmem
    have hvalue : leValue mem s.sp f.kind.width = f.value := by
      rw [h.sp, leValue_of_holds hmem.1, Nat.mod_eq_of_lt f.value_lt]
    have hnot : ¬ FieldRefused n m (formatOf pre) f.kind.letter := by
      unfold FieldRefused
      rw [fieldWidth_letter]
      rw [consumed_formatOf] at hsource ⊢
      omega
    have hnext : src + consumed (formatOf pre) + f.kind.width = src + consumed (formatOf (pre ++ [f.kind])) := by
      rw [formatOf_append, consumed_append, sourceWidth_letter]
      omega
    obtain ⟨s', hs', h', -, hstores⟩ := h.field mem (letter_field f.kind) hnot
    rw [← formatOf_append] at h'
    obtain ⟨s'', hrun, h'', hstores'⟩ := parseChars_fields hn fs (pre ++ [f.kind]) s' h' (hnext ▸ hmem.2)
      (hsplit ▸ hsource) (hsplit ▸ hroom)
    refine ⟨s'', ?_, hsplit ▸ h'', ?_⟩
    · show parseChars mem dest (f.kind.letter :: formatOf (fs.map CField.kind)) s = (true, s'')
      rw [parseChars, parseChar_field (letter_field f.kind), hs']
      exact hrun
    · rw [hstores', hstores, codeStores, List.append_assoc, fieldWidth_letter, hvalue, ← formatOf_append]
      rfl

/-- The whole call: it succeeds and makes the stores. -/
theorem openusbParseData_fields (dest : ℕ) {fields : List CField} (hm : structEnd (fields.map CField.kind) ≤ m) (hm32 : m < 2 ^ 32)
    (hmem : HoldsBytes mem src (encodeFields fields)) :
    ∃ reads, openusbParseData mem (some (formatOf (fields.map CField.kind))) (some src) (encodeFields fields).length
      (some dest) m true =
        ⟨OPENUSB_SUCCESS, some (encodeFields fields).length, reads, codeStores dest [] fields⟩ := by
  have hpacked := packed_le_structEnd (fields.map CField.kind)
  have hlen := length_encodeFields fields
  have hstart : ParseState.At { sp := src, sourcelen := (encodeFields fields).length, dp := dest, destlen := m } src dest
      (encodeFields fields).length m (formatOf []) := by
    refine ⟨?_, ?_, rfl, rfl⟩
    · show src = src + (0 : ℕ)
      omega
    · show ((encodeFields fields).length : ℤ) = (((encodeFields fields).length : ℤ) - (0 : ℕ)) % 2 ^ 32
      omega
  have hmem' : HoldsBytes mem (src + consumed (formatOf [])) (encodeFields fields) := by
    have hzero : src + consumed (formatOf []) = src := by
      show src + (0 : ℕ) = src
      omega
    rwa [hzero]
  have hsource : (encodeFields fields).length = consumed (formatOf ([] ++ fields.map CField.kind)) := by
    rw [List.nil_append, consumed_formatOf, hlen]
  have hroom : packed (formatOf ([] ++ fields.map CField.kind)) ≤ m := hpacked.trans hm
  obtain ⟨s', hrun, hend, hstores⟩ := parseChars_fields (by omega) fields [] _ hstart hmem' hsource hroom
  refine ⟨s'.reads, ?_⟩
  have hcount : CInt.toU32 (s'.sp - src) = (encodeFields fields).length := by
    have hsp := hend.sp
    unfold CInt.toU32
    omega
  rw [openusbParseData]
  simp only [hrun]
  rw [hcount, hstores, List.nil_append]

/-! ## The contents of the struct -/

/-- Stores behind the fields `pre` leave what is before them alone. -/
theorem layoutStores_before {p : ℤ} {k : ℕ} : ∀ (fs : List CField) (pre : List FieldKind) (contents : ℤ → UInt8),
    p + k ≤ structEnd pre → leValue (applyStores contents (layoutStores pre fs)) p k = leValue contents p k
  | [], _, _, _ => rfl
  | f :: fs, pre, contents, hp => by
    have halign := le_alignUp (structEnd pre) f.kind.width
    have hend : structEnd pre ≤ structEnd (pre ++ [f.kind]) := by
      rw [structEnd_append]
      unfold structOffset
      omega
    show leValue (applyStores (writeBytes contents _ _) (layoutStores (pre ++ [f.kind]) fs)) p k = _
    rw [layoutStores_before fs _ _ (by omega), leValue_writeBytes_outside]
    left
    show p + k ≤ (structOffset pre f.kind : ℕ)
    unfold structOffset
    omega

/-- The stores of the layout leave each field at its offset. -/
theorem layoutStores_field : ∀ (fs : List CField) (pre : List FieldKind) (contents : ℤ → UInt8) (p : List CField)
    (f : CField) (post : List CField), fs = p ++ f :: post →
    leValue (applyStores contents (layoutStores pre fs)) (structOffset (pre ++ p.map CField.kind) f.kind) f.kind.width =
      f.value
  | [], _, _, p, f, post, hfs => absurd hfs (by simp)
  | g :: fs, pre, contents, p, f, post, hfs => by
    cases p with
    | nil =>
      rw [List.nil_append, List.cons.injEq] at hfs
      obtain ⟨rfl, -⟩ := hfs
      rw [List.map_nil, List.append_nil]
      show leValue (applyStores (writeBytes contents _ _) (layoutStores (pre ++ [g.kind]) fs)) _ _ = _
      have hend : ((structOffset pre g.kind : ℕ) : ℤ) + g.kind.width ≤ (structEnd (pre ++ [g.kind]) : ℕ) := by
        rw [structEnd_append]
        omega
      rw [layoutStores_before fs _ _ hend, leValue_writeBytes, Nat.mod_eq_of_lt g.value_lt]
    | cons g' p =>
      rw [List.cons_append, List.cons.injEq] at hfs
      obtain ⟨rfl, hfs⟩ := hfs
      have hlater := layoutStores_field fs (pre ++ [g.kind])
        (writeBytes contents (structOffset pre g.kind : ℕ) (leBytes g.kind.width g.value)) p f post hfs
      rw [List.append_assoc] at hlater
      exact hlater

/-- While the dwords come behind even offsets, the function makes the stores of the layout. -/
theorem codeStores_eq (hdest : dest % 4 = 0) : ∀ (fs : List CField) (pre : List FieldKind),
    EvenDwords (pre ++ fs.map CField.kind) → codeStores dest pre fs = layoutStores pre fs
  | [], _, _ => rfl
  | f :: fs, pre, heven => by
    have hsplit : pre ++ (f :: fs).map CField.kind = pre ++ [f.kind] ++ fs.map CField.kind := by
      simp
    rw [hsplit] at heven
    have hplace := place_formatOf hdest heven.of_append
    rw [codeStores, layoutStores, codeStores_eq hdest fs _ heven, hplace, structEnd_append]
    have hoff : dest + (structOffset pre f.kind + f.kind.width) - f.kind.width - dest = structOffset pre f.kind := by
      omega
    rw [hoff]

end

/-! ## When every struct of a shape is decoded -/

section

variable {mem contents : ℤ → UInt8} {shape pre : List FieldKind} {dest m k : ℕ} {p q : ℤ}

theorem exists_odd_dword (h : ¬ EvenDwords shape) :
    ∃ pre post, shape = pre ++ .u32 :: post ∧ structEnd pre % 2 ≠ 0 ∧ EvenDwords pre := by
  induction shape using List.reverseRecOn with
  | nil => exact absurd (fun p q hnil => absurd hnil (by simp)) h
  | append_singleton shape k ih =>
    by_cases heven : EvenDwords shape
    · refine ⟨shape, [], ?_⟩
      by_contra hnot
      refine h fun p q hpq => ?_
      rcases List.eq_nil_or_concat q with rfl | ⟨q', k', rfl⟩
      · obtain ⟨rfl, hk⟩ := List.append_inj' hpq rfl
        by_contra hodd
        exact hnot ⟨hpq, hodd, heven⟩
      · rw [List.concat_eq_append, ← List.cons_append, ← List.append_assoc] at hpq
        exact heven p q' (List.append_inj' hpq rfl).1
    · obtain ⟨p, q, hpq, hodd, hfirst⟩ := ih heven
      exact ⟨p, q ++ [k], by rw [hpq, List.append_assoc, List.cons_append], hodd, hfirst⟩

/-- A field of the value 0. -/
def zeroField (k : FieldKind) : CField := ⟨k, 0, Nat.pow_pos (by decide)⟩

/-- A dword of the value 1. -/
def oneDword : CField := ⟨.u32, 1, by decide⟩

theorem map_kind_zeroField (shape : List FieldKind) : (shape.map zeroField).map CField.kind = shape := by
  rw [List.map_map]
  exact List.map_id shape

theorem codeStores_append (fs gs : List CField) : ∀ pre, codeStores dest pre (fs ++ gs) =
    codeStores dest pre fs ++ codeStores dest (pre ++ fs.map CField.kind) gs := by
  induction fs with
  | nil => simp [codeStores]
  | cons f fs ih =>
    intro pre
    rw [List.cons_append, codeStores, codeStores, ih, List.map_cons, List.cons_append, List.append_assoc]
    rfl

theorem codeStores_zero : ∀ (shape pre : List FieldKind), ∀ w ∈ codeStores dest pre (shape.map zeroField), w.value = 0
  | [], _ => nofun
  | k :: shape, pre => by
    intro w hw
    rcases List.mem_cons.mp hw with rfl | hw
    · rfl
    · exact codeStores_zero shape _ w hw

theorem writeBytes_zero (hq : mem q = 0) : writeBytes mem p (leBytes k 0) q = 0 := by
  induction k generalizing mem p with
  | zero => exact hq
  | succ k ih =>
    refine ih ?_
    by_cases hqp : q = p
    · rw [hqp, Function.update_self]
      rfl
    · rwa [Function.update_of_ne hqp]

theorem writeBytes_one (hq : mem q = 0) (hqp : q ≠ p) : writeBytes mem p (leBytes (k + 1) 1) q = 0 := by
  refine writeBytes_zero ?_
  rwa [Function.update_of_ne hqp]

/-- Zeros stay where only zeros, or a 1 that begins elsewhere, are stored. -/
theorem applyStores_zero : ∀ (stores : List DataStore) (contents : ℤ → UInt8), contents q = 0 →
    (∀ w ∈ stores, w.value = 0 ∨ (w.value = 1 ∧ w.width = 4 ∧ q ≠ w.off)) → applyStores contents stores q = 0
  | [], _, hq, _ => hq
  | w :: stores, contents, hq, hw => by
    refine applyStores_zero stores _ ?_ fun w' hw' => hw w' (List.mem_cons_of_mem _ hw')
    show writeBytes contents w.off (leBytes w.width w.value) q = 0
    rcases hw w List.mem_cons_self with hv | ⟨hv, hwidth, hne⟩
    · rw [hv]
      exact writeBytes_zero hq
    · rw [hv, hwidth]
      exact writeBytes_one hq hne

/-- The first dword behind an odd offset is stored at another place than the layout's. -/
theorem odd_dword_misplaced (hdest : dest % 4 = 0) (heven : EvenDwords pre) (hodd : structEnd pre % 2 ≠ 0) :
    place dest (formatOf (pre ++ [.u32])) - 4 - dest ≠ structOffset pre .u32 := by
  have hne := padding_ne dest hodd
  rw [formatOf_append, place_append_field (letter_field .u32), place_formatOf hdest heven]
  show dest + structEnd pre + (dest + structEnd pre &&& fieldMask FieldKind.u32.letter) + 4 - 4 - dest ≠
    alignUp (structEnd pre) FieldKind.u32.width
  omega

theorem not_decodesAll (hdest : dest % 4 = 0) (hm : structEnd shape ≤ m) (hm32 : m < 2 ^ 32) (h : ¬ EvenDwords shape) :
    ¬ DecodesAll shape dest m := by
  obtain ⟨pre, post, rfl, hodd, heven⟩ := exists_odd_dword h
  intro hall
  have hkinds : (pre.map zeroField ++ oneDword :: post.map zeroField).map CField.kind = pre ++ .u32 :: post := by
    rw [List.map_append, List.map_cons, map_kind_zeroField, map_kind_zeroField]
    rfl
  obtain ⟨-, -, hfields⟩ := hall _ hkinds _ 32 (holds_writeBytes (fun _ => 0) 32 _) fun _ => 0
  have hvalue := hfields (pre.map zeroField) oneDword (post.map zeroField) rfl
  rw [← hkinds] at hm
  obtain ⟨reads, hrun⟩ := openusbParseData_fields dest hm hm32 (holds_writeBytes (fun _ => 0) 32 _)
  rw [hkinds] at hrun
  rw [hrun, map_kind_zeroField, codeStores_append] at hvalue
  have hfirst : applyStores (fun _ => 0) (codeStores dest [] (pre.map zeroField) ++
      codeStores dest ([] ++ (pre.map zeroField).map CField.kind) (oneDword :: post.map zeroField))
      (structOffset pre .u32 : ℕ) = 0 := by
    refine applyStores_zero _ _ rfl fun w hw => ?_
    rcases List.mem_append.mp hw with hw | hw
    · exact .inl (codeStores_zero pre [] w hw)
    · rw [map_kind_zeroField, List.nil_append] at hw
      rcases List.mem_cons.mp hw with rfl | hw
      · refine .inr ⟨rfl, rfl, ?_⟩
        have hmis := odd_dword_misplaced hdest heven hodd
        exact_mod_cast hmis.symm
      · exact .inl (codeStores_zero post _ w hw)
  change leValue _ (structOffset pre .u32 : ℕ) (3 + 1) = 1 at hvalue
  rw [leValue, hfirst] at hvalue
  have hzero : (0 : UInt8).toNat = 0 := rfl
  omega

/-- Into an aligned and large enough destination every struct of a shape is decoded from its packed encoding, if and only
if every dword comes behind an even offset. -/
theorem decodes_iff {m : UInt32} (hdest : dest % 4 = 0) (hm : structEnd shape ≤ m.toNat) :
    DecodesAll shape dest m.toNat ↔ EvenDwords shape := by
  constructor
  · intro hall
    by_contra h
    exact not_decodesAll hdest hm m.toNat_lt h hall
  · rintro heven fields rfl mem src hmem contents
    obtain ⟨reads, hrun⟩ := openusbParseData_fields dest hm m.toNat_lt hmem
    rw [hrun]
    refine ⟨rfl, rfl, fun pre f post hfields => ?_⟩
    rw [codeStores_eq hdest fields [] heven]
    have hfield := layoutStores_field fields [] contents pre f post hfields
    rwa [List.nil_append] at hfield

/-- A byte, a word and a dword: the dword comes behind offset 4. -/
theorem decodes_byte_word_dword : DecodesAll [.u8, .u16, .u32] 16 8 := by
  refine (decodes_iff (m := 8) rfl (by decide)).mpr fun pre post hshape => ?_
  match pre, hshape with
  | [.u8, .u16], _ => rfl
  | _ :: _ :: _ :: _, hshape => simp at hshape

/-- The documented example, a byte, a word, a byte and a dword: the dword is stored at offset 5, not 8. -/
theorem documented_not_decoded : ¬ DecodesAll [.u8, .u16, .u8, .u32] 16 12 := by
  refine not_decodesAll rfl (by decide) (by decide) fun heven => ?_
  exact absurd (heven [.u8, .u16, .u8] [] rfl) (by decide)

end

end OpenUsb
