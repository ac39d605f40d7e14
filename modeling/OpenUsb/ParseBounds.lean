import OpenUsb.ParseData

/-!
# ParseBounds — when `openusb_parse_data` stays inside both buffers

The function keeps two counters, `sourcelen` and `destlen`.  A skipped byte is taken from `sourcelen` without a look at
it, so the counter wraps; the padding in front of a field is not taken from `destlen`.

* `inBounds_iff`: no access outside of the buffers, if and only if the counters refuse the first field that does not fit.
-/

namespace OpenUsb

/-! ## What a format takes from the two buffers -/

/-- The width of the field that a format character decodes; 0 for the others. -/
def fieldWidth (c : Char) : ℕ :=
  if c = 'b' then 1 else if c = 'w' ∨ c = 'W' then 2 else if c = 'd' ∨ c = 'D' then 4 else 0

/-- The bits of the address by which the destination is moved up first. -/
def fieldMask (c : Char) : ℕ :=
  if c = 'w' ∨ c = 'W' then 1 else if c = 'd' ∨ c = 'D' then 2 else 0

/-- The source bytes of a format character, with the skipped ones. -/
def sourceWidth (c : Char) : ℕ := if c = '.' then 1 else fieldWidth c

/-- The source bytes of a format. -/
def consumed (fmt : List Char) : ℕ := fmt.foldl (fun n c => n + sourceWidth c) 0

/-- The widths of the fields of a format, without padding. -/
def packed (fmt : List Char) : ℕ := fmt.foldl (fun n c => n + fieldWidth c) 0

/-- The address behind the last field of a format, for a destination at `dest`. -/
def place (dest : ℕ) (fmt : List Char) : ℕ :=
  fmt.foldl (fun dp c => if fieldWidth c = 0 then dp else dp + (dp &&& fieldMask c) + fieldWidth c) dest

/-- Every read is from the `n` bytes at `src`, and every store into the `m` bytes of the destination. -/
def ParseOut.InBounds (out : ParseOut) (src : ℤ) (n m : ℕ) : Prop :=
  (∀ q ∈ out.reads, src ≤ q ∧ q < src + n) ∧ ∀ w ∈ out.stores, w.off + w.width ≤ m

/-- The field `c` behind the format `pre` lies in both buffers. -/
def FieldFits (dest n m : ℕ) (pre : List Char) (c : Char) : Prop :=
  consumed pre + fieldWidth c ≤ n ∧ place dest (pre ++ [c]) ≤ dest + m

/-- One of the counters is too small for the field: the source bytes left, modulo `2 ^ 32`, or the destination without
padding. -/
def FieldRefused (n m : ℕ) (pre : List Char) (c : Char) : Prop :=
  ((n : ℤ) - consumed pre) % 2 ^ 32 < fieldWidth c ∨ m < packed pre + fieldWidth c

/-- Behind the format `done`, the counters refuse the first field of `fmt` that does not fit. -/
def MisfitRefused (dest n m : ℕ) (done fmt : List Char) : Prop :=
  ∀ pre c post, fmt = pre ++ c :: post → fieldWidth c ≠ 0 →
    (∀ p f q, pre = p ++ f :: q → fieldWidth f ≠ 0 → FieldFits dest n m (done ++ p) f) →
      FieldFits dest n m (done ++ pre) c ∨ FieldRefused n m (done ++ pre) c

section

variable {dest n m : ℕ} {pre : List Char} {c : Char}

@[simp] theorem consumed_append : consumed (pre ++ [c]) = consumed pre + sourceWidth c := by
  simp [consumed, List.foldl_append]

@[simp] theorem packed_append : packed (pre ++ [c]) = packed pre + fieldWidth c := by
  simp [packed, List.foldl_append]

theorem place_append_field (hc : fieldWidth c ≠ 0) :
    place dest (pre ++ [c]) = place dest pre + (place dest pre &&& fieldMask c) + fieldWidth c := by
  simp [place, List.foldl_append, hc]

theorem place_append_other (hc : fieldWidth c = 0) : place dest (pre ++ [c]) = place dest pre := by
  simp [place, List.foldl_append, hc]

/-- With padding the fields take no less than their widths. -/
theorem packed_le_place (dest : ℕ) (pre : List Char) : dest + packed pre ≤ place dest pre := by
  induction pre using List.reverseRecOn with
  | nil => exact le_rfl
  | append_singleton pre c ih =>
    rw [packed_append]
    by_cases hc : fieldWidth c = 0
    · rw [place_append_other hc, hc]
      exact ih
    · rw [place_append_field hc]
      omega

end

/-! ## One character -/

section

variable {mem : ℤ → UInt8} {dest : ℕ} {c : Char} {s s' : ParseState}

/-- A format character with a field is a call of the field's decoding. -/
theorem parseChar_field (hc : fieldWidth c ≠ 0) :
    parseChar mem dest c s = parseField mem dest (fieldWidth c) (fieldMask c) s := by
  unfold fieldWidth at hc
  unfold parseChar
  by_cases hb : c = 'b'
  · subst hb
    rfl
  · by_cases hw : c = 'w' ∨ c = 'W'
    · rcases hw with rfl | rfl
      · rfl
      · rfl
    · by_cases hd : c = 'd' ∨ c = 'D'
      · rcases hd with rfl | rfl
        · rfl
        · rfl
      · simp [hb, hw, hd] at hc

theorem parseChar_skip :
    parseChar mem dest '.' s = some { s with sp := s.sp + 1, sourcelen := CInt.sub 32 s.sourcelen 1 } := rfl

theorem parseChar_other (hc : fieldWidth c = 0) (hdot : c ≠ '.') : parseChar mem dest c s = some s := by
  unfold fieldWidth at hc
  unfold parseChar
  split_ifs at hc with hb hw hd
  rw [if_neg hdot, if_neg hb, if_neg hw, if_neg hd]

end

/-! ## The whole format -/

section

variable {mem : ℤ → UInt8} {src : ℤ} {dest n m : ℕ} {pre post : List Char} {c : Char} {s s' : ParseState}

/-- The locals of the function behind the format `pre`. -/
structure ParseState.At (s : ParseState) (src : ℤ) (dest n m : ℕ) (pre : List Char) : Prop where
  sp : s.sp = src + consumed pre
  sourcelen : (s.sourcelen : ℤ) = ((n : ℤ) - consumed pre) % 2 ^ 32
  dp : s.dp = place dest pre
  destlen : s.destlen + packed pre = m

/-- The accesses so far are inside of the buffers. -/
def ParseState.Inside (s : ParseState) (src : ℤ) (n m : ℕ) : Prop :=
  (∀ q ∈ s.reads, src ≤ q ∧ q < src + n) ∧ ∀ w ∈ s.stores, w.off + w.width ≤ m

theorem ParseState.At.refused_iff (h : s.At src dest n m pre) :
    s.sourcelen < fieldWidth c ∨ s.destlen < fieldWidth c ↔ FieldRefused n m pre c := by
  have hsource := h.sourcelen
  have hdest := h.destlen
  unfold FieldRefused
  rw [← hsource]
  omega

/-- A field that fits is not refused: the counters are never smaller than what is left. -/
theorem not_refused_of_fits (hn : n < 2 ^ 32) (hpacked : dest + packed pre ≤ place dest pre) (hc : fieldWidth c ≠ 0)
    (hfits : FieldFits dest n m pre c) : ¬ FieldRefused n m pre c := by
  obtain ⟨hsource, hdest⟩ := hfits
  rw [place_append_field hc] at hdest
  unfold FieldRefused
  omega

theorem ParseState.At.skip (h : s.At src dest n m pre) :
    ParseState.At { s with sp := s.sp + 1, sourcelen := CInt.sub 32 s.sourcelen 1 } src dest n m (pre ++ ['.']) := by
  have hsp := h.sp
  have hsource := h.sourcelen
  refine ⟨?_, ?_, ?_, ?_⟩
  · rw [consumed_append]
    show s.sp + 1 = src + (consumed pre + 1 : ℕ)
    omega
  · rw [consumed_append]
    show ((CInt.sub 32 s.sourcelen 1 : ℕ) : ℤ) = ((n : ℤ) - (consumed pre + 1 : ℕ)) % 2 ^ 32
    unfold CInt.sub
    omega
  · rw [place_append_other rfl]
    exact h.dp
  · rw [packed_append]
    exact h.destlen

theorem ParseState.At.other (h : s.At src dest n m pre) (hc : fieldWidth c = 0) (hdot : c ≠ '.') :
    s.At src dest n m (pre ++ [c]) := by
  have hwidth : sourceWidth c = 0 := by
    unfold sourceWidth
    rw [if_neg hdot, hc]
  refine ⟨?_, ?_, ?_, ?_⟩
  · rw [consumed_append, hwidth]
    exact h.sp
  · rw [consumed_append, hwidth]
    exact h.sourcelen
  · rw [place_append_other hc]
    exact h.dp
  · rw [packed_append, hc]
    exact h.destlen

theorem sourceWidth_of_field (hc : fieldWidth c ≠ 0) : sourceWidth c = fieldWidth c := by
  unfold sourceWidth
  rw [if_neg]
  rintro rfl
  exact hc rfl

/-- A field that is not refused is read and stored. -/
theorem ParseState.At.field (mem : ℤ → UInt8) (h : s.At src dest n m pre) (hc : fieldWidth c ≠ 0) (hnot : ¬ FieldRefused n m pre c) :
    ∃ s', parseField mem dest (fieldWidth c) (fieldMask c) s = some s' ∧ s'.At src dest n m (pre ++ [c]) ∧
      s'.reads = s.reads ++ span s.sp (fieldWidth c) ∧
      s'.stores = s.stores ++
        [⟨place dest (pre ++ [c]) - fieldWidth c - dest, fieldWidth c, leValue mem s.sp (fieldWidth c)⟩] := by
  rw [← h.refused_iff] at hnot
  have hsp := h.sp
  have hsource := h.sourcelen
  have hdest := h.destlen
  unfold parseField
  rw [if_neg hnot]
  refine ⟨_, rfl, ⟨?_, ?_, ?_, ?_⟩, rfl, ?_⟩
  · rw [consumed_append, sourceWidth_of_field hc]
    show s.sp + fieldWidth c = src + (consumed pre + fieldWidth c : ℕ)
    omega
  · rw [consumed_append, sourceWidth_of_field hc]
    show ((s.sourcelen - fieldWidth c : ℕ) : ℤ) = ((n : ℤ) - (consumed pre + fieldWidth c : ℕ)) % 2 ^ 32
    omega
  · rw [place_append_field hc, ← h.dp]
  · rw [packed_append]
    show s.destlen - fieldWidth c + (packed pre + fieldWidth c) = m
    omega
  · rw [place_append_field hc, ← h.dp, Nat.add_sub_cancel]

/-- What was read and stored stays so. -/
theorem parseChars_keeps (mem : ℤ → UInt8) (dest : ℕ) : ∀ (cs : List Char) (s : ParseState),
    (∀ q ∈ s.reads, q ∈ (parseChars mem dest cs s).2.reads) ∧ ∀ w ∈ s.stores, w ∈ (parseChars mem dest cs s).2.stores
  | [], s => ⟨fun _ => id, fun _ => id⟩
  | c :: cs, s => by
    rw [parseChars]
    cases hp : parseChar mem dest c s with
    | none => exact ⟨fun _ => id, fun _ => id⟩
    | some s' =>
      obtain ⟨hreads, hstores⟩ := parseChars_keeps mem dest cs s'
      have hkeep : (∀ q ∈ s.reads, q ∈ s'.reads) ∧ ∀ w ∈ s.stores, w ∈ s'.stores := by
        by_cases hc : fieldWidth c = 0
        · by_cases hdot : c = '.'
          · subst hdot
            rw [parseChar_skip, Option.some.injEq] at hp
            subst hp
            exact ⟨fun _ => id, fun _ => id⟩
          · rw [parseChar_other hc hdot, Option.some.injEq] at hp
            subst hp
            exact ⟨fun _ => id, fun _ => id⟩
        · rw [parseChar_field hc] at hp
          unfold parseField at hp
          split_ifs at hp
          cases hp
          exact ⟨fun q hq => List.mem_append_left _ hq, fun w hw => List.mem_append_left _ hw⟩
      exact ⟨fun q hq => hreads q (hkeep.1 q hq), fun w hw => hstores w (hkeep.2 w hw)⟩

/-- The first character is a field that fits or is refused, and if it fits then the rest is as good. -/
theorem misfitRefused_cons {cs : List Char} : MisfitRefused dest n m pre (c :: cs) ↔
    (fieldWidth c ≠ 0 → FieldFits dest n m pre c ∨ FieldRefused n m pre c) ∧
      ((fieldWidth c ≠ 0 → FieldFits dest n m pre c) → MisfitRefused dest n m (pre ++ [c]) cs) := by
  constructor
  · intro h
    refine ⟨fun hc => ?_, fun hfits p d q hcs hd hbefore => ?_⟩
    · have hfirst := h [] c cs rfl hc fun p f q hnil _ => absurd hnil (by simp)
      rwa [List.append_nil] at hfirst
    · have hlater := h (c :: p) d q (by rw [hcs]; rfl) hd
      rw [List.append_assoc]
      refine hlater fun p' f q' hp' hf => ?_
      cases p' with
      | nil =>
        rw [List.nil_append, List.cons.injEq] at hp'
        obtain ⟨rfl, -⟩ := hp'
        rw [List.append_nil]
        exact hfits hf
      | cons d' p' =>
        rw [List.cons_append, List.cons.injEq] at hp'
        obtain ⟨rfl, rfl⟩ := hp'
        have hfit := hbefore p' f q' rfl hf
        rwa [List.append_assoc] at hfit
  · rintro ⟨hfirst, hrest⟩ p d q hcs hd hbefore
    cases p with
    | nil =>
      rw [List.nil_append, List.cons.injEq] at hcs
      obtain ⟨rfl, -⟩ := hcs
      rw [List.append_nil]
      exact hfirst hd
    | cons d' p =>
      rw [List.cons_append, List.cons.injEq] at hcs
      obtain ⟨rfl, rfl⟩ := hcs
      have hc : fieldWidth c ≠ 0 → FieldFits dest n m pre c := by
        intro hc
        have hfit := hbefore [] c p rfl hc
        rwa [List.append_nil] at hfit
      have hlater := hrest hc p d q rfl hd fun p' f q' hp' hf => by
        have hfit := hbefore (c :: p') f q' (by rw [hp']; rfl) hf
        rwa [List.append_assoc]
      rwa [List.append_assoc] at hlater

/-- A field that fits keeps the accesses inside, and one that does not is accessed outside. -/
theorem ParseState.At.inside_field (h : s.At src dest n m pre) (hc : fieldWidth c ≠ 0) (hin : s.Inside src n m)
    {v : ℕ} (hreads : s'.reads = s.reads ++ span s.sp (fieldWidth c))
    (hstores : s'.stores = s.stores ++ [⟨place dest (pre ++ [c]) - fieldWidth c - dest, fieldWidth c, v⟩]) :
    s'.Inside src n m ↔ FieldFits dest n m pre c := by
  have hsp := h.sp
  have hplace : dest + fieldWidth c ≤ place dest (pre ++ [c]) := by
    rw [place_append_field hc]
    have := packed_le_place dest pre
    omega
  unfold ParseState.Inside FieldFits
  rw [hreads, hstores]
  constructor
  · rintro ⟨hr, hs⟩
    have hlast := hr (s.sp + fieldWidth c - 1) (List.mem_append_right _ (mem_span.mpr (by omega)))
    have hstore := hs _ (List.mem_append_right _ (List.mem_singleton_self _))
    simp only at hstore
    omega
  · rintro ⟨hsource, hdest⟩
    refine ⟨fun q hq => ?_, fun w hw => ?_⟩
    · rcases List.mem_append.mp hq with hq | hq
      · exact hin.1 q hq
      · rw [mem_span] at hq
        omega
    · rcases List.mem_append.mp hw with hw | hw
      · exact hin.2 w hw
      · rw [List.mem_singleton] at hw
        subst hw
        simp only
        omega

/-- From any place in a format, the rest stays inside if and only if the first field that does not fit is refused. -/
theorem inside_iff (mem : ℤ → UInt8) (hn : n < 2 ^ 32) : ∀ (cs pre : List Char) (s : ParseState), s.At src dest n m pre →
    s.Inside src n m → ((parseChars mem dest cs s).2.Inside src n m ↔ MisfitRefused dest n m pre cs)
  | [], pre, s, _, hin => iff_of_true hin fun p c q hnil => absurd hnil (by simp)
  | c :: cs, pre, s, h, hin => by
    rw [parseChars, misfitRefused_cons]
    by_cases hc : fieldWidth c = 0
    · have hrest : ∀ s', s'.At src dest n m (pre ++ [c]) → s'.Inside src n m →
          ((parseChars mem dest cs s').2.Inside src n m ↔ (fieldWidth c ≠ 0 → FieldFits dest n m pre c ∨
            FieldRefused n m pre c) ∧ ((fieldWidth c ≠ 0 → FieldFits dest n m pre c) →
              MisfitRefused dest n m (pre ++ [c]) cs)) := by
        intro s' h' hin'
        rw [inside_iff mem hn cs (pre ++ [c]) s' h' hin']
        exact ⟨fun hmis => ⟨fun hne => absurd hc hne, fun _ => hmis⟩, fun hmis => hmis.2 fun hne => absurd hc hne⟩
      by_cases hdot : c = '.'
      · subst hdot
        rw [parseChar_skip]
        exact hrest _ h.skip hin
      · rw [parseChar_other hc hdot]
        exact hrest s (h.other hc hdot) hin
    · rw [parseChar_field hc]
      by_cases hrefused : FieldRefused n m pre c
      · have hnone : parseField mem dest (fieldWidth c) (fieldMask c) s = none := by
          unfold parseField
          rw [if_pos (h.refused_iff.mpr hrefused)]
        rw [hnone]
        refine iff_of_true hin ⟨fun _ => .inr hrefused, fun hfits => ?_⟩
        exact absurd hrefused (not_refused_of_fits hn (packed_le_place dest pre) hc (hfits hc))
      · obtain ⟨s', hs', h', hreads, hstores⟩ := h.field mem hc hrefused
        have hfits := h.inside_field hc hin hreads hstores
        rw [hs']
        by_cases hin' : s'.Inside src n m
        · rw [inside_iff mem hn cs (pre ++ [c]) s' h' hin']
          have hfit := hfits.mp hin'
          exact ⟨fun hmis => ⟨fun _ => .inl hfit, fun _ => hmis⟩, fun hmis => hmis.2 fun _ => hfit⟩
        · refine iff_of_false (fun hend => hin' ?_) fun hmis => ?_
          · obtain ⟨hkr, hks⟩ := parseChars_keeps mem dest cs s'
            exact ⟨fun q hq => hend.1 q (hkr q hq), fun w hw => hend.2 w (hks w hw)⟩
          · exact hin' (hfits.mpr ((hmis.1 hc).resolve_right hrefused))

/-- `openusb_parse_data` stays inside both buffers, if and only if the counters refuse the first field that does not
fit. -/
theorem inBounds_iff {mem : ℤ → UInt8} {fmt : List Char} {src : ℤ} {n m : UInt32} {dest : ℕ} :
    (openusbParseData mem (some fmt) (some src) n.toNat (some dest) m.toNat true).InBounds src n.toNat m.toNat ↔
      MisfitRefused dest n.toNat m.toNat [] fmt := by
  have hn : n.toNat < 2 ^ 32 := n.toNat_lt
  have hstart : ParseState.At { sp := src, sourcelen := n.toNat, dp := dest, destlen := m.toNat } src dest n.toNat
      m.toNat [] := by
    refine ⟨?_, ?_, rfl, rfl⟩
    · show src = src + (0 : ℕ)
      omega
    · show (n.toNat : ℤ) = ((n.toNat : ℤ) - (0 : ℕ)) % 2 ^ 32
      omega
  have hinside := inside_iff mem hn fmt [] _ hstart ⟨nofun, nofun⟩
  rw [← hinside, openusbParseData]
  split
  next heq =>
    rw [heq]
    rfl
  next heq =>
    rw [heq]
    rfl

/-- The skip runs past the end of an empty source, and the byte behind it is read; the padding in front of the second field
is not taken from a destination of three bytes, and the field ends behind it. -/
theorem counters_wrong :
    ¬ (openusbParseData (fun _ => 0) (some ['.', 'b']) (some 32) 0 (some 16) 1 true).InBounds 32 0 1 ∧
    ¬ (openusbParseData (fun _ => 0) (some ['b', 'w']) (some 32) 3 (some 16) 3 true).InBounds 32 3 3 := by
  constructor
  · intro h
    exact absurd (h.1 33 (by decide)) (by decide)
  · intro h
    exact absurd (h.2 ⟨2, 2, 0⟩ (by decide)) (by decide)

end

end OpenUsb
