import OpenUsb.Descr
import OpenUsb.Lib.Bytes
import OpenUsb.Lib.CInt

/-!
# ParseData — `openusb_parse_data`

`openusbParseData mem fmt src n dest m count` decodes the `n` bytes at `src` into the struct of `m` bytes at address
`dest`, one format character at a time.  It reports the source offsets it read and the stores it made, since both
happen before a later character can fail.  The two undocumented characters `W` and `D` copy in CPU order; the host is
taken as little-endian.
-/

namespace OpenUsb

/-- The locals of `openusb_parse_data`, the bytes it has read and the stores it has made. -/
structure ParseState where
  sp : ℤ
  sourcelen : ℕ
  dp : ℕ
  destlen : ℕ
  reads : List ℤ := []
  stores : List DataStore := []

/-- The offsets of the `k` bytes at `p`. -/
def span (p : ℤ) : ℕ → List ℤ
  | 0 => []
  | k + 1 => p :: span (p + 1) k

theorem mem_span {p q : ℤ} {k : ℕ} : q ∈ span p k ↔ p ≤ q ∧ q < p + k := by
  induction k generalizing p with
  | zero => simp [span]
  | succ k ih => rw [span, List.mem_cons, ih]; omega

/-- Copy a `k`-byte little-endian value after moving `dp` up by the bits `dp & mask`. -/
def parseField (mem : ℤ → UInt8) (dest : ℕ) (k mask : ℕ) (s : ParseState) : Option ParseState :=
  if s.sourcelen < k ∨ s.destlen < k then none
  else some
    { sp := s.sp + k
      sourcelen := s.sourcelen - k
      dp := s.dp + (s.dp &&& mask) + k
      destlen := s.destlen - k
      reads := s.reads ++ span s.sp k
      stores := s.stores ++ [⟨s.dp + (s.dp &&& mask) - dest, k, leValue mem s.sp k⟩] }

/-- One round of the format loop; `none` is the return of `OPENUSB_NO_RESOURCES`. -/
def parseChar (mem : ℤ → UInt8) (dest : ℕ) (c : Char) (s : ParseState) : Option ParseState :=
  if c = '.' then some { s with sp := s.sp + 1, sourcelen := CInt.sub 32 s.sourcelen 1 }
  else if c = 'b' then parseField mem dest 1 0 s
  else if c = 'w' ∨ c = 'W' then parseField mem dest 2 1 s
  else if c = 'd' ∨ c = 'D' then parseField mem dest 4 2 s
  else some s

/-- The format loop: whether it ran to the end, and the state in which it stopped. -/
def parseChars (mem : ℤ → UInt8) (dest : ℕ) : List Char → ParseState → Bool × ParseState
  | [], s => (true, s)
  | c :: cs, s =>
    match parseChar mem dest c s with
    | none => (false, s)
    | some s' => parseChars mem dest cs s'

/-- What a call leaves behind: the return value, `*count` when it was set, the bytes read, the stores made. -/
structure ParseOut where
  ret : ℤ
  count : Option ℕ := none
  reads : List ℤ := []
  stores : List DataStore := []

/-- `openusb_parse_data`; a `none` argument or `count = false` is a NULL pointer. -/
def openusbParseData (mem : ℤ → UInt8) (format : Option (List Char)) (source : Option ℤ) (sourcelen : ℕ)
    (dest : Option ℕ) (destlen : ℕ) (count : Bool) : ParseOut :=
  match format, source, dest, count with
  | some fmt, some src, some dst, true =>
    match parseChars mem dst fmt { sp := src, sourcelen := sourcelen, dp := dst, destlen := destlen } with
    | (true, s) => ⟨OPENUSB_SUCCESS, some (CInt.toU32 (s.sp - src)), s.reads, s.stores⟩
    | (false, s) => ⟨OPENUSB_NO_RESOURCES, none, s.reads, s.stores⟩
  | _, _, _, _ => { ret := OPENUSB_BADARG }

/-! ## Reads stay inside the source -/

theorem parseField_reads {mem : ℤ → UInt8} {dest k mask : ℕ} {s s' : ParseState} {lo hi : ℤ}
    (h : parseField mem dest k mask s = some s') (hlo : lo ≤ s.sp) (hhi : s.sp + s.sourcelen = hi)
    (hr : ∀ q ∈ s.reads, lo ≤ q ∧ q < hi) :
    lo ≤ s'.sp ∧ s'.sp + s'.sourcelen = hi ∧ ∀ q ∈ s'.reads, lo ≤ q ∧ q < hi := by
  unfold parseField at h
  split_ifs at h with hc
  cases h
  refine ⟨by dsimp only; omega, by dsimp only; omega, fun q hq => ?_⟩
  rcases List.mem_append.mp hq with hq | hq
  · exact hr q hq
  · rw [mem_span] at hq; omega

theorem parseChar_reads {mem : ℤ → UInt8} {dest : ℕ} {c : Char} {s s' : ParseState} {lo hi : ℤ} (hc : c ≠ '.')
    (h : parseChar mem dest c s = some s') (hlo : lo ≤ s.sp) (hhi : s.sp + s.sourcelen = hi)
    (hr : ∀ q ∈ s.reads, lo ≤ q ∧ q < hi) :
    lo ≤ s'.sp ∧ s'.sp + s'.sourcelen = hi ∧ ∀ q ∈ s'.reads, lo ≤ q ∧ q < hi := by
  unfold parseChar at h
  rw [if_neg hc] at h
  split_ifs at h
  · exact parseField_reads h hlo hhi hr
  · exact parseField_reads h hlo hhi hr
  · exact parseField_reads h hlo hhi hr
  · cases h; exact ⟨hlo, hhi, hr⟩

theorem parseChars_reads {mem : ℤ → UInt8} {dest : ℕ} {lo hi : ℤ} :
    ∀ (cs : List Char) (s : ParseState), '.' ∉ cs → lo ≤ s.sp → s.sp + s.sourcelen = hi →
      (∀ q ∈ s.reads, lo ≤ q ∧ q < hi) → ∀ q ∈ (parseChars mem dest cs s).2.reads, lo ≤ q ∧ q < hi
  | [], s, _, _, _, hr => hr
  | c :: cs, s, hdot, hlo, hhi, hr => by
    rw [List.mem_cons, not_or] at hdot
    rw [parseChars]
    cases hp : parseChar mem dest c s with
    | none => exact hr
    | some s' =>
      obtain ⟨h1, h2, h3⟩ := parseChar_reads (Ne.symm hdot.1) hp hlo hhi hr
      exact parseChars_reads cs s' hdot.2 h1 h2 h3

/-- Without the skip character no byte outside the `sourcelen` bytes at `source` is read. -/
theorem openusbParseData_reads {mem : ℤ → UInt8} {fmt : List Char} (hdot : '.' ∉ fmt) {src : ℤ} {n : ℕ}
    {dst : Option ℕ} {m : ℕ} {count : Bool} {q : ℤ}
    (hq : q ∈ (openusbParseData mem (some fmt) (some src) n dst m count).reads) : src ≤ q ∧ q < src + n := by
  cases dst with
  | none => simp [openusbParseData] at hq
  | some d =>
    cases count with
    | false => simp [openusbParseData] at hq
    | true =>
      have h : ∀ q ∈ (parseChars mem d fmt { sp := src, sourcelen := n, dp := d, destlen := m }).2.reads,
          src ≤ q ∧ q < src + n := parseChars_reads fmt _ hdot (Int.le_refl src) rfl (by simp)
      rw [openusbParseData] at hq
      split at hq
      · rename_i heq; rw [heq] at h; exact h q hq
      · rename_i heq; rw [heq] at h; exact h q hq

end OpenUsb
