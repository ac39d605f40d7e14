import OpenUsb.WalkersExact

/-!
# ConfigForm — well-formed configurations as chains

A configuration is well formed when its chain is a sequence of descriptors inside of it, with at most one interface
descriptor for each alternate setting of an interface.  The endpoint descriptors behind an interface descriptor are well
formed when there are as many as it says, each with an address of its own.

* `interfaceFound_iff`: the setting with a number and a value is the one that the walkers find.
* `endpointFound_eq`: the endpoint descriptor with an index is the one that the endpoint walker finds.
-/

namespace OpenUsb

section

variable (mem : ℤ → UInt8)

/-- An interface descriptor is there. -/
abbrev isInterface (w : ℤ × ℕ) : Bool := isType mem USB_DESC_TYPE_INTERFACE w

/-- The descriptor has its length, and lies inside of the configuration. -/
structure WellPlaced (w : ℤ × ℕ) : Prop where
  two_le : 2 ≤ (mem w.1).toNat
  fits : (mem w.1).toNat ≤ w.2
  interface : isInterface mem w = true → 9 ≤ (mem w.1).toNat

/-- A configuration is well formed: it is a sequence of descriptors, with at most one for each alternate setting of an
interface. -/
structure WellFormed (raw : RawDesc) : Prop where
  nine_le : 9 ≤ raw.len
  small : raw.len < 2 ^ 16
  placed : ∀ w ∈ chain mem raw.buf raw.len, WellPlaced mem w
  distinct : (((chain mem raw.buf raw.len).filter (isInterface mem)).map fun w => (mem (w.1 + 2), mem (w.1 + 3))).Nodup

/-- The endpoint descriptors of the setting. -/
def endpointsAt (w : ℤ × ℕ) : List (ℤ × ℕ) := endpointsOf mem (chain mem w.1 w.2).tail

/-- The endpoint descriptors of the setting are as many as it says, with addresses that are not zero and differ. -/
structure EndpointsFormed (w : ℤ × ℕ) : Prop where
  count : (endpointsAt mem w).length = (mem (w.1 + 4)).toNat
  seven_le : ∀ e ∈ endpointsAt mem w, 7 ≤ (mem e.1).toNat
  nonzero : ∀ e ∈ endpointsAt mem w, mem (e.1 + 2) ≠ 0
  distinct : ((endpointsAt mem w).map fun e => mem (e.1 + 2)).Nodup

end

section

variable {mem : ℤ → UInt8} {raw : RawDesc}

theorem WellFormed.nine_le_left (hwf : WellFormed mem raw) {w : ℤ × ℕ} (hw : w ∈ chain mem raw.buf raw.len)
    (hifc : isInterface mem w = true) : 9 ≤ w.2 :=
  ((hwf.placed w hw).interface hifc).trans (hwf.placed w hw).fits

/-- The first interface descriptor with a number and a value is the only one. -/
theorem altFound_iff (hwf : WellFormed mem raw) {i a : UInt8} {w : ℤ × ℕ} :
    altFound mem i a raw.buf raw.len = some w ↔
      w ∈ chain mem raw.buf raw.len ∧ isInterface mem w = true ∧ mem (w.1 + 2) = i ∧ mem (w.1 + 3) = a := by
  have hisAlt : ∀ w ∈ chain mem raw.buf raw.len,
      (isAlt mem i a w = true ↔ isInterface mem w = true ∧ mem (w.1 + 2) = i ∧ mem (w.1 + 3) = a) := fun w hw => by
    rw [isAlt_iff, AlternateAt, isType_iff]
    constructor
    · rintro ⟨h4, ht, hnum, hval⟩
      exact ⟨⟨by omega, ht⟩, hnum, hval⟩
    · rintro ⟨hifc, hnum, hval⟩
      have h9 := hwf.nine_le_left hw (isType_iff.mpr hifc)
      exact ⟨by omega, hifc.2, hnum, hval⟩
  unfold altFound
  constructor
  · intro hfind
    have hw := List.mem_of_find?_eq_some hfind
    exact ⟨hw, (hisAlt w hw).mp (List.find?_some hfind)⟩
  · rintro ⟨hw, halt⟩
    obtain ⟨w', hfind⟩ : ∃ w', (chain mem raw.buf raw.len).find? (isAlt mem i a) = some w' :=
      Option.isSome_iff_exists.mp (List.find?_isSome.mpr ⟨w, hw, (hisAlt w hw).mpr halt⟩)
    have hw' := List.mem_of_find?_eq_some hfind
    have halt' := (hisAlt w' hw').mp (List.find?_some hfind)
    have heq : w' = w := List.inj_on_of_nodup_map hwf.distinct (List.mem_filter.mpr ⟨hw', halt'.1⟩)
      (List.mem_filter.mpr ⟨hw, halt.1⟩) (by rw [halt'.2.1, halt'.2.2, halt.2.1, halt.2.2])
    rw [hfind, heq]

/-- The setting with a number and a value is the one that the interface walker finds. -/
theorem interfaceFound_iff (hwf : WellFormed mem raw) {i a : UInt8} {p : ℤ} :
    interfaceFound mem i a raw.buf raw.len = some p ↔
      ∃ w ∈ chain mem raw.buf raw.len, w.1 = p ∧ isInterface mem w = true ∧ mem (w.1 + 2) = i ∧ mem (w.1 + 3) = a := by
  unfold interfaceFound
  rw [Option.bind_eq_some_iff]
  constructor
  · rintro ⟨w, hfound, hp⟩
    obtain ⟨hw, halt⟩ := (altFound_iff hwf).mp hfound
    rw [if_pos (hwf.nine_le_left hw halt.1)] at hp
    exact ⟨w, hw, Option.some_inj.mp hp, halt⟩
  · rintro ⟨w, hw, rfl, halt⟩
    exact ⟨w, (altFound_iff hwf).mpr ⟨hw, halt⟩, if_pos (hwf.nine_le_left hw halt.1)⟩

/-- The chain from a descriptor on is the end of the chain. -/
theorem chain_from_mem {w : ℤ × ℕ} (n : ℕ) (sp : ℤ) (h : w ∈ chain mem sp n) : chain mem w.1 w.2 <:+ chain mem sp n := by
  induction n using Nat.strongRecOn generalizing sp with
  | ind n ih =>
    by_cases hzero : n = 0
    · subst hzero
      exact absurd h List.not_mem_nil
    by_cases hhop : 0 < (mem sp).toNat ∧ (mem sp).toNat ≤ n
    · rw [chain_hop hhop] at h
      rcases List.mem_cons.mp h with rfl | h
      · exact List.suffix_rfl
      · rw [chain_hop hhop]
        exact (ih _ (by omega) _ h).trans (List.suffix_cons _ _)
    · rw [chain_stop hzero hhop, List.mem_singleton] at h
      subst h
      exact List.suffix_rfl

/-- The endpoint descriptors of a setting are on the chain. -/
theorem mem_endpointsAt {w e : ℤ × ℕ} (hw : w ∈ chain mem raw.buf raw.len) (he : e ∈ endpointsAt mem w) :
    e ∈ chain mem raw.buf raw.len :=
  (chain_from_mem _ _ hw).subset
    (List.mem_of_mem_tail ((List.takeWhile_sublist _).subset (List.mem_of_mem_filter he)))

/-- The endpoint descriptor with an index is the one that the endpoint walker finds. -/
theorem endpointFound_eq (hwf : WellFormed mem raw) {i a eptidx : UInt8} {w : ℤ × ℕ}
    (hfound : altFound mem i a raw.buf raw.len = some w) (hform : EndpointsFormed mem w)
    (hidx : eptidx.toNat < (mem (w.1 + 4)).toNat) :
    ∃ e, (endpointsAt mem w)[eptidx.toNat]? = some e ∧ endpointFound mem i a eptidx raw.buf raw.len = some e.1 := by
  obtain ⟨hw, halt⟩ := (altFound_iff hwf).mp hfound
  have h9 := hwf.nine_le_left hw halt.1
  have hlt : eptidx.toNat < (endpointsAt mem w).length := by
    rw [hform.count]
    exact hidx
  have hget := List.getElem?_eq_getElem hlt
  have hmem := List.getElem_mem hlt
  have h7 := (hform.seven_le _ hmem).trans (hwf.placed _ (mem_endpointsAt hw hmem)).fits
  refine ⟨_, hget, ?_⟩
  unfold endpointFound
  rw [hfound, Option.bind_some, if_pos ⟨by omega, UInt8.lt_iff_toNat_lt.mpr hidx⟩]
  change (endpointsAt mem w)[eptidx.toNat]?.bind _ = _
  rw [hget, Option.bind_some, if_pos h7]

end

end OpenUsb
