import OpenUsb.AltTable

/-!
# SettingCount — when the alternate settings are counted exactly

What is left of a configuration at an interface is a sequence of descriptors.  `usbi_get_intf_altno` takes their lengths for
plain chars: the first descriptor of 128 bytes or more sends the pass back, and what it meets from there on stands for all
descriptors behind.

* `settings_counted_iff`: the count is right exactly when the settings behind such a descriptor are as many as those that
  the pass meets after it.
* `settings_counted_of_short`: in particular when no descriptor has 128 bytes.
* `never_counted`: the pass does not return if it is sent back to a descriptor in front.
-/

namespace OpenUsb

section

/-- What is left of a configuration at an interface: a sequence of descriptors that ends with the buffer, and zeros. -/
structure Remainder (mem : ℤ → UInt8) (buf : ℤ) (n : ℕ) : Prop where
  pos : 0 < n
  first : mem (buf + 1) = USB_DESC_TYPE_INTERFACE
  fits : ∀ w ∈ chain mem buf n, 2 ≤ (mem w.1).toNat ∧ (mem w.1).toNat ≤ w.2
  slack : ∀ p, buf + n ≤ p → mem p = 0

/-- The interface descriptors of a sequence with the number of the first one. -/
def settings (mem : ℤ → UInt8) (buf : ℤ) (l : List (ℤ × ℕ)) : ℕ := sameNumbers mem buf (l.map Prod.fst)

/-- From a place on, the hops meet as many of them as there are. -/
def HopsMeet (mem : ℤ → UInt8) (buf : ℤ) (n : ℕ) (place : ℤ) (k : ℕ) : Prop :=
  ∃ l, Hops mem buf n (place - buf) l ∧ sameNumbers mem buf l = k

/-- If there is a descriptor of 128 bytes or more, the hops that it starts meet as many settings as are behind it. -/
def LongHarmless (mem : ℤ → UInt8) (buf : ℤ) (n : ℕ) (l : List (ℤ × ℕ)) : Prop :=
  ∀ front w behind, l = front ++ w :: behind → (∀ v ∈ front, (mem v.1).toNat < 128) → 128 ≤ (mem w.1).toNat →
    HopsMeet mem buf n w.1 (settings mem buf behind)

variable {mem : ℤ → UInt8} {buf sp : ℤ} {n m k : ℕ} {w : ℤ × ℕ} {l : List (ℤ × ℕ)}

theorem longHarmless_nil : LongHarmless mem buf n [] := by
  intro front w behind h
  simp at h

theorem longHarmless_long (hlong : 128 ≤ (mem w.1).toNat) :
    LongHarmless mem buf n (w :: l) ↔ HopsMeet mem buf n w.1 (settings mem buf l) := by
  constructor
  · intro h
    exact h [] w l rfl (List.forall_mem_nil _) hlong
  · intro h front v behind heq hfront hv
    cases front with
    | nil =>
      obtain ⟨rfl, rfl⟩ := List.cons.inj heq
      exact h
    | cons u front =>
      obtain ⟨rfl, -⟩ := List.cons.inj heq
      exact absurd hlong (Nat.not_le.mpr (hfront w List.mem_cons_self))

theorem longHarmless_short (hshort : (mem w.1).toNat < 128) :
    LongHarmless mem buf n (w :: l) ↔ LongHarmless mem buf n l := by
  constructor
  · intro h front v behind heq hfront hv
    apply h (w :: front) v behind (congrArg (w :: ·) heq) _ hv
    intro u hu
    rcases List.mem_cons.mp hu with rfl | hu
    · exact hshort
    · exact hfront u hu
  · intro h front v behind heq hfront hv
    cases front with
    | nil =>
      obtain ⟨rfl, -⟩ := List.cons.inj heq
      exact absurd hv (Nat.not_le.mpr hshort)
    | cons u front =>
      obtain ⟨rfl, heq'⟩ := List.cons.inj heq
      exact h front v behind heq' (fun x hx => hfront x (List.mem_cons_of_mem _ hx)) hv

/-! ## The hops and the chain -/

theorem hopsMeet_hop (hin : buf ≤ sp ∧ sp < buf + n) :
    HopsMeet mem buf n sp k ↔
      ∃ k', HopsMeet mem buf n (sp + CInt.schar (mem sp)) k' ∧
        k = (if SameNumber mem buf (sp + CInt.schar (mem sp)) then 1 else 0) + k' := by
  have hsp : buf + (sp - buf) = sp := by omega
  have hnext : sp - buf + CInt.schar (mem sp) = sp + CInt.schar (mem sp) - buf := by omega
  have hplace : buf + (sp + CInt.schar (mem sp) - buf) = sp + CInt.schar (mem sp) := by omega
  constructor
  · rintro ⟨l, hl, rfl⟩
    cases hl with
    | out hout => exact absurd (by omega) hout
    | hop _ hrest =>
      rw [hsp, hnext] at hrest
      refine ⟨_, ⟨_, hrest, rfl⟩, ?_⟩
      rw [sameNumbers_cons, hsp, hnext, hplace]
  · rintro ⟨k', ⟨l, hl, rfl⟩, rfl⟩
    refine ⟨(sp + CInt.schar (mem sp)) :: l, ?_, sameNumbers_cons ..⟩
    have hhop := @Hops.hop mem buf n (sp - buf) l (by omega)
    rw [hsp, hnext, hplace] at hhop
    exact hhop hl

/-- The settings of a chain, from its first descriptor on. -/
theorem Remainder.settings_chain (h : Remainder mem buf n) (hend : sp + m = buf + n) :
    settings mem buf (chain mem sp m) =
      (if SameNumber mem buf sp then 1 else 0) + settings mem buf (chain mem sp m).tail := by
  by_cases hm : m = 0
  · have hno : ¬ SameNumber mem buf sp := fun hsame => by
      have htype := hsame.1
      rw [h.slack (sp + 1) (by omega)] at htype
      exact absurd htype (by decide)
    subst hm
    rw [if_neg hno, chain_zero]
    rfl
  · obtain ⟨rest, hchain⟩ := @chain_head mem sp m hm
    rw [hchain]
    exact sameNumbers_cons ..

/-- From a descriptor of the chain on, the hops meet the settings behind it exactly when the first long descriptor does no
harm. -/
theorem Remainder.hopsMeet_iff (h : Remainder mem buf n) (hsp : buf ≤ sp) (hend : sp + m = buf + n)
    (hfits : ∀ w ∈ chain mem sp m, 2 ≤ (mem w.1).toNat ∧ (mem w.1).toNat ≤ w.2) :
    HopsMeet mem buf n sp (settings mem buf (chain mem sp m).tail) ↔ LongHarmless mem buf n (chain mem sp m) := by
  induction m using Nat.strongRecOn generalizing sp with
  | ind m ih =>
    by_cases hm : m = 0
    · subst hm
      exact iff_of_true ⟨[], .out (by omega), rfl⟩ longHarmless_nil
    obtain ⟨rest, hhead⟩ := @chain_head mem sp m hm
    have hhop : 2 ≤ (mem sp).toNat ∧ (mem sp).toNat ≤ m := hfits (sp, m) (hhead ▸ List.mem_cons_self)
    have hchain : chain mem sp m = (sp, m) :: chain mem (sp + (mem sp).toNat) (m - (mem sp).toNat) :=
      chain_hop (by omega)
    rw [hchain, List.tail_cons]
    by_cases hshort : (mem sp).toNat < 128
    · have hnext := ih (m - (mem sp).toNat) (by omega) (by omega : buf ≤ sp + (mem sp).toNat) (by omega)
        (fun w hw => hfits w (hchain ▸ List.mem_cons_of_mem _ hw))
      rw [longHarmless_short hshort, ← hnext, hopsMeet_hop (by omega), CInt.schar_of_lt hshort,
        h.settings_chain (by omega)]
      constructor
      · rintro ⟨k', hk, heq⟩
        rwa [Nat.add_left_cancel heq]
      · intro hk
        exact ⟨_, hk, rfl⟩
    · have hlong : 128 ≤ (mem (sp, m).1).toNat := Nat.not_lt.mp hshort
      exact (longHarmless_long hlong).symm

/-! ## The count -/

variable {env : Env}

theorem Remainder.settings_first (h : Remainder mem buf n) :
    settings mem buf (chain mem buf n) = 1 + settings mem buf (chain mem buf n).tail := by
  rw [h.settings_chain rfl, if_pos ⟨h.first, rfl⟩]

theorem settings_counted_iff (h : Remainder env.mem buf n) (hn : n < 2 ^ 31) :
    (usbiGetIntfAltno env buf n).Returns (settings env.mem buf (chain env.mem buf n)) ↔
      LongHarmless env.mem buf n (chain env.mem buf n) := by
  rw [← h.hopsMeet_iff le_rfl rfl h.fits, intf_altno_hops hn, h.settings_first, HopsMeet, sub_self]
  constructor
  · rintro ⟨l, hl, heq⟩
    exact ⟨l, hl, (Nat.add_left_cancel heq).symm⟩
  · rintro ⟨l, hl, heq⟩
    exact ⟨l, hl, heq ▸ rfl⟩

/-- Without long descriptors the settings are counted. -/
theorem settings_counted_of_short (h : Remainder env.mem buf n) (hn : n < 2 ^ 31)
    (hshort : ∀ w ∈ chain env.mem buf n, (env.mem w.1).toNat < 128) :
    (usbiGetIntfAltno env buf n).Returns (settings env.mem buf (chain env.mem buf n)) := by
  refine (settings_counted_iff h hn).mpr fun front w behind heq _ hlong => ?_
  have hw : w ∈ chain env.mem buf n := heq ▸ List.mem_append_right front List.mem_cons_self
  exact absurd hlong (Nat.not_le.mpr (hshort w hw))

/-! ## Long descriptors -/

theorem Hops.unique {len : ℤ} {hs hs' : List ℤ} (h : Hops mem buf n len hs) (h' : Hops mem buf n len hs') : hs = hs' := by
  induction h generalizing hs' with
  | out hout =>
    cases h' with
    | out => rfl
    | hop hin => exact absurd hin hout
  | hop hin _ ih =>
    cases h' with
    | out hout => exact absurd hin hout
    | hop _ hrest => rw [ih hrest]

/-- From a place that the hops meet, the hops that are left go on. -/
theorem Hops.behind {len p : ℤ} {hs : List ℤ} (h : Hops mem buf n len hs) (hp : p ∈ hs) :
    ∃ hs', Hops mem buf n (p - buf) hs' ∧ hs'.length < hs.length := by
  induction h with
  | out => exact absurd hp List.not_mem_nil
  | @hop len hs hin hrest ih =>
    rcases List.mem_cons.mp hp with rfl | hp
    · refine ⟨hs, ?_, Nat.lt_succ_self _⟩
      rwa [add_sub_cancel_left]
    · obtain ⟨hs', hhops, hlt⟩ := ih hp
      exact ⟨hs', hhops, Nat.lt_succ_of_lt hlt⟩

/-- Hops that end do not come back to where they began. -/
theorem Hops.not_mem {hs : List ℤ} (h : Hops mem buf n (sp - buf) hs) : sp ∉ hs := by
  intro hmem
  obtain ⟨hs', hhops, hlt⟩ := h.behind hmem
  rw [h.unique hhops] at hlt
  exact absurd hlt (lt_irrefl _)

/-- What a chain begins with. -/
theorem chain_first {v : ℤ × ℕ} {rest : List (ℤ × ℕ)} (hl : chain mem sp m = v :: rest) : m ≠ 0 ∧ v = (sp, m) := by
  have hm : m ≠ 0 := by
    rintro rfl
    exact absurd hl nofun
  obtain ⟨rest', hhead⟩ := @chain_head mem sp m hm
  exact ⟨hm, (List.cons.inj (hl.symm.trans hhead)).1⟩

/-- A chain from one of its descriptors on. -/
theorem chain_behind {v : ℤ × ℕ} {front rest : List (ℤ × ℕ)} (hl : chain mem sp m = front ++ v :: rest) :
    chain mem v.1 v.2 = v :: rest ∧ sp ≤ v.1 ∧ v.1 + v.2 = sp + m := by
  induction front generalizing sp m with
  | nil =>
    obtain ⟨-, rfl⟩ := chain_first hl
    exact ⟨hl, le_rfl, rfl⟩
  | cons u front ih =>
    obtain ⟨hm, -⟩ := chain_first hl
    by_cases hhop : 0 < (mem sp).toNat ∧ (mem sp).toNat ≤ m
    · rw [chain_hop hhop] at hl
      obtain ⟨hchain, hle, hend⟩ := ih (List.cons.inj hl).2
      exact ⟨hchain, by omega, by omega⟩
    · rw [chain_stop hm hhop] at hl
      simp at hl

/-- Over short descriptors the hops follow the chain. -/
theorem hops_follow {front behind : List (ℤ × ℕ)} {hs : List ℤ} (hin : buf ≤ sp ∧ sp + m ≤ buf + n)
    (hfits : ∀ v ∈ chain mem sp m, 2 ≤ (mem v.1).toNat ∧ (mem v.1).toNat ≤ v.2)
    (hl : chain mem sp m = front ++ w :: behind) (hshort : ∀ v ∈ front, (mem v.1).toNat < 128)
    (h : Hops mem buf n (sp - buf) hs) : w.1 = sp ∨ w.1 ∈ hs := by
  induction front generalizing sp m hs with
  | nil =>
    obtain ⟨-, rfl⟩ := chain_first hl
    exact .inl rfl
  | cons v front ih =>
    obtain ⟨-, rfl⟩ := chain_first hl
    have hhop : 2 ≤ (mem sp).toNat ∧ (mem sp).toNat ≤ m := hfits (sp, m) (hl ▸ List.mem_cons_self)
    have hchain : chain mem sp m = (sp, m) :: chain mem (sp + (mem sp).toNat) (m - (mem sp).toNat) :=
      chain_hop (by omega)
    rw [hchain] at hl hfits
    have hrest := (List.cons.inj hl).2
    have hsp : (mem sp).toNat < 128 := hshort (sp, m) List.mem_cons_self
    have hplace : buf + (sp - buf) = sp := by omega
    have hnext : sp - buf + (mem sp).toNat = sp + (mem sp).toNat - buf := by omega
    cases h with
    | out hout => exact absurd (by omega) hout
    | hop _ h =>
      rw [hplace, CInt.schar_of_lt hsp, hnext] at h ⊢
      refine .inr ?_
      rcases ih (by omega) (fun u hu => hfits u (List.mem_cons_of_mem _ hu)) hrest
        (fun u hu => hshort u (List.mem_cons_of_mem _ hu)) h with heq | hmem
      · rw [heq, add_sub_cancel]
        exact List.mem_cons_self
      · exact List.mem_cons_of_mem _ hmem

/-- If the first long descriptor sends the pass to a descriptor in front of it, the pass does not return. -/
theorem never_counted {front behind : List (ℤ × ℕ)} (h : Remainder env.mem buf n) (hn : n < 2 ^ 31)
    (hl : chain env.mem buf n = front ++ w :: behind) (hshort : ∀ v ∈ front, (env.mem v.1).toNat < 128)
    (hlong : 128 ≤ (env.mem w.1).toNat) (hback : ∃ v ∈ front, v.1 = w.1 + (env.mem w.1).toNat - 256) (altno : ℕ) :
    ¬ (usbiGetIntfAltno env buf n).Returns altno := by
  intro hr
  obtain ⟨hs, hhops, -⟩ := (intf_altno_hops hn).mp hr
  obtain ⟨-, hlow, hend⟩ := chain_behind hl
  have hfits := h.fits w (hl ▸ List.mem_append_right front List.mem_cons_self)
  -- the pass gets to the long descriptor, and from there to one in front
  obtain ⟨hs', hlast⟩ : ∃ hs', Hops env.mem buf n (w.1 - buf) hs' := by
    rcases hops_follow ⟨le_rfl, le_rfl⟩ h.fits hl hshort (by rwa [sub_self]) with heq | hmem
    · exact ⟨hs, by rwa [heq, sub_self]⟩
    · obtain ⟨hs', hrest, -⟩ := hhops.behind hmem
      exact ⟨hs', hrest⟩
  have hnot := hlast.not_mem
  obtain ⟨v, hv, hplace⟩ := hback
  obtain ⟨front, between, rfl⟩ := List.append_of_mem hv
  rw [List.append_assoc, List.cons_append] at hl
  obtain ⟨hchain, hlow', hend'⟩ := chain_behind hl
  cases hlast with
  | out hout => exact absurd (by omega) hout
  | @hop _ hs' _ hrest =>
    have hback : w.1 - buf + CInt.schar (env.mem (buf + (w.1 - buf))) = v.1 - buf := by
      have hschar : CInt.schar (env.mem w.1) = (env.mem w.1).toNat - 256 := if_neg (Nat.not_lt.mpr hlong)
      rw [add_sub_cancel, hschar]
      omega
    rw [hback] at hrest
    have hfits' : ∀ u ∈ chain env.mem v.1 v.2, 2 ≤ (env.mem u.1).toNat ∧ (env.mem u.1).toNat ≤ u.2 := by
      intro u hu
      rw [hchain] at hu
      exact h.fits u (hl ▸ List.mem_append_right front hu)
    -- which leads to the long descriptor once more
    rcases hops_follow ⟨hlow', hend'.le⟩ hfits' (hchain.trans (List.cons_append ..).symm)
      (fun u hu => hshort u (List.mem_append_right front hu)) hrest with heq | hmem
    · have hbyte := (env.mem w.1).toNat_lt
      omega
    · exact hnot (List.mem_cons_of_mem _ hmem)

end

/-- Two alternate settings, with a class descriptor of 100 bytes between them. -/
def shortClassBlob : List UInt8 :=
  [9, 4, 0, 0, 0, 255, 0, 0, 0] ++ 100 :: 36 :: List.replicate 98 0 ++ [9, 4, 0, 1, 0, 255, 0, 0, 0]

theorem remainder_shortClass : Remainder (blobMem shortClassBlob) 0 118 where
  pos := by decide
  first := by decide +kernel
  fits := by decide +kernel
  slack := by
    intro p hp
    have hlen : shortClassBlob.length = 118 := rfl
    exact blobMem_of_le (by omega)

theorem settings_counted_shortClass : (usbiGetIntfAltno (blobEnv shortClassBlob) 0 118).Returns 2 := by
  have hshort : ∀ w ∈ chain (blobMem shortClassBlob) 0 118, (blobMem shortClassBlob w.1).toNat < 128 := by decide +kernel
  have htwo : settings (blobMem shortClassBlob) 0 (chain (blobMem shortClassBlob) 0 118) = 2 := by decide +kernel
  rw [← htwo]
  refine (@settings_counted_iff 0 118 (blobEnv shortClassBlob) remainder_shortClass (by decide)).mpr ?_
  intro front w behind heq _ hlong
  have hw : w ∈ chain (blobMem shortClassBlob) 0 118 := heq ▸ List.mem_append_right front List.mem_cons_self
  exact absurd hlong (Nat.not_le.mpr (hshort w hw))

/-- The same with a class descriptor of 128 bytes. -/
def longClassBlob : List UInt8 :=
  [9, 4, 0, 0, 0, 255, 0, 0, 0] ++ 128 :: 36 :: List.replicate 126 0 ++ [9, 4, 0, 1, 0, 255, 0, 0, 0]

/-- The second setting is not counted. -/
theorem settings_miscounted : Remainder (blobMem longClassBlob) 0 146 ∧
    ¬ (usbiGetIntfAltno (blobEnv longClassBlob) 0 146).Returns
      (settings (blobMem longClassBlob) 0 (chain (blobMem longClassBlob) 0 146)) := by
  refine ⟨⟨by decide, by decide +kernel, by decide +kernel, fun p hp => ?_⟩, fun h => ?_⟩
  · have hlen : longClassBlob.length = 146 := rfl
    exact blobMem_of_le (by omega)
  · have hone : (usbiGetIntfAltno (blobEnv longClassBlob) 0 146).Returns 1 := ⟨3, by decide +kernel⟩
    have htwo : settings (blobMem longClassBlob) 0 (chain (blobMem longClassBlob) 0 146) = 2 := by decide +kernel
    rw [htwo] at h
    exact absurd (hone.unique h) (by decide)

end OpenUsb
