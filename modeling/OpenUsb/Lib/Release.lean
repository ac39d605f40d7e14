import Mathlib

/-!
# Release — routines that free what they own

A clean-up routine is `some l`, where `l` lists the pointers that it frees, in order, or `none` when it touches memory
that is not there: an entry outside a table, or a table that was freed before.

`Releases o S` says that the routine `o` runs through and frees each pointer of `S` once, and nothing else.  The rules
put a routine together from its parts, which must own different pointers.
-/

namespace OpenUsb.Release

section Routines

variable {P α : Type}

/-- One routine after the other. -/
def andThen (o o' : Option (List P)) : Option (List P) := do
  let l ← o
  let m ← o'
  pure (l ++ m)

/-- Run `f` on the entries 0 .. n-1 of a table that is read with `get?`. -/
def visit (get? : ℕ → Option α) (f : ℕ → α → Option (List P)) : ℕ → Option (List P)
  | 0 => some []
  | n + 1 => andThen (visit get? f n) ((get? n).bind (f n))

theorem isSome_andThen {o o' : Option (List P)} : (andThen o o').isSome ↔ o.isSome ∧ o'.isSome := by
  cases o with
  | none => exact iff_of_false (by rintro ⟨⟩) fun h => by cases h.1
  | some l =>
    cases o' with
    | none => exact iff_of_false (by rintro ⟨⟩) fun h => by cases h.2
    | some m => exact iff_of_true rfl ⟨rfl, rfl⟩

/-- The entries of a table are run through when each of them is there and its own routine runs through. -/
theorem isSome_visit {get? : ℕ → Option α} {f : ℕ → α → Option (List P)} {n : ℕ} :
    (visit get? f n).isSome ↔ ∀ k < n, ∃ e, get? k = some e ∧ (f k e).isSome := by
  induction n with
  | zero => exact iff_of_true rfl fun k hk => absurd hk (Nat.not_lt_zero k)
  | succ n ih =>
    rw [visit, isSome_andThen, ih, Nat.forall_lt_succ_right]
    refine and_congr_right fun _ => ?_
    cases get? n with
    | none => exact iff_of_false (by rintro ⟨⟩) fun ⟨e, he, _⟩ => by cases he
    | some e => exact ⟨fun h => ⟨e, rfl, h⟩, fun ⟨e', he, h⟩ => Option.some_inj.mp he ▸ h⟩

/-- The routine frees each pointer of `S` once, and no other. -/
def Releases (o : Option (List P)) (S : P → Prop) : Prop := ∃ l, o = some l ∧ l.Nodup ∧ ∀ p, p ∈ l ↔ S p

theorem Releases.isSome {o : Option (List P)} {S : P → Prop} (h : Releases o S) : o.isSome := by
  obtain ⟨l, rfl, -⟩ := h
  rfl

theorem releases_nil {S : P → Prop} (h : ∀ p, ¬ S p) : Releases (some []) S :=
  ⟨[], rfl, List.nodup_nil, fun p => iff_of_false List.not_mem_nil (h p)⟩

theorem releases_one {S : P → Prop} {q : P} (h : ∀ p, S p ↔ p = q) : Releases (some [q]) S :=
  ⟨[q], rfl, List.nodup_singleton q, fun p => List.mem_singleton.trans (h p).symm⟩

theorem Releases.congr {o : Option (List P)} {S T : P → Prop} (h : Releases o S) (hST : ∀ p, S p ↔ T p) :
    Releases o T := by
  obtain ⟨l, ho, hl, hm⟩ := h
  exact ⟨l, ho, hl, fun p => (hm p).trans (hST p)⟩

/-- Two parts that own different pointers. -/
theorem Releases.andThen {o o' : Option (List P)} {S T : P → Prop} (h : Releases o S) (h' : Releases o' T)
    (hdisj : ∀ p, S p → ¬ T p) : Releases (andThen o o') (fun p => S p ∨ T p) := by
  obtain ⟨l, rfl, hl, hm⟩ := h
  obtain ⟨l', rfl, hl', hm'⟩ := h'
  refine ⟨l ++ l', rfl, ?_, fun p => ?_⟩
  · exact hl.append hl' fun p hp hp' => hdisj p ((hm p).mp hp) ((hm' p).mp hp')
  · rw [List.mem_append, hm, hm']

/-- The pointers of the routine, renamed. -/
theorem Releases.map {Q : Type} {o : Option (List P)} {S : P → Prop} (h : Releases o S) {g : P → Q}
    (hg : Function.Injective g) : Releases (o.map (List.map g)) (fun q => ∃ p, S p ∧ g p = q) := by
  obtain ⟨l, rfl, hl, hm⟩ := h
  refine ⟨l.map g, rfl, hl.map hg, fun q => ?_⟩
  rw [List.mem_map]
  exact exists_congr fun p => and_congr_left fun _ => hm p

/-- The entries of a table, each owning its own pointers. -/
theorem releases_visit {get? : ℕ → Option α} {f : ℕ → α → Option (List P)} {S : ℕ → P → Prop} {n : ℕ}
    (hget : ∀ k < n, ∃ e, get? k = some e ∧ Releases (f k e) (S k))
    (hdisj : ∀ k k' p, S k p → S k' p → k = k') : Releases (visit get? f n) (fun p => ∃ k < n, S k p) := by
  induction n with
  | zero => exact releases_nil (by simp)
  | succ n ih =>
    obtain ⟨e, he, hf⟩ := hget n (Nat.lt_succ_self n)
    have hbind : (get? n).bind (f n) = f n e := by rw [he, Option.bind_some]
    rw [visit, hbind]
    refine ((ih fun k hk => hget k (Nat.lt_succ_of_lt hk)).andThen hf ?_).congr fun p => ?_
    · rintro p ⟨k, hk, hp⟩ hp'
      exact absurd (hdisj k n p hp hp') (Nat.ne_of_lt hk)
    · constructor
      · rintro (⟨k, hk, hp⟩ | hp)
        · exact ⟨k, Nat.lt_succ_of_lt hk, hp⟩
        · exact ⟨n, Nat.lt_succ_self n, hp⟩
      · rintro ⟨k, hk, hp⟩
        rcases Nat.lt_succ_iff_lt_or_eq.mp hk with hk | rfl
        · exact Or.inl ⟨k, hk, hp⟩
        · exact Or.inr hp

end Routines

end OpenUsb.Release
