import Mathlib.Data.List.Perm.Basic

/-!
# Reconcile — comparing a list of known things with a new list

The known things are walked through in order.  Each takes the first entry of the new list that is the same by the test and
stays, or there is none and it is dropped.  What is left of the new list is new.

* `reconcile_length`: what stays and what is new are as many as the new list.
* `reconcile_perm`: when the test is equality, they are the new list.
-/

namespace OpenUsb

section

variable {α β : Type} [DecidableEq β] {same : α → β → Bool} {old : List α} {new : List β} {a : α} {b : β}

/-- What stays of the known things, and what is new. -/
def reconcile (same : α → β → Bool) : List α → List β → List α × List β
  | [], new => ([], new)
  | a :: old, new =>
    match new.find? (same a) with
    | some b => (a :: (reconcile same old (new.erase b)).1, (reconcile same old (new.erase b)).2)
    | none => reconcile same old new

theorem reconcile_some (h : new.find? (same a) = some b) : reconcile same (a :: old) new =
    (a :: (reconcile same old (new.erase b)).1, (reconcile same old (new.erase b)).2) := by
  rw [reconcile, h]

theorem reconcile_none (h : new.find? (same a) = none) : reconcile same (a :: old) new = reconcile same old new := by
  rw [reconcile, h]

theorem reconcile_length (same : α → β → Bool) (old : List α) (new : List β) :
    (reconcile same old new).1.length + (reconcile same old new).2.length = new.length := by
  induction old generalizing new with
  | nil => exact Nat.zero_add _
  | cons a old ih =>
    cases h : new.find? (same a) with
    | none =>
      rw [reconcile_none h]
      exact ih new
    | some b =>
      rw [reconcile_some h]
      dsimp only
      rw [List.length_cons]
      have hlen := List.length_erase_of_mem (List.mem_of_find?_eq_some h)
      have hpos := List.length_pos_of_mem (List.mem_of_find?_eq_some h)
      have hrest := ih (new.erase b)
      omega

theorem reconcile_kept (h : a ∈ (reconcile same old new).1) : a ∈ old := by
  induction old generalizing new with
  | nil => exact h
  | cons x old ih =>
    cases hx : new.find? (same x) with
    | none =>
      rw [reconcile_none hx] at h
      exact List.mem_cons_of_mem _ (ih h)
    | some b =>
      rw [reconcile_some hx] at h
      rcases List.mem_cons.mp h with rfl | h
      · exact List.mem_cons_self
      · exact List.mem_cons_of_mem _ (ih h)

theorem reconcile_left (h : b ∈ (reconcile same old new).2) : b ∈ new := by
  induction old generalizing new with
  | nil => exact h
  | cons x old ih =>
    cases hx : new.find? (same x) with
    | none =>
      rw [reconcile_none hx] at h
      exact ih h
    | some c =>
      rw [reconcile_some hx] at h
      exact List.mem_of_mem_erase (ih h)

/-- What is not new is the same as something that stays. -/
theorem reconcile_taken (same : α → β → Bool) (old : List α) (h : b ∈ new) :
    b ∈ (reconcile same old new).2 ∨ ∃ a ∈ (reconcile same old new).1, same a b = true := by
  induction old generalizing new with
  | nil => exact .inl h
  | cons x old ih =>
    cases hx : new.find? (same x) with
    | none =>
      rw [reconcile_none hx]
      exact ih h
    | some c =>
      rw [reconcile_some hx]
      by_cases hbc : b = c
      · subst hbc
        exact .inr ⟨x, List.mem_cons_self, List.find?_some hx⟩
      · rcases ih ((List.mem_erase_of_ne hbc).mpr h) with hb | ⟨a, ha, hab⟩
        · exact .inl hb
        · exact .inr ⟨a, List.mem_cons_of_mem _ ha, hab⟩

/-- What is dropped is the same as nothing that is new. -/
theorem reconcile_dropped (same : α → β → Bool) (new : List β) (h : a ∈ old) :
    a ∈ (reconcile same old new).1 ∨ ∀ b ∈ (reconcile same old new).2, same a b = false := by
  induction old generalizing new with
  | nil => exact absurd h List.not_mem_nil
  | cons x old ih =>
    cases hx : new.find? (same x) with
    | none =>
      rw [reconcile_none hx]
      rcases List.mem_cons.mp h with rfl | h
      · refine .inr fun b hb => ?_
        simpa using List.find?_eq_none.mp hx b (reconcile_left hb)
      · exact ih new h
    | some c =>
      rw [reconcile_some hx]
      rcases List.mem_cons.mp h with rfl | h
      · exact .inl List.mem_cons_self
      · rcases ih (new.erase c) h with ha | ha
        · exact .inl (List.mem_cons_of_mem _ ha)
        · exact .inr ha

variable {f : α → β}

/-- When the test is equality, what stays and what is new make up the new list. -/
theorem reconcile_perm (hsame : ∀ a ∈ old, ∀ b ∈ new, same a b = true → f a = b) :
    ((reconcile same old new).1.map f ++ (reconcile same old new).2).Perm new := by
  induction old generalizing new with
  | nil => exact List.Perm.refl new
  | cons x old ih =>
    have hrest : ∀ new' : List β, (∀ b ∈ new', b ∈ new) → ∀ a ∈ old, ∀ b ∈ new', same a b = true → f a = b :=
      fun new' hsub a ha b hb => hsame a (List.mem_cons_of_mem _ ha) b (hsub b hb)
    cases hx : new.find? (same x) with
    | none =>
      rw [reconcile_none hx]
      exact ih (hrest new fun _ => id)
    | some b =>
      have hb := List.mem_of_find?_eq_some hx
      rw [reconcile_some hx, List.map_cons, hsame x List.mem_cons_self b hb (List.find?_some hx)]
      exact ((ih (hrest (new.erase b) fun _ => List.mem_of_mem_erase)).cons b).trans (List.perm_cons_erase hb).symm

/-- When the test is equality and the new list has no duplicates, nothing that was known is new. -/
theorem reconcile_fresh (hsame : ∀ a ∈ old, ∀ b ∈ new, same a b = true → f a = b) (hnew : new.Nodup) (ha : a ∈ old)
    (hb : b ∈ (reconcile same old new).2) : same a b = false := by
  induction old generalizing new with
  | nil => exact absurd ha List.not_mem_nil
  | cons x old ih =>
    cases hx : new.find? (same x) with
    | none =>
      rw [reconcile_none hx] at hb
      rcases List.mem_cons.mp ha with rfl | ha
      · simpa using List.find?_eq_none.mp hx b (reconcile_left hb)
      · exact ih (fun a ha => hsame a (List.mem_cons_of_mem _ ha)) hnew ha hb
    | some c =>
      rw [reconcile_some hx] at hb
      have hc := List.mem_of_find?_eq_some hx
      rcases List.mem_cons.mp ha with rfl | ha
      · by_contra htrue
        have hbnew := reconcile_left hb
        have heq : b = c := by
          rw [← hsame a List.mem_cons_self b (List.mem_of_mem_erase hbnew) (by simpa using htrue)]
          exact hsame a List.mem_cons_self c hc (List.find?_some hx)
        exact hnew.not_mem_erase (heq ▸ hbnew)
      · exact ih (fun a ha b hb => hsame a (List.mem_cons_of_mem _ ha) b (List.mem_of_mem_erase hb)) (hnew.erase c) ha hb

end

end OpenUsb
