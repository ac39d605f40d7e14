import Mathlib.Data.List.Nodup
import Mathlib.Data.List.Pairwise

/-!
# Forest — trees given by first child and next sibling, and walks over them

A walk does something at each node and decides there whether it goes on to the children.  It hands the children what it found
at their parent.

* `Forest.parent_first`: the list of what is visited has each parent before its children.
* `Steps.walk_eq`: a walk is a fold over that list, if every visit is right.
* `Steps.ok_of_walk`: a walk in which nothing goes wrong has only such visits.
-/

namespace OpenUsb

/-- The first node with the nodes below it, and its siblings. -/
inductive Forest (α : Type) where
  | nil
  | node (a : α) (below rest : Forest α)
  deriving DecidableEq, Repr

namespace Forest

section

variable {α κ σ : Type}

/-- A walk: `f` gets what was found at the parent and the node, and gives what the nodes below get, if they are visited. -/
def walk (f : κ → α → σ → Option κ × σ) : Forest α → κ → σ → σ
  | nil, _, s => s
  | node a below rest, k, s =>
    match f k a s with
    | (none, t) => walk f rest k t
    | (some k', t) => walk f rest k (walk f below k' t)

/-- What is visited, with the parents, when the nodes below a visit are visited only as `enter` says. -/
def visits (enter : Option α × α → Bool) : Forest α → Option α → List (Option α × α)
  | nil, _ => []
  | node a below rest, p => (p, a) :: ((if enter (p, a) = true then visits enter below (some a) else []) ++ visits enter rest p)

/-- Every node with its parent. -/
def edges (t : Forest α) (p : Option α) : List (Option α × α) := t.visits (fun _ => true) p

variable {enter : Option α × α → Bool} {t : Forest α} {p : Option α} {v : Option α × α} {a : α}

@[simp] theorem visits_nil : (nil : Forest α).visits enter p = [] := rfl

theorem visits_of_enter (below rest : Forest α) (h : enter (p, a) = true) :
    (node a below rest).visits enter p = (p, a) :: (below.visits enter (some a) ++ rest.visits enter p) := by
  rw [visits, if_pos h]

theorem visits_of_not_enter (below rest : Forest α) (h : enter (p, a) ≠ true) :
    (node a below rest).visits enter p = (p, a) :: rest.visits enter p := by
  rw [visits, if_neg h, List.nil_append]

theorem visits_sublist (enter : Option α × α → Bool) (t : Forest α) (p : Option α) : (t.visits enter p).Sublist (t.edges p) := by
  induction t generalizing p with
  | nil => exact List.Sublist.slnil
  | node a below rest ihbelow ihrest =>
    have hedges : (node a below rest).edges p = (p, a) :: (below.edges (some a) ++ rest.edges p) := visits_of_enter below rest rfl
    rw [hedges]
    by_cases h : enter (p, a) = true
    · rw [visits_of_enter below rest h]
      exact ((ihbelow (some a)).append (ihrest p)).cons_cons _
    · rw [visits_of_not_enter below rest h]
      exact ((ihrest p).trans (List.sublist_append_right _ _)).cons_cons _

/-- A visit has the parent that all have, or one that was visited and entered before it. -/
theorem parent_first {before after : List (Option α × α)} (h : t.visits enter p = before ++ v :: after) :
    v.1 = p ∨ ∃ u ∈ before, enter u = true ∧ v.1 = some u.2 := by
  induction t generalizing p before after with
  | nil => exact absurd h (List.append_ne_nil_of_right_ne_nil _ (List.cons_ne_nil _ _)).symm
  | node a below rest ihbelow ihrest =>
    rw [visits] at h
    cases before with
    | nil =>
      obtain ⟨rfl, -⟩ := List.cons_eq_cons.mp h
      exact .inl rfl
    | cons u before =>
      obtain ⟨rfl, hrest⟩ := List.cons_eq_cons.mp h
      rcases List.append_eq_append_iff.mp hrest with ⟨gap, rfl, hlater⟩ | ⟨gap, hearlier, hgap⟩
      · -- among the siblings
        rcases ihrest hlater with hp | ⟨u, hu, henter⟩
        · exact .inl hp
        · exact .inr ⟨u, List.mem_cons_of_mem _ (List.mem_append_right _ hu), henter⟩
      · cases gap with
        | nil =>
          rcases @ihrest _ [] _ hgap.symm with hp | ⟨u, hu, -⟩
          · exact .inl hp
          · exact absurd hu List.not_mem_nil
        | cons w gap =>
          obtain ⟨rfl, -⟩ := List.cons_eq_cons.mp hgap
          by_cases henter : enter (p, a) = true
          · -- below the first node
            rw [if_pos henter] at hearlier
            rcases ihbelow hearlier with hp | ⟨u, hu, hrest⟩
            · exact .inr ⟨(p, a), List.mem_cons_self, henter, hp⟩
            · exact .inr ⟨u, List.mem_cons_of_mem _ hu, hrest⟩
          · rw [if_neg henter] at hearlier
            exact absurd hearlier (List.append_ne_nil_of_right_ne_nil _ (List.cons_ne_nil _ _)).symm

end

section

variable {α κ σ : Type} {f : κ → α → σ → Option κ × σ} {g : σ → Option α × α → σ} {enter : Option α × α → Bool}
  {Ok : Option α × α → Prop} {Bad : σ → Prop} {Inv : σ → List (Option α × α) → Prop} {Found : σ → Option α → κ → Prop}
  {t : Forest α} {p : Option α} {k : κ} {s : σ} {l : List (Option α × α)}

/-- What goes wrong stays wrong to the end of the walk. -/
theorem walk_bad (hbad : ∀ k a s, Bad s → Bad (f k a s).2) (h : Bad s) : Bad (walk f t k s) := by
  induction t generalizing k s with
  | nil => exact h
  | node a below rest ihbelow ihrest =>
    have hfirst := hbad k a s h
    unfold walk
    cases hf : f k a s with
    | mk k' s' =>
      rw [hf] at hfirst
      cases k' with
      | none => exact ihrest hfirst
      | some k' => exact ihrest (ihbelow hfirst)

/-- At a visit that is right, `f` does what `g` does and goes on to the children where `enter` says so.  `Found s p k` says that
`k` is what was found at `p`, and `Inv s l` what is known when the visits `l` are still to come. -/
structure Steps (f : κ → α → σ → Option κ × σ) (g : σ → Option α × α → σ) (enter : Option α × α → Bool)
    (Ok : Option α × α → Prop) (Inv : σ → List (Option α × α) → Prop) (Found : σ → Option α → κ → Prop) : Prop where
  step : ∀ {s p a l k}, Inv s ((p, a) :: l) → Found s p k → Ok (p, a) →
    ∃ k', f k a s = (if enter (p, a) = true then some k' else none, g s (p, a)) ∧
      (enter (p, a) = true → Found (g s (p, a)) (some a) k')
  inv : ∀ {s v l}, Inv s (v :: l) → Ok v → Inv (g s v) l
  found : ∀ {s v l p k}, Inv s (v :: l) → Ok v → Found s p k → Found (g s v) p k

theorem Steps.foldl_found (h : Steps f g enter Ok Inv Found) {q : Option α} {m : List (Option α × α)}
    (hinv : Inv s (m ++ l)) (hok : ∀ v ∈ m, Ok v) (hfound : Found s q k) :
    Inv (m.foldl g s) l ∧ Found (m.foldl g s) q k := by
  induction m generalizing s with
  | nil => exact ⟨hinv, hfound⟩
  | cons v m ih =>
    have hv := hok v List.mem_cons_self
    exact ih (h.inv hinv hv) (fun u hu => hok u (List.mem_cons_of_mem _ hu)) (h.found hinv hv hfound)

/-- A walk over visits that are all right is a fold. -/
theorem Steps.walk_eq (h : Steps f g enter Ok Inv Found) (hinv : Inv s (t.visits enter p ++ l)) (hfound : Found s p k)
    (hok : ∀ v ∈ t.visits enter p, Ok v) : walk f t k s = (t.visits enter p).foldl g s := by
  induction t generalizing p k s l with
  | nil => rfl
  | node a below rest ihbelow ihrest =>
    by_cases henter : enter (p, a) = true
    · rw [visits_of_enter below rest henter] at hinv hok ⊢
      rw [List.cons_append, List.append_assoc] at hinv
      have hv := hok (p, a) List.mem_cons_self
      obtain ⟨k', hf, hk'⟩ := h.step hinv hfound hv
      rw [if_pos henter] at hf
      have hbelow : ∀ v ∈ below.visits enter (some a), Ok v := fun v hmem =>
        hok v (List.mem_cons_of_mem _ (List.mem_append_left _ hmem))
      have hrest : ∀ v ∈ rest.visits enter p, Ok v := fun v hmem =>
        hok v (List.mem_cons_of_mem _ (List.mem_append_right _ hmem))
      have hinv' := h.inv hinv hv
      obtain ⟨hinv'', hfound''⟩ := h.foldl_found hinv' hbelow (h.found hinv hv hfound)
      rw [walk, hf, List.foldl_cons, List.foldl_append]
      dsimp only
      rw [ihbelow hinv' (hk' henter) hbelow, ihrest hinv'' hfound'' hrest]
    · rw [visits_of_not_enter below rest henter] at hinv hok ⊢
      have hv := hok (p, a) List.mem_cons_self
      obtain ⟨k', hf, -⟩ := h.step hinv hfound hv
      rw [if_neg henter] at hf
      rw [walk, hf, List.foldl_cons]
      exact ihrest (h.inv hinv hv) (h.found hinv hv hfound) fun v hmem => hok v (List.mem_cons_of_mem _ hmem)

/-- A walk in which something goes wrong at each visit that is not right goes wrong, or has no such visit. -/
theorem Steps.ok_of_walk (h : Steps f g enter Ok Inv Found) (hbad : ∀ k a s, Bad s → Bad (f k a s).2)
    (hwrong : ∀ {s p a l k}, Inv s ((p, a) :: l) → Found s p k → ¬ Ok (p, a) → Bad (f k a s).2)
    (hinv : Inv s (t.visits enter p ++ l)) (hfound : Found s p k) (hwalk : ¬ Bad (walk f t k s)) :
    ∀ v ∈ t.visits enter p, Ok v := by
  induction t generalizing p k s l with
  | nil => exact fun v hv => absurd hv List.not_mem_nil
  | node a below rest ihbelow ihrest =>
    have hinv0 : Inv s ((p, a) :: ((if enter (p, a) = true then visits enter below (some a) else []) ++
      (visits enter rest p ++ l))) := by
      rw [visits, List.cons_append, List.append_assoc] at hinv
      exact hinv
    have hv : Ok (p, a) := by
      by_contra hv
      have hfirst := hwrong hinv0 hfound hv
      refine hwalk ?_
      unfold walk
      cases hf : f k a s with
      | mk k' s' =>
        rw [hf] at hfirst
        cases k' with
        | none => exact walk_bad hbad hfirst
        | some k' => exact walk_bad hbad (walk_bad hbad hfirst)
    obtain ⟨k', hf, hk'⟩ := h.step hinv0 hfound hv
    have hinv' := h.inv hinv0 hv
    by_cases henter : enter (p, a) = true
    · rw [if_pos henter] at hf hinv'
      rw [walk, hf] at hwalk
      dsimp only at hwalk
      rw [visits_of_enter below rest henter]
      have hbelow := ihbelow hinv' (hk' henter) fun hbelow => hwalk (walk_bad hbad hbelow)
      obtain ⟨hinv'', hfound''⟩ := h.foldl_found hinv' hbelow (h.found hinv0 hv hfound)
      rw [h.walk_eq hinv' (hk' henter) hbelow] at hwalk
      have hrest := ihrest hinv'' hfound'' hwalk
      intro v hmem
      rcases List.mem_cons.mp hmem with rfl | hmem
      · exact hv
      · exact (List.mem_append.mp hmem).elim (hbelow v) (hrest v)
    · rw [if_neg henter] at hf hinv'
      rw [walk, hf] at hwalk
      rw [visits_of_not_enter below rest henter]
      have hrest := ihrest hinv' (h.found hinv0 hv hfound) hwalk
      intro v hmem
      rcases List.mem_cons.mp hmem with rfl | hmem
      · exact hv
      · exact hrest v hmem

end

end Forest

end OpenUsb
