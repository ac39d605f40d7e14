import Mathlib.Data.Set.Insert
import Mathlib.Tactic.Common

/-!
# ChangeFeed — a set that is watched through a queue of changes

The changes of a set are queued in the order in which they are made.  A watcher takes them off the queue one by one, and in
between it can also look at the set itself.  What it holds differs from the set only by changes that are still on the queue.

* `Tracks.plug`, `Tracks.unplug`, `Tracks.added`, `Tracks.removed`, `Tracks.look`: each step keeps this.
-/

namespace OpenUsb

namespace ChangeFeed

/-- An element comes into the set, or leaves it. -/
inductive Change (κ : Type) where
  | added (k : κ)
  | removed (k : κ)
  deriving DecidableEq, Repr

/-- The set after a change. -/
def Change.apply {κ : Type} (s : Set κ) : Change κ → Set κ
  | .added k => insert k s
  | .removed k => s \ {k}

/-- The set after the changes of a queue. -/
def replay {κ : Type} (s : Set κ) (queue : List (Change κ)) : Set κ := queue.foldl Change.apply s

/-- The view of a watcher and the set differ by changes on the queue. -/
structure Tracks {κ : Type} (view now : Set κ) (queue : List (Change κ)) : Prop where
  sound : ∀ k ∈ view, k ∈ now ∨ .removed k ∈ queue
  complete : ∀ k ∈ now, k ∈ view ∨ .added k ∈ queue

/-- Every arrival of the first element on the queue has one of the second behind it. -/
def Before {κ : Type} (k x : κ) (queue : List (Change κ)) : Prop :=
  ∀ before after, queue = before ++ .added k :: after → .added x ∈ after

section

variable {κ : Type} {s view view' now : Set κ} {queue : List (Change κ)} {k x : κ}

/-- An element that is gone after the changes was removed by one of them. -/
theorem mem_replay (h : x ∈ s) : x ∈ replay s queue ∨ .removed x ∈ queue := by
  induction queue generalizing s with
  | nil => exact .inl h
  | cons c queue ih =>
    by_cases hkept : x ∈ c.apply s
    · exact (ih hkept).imp_right (List.mem_cons_of_mem _)
    · cases c with
      | added k => exact absurd (Set.mem_insert_of_mem k h) hkept
      | removed k =>
        obtain rfl : x = k := by
          by_contra hne
          exact hkept ⟨h, hne⟩
        exact .inr List.mem_cons_self

/-- An element that is there after the changes was added by one of them. -/
theorem not_mem_replay (h : x ∉ s) : x ∉ replay s queue ∨ .added x ∈ queue := by
  induction queue generalizing s with
  | nil => exact .inl h
  | cons c queue ih =>
    by_cases hout : x ∈ c.apply s
    · cases c with
      | added k =>
        obtain rfl : x = k := (Set.mem_insert_iff.mp hout).resolve_right h
        exact .inr List.mem_cons_self
      | removed k => exact absurd hout.1 h
    · exact (ih hout).imp_right (List.mem_cons_of_mem _)

theorem replay_append (c : Change κ) : replay s (queue ++ [c]) = c.apply (replay s queue) :=
  List.foldl_append

/-! ## The order of arrivals -/

theorem Before.head (h : Before k x (.added k :: queue)) : .added x ∈ queue := h [] queue rfl

theorem Before.tail {c : Change κ} (h : Before k x (c :: queue)) : Before k x queue := by
  rintro before after rfl
  exact h (c :: before) after rfl

theorem Before.mem (h : Before k x queue) (hmem : .added k ∈ queue) : .added x ∈ queue := by
  obtain ⟨before, after, rfl⟩ := List.append_of_mem hmem
  exact List.mem_append_right _ (List.mem_cons_of_mem _ (h before after rfl))

/-- A change behind the queue is no arrival of the first element, or one of the second. -/
theorem Before.concat {c : Change κ} (h : c = .added x ∨ Before k x queue) (hc : c ≠ .added k) : Before k x (queue ++ [c]) := by
  intro before after heq
  rcases List.eq_nil_or_concat after with rfl | ⟨after, last, rfl⟩
  · exact absurd (List.append_inj_right' heq rfl) (by simpa using hc)
  · rw [List.concat_eq_append, ← List.cons_append, ← List.append_assoc] at heq
    obtain ⟨rfl, hlast⟩ := List.append_inj' heq rfl
    obtain rfl : c = last := by simpa using hlast
    rw [List.concat_eq_append]
    rcases h with rfl | h
    · exact List.mem_append_right _ List.mem_cons_self
    · exact List.mem_append_left _ (h before after rfl)

/-! ## The set changes -/

theorem Tracks.plug (h : Tracks view now queue) : Tracks view (insert k now) (queue ++ [.added k]) where
  sound := fun x hx => (h.sound x hx).imp (Set.mem_insert_of_mem k) (List.mem_append_left _)
  complete := by
    rintro x (rfl | hx)
    · exact .inr (List.mem_append_right _ List.mem_cons_self)
    · exact (h.complete x hx).imp_right (List.mem_append_left _)

theorem Tracks.unplug (h : Tracks view now queue) : Tracks view (now \ {k}) (queue ++ [.removed k]) where
  sound := by
    intro x hx
    by_cases hk : x = k
    · subst hk
      exact .inr (List.mem_append_right _ List.mem_cons_self)
    · exact (h.sound x hx).imp (fun h => ⟨h, hk⟩) (List.mem_append_left _)
  complete := fun x hx => (h.complete x hx.1).imp_right (List.mem_append_left _)

/-! ## The watcher goes on -/

/-- The watcher takes an arrival off the queue. -/
theorem Tracks.added (h : Tracks view now (.added k :: queue)) (hnow : replay s (.added k :: queue) = now) :
    Tracks (insert k view) now queue where
  sound := by
    rintro x (rfl | hx)
    · rw [← hnow]
      exact mem_replay (Set.mem_insert _ s)
    · refine (h.sound x hx).imp_right fun hmem => ?_
      exact (List.mem_cons.mp hmem).resolve_left nofun
  complete := by
    intro x hx
    rcases h.complete x hx with hview | hmem
    · exact .inl (Set.mem_insert_of_mem k hview)
    · rcases List.mem_cons.mp hmem with heq | hmem
      · cases heq
        exact .inl (Set.mem_insert _ _)
      · exact .inr hmem

/-- The watcher takes a departure off the queue. -/
theorem Tracks.removed (h : Tracks view now (.removed k :: queue)) (hnow : replay s (.removed k :: queue) = now) :
    Tracks (view \ {k}) now queue where
  sound := by
    rintro x ⟨hx, hne⟩
    refine (h.sound x hx).imp_right fun hmem => ?_
    exact (List.mem_cons.mp hmem).resolve_left fun heq => hne (Change.removed.inj heq)
  complete := by
    intro x hx
    by_cases hk : x = k
    · subst hk
      rw [← hnow] at hx
      exact .inr ((not_mem_replay (fun h => h.2 rfl)).resolve_left (not_not_intro hx))
    · refine (h.complete x hx).imp (fun hview => ⟨hview, hk⟩) fun hmem => ?_
      exact (List.mem_cons.mp hmem).resolve_left nofun

/-- The watcher takes a change off the queue by a look at the set: it forgets nothing that is there, holds nothing new that is
not, and comes to hold what the change is about, unless that is announced again. -/
theorem Tracks.look (h : Tracks view now (.added k :: queue)) (hsound : ∀ x ∈ view', x ∈ view ∨ x ∈ now)
    (hkept : ∀ x ∈ view, x ∈ now → x ∈ view') (hself : k ∈ now → k ∈ view' ∨ .added k ∈ queue) :
    Tracks view' now queue where
  sound := by
    intro x hx
    rcases hsound x hx with hview | hnow
    · refine (h.sound x hview).imp_right fun hmem => ?_
      exact (List.mem_cons.mp hmem).resolve_left nofun
    · exact .inl hnow
  complete := by
    intro x hx
    rcases h.complete x hx with hview | hmem
    · exact .inl (hkept x hview hx)
    · rcases List.mem_cons.mp hmem with heq | hmem
      · cases heq
        exact hself hx
      · exact .inr hmem

end

end ChangeFeed

end OpenUsb
