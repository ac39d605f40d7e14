import Mathlib.Data.List.Basic

/-!
# Runs — runs of a labelled transition system under a condition

`Run Step G s ls t`: the labels `ls` lead from `s` to `t` by steps of `Step` that all meet the condition `G`.  With
`G` true everywhere these are the runs of the system.

* `Run.inv`: what every step that meets `G` preserves holds at the end.
* `run_append`: runs are cut and glued at any label.
* `run_iff`: two conditions that agree wherever an invariant holds allow the same runs, if their steps keep it.
-/

namespace OpenUsb

section

variable {σ ι : Type} {Step : σ → ι → σ → Prop} {G H : σ → ι → Prop} {s t u : σ} {l : ι} {ls ms : List ι}

/-- The labels lead from one state to another, by steps that all meet `G`. -/
inductive Run (Step : σ → ι → σ → Prop) (G : σ → ι → Prop) : σ → List ι → σ → Prop where
  | nil (s : σ) : Run Step G s [] s
  | cons {s t u : σ} {l : ι} {ls : List ι} (hG : G s l) (hstep : Step s l t) (h : Run Step G t ls u) :
      Run Step G s (l :: ls) u

theorem run_nil : Run Step G s [] t ↔ s = t := by
  constructor
  · intro h
    cases h
    rfl
  · rintro rfl
    exact .nil s

theorem run_cons : Run Step G s (l :: ls) u ↔ G s l ∧ ∃ t, Step s l t ∧ Run Step G t ls u := by
  constructor
  · intro h
    cases h with
    | cons hG hstep h => exact ⟨hG, _, hstep, h⟩
  · rintro ⟨hG, t, hstep, h⟩
    exact .cons hG hstep h

theorem run_append : Run Step G s (ls ++ ms) u ↔ ∃ t, Run Step G s ls t ∧ Run Step G t ms u := by
  induction ls generalizing s with
  | nil => simp [run_nil]
  | cons l ls ih =>
    rw [List.cons_append, run_cons]
    constructor
    · rintro ⟨hG, t, hstep, h⟩
      obtain ⟨v, h1, h2⟩ := ih.mp h
      exact ⟨v, .cons hG hstep h1, h2⟩
    · rintro ⟨v, h1, h2⟩
      obtain ⟨hG, t, hstep, h⟩ := run_cons.mp h1
      exact ⟨hG, t, hstep, ih.mpr ⟨v, h, h2⟩⟩

/-- What the steps preserve holds at the end of a run. -/
theorem Run.inv {I : σ → Prop} (hkeep : ∀ s l t, I s → G s l → Step s l t → I t) (h : Run Step G s ls t) (hs : I s) :
    I t := by
  induction h with
  | nil s => exact hs
  | cons hG hstep _ ih => exact ih (hkeep _ _ _ hs hG hstep)

/-- A weaker condition allows more runs. -/
theorem Run.mono (hGH : ∀ s l, G s l → H s l) (h : Run Step G s ls t) : Run Step H s ls t := by
  induction h with
  | nil s => exact .nil s
  | cons hG hstep _ ih => exact .cons (hGH _ _ hG) hstep ih

/-- Two conditions that agree where `I` holds, and whose steps preserve `I`, allow the same runs. -/
theorem run_iff {I : σ → Prop} (hiff : ∀ s l t, I s → Step s l t → (G s l ↔ H s l))
    (hkeep : ∀ s l t, I s → H s l → Step s l t → I t) (hs : I s) : Run Step G s ls t ↔ Run Step H s ls t := by
  induction ls generalizing s with
  | nil => rw [run_nil, run_nil]
  | cons l ls ih =>
    rw [run_cons, run_cons]
    constructor
    · rintro ⟨hG, u, hstep, h⟩
      have hH := (hiff s l u hs hstep).mp hG
      exact ⟨hH, u, hstep, (ih (hkeep s l u hs hH hstep)).mp h⟩
    · rintro ⟨hH, u, hstep, h⟩
      have hG := (hiff s l u hs hstep).mpr hH
      exact ⟨hG, u, hstep, (ih (hkeep s l u hs hH hstep)).mpr h⟩

/-- What holds of every label of a run can be part of its condition. -/
theorem Run.and_labels {P : ι → Prop} (h : Run Step G s ls t) (hP : ∀ l ∈ ls, P l) :
    Run Step (fun s l => G s l ∧ P l) s ls t := by
  induction h with
  | nil s => exact .nil s
  | cons hG hstep _ ih =>
    exact .cons ⟨hG, hP _ List.mem_cons_self⟩ hstep (ih fun l hl => hP l (List.mem_cons_of_mem _ hl))

end

end OpenUsb
