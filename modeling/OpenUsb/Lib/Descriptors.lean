import Mathlib.Data.Int.Notation
import Mathlib.Logic.Function.Basic

/-!
# Descriptors — who holds the files that are open

A program keeps the descriptors of its open files in slots, and `-1` where it has none.  `files` is the kernel's table.

* `Sound`: every slot that is not empty has an open file of its own.  Opening into any slot and closing keep it.
* `Held`: moreover every open file is in a slot.  Opening into a slot that has a file breaks it.
-/

namespace OpenUsb.Descriptors

section

variable {κ φ ψ : Type} {slot slot' : κ → ℤ} {files : ℤ → Option φ} {k : κ} {fd : ℤ} {f : φ}

/-- The slots that are not empty have open files, each its own; `-1` is no descriptor. -/
structure Sound (slot : κ → ℤ) (files : ℤ → Option φ) : Prop where
  file : ∀ k, slot k ≠ -1 → files (slot k) ≠ none
  one : ∀ k k', slot k ≠ -1 → slot k = slot k' → k = k'
  no_file : files (-1) = none

/-- The slots that are not empty and the open files are the same, one for one. -/
structure Held (slot : κ → ℤ) (files : ℤ → Option φ) : Prop extends Sound slot files where
  slot : ∀ fd, files fd ≠ none → ∃ k, slot k = fd

/-- A file is open that no slot has. -/
def Lost (slot : κ → ℤ) (files : ℤ → Option φ) (fd : ℤ) : Prop := files fd ≠ none ∧ ∀ k, slot k ≠ fd

theorem held_empty (h : ∀ k, slot k = -1) : Held slot (fun _ => (none : Option φ)) :=
  ⟨⟨fun k hk => absurd (h k) hk, fun k _ hk => absurd (h k) hk, rfl⟩, fun _ hfd => absurd rfl hfd⟩

theorem Lost.not_held (h : Lost slot files fd) : ¬ Held slot files := by
  intro hheld
  obtain ⟨k, hk⟩ := hheld.slot fd h.1
  exact h.2 k hk

/-- A descriptor that is not open is in no slot. -/
theorem Sound.not_in_slot (h : Sound slot files) (hfd : fd ≠ -1) (hfree : files fd = none) : ∀ k, slot k ≠ fd := by
  intro k hk
  exact h.file k (hk ▸ hfd) (hk ▸ hfree)

/-- Only which descriptors are open counts. -/
theorem Sound.congr {files' : ℤ → Option ψ} (h : Sound slot files) (hfiles : ∀ fd, files' fd = none ↔ files fd = none) :
    Sound slot files' :=
  ⟨fun k hk hnone => h.file k hk ((hfiles _).mp hnone), h.one, (hfiles _).mpr h.no_file⟩

theorem Held.congr {files' : ℤ → Option ψ} (h : Held slot files) (hfiles : ∀ fd, files' fd = none ↔ files fd = none) :
    Held slot files' :=
  ⟨h.toSound.congr hfiles, fun fd hfd => h.slot fd fun hnone => hfd ((hfiles _).mpr hnone)⟩

theorem Lost.congr {files' : ℤ → Option ψ} (h : Lost slot files fd) (hfiles : ∀ fd, files' fd = none ↔ files fd = none) :
    Lost slot files' fd :=
  ⟨fun hnone => h.1 ((hfiles _).mp hnone), h.2⟩

variable [DecidableEq κ]

/-- A file is opened into a slot. -/
theorem Sound.store (h : Sound slot files) (hfd : fd ≠ -1) (hfree : files fd = none) :
    Sound (Function.update slot k fd) (Function.update files fd (some f)) := by
  have hnew := h.not_in_slot hfd hfree
  refine ⟨fun j hj => ?_, fun j j' hj heq => ?_, ?_⟩
  · by_cases hjk : j = k
    · rw [hjk, Function.update_self, Function.update_self]
      exact Option.some_ne_none f
    · rw [Function.update_of_ne hjk] at hj ⊢
      rw [Function.update_of_ne (hnew j)]
      exact h.file j hj
  · by_cases hjk : j = k <;> by_cases hjk' : j' = k
    · exact hjk.trans hjk'.symm
    · rw [hjk, Function.update_self, Function.update_of_ne hjk'] at heq
      exact absurd heq.symm (hnew j')
    · rw [hjk', Function.update_self, Function.update_of_ne hjk] at heq
      exact absurd heq (hnew j)
    · rw [Function.update_of_ne hjk] at hj heq
      rw [Function.update_of_ne hjk'] at heq
      exact h.one j j' hj heq
  · rw [Function.update_of_ne hfd.symm]
    exact h.no_file

/-- A file is opened into an empty slot. -/
theorem Held.store (h : Held slot files) (hk : slot k = -1) (hfd : fd ≠ -1) (hfree : files fd = none) :
    Held (Function.update slot k fd) (Function.update files fd (some f)) := by
  refine ⟨h.toSound.store hfd hfree, fun gd hgd => ?_⟩
  by_cases hgf : gd = fd
  · exact ⟨k, by rw [Function.update_self, hgf]⟩
  · rw [Function.update_of_ne hgf] at hgd
    obtain ⟨j, hj⟩ := h.slot gd hgd
    have hjk : j ≠ k := by
      rintro rfl
      rw [← hj, hk] at hgd
      exact hgd h.no_file
    exact ⟨j, by rw [Function.update_of_ne hjk, hj]⟩

/-- A file is opened into a slot that has one: this one is lost. -/
theorem Sound.store_lost (h : Sound slot files) (hk : slot k ≠ -1) (hfree : files fd = none) :
    Lost (Function.update slot k fd) (Function.update files fd (some f)) (slot k) := by
  have hopen := h.file k hk
  have hne : slot k ≠ fd := fun heq => hopen (heq ▸ hfree)
  refine ⟨by rwa [Function.update_of_ne hne], fun j hj => ?_⟩
  by_cases hjk : j = k
  · rw [hjk, Function.update_self] at hj
    exact hne hj.symm
  · rw [Function.update_of_ne hjk] at hj
    exact hjk (h.one k j hk hj.symm).symm

/-- Another file is opened: the lost one stays lost. -/
theorem Lost.store {gd : ℤ} (h : Lost slot files gd) (hfree : files fd = none) :
    Lost (Function.update slot k fd) (Function.update files fd (some f)) gd := by
  have hne : gd ≠ fd := fun heq => h.1 (heq ▸ hfree)
  refine ⟨by rw [Function.update_of_ne hne]; exact h.1, fun j hj => ?_⟩
  by_cases hjk : j = k
  · rw [hjk, Function.update_self] at hj
    exact hne hj.symm
  · rw [Function.update_of_ne hjk] at hj
    exact h.2 j hj

/-- The file of a slot is closed; nothing happens to an empty slot. -/
theorem Sound.clear (h : Sound slot files) :
    Sound (Function.update slot k (-1)) (Function.update files (slot k) none) := by
  refine ⟨fun j hj => ?_, fun j j' hj heq => ?_, ?_⟩
  · have hjk : j ≠ k := fun hjk => hj (by rw [hjk, Function.update_self])
    rw [Function.update_of_ne hjk] at hj ⊢
    rw [Function.update_of_ne fun heq => hjk (h.one j k hj heq)]
    exact h.file j hj
  · have hjk : j ≠ k := fun hjk => hj (by rw [hjk, Function.update_self])
    rw [Function.update_of_ne hjk] at hj heq
    by_cases hjk' : j' = k
    · rw [hjk', Function.update_self] at heq
      exact absurd heq hj
    · rw [Function.update_of_ne hjk'] at heq
      exact h.one j j' hj heq
  · by_cases hk : -1 = slot k
    · rw [hk, Function.update_self]
    · rw [Function.update_of_ne hk]
      exact h.no_file

theorem Held.clear (h : Held slot files) :
    Held (Function.update slot k (-1)) (Function.update files (slot k) none) := by
  refine ⟨h.toSound.clear, fun gd hgd => ?_⟩
  by_cases hgk : gd = slot k
  · rw [hgk, Function.update_self] at hgd
    exact absurd rfl hgd
  · rw [Function.update_of_ne hgk] at hgd
    obtain ⟨j, hj⟩ := h.slot gd hgd
    have hjk : j ≠ k := fun hjk => hgk (by rw [← hj, hjk])
    exact ⟨j, by rw [Function.update_of_ne hjk, hj]⟩

/-- The close of a slot does not find a lost file. -/
theorem Lost.clear (h : Lost slot files fd) (hfd : fd ≠ -1) :
    Lost (Function.update slot k (-1)) (Function.update files (slot k) none) fd := by
  refine ⟨by rw [Function.update_of_ne (h.2 k).symm]; exact h.1, fun j hj => ?_⟩
  by_cases hjk : j = k
  · rw [hjk, Function.update_self] at hj
    exact hfd hj.symm
  · rw [Function.update_of_ne hjk] at hj
    exact h.2 j hj

end

end OpenUsb.Descriptors
