import Mathlib.Data.Fintype.Basic
import Mathlib.Data.Fintype.Sets
import OpenUsb.Lib.LinkedList
import OpenUsb.Lib.Runs

/-!
# ListSequences — the lists behave as sequences

All lists of the library at once: heads that are initialised, entries that move between the lists, and deletions that name
no list.  Beside the links runs the machine that says what the lists are for, one sequence of entries for each head.

* `listSequences_of_run`: after every run the links of each head hold its sequence.
-/

namespace OpenUsb

/-- What a link points to: a head, an entry, or nothing. -/
inductive ListNode (H E : Type) where
  | null
  | head (h : H)
  | entry (e : E)
  deriving DecidableEq

inductive ListOp (H E : Type) where
  | init (h : H)
  | add (e : E) (h : H)
  | del (e : E)

/-- The links, and what they stand for: the sequence of every head that has been initialised, the entries that were ever
added, and the entries whose last list they left by `list_del`. -/
structure ListState (H E : Type) where
  links : Links (ListNode H E)
  seq : H → Option (List E)
  added : E → Bool
  deleted : E → Bool

section

variable {H E : Type} [DecidableEq H] [DecidableEq E]

/-- No head is initialised; the memory holds anything. -/
def ListState.start (links : Links (ListNode H E)) : ListState H E :=
  { links := links, seq := fun _ => none, added := fun _ => false, deleted := fun _ => false }

def Links.exec (m : Links (ListNode H E)) : ListOp H E → Links (ListNode H E)
  | .init h => m.listInit (.head h)
  | .add e h => m.listAdd (.entry e) (.head h)
  | .del e => m.listDel .null (.entry e)

def ListState.exec (s : ListState H E) : ListOp H E → ListState H E
  | .init h => { s with
      links := s.links.exec (.init h)
      seq := Function.update s.seq h (some []) }
  | .add e h => { s with
      links := s.links.exec (.add e h)
      seq := Function.update s.seq h ((s.seq h).map (· ++ [e]))
      added := Function.update s.added e true
      deleted := Function.update s.deleted e false }
  | .del e => { s with
      links := s.links.exec (.del e)
      seq := fun h => (s.seq h).map (·.erase e)
      deleted := Function.update s.deleted e true }

def ListStep (s : ListState H E) (op : ListOp H E) (t : ListState H E) : Prop := t = s.exec op

omit [DecidableEq H] [DecidableEq E] in
def ListState.On (s : ListState H E) (e : E) (h : H) : Prop := ∃ l, s.seq h = some l ∧ e ∈ l

omit [DecidableEq H] [DecidableEq E] in
theorem on_iff_mem {s : ListState H E} {e : E} {h : H} {l : List E} (hl : s.seq h = some l) : s.On e h ↔ e ∈ l := by
  constructor
  · rintro ⟨l', hl', he⟩
    exact Option.some.inj (hl'.symm.trans hl) ▸ he
  · exact fun he => ⟨l, hl, he⟩

instance (s : ListState H E) (e : E) (h : H) : Decidable (s.On e h) :=
  match hl : s.seq h with
  | none => isFalse fun ⟨_, hl', _⟩ => nomatch hl.symm.trans hl'
  | some l => decidable_of_iff (e ∈ l) (on_iff_mem hl).symm

omit [DecidableEq H] [DecidableEq E] in
/-- A list is initialised before entries are added to it, entries are added when they are on no list, and what is deleted
has been on a list. -/
def ListState.Used (s : ListState H E) : ListOp H E → Prop
  | .init _ => True
  | .add e h => (s.seq h).isSome ∧ ∀ h', ¬ s.On e h'
  | .del e => s.added e

omit [DecidableEq H] [DecidableEq E] in
/-- And what is deleted is still on its list, or was deleted from its last one. -/
def ListState.UsedWell (s : ListState H E) : ListOp H E → Prop
  | .init _ => True
  | .add e h => (s.seq h).isSome ∧ ∀ h', ¬ s.On e h'
  | .del e => (∃ h, s.On e h) ∨ s.deleted e

instance [Fintype H] (s : ListState H E) (op : ListOp H E) : Decidable (s.Used op) :=
  match op with
  | .init _ => isTrue trivial
  | .add _ _ => instDecidableAnd
  | .del e => inferInstanceAs (Decidable (s.added e))

instance [Fintype H] (s : ListState H E) (op : ListOp H E) : Decidable (s.UsedWell op) :=
  match op with
  | .init _ => isTrue trivial
  | .add _ _ => instDecidableAnd
  | .del _ => instDecidableOr

omit [DecidableEq H] [DecidableEq E] in
/-- The list that an operation is about. -/
def ListState.Touches (s : ListState H E) (h : H) : ListOp H E → Prop
  | .init h' => h = h'
  | .add _ h' => h = h'
  | .del e => s.On e h

omit [DecidableEq H] [DecidableEq E] in
structure ListState.Inv (s : ListState H E) : Prop where
  linked : ∀ h l, s.seq h = some l → Linked s.links (.head h) (l.map .entry)
  apart : ∀ e h h', s.On e h → s.On e h' → h = h'
  loose : ∀ e, s.deleted e → ∀ h, ¬ s.On e h
  cleared : ∀ e, s.deleted e → s.links.next (.entry e) = .null ∧ s.links.prev (.entry e) = .null

/-- The list of a head goes round through these entries and no others, in this order, and its links agree in both
directions. -/
structure Links.Holds (m : Links (ListNode H E)) (h : H) (l : List E) : Prop where
  consistent : ∀ x ∈ ListNode.head h :: l.map .entry, m.prev (m.next x) = x ∧ m.next (m.prev x) = x
  forward : ∀ fuel, l.length < fuel →
    m.listForEachEntry (.head h) fuel (m.next (.head h)) = some (l.map .entry)
  empty : m.listEmpty (.head h) = l.isEmpty

variable {s : ListState H E} {m : Links (ListNode H E)} {e e' : E} {h h' : H} {l l' : List E} {op : ListOp H E}

theorem Linked.holds (hl : Linked m (.head h) (l.map .entry)) : m.Holds h l where
  consistent := fun _ hx => hl.consistent hx
  forward := by
    intro fuel hfuel
    apply hl.listForEachEntry
    rwa [List.length_map]
  empty := by
    rw [hl.listEmpty]
    cases l with
    | nil => rfl
    | cons e l => rfl

/-! ## One operation -/

omit [DecidableEq H] [DecidableEq E] in
theorem entry_mem_iff : ListNode.entry e ∈ ListNode.head h :: l.map .entry ↔ e ∈ l := by
  simp

omit [DecidableEq H] [DecidableEq E] in
theorem null_not_mem : ListNode.null ∉ ListNode.head h :: l.map .entry := by
  simp

omit [DecidableEq H] [DecidableEq E] in
theorem ListState.Inv.nodup (hs : s.Inv) (hl : s.seq h = some l) : l.Nodup :=
  List.Nodup.of_map _ (List.nodup_cons.mp (hs.linked h l hl).nodup).2

omit [DecidableEq H] [DecidableEq E] in
/-- Two lists share no node. -/
theorem ListState.Inv.disjoint (hs : s.Inv) (hh : h ≠ h') (hl : s.seq h = some l) (hl' : s.seq h' = some l') :
    (ListNode.head h :: l.map .entry).Disjoint (ListNode.head h' :: l'.map .entry) := by
  intro x hx hx'
  rcases List.mem_cons.mp hx with rfl | hx
  · simp [hh] at hx'
  · obtain ⟨e, he, rfl⟩ := List.mem_map.mp hx
    exact hh (hs.apart e h h' ⟨l, hl, he⟩ ⟨l', hl', entry_mem_iff.mp hx'⟩)

theorem on_init (hon : (s.exec (.init h)).On e h') : s.On e h' := by
  obtain ⟨l, hl, he⟩ := hon
  change Function.update s.seq h (some []) h' = some l at hl
  by_cases hh : h' = h
  · subst hh
    rw [Function.update_self, Option.some.injEq] at hl
    subst hl
    exact absurd he List.not_mem_nil
  · rw [Function.update_of_ne hh] at hl
    exact ⟨l, hl, he⟩

theorem on_add (hl : s.seq h = some l) (hon : (s.exec (.add e h)).On e' h') : s.On e' h' ∨ e' = e ∧ h' = h := by
  obtain ⟨l', hl', he⟩ := hon
  change Function.update s.seq h ((s.seq h).map (· ++ [e])) h' = some l' at hl'
  by_cases hh : h' = h
  · subst hh
    rw [Function.update_self, hl, Option.map_some, Option.some.injEq] at hl'
    subst hl'
    rcases List.mem_append.mp he with he | he
    · exact .inl ⟨l, hl, he⟩
    · exact .inr ⟨List.mem_singleton.mp he, rfl⟩
  · rw [Function.update_of_ne hh] at hl'
    exact .inl ⟨l', hl', he⟩

theorem ListState.Inv.on_del (hs : s.Inv) (hon : (s.exec (.del e)).On e' h') : s.On e' h' ∧ e' ≠ e := by
  obtain ⟨l', hl', he⟩ := hon
  obtain ⟨l, hl, rfl⟩ := Option.map_eq_some_iff.mp hl'
  obtain ⟨hne, hmem⟩ := (hs.nodup hl).mem_erase_iff.mp he
  exact ⟨⟨l, hl, hmem⟩, hne⟩

/-- Initialising a list. -/
theorem ListState.Inv.init (hs : s.Inv) (h : H) : (s.exec (.init h)).Inv where
  linked := by
    intro h' l hl
    change Function.update s.seq h (some []) h' = some l at hl
    by_cases hh : h' = h
    · subst hh
      rw [Function.update_self, Option.some.injEq] at hl
      subst hl
      exact linked_init
    · rw [Function.update_of_ne hh] at hl
      apply (hs.linked h' l hl).init_other
      simpa using Ne.symm hh
  apart := fun e h₁ h₂ h1 h2 => hs.apart e h₁ h₂ (on_init h1) (on_init h2)
  loose := fun e he h' hon => hs.loose e he h' (on_init hon)
  cleared := by
    intro e he
    obtain ⟨hnext, hprev⟩ := s.links.listInit_untouched (nofun : ListNode.entry e ≠ .head h)
    obtain ⟨hnext', hprev'⟩ := hs.cleared e he
    exact ⟨hnext.trans hnext', hprev.trans hprev'⟩

/-- Adding an entry that is on no list. -/
theorem ListState.Inv.add (hs : s.Inv) (hl : s.seq h = some l) (he : ∀ h', ¬ s.On e h') : (s.exec (.add e h)).Inv where
  linked := by
    intro h' l' hl'
    change Function.update s.seq h ((s.seq h).map (· ++ [e])) h' = some l' at hl'
    by_cases hh : h' = h
    · subst hh
      rw [Function.update_self, hl, Option.map_some, Option.some.injEq] at hl'
      subst hl'
      rw [List.map_append]
      apply (hs.linked h' l hl).add
      exact fun hmem => he h' ⟨l, hl, entry_mem_iff.mp hmem⟩
    · rw [Function.update_of_ne hh] at hl'
      apply (hs.linked h' l' hl').add_other (hs.linked h l hl) (hs.disjoint hh hl' hl)
      exact fun hmem => he h' ⟨l', hl', entry_mem_iff.mp hmem⟩
  apart := by
    intro e' h₁ h₂ h1 h2
    rcases on_add hl h1 with h1' | ⟨rfl, rfl⟩
    · rcases on_add hl h2 with h2 | ⟨rfl, -⟩
      · exact hs.apart e' h₁ h₂ h1' h2
      · exact absurd h1' (he h₁)
    · rcases on_add hl h2 with h2 | ⟨-, hh⟩
      · exact absurd h2 (he h₂)
      · exact hh.symm
  loose := by
    intro e' he' h' hon
    change Function.update s.deleted e false e' = true at he'
    have hne : e' ≠ e := by
      rintro rfl
      simp at he'
    rw [Function.update_of_ne hne] at he'
    rcases on_add hl hon with hon | ⟨heq, -⟩
    · exact hs.loose e' he' h' hon
    · exact hne heq
  cleared := by
    intro e' he'
    change Function.update s.deleted e false e' = true at he'
    have hne : e' ≠ e := by
      rintro rfl
      simp at he'
    rw [Function.update_of_ne hne] at he'
    have hout : ListNode.entry e' ∉ ListNode.head h :: l.map .entry := fun hmem =>
      hs.loose e' he' h ⟨l, hl, entry_mem_iff.mp hmem⟩
    have hne' : (ListNode.entry e' : ListNode H E) ≠ .entry e := fun heq => hne (ListNode.entry.inj heq)
    obtain ⟨hnext, hprev⟩ := (hs.linked h l hl).listAdd_untouched hout hne'
    obtain ⟨hnext', hprev'⟩ := hs.cleared e' he'
    exact ⟨hnext.trans hnext', hprev.trans hprev'⟩

/-- Deleting an entry from the list that it is on. -/
theorem ListState.Inv.del (hs : s.Inv) (hl : s.seq h = some l) (he : e ∈ l) : (s.exec (.del e)).Inv where
  linked := by
    intro h' l' hl'
    obtain ⟨k, hk, rfl⟩ := Option.map_eq_some_iff.mp hl'
    by_cases hh : h' = h
    · subst hh
      obtain rfl := Option.some.inj (hk.symm.trans hl)
      obtain ⟨xs, ys, hnot, rfl, herase⟩ := List.exists_erase_eq he
      have hring := hs.linked h' _ hk
      rw [List.map_append, List.map_cons] at hring
      rw [herase, List.map_append]
      apply hring.del
      rw [← List.map_cons, ← List.map_append]
      exact null_not_mem
    · have hnot : e ∉ k := fun hmem => hh (hs.apart e h' h ⟨k, hk, hmem⟩ ⟨l, hl, he⟩)
      rw [List.erase_of_not_mem hnot]
      exact (hs.linked h' k hk).del_other (hs.linked h l hl) (hs.disjoint hh hk hl) (List.mem_map_of_mem he)
  apart := fun e' h₁ h₂ h1 h2 => hs.apart e' h₁ h₂ (hs.on_del h1).1 (hs.on_del h2).1
  loose := by
    intro e' he' h' hon
    obtain ⟨hold, hne⟩ := hs.on_del hon
    change Function.update s.deleted e true e' = true at he'
    rw [Function.update_of_ne hne] at he'
    exact hs.loose e' he' h' hold
  cleared := by
    intro e' he'
    by_cases hne : e' = e
    · subst hne
      exact (hs.linked h l hl).listDel_null (List.mem_map_of_mem he) null_not_mem
    · change Function.update s.deleted e true e' = true at he'
      rw [Function.update_of_ne hne] at he'
      have hout : ListNode.entry e' ∉ ListNode.head h :: l.map .entry := fun hmem =>
        hs.loose e' he' h ⟨l, hl, entry_mem_iff.mp hmem⟩
      obtain ⟨hnext, hprev⟩ := (hs.linked h l hl).listDel_untouched (List.mem_map_of_mem he) hout
      obtain ⟨hnext', hprev'⟩ := hs.cleared e' he'
      exact ⟨hnext.trans hnext', hprev.trans hprev'⟩

/-- Deleting an entry once more changes nothing. -/
theorem ListState.Inv.del_again (hs : s.Inv) (he : s.deleted e) : s.links.exec (.del e) = s.links :=
  Links.listDel_of_null (hs.cleared e he).2

theorem ListState.Inv.exec_del_again (hs : s.Inv) (he : s.deleted e) : s.exec (.del e) = s := by
  have hseq : (fun h => (s.seq h).map (·.erase e)) = s.seq := by
    funext h
    cases hl : s.seq h with
    | none => rfl
    | some l => rw [Option.map_some, List.erase_of_not_mem fun hmem => hs.loose e he h ⟨l, hl, hmem⟩]
  have hdeleted : Function.update s.deleted e true = s.deleted := by
    rw [← he, Function.update_eq_self]
  rw [ListState.exec, hs.del_again he, hseq, hdeleted]

/-! ## Whole runs -/

omit [DecidableEq H] [DecidableEq E] in
theorem ListState.Inv.start (m : Links (ListNode H E)) : (ListState.start m).Inv where
  linked := nofun
  apart := by
    rintro e h h' ⟨l, hl, -⟩ -
    exact nomatch hl
  loose := nofun
  cleared := nofun

theorem ListState.Inv.exec (hs : s.Inv) (hop : s.UsedWell op) : (s.exec op).Inv := by
  cases op with
  | init h => exact hs.init h
  | add e h =>
    obtain ⟨hh, he⟩ := hop
    obtain ⟨l, hl⟩ := Option.isSome_iff_exists.mp hh
    exact hs.add hl he
  | del e =>
    rcases hop with ⟨h, l, hl, he⟩ | he
    · exact hs.del hl he
    · rw [hs.exec_del_again he]
      exact hs

/-- An operation on one list leaves the sequences of the others. -/
theorem exec_seq_of_untouched (hh : ¬ s.Touches h op) : (s.exec op).seq h = s.seq h := by
  cases op with
  | init h' => exact Function.update_of_ne hh ..
  | add e h' => exact Function.update_of_ne hh ..
  | del e =>
    show (s.seq h).map (·.erase e) = s.seq h
    cases hl : s.seq h with
    | none => rfl
    | some l => rw [Option.map_some, List.erase_of_not_mem fun hmem => hh ⟨l, hl, hmem⟩]

theorem inv_of_run {ops : List (ListOp H E)} (hrun : Run ListStep ListState.UsedWell (.start m) ops s) : s.Inv := by
  apply hrun.inv _ (ListState.Inv.start m)
  rintro s op t hs hop rfl
  exact hs.exec hop

/-- After every run each list that was initialised holds its sequence, deleting an entry again changes nothing, and the
next operation leaves the lists that it is not about as they are. -/
theorem listSequences_of_run {ops : List (ListOp H E)} (hrun : Run ListStep ListState.UsedWell (.start m) ops s) :
    (∀ h l, s.seq h = some l → s.links.Holds h l) ∧
    (∀ e, s.deleted e → s.links.exec (.del e) = s.links) ∧
    ∀ op h l, s.UsedWell op → ¬ s.Touches h op → s.seq h = some l → (s.links.exec op).Holds h l := by
  have hs := inv_of_run hrun
  refine ⟨?_, ?_, ?_⟩
  · intro h l hl
    exact (hs.linked h l hl).holds
  · intro e he
    exact hs.del_again he
  · intro op h l hop hh hl
    have hlinks : (s.exec op).links = s.links.exec op := by
      cases op with
      | init h => rfl
      | add e h => rfl
      | del e => rfl
    rw [← hlinks]
    apply Linked.holds
    apply (hs.exec hop).linked
    rw [exec_seq_of_untouched hh, hl]

/-! ## Deleting during a traversal -/

/-- What may be deleted may still be deleted after another deletion. -/
theorem del_usedWell_of_del (he : s.UsedWell (.del e')) : (s.exec (.del e)).UsedWell (.del e') := by
  by_cases hne : e' = e
  · exact .inr (hne ▸ Function.update_self ..)
  · rcases he with ⟨h, l, hl, he⟩ | he
    · refine .inl ⟨h, l.erase e, ?_, (List.mem_erase_of_ne hne).mpr he⟩
      show (s.seq h).map (·.erase e) = some (l.erase e)
      rw [hl, Option.map_some]
    · exact .inr ((Function.update_of_ne hne ..).trans he)

def ListNode.dropped (drop : E → Bool) : ListNode H E → Bool
  | .entry e => drop e
  | _ => false

/-- The deletions of some of the entries of a list, one after another. -/
theorem ListState.Inv.dels (hs : s.Inv) (es : List E) (hes : ∀ e ∈ es, s.UsedWell (.del e)) :
    ((es.map .del).foldl ListState.exec s).Inv := by
  induction es generalizing s with
  | nil => exact hs
  | cons e es ih =>
    have he : s.UsedWell (.del e) := hes e List.mem_cons_self
    apply ih (hs.exec he)
    intro e' he'
    exact del_usedWell_of_del (hes e' (List.mem_cons_of_mem e he'))

theorem dels_seq (es : List E) : ((es.map .del).foldl ListState.exec s).seq h = (s.seq h).map (·.diff es) := by
  induction es generalizing s with
  | nil => simp
  | cons e es ih =>
    rw [List.map_cons, List.foldl_cons, ih]
    show ((s.seq h).map (·.erase e)).map (·.diff es) = (s.seq h).map (·.diff (e :: es))
    cases s.seq h with
    | none => rfl
    | some l => rw [Option.map_some, Option.map_some, Option.map_some, List.diff_cons]

theorem dels_links (es : List E) :
    ((es.map .del).foldl ListState.exec s).links = (es.map .entry).foldl (fun m pos => m.listDel .null pos) s.links := by
  induction es generalizing s with
  | nil => rfl
  | cons e es ih => exact ih

/-- A traversal that deletes some of the entries it visits still visits all of them, and leaves the others in order. -/
theorem ListState.Inv.forEachEntrySafe (hs : s.Inv) (hl : s.seq h = some l) (drop : E → Bool) {fuel : ℕ}
    (hfuel : l.length < fuel) :
    ∃ t : ListState H E, Links.listForEachEntrySafe (.head h)
        (fun pos m => if pos.dropped drop then m.listDel .null pos else m) fuel s.links (s.links.next (.head h))
        (s.links.next (s.links.next (.head h))) = some (l.map .entry, t.links) ∧
      t.Inv ∧ t.seq h = some (l.filter fun e => !drop e) := by
  have hring := hs.linked h l hl
  refine ⟨((l.filter drop).map .del).foldl ListState.exec s, ?_, ?_, ?_⟩
  · have hvisits := @Linked.listForEachEntrySafe _ _ s.links (.head h) .null (l.map .entry) (ListNode.dropped drop) []
      hring null_not_mem fuel (by rwa [List.length_map])
    have hfilter : (l.map .entry).filter (ListNode.dropped drop : ListNode H E → Bool) = (l.filter drop).map .entry := by
      rw [List.filter_map]
      rfl
    rw [dels_links, ← hfilter, hring.next_head]
    exact hvisits
  · apply hs.dels
    intro e he
    exact .inl ⟨h, l, hl, List.mem_of_mem_filter he⟩
  · rw [dels_seq, hl, Option.map_some, List.Nodup.sdiff_eq_filter (hs.nodup hl)]
    congr 1
    apply List.filter_congr
    intro e he
    simp [he]

/-- An entry is deleted twice. -/
theorem listSequences_deleted_twice :
    (([ListOp.init (), .add true (), .add false (), .del true, .del true].foldl ListState.exec
      (.start ⟨fun _ => .null, fun _ => .null⟩)).links).Holds () [false] := by
  have hrun : Run ListStep ListState.UsedWell (.start ⟨fun _ => .null, fun _ => .null⟩)
      [ListOp.init (), .add true (), .add false (), .del true, .del true]
      ([ListOp.init (), .add true (), .add false (), .del true, .del true].foldl ListState.exec
        (.start ⟨fun _ => .null, fun _ => .null⟩)) :=
    .cons trivial rfl <| .cons (by decide) rfl <| .cons (by decide) rfl <| .cons (by decide) rfl <|
      .cons (by decide) rfl <| .nil _
  exact (listSequences_of_run hrun).1 () [false] rfl

/-- A list that still has entries is initialised again, and one of these entries is deleted: its neighbours are joined to
each other once more, and the links of the head no longer agree. -/
theorem inconsistent_after_second_init :
    ∃ s : ListState Unit Bool, Run ListStep ListState.Used (.start ⟨fun _ => .null, fun _ => .null⟩)
        [.init (), .add true (), .add false (), .init (), .del true] s ∧
      s.links.next (s.links.prev (.head ())) ≠ .head () :=
  ⟨_, .cons trivial rfl <| .cons (by decide) rfl <| .cons (by decide) rfl <| .cons (by decide) rfl <|
    .cons (by decide) rfl <| .nil _, by decide⟩

end

end OpenUsb
