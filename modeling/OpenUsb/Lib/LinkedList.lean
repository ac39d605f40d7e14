import Mathlib.Data.List.Chain
import Mathlib.Data.List.Nodup
import Mathlib.Logic.Function.Basic

/-!
# LinkedList — rings of doubly linked entries

A list is a ring of entries through its head, as in the kernel's `struct list_head`: an empty list is a head that points to
itself, entries are added before the head, and a removed entry has both pointers cleared.

* `Linked m head l`: in the memory `m`, the ring of `head` holds the entries `l`, in this order.
* `Linked.add`, `Linked.del`: what adding an entry and deleting one do to its ring.
* `Linked.add_other`, `Linked.del_other`: they do nothing to the other rings.
* `Linked.listForEachEntry`, `Linked.listForEachEntrySafe`: the traversals visit the entries in order.
-/

namespace OpenUsb

/-- The two pointers of every entry and every head. -/
structure Links (P : Type) where
  next : P → P
  prev : P → P

section

variable {P : Type} [DecidableEq P]

namespace Links

variable (m : Links P)

def listInit (entry : P) : Links P where
  next := Function.update m.next entry entry
  prev := Function.update m.prev entry entry

def listAdd (entry head : P) : Links P where
  next := Function.update (Function.update m.next entry head) (m.prev head) entry
  prev := Function.update (Function.update m.prev entry (m.prev head)) head entry

/-- Nothing happens to an entry with a pointer cleared. -/
def listDel (null entry : P) : Links P :=
  if m.prev entry = null ∨ m.next entry = null then m else
    { next := Function.update (Function.update m.next (m.prev entry) (m.next entry)) entry null
      prev := Function.update (Function.update m.prev (m.next entry) (m.prev entry)) entry null }

end Links

omit [DecidableEq P] in
/-- Two entries that follow each other. -/
def Links.Joined (m : Links P) (x y : P) : Prop := m.next x = y ∧ m.prev y = x

omit [DecidableEq P] in
structure Linked (m : Links P) (head : P) (l : List P) : Prop where
  ring : (head :: (l ++ [head])).IsChain m.Joined
  nodup : (head :: l).Nodup

omit [DecidableEq P] in
/-- A chain has to be looked at only where a pair of its entries can be. -/
theorem isChain_imp_inner {R S : P → P → Prop} {l : List P} (h : l.IsChain R)
    (hRS : ∀ a ∈ l.dropLast, ∀ b ∈ l.tail, R a b → S a b) : l.IsChain S := by
  induction h with grind

variable {m : Links P} {head null e p n : P} {l : List P}

theorem linked_init : Linked (m.listInit head) head [] where
  ring := by
    refine List.isChain_pair.mpr ⟨?_, ?_⟩
    · exact Function.update_self ..
    · exact Function.update_self ..
  nodup := List.nodup_singleton head

omit [DecidableEq P] in
theorem Linked.next_head (h : Linked m head l) : m.next head = l.headD head := by
  cases l with
  | nil => exact (List.isChain_pair.mp h.ring).1
  | cons x l => exact (List.isChain_cons_cons.mp h.ring).1.1

omit [DecidableEq P] in
theorem Linked.next_first (h : Linked m head (e :: l)) : m.next e = l.headD head := by
  obtain ⟨-, hrest⟩ := List.isChain_cons_cons.mp h.ring
  cases l with
  | nil => exact (List.isChain_pair.mp hrest).1
  | cons x l => exact (List.isChain_cons_cons.mp hrest).1.1

/-- What `listInit` writes into the entry, adding it overwrites. -/
theorem Links.listInit_listAdd (m : Links P) (he : e ≠ head) : (m.listInit e).listAdd e head = m.listAdd e head := by
  simp only [Links.listInit, Links.listAdd, Function.update_idem, Function.update_of_ne he.symm]

/-- The pointers that adding an entry writes: those between the last of the ring, the entry and the head. -/
theorem Links.listAdd_joined (hlast : m.prev head = p) (hep : e ≠ p) (hehead : e ≠ head) :
    (m.listAdd e head).Joined p e ∧ (m.listAdd e head).Joined e head ∧
      ∀ a b, a ≠ p → a ≠ e → b ≠ head → b ≠ e → m.Joined a b → (m.listAdd e head).Joined a b := by
  have hadd : m.listAdd e head = { next := Function.update (Function.update m.next e head) p e
                                   prev := Function.update (Function.update m.prev e p) head e } := by
    rw [Links.listAdd, hlast]
  rw [hadd]
  refine ⟨⟨Function.update_self .., ?_⟩, ⟨?_, Function.update_self ..⟩, ?_⟩
  · show Function.update (Function.update m.prev e p) head e e = p
    rw [Function.update_of_ne hehead, Function.update_self]
  · show Function.update (Function.update m.next e head) p e e = head
    rw [Function.update_of_ne hep, Function.update_self]
  · intro a b hap hae hbhead hbe hab
    refine ⟨?_, ?_⟩
    · show Function.update (Function.update m.next e head) p e a = b
      rw [Function.update_of_ne hap, Function.update_of_ne hae, hab.1]
    · show Function.update (Function.update m.prev e p) head e b = a
      rw [Function.update_of_ne hbhead, Function.update_of_ne hbe, hab.2]

/-- The pointers that deleting an entry writes: those between its neighbours. -/
theorem Links.listDel_joined (hpe : m.Joined p e) (hen : m.Joined e n) (hnull : p ≠ null ∧ n ≠ null) (hp : p ≠ e)
    (hn : n ≠ e) :
    (m.listDel null e).Joined p n ∧
      ∀ a b, a ≠ p → a ≠ e → b ≠ n → b ≠ e → m.Joined a b → (m.listDel null e).Joined a b := by
  have hdel : m.listDel null e = { next := Function.update (Function.update m.next p n) e null
                                   prev := Function.update (Function.update m.prev n p) e null } := by
    rw [Links.listDel, hpe.2, hen.1, if_neg (not_or.mpr hnull)]
  rw [hdel]
  refine ⟨⟨?_, ?_⟩, ?_⟩
  · show Function.update (Function.update m.next p n) e null p = n
    rw [Function.update_of_ne hp, Function.update_self]
  · show Function.update (Function.update m.prev n p) e null n = p
    rw [Function.update_of_ne hn, Function.update_self]
  · intro a b hap hae hbn hbe hab
    refine ⟨?_, ?_⟩
    · show Function.update (Function.update m.next p n) e null a = b
      rw [Function.update_of_ne hae, Function.update_of_ne hap, hab.1]
    · show Function.update (Function.update m.prev n p) e null b = a
      rw [Function.update_of_ne hbe, Function.update_of_ne hbn, hab.2]

omit [DecidableEq P] in
/-- The last of a ring, with the part in front of it. -/
theorem Linked.splitLast (h : Linked m head l) :
    ∃ us p, head :: l = us ++ [p] ∧ (us ++ [p]).IsChain m.Joined ∧ m.Joined p head := by
  obtain ⟨us, p, hus⟩ : ∃ us p, head :: l = us ++ [p] :=
    ⟨_, _, (List.dropLast_append_getLast (List.cons_ne_nil head l)).symm⟩
  have hring : (us ++ p :: [head]).IsChain m.Joined := by
    have := h.ring
    rwa [← List.cons_append, hus, List.append_assoc] at this
  obtain ⟨hfront, hlast, -⟩ := List.isChain_append_cons_cons.mp hring
  exact ⟨us, p, hus, hfront, hlast⟩

theorem Linked.add (h : Linked m head l) (he : e ∉ head :: l) : Linked (m.listAdd e head) head (l ++ [e]) := by
  obtain ⟨us, p, hus, hfront, hlast⟩ := h.splitLast
  have hnodup : (us ++ [p]).Nodup := hus ▸ h.nodup
  have heus : e ∉ us ++ [p] := hus ▸ he
  have hep : e ≠ p := fun heq => heus (heq ▸ List.mem_append_right _ List.mem_cons_self)
  have hehead : e ≠ head := fun heq => he (heq ▸ List.mem_cons_self)
  obtain ⟨hpe, heh, hkeep⟩ := Links.listAdd_joined hlast.2 hep hehead
  refine ⟨?_, ?_⟩
  · have hlist : head :: (l ++ [e] ++ [head]) = us ++ p :: e :: [head] := by
      rw [List.append_assoc, ← List.cons_append, hus, List.append_assoc]
      rfl
    rw [hlist]
    refine List.isChain_append_cons_cons.mpr ⟨?_, hpe, List.isChain_pair.mpr heh⟩
    apply isChain_imp_inner hfront
    intro a ha b hb hab
    rw [List.dropLast_concat] at ha
    rw [← hus, List.tail_cons] at hb
    refine hkeep a b ?_ ?_ ?_ ?_ hab
    · exact fun heq => (List.nodup_append.mp hnodup).2.2 a ha p List.mem_cons_self heq
    · exact fun heq => heus (heq ▸ List.mem_append_left _ ha)
    · exact fun heq => (List.nodup_cons.mp h.nodup).1 (heq ▸ hb)
    · exact fun heq => he (heq ▸ List.mem_cons_of_mem _ hb)
  · rw [← List.cons_append]
    refine List.nodup_append.mpr ⟨h.nodup, List.nodup_singleton e, ?_⟩
    intro a ha b hb hab
    rw [List.mem_singleton.mp hb] at hab
    exact he (hab ▸ ha)

omit [DecidableEq P] in
/-- The two neighbours of an entry, with the parts of the ring before and behind it. -/
theorem Linked.split {xs ys : List P} (h : Linked m head (xs ++ e :: ys)) :
    ∃ us p n zs, head :: xs = us ++ [p] ∧ ys ++ [head] = n :: zs ∧ (us ++ [p]).IsChain m.Joined ∧ m.Joined p e ∧
      m.Joined e n ∧ (n :: zs).IsChain m.Joined := by
  obtain ⟨us, p, hus⟩ : ∃ us p, head :: xs = us ++ [p] :=
    ⟨_, _, (List.dropLast_append_getLast (List.cons_ne_nil head xs)).symm⟩
  obtain ⟨n, zs, hzs⟩ : ∃ n zs, ys ++ [head] = n :: zs := List.exists_cons_of_ne_nil (by simp)
  have hring : (us ++ p :: e :: n :: zs).IsChain m.Joined := by
    have := h.ring
    rwa [List.append_assoc, List.cons_append, hzs, ← List.cons_append, hus, List.append_assoc] at this
  obtain ⟨hfront, hpe, hrest⟩ := List.isChain_append_cons_cons.mp hring
  obtain ⟨hen, hback⟩ := List.isChain_cons_cons.mp hrest
  exact ⟨us, p, n, zs, hus, hzs, hfront, hpe, hen, hback⟩

omit [DecidableEq P] in
/-- The neighbours of an entry are in its ring. -/
theorem Linked.neighbours (h : Linked m head l) (he : e ∈ l) : m.prev e ∈ head :: l ∧ m.next e ∈ head :: l := by
  obtain ⟨xs, ys, rfl⟩ := List.append_of_mem he
  obtain ⟨us, p, n, zs, hus, hzs, -, hpe, hen, -⟩ := h.split
  have hp : p ∈ head :: xs := hus ▸ List.mem_append_right us List.mem_cons_self
  have hn : n ∈ ys ++ [head] := hzs ▸ List.mem_cons_self
  rw [hpe.2, hen.1]
  refine ⟨List.mem_append_left (e :: ys) hp, ?_⟩
  rcases List.mem_append.mp hn with hmem | hmem
  · exact List.mem_cons_of_mem head (List.mem_append_right xs (List.mem_cons_of_mem e hmem))
  · exact List.mem_singleton.mp hmem ▸ List.mem_cons_self

/-- Deleting an entry closes the ring over it, wherever it stands. -/
theorem Linked.del {xs ys : List P} (h : Linked m head (xs ++ e :: ys)) (hnull : null ∉ head :: (xs ++ e :: ys)) :
    Linked (m.listDel null e) head (xs ++ ys) := by
  obtain ⟨us, p, n, zs, hus, hzs, hfront, hpe, hen, hback⟩ := h.split
  have hp : p ∈ head :: xs := hus ▸ List.mem_append_right us List.mem_cons_self
  have hn : n ∈ ys ++ [head] := hzs ▸ List.mem_cons_self
  have hnodup : (head :: xs ++ e :: ys).Nodup := h.nodup
  obtain ⟨hxs, heys, happart⟩ := List.nodup_append.mp hnodup
  obtain ⟨hey, hys⟩ := List.nodup_cons.mp heys
  have hex : e ∉ head :: xs := fun hmem => happart e hmem e List.mem_cons_self rfl
  have hehead : e ≠ head := fun heq => hex (heq ▸ List.mem_cons_self)
  have hheady : head ∉ ys := fun hmem => happart head List.mem_cons_self head (List.mem_cons_of_mem e hmem) rfl
  have heyh : e ∉ ys ++ [head] := by
    intro hmem
    rcases List.mem_append.mp hmem with hmem | hmem
    · exact hey hmem
    · exact hehead (List.mem_singleton.mp hmem)
  have hysh : (ys ++ [head]).Nodup := by
    refine List.nodup_append.mpr ⟨hys, List.nodup_singleton head, ?_⟩
    intro a ha b hb hab
    rw [List.mem_singleton.mp hb] at hab
    exact hheady (hab ▸ ha)
  have hnotnull : p ≠ null ∧ n ≠ null := by
    obtain ⟨hprev, hnext⟩ := h.neighbours (List.mem_append_right xs List.mem_cons_self)
    rw [hpe.2] at hprev
    rw [hen.1] at hnext
    exact ⟨fun hh => hnull (hh ▸ hprev), fun hh => hnull (hh ▸ hnext)⟩
  -- elsewhere no pointer changes: a pair of the ring that is joined stays joined
  obtain ⟨hpn, hkeep⟩ :=
    Links.listDel_joined hpe hen hnotnull (fun heq => hex (heq ▸ hp)) (fun heq => heyh (heq ▸ hn))
  refine ⟨?_, ?_⟩
  · have hlist : head :: (xs ++ ys ++ [head]) = us ++ p :: n :: zs := by
      rw [List.append_assoc, hzs, ← List.cons_append, hus, List.append_assoc]
      rfl
    rw [hlist]
    refine List.isChain_append_cons_cons.mpr ⟨?_, hpn, ?_⟩
    · apply isChain_imp_inner hfront
      intro a ha b hb hab
      rw [List.dropLast_concat] at ha
      rw [← hus, List.tail_cons] at hb
      have ha' : a ∈ head :: xs := hus ▸ List.mem_append_left [p] ha
      have hnodupus : (us ++ [p]).Nodup := hus ▸ hxs
      refine hkeep a b ?_ (fun heq => hex (heq ▸ ha')) ?_ (fun heq => hex (heq ▸ List.mem_cons_of_mem head hb)) hab
      · exact fun heq => (List.nodup_append.mp hnodupus).2.2 a ha p List.mem_cons_self heq
      · rintro rfl
        rcases List.mem_append.mp hn with hmem | hmem
        · exact happart b (List.mem_cons_of_mem head hb) b (List.mem_cons_of_mem e hmem) rfl
        · exact (List.nodup_cons.mp hxs).1 (List.mem_singleton.mp hmem ▸ hb)
    · apply isChain_imp_inner hback
      intro a ha b hb hab
      rw [← hzs, List.dropLast_concat] at ha
      have hznodup : (n :: zs).Nodup := hzs ▸ hysh
      refine hkeep a b ?_ (fun heq => hey (heq ▸ ha)) ?_ ?_ hab
      · exact fun heq => happart p hp a (List.mem_cons_of_mem e ha) heq.symm
      · exact fun heq => (List.nodup_cons.mp hznodup).1 (heq ▸ hb)
      · exact fun heq => heyh (heq ▸ hzs ▸ List.mem_cons_of_mem n hb)
  · exact hnodup.sublist (List.Sublist.append_left (List.sublist_cons_self e ys) (head :: xs))

omit [DecidableEq P] in
/-- The last of a ring is joined to its head. -/
theorem Linked.last (h : Linked m head l) : ∃ p ∈ head :: l, m.Joined p head := by
  obtain ⟨us, p, hus, -, hlast⟩ := h.splitLast
  exact ⟨p, hus ▸ List.mem_append_right us List.mem_cons_self, hlast⟩

omit [DecidableEq P] in
theorem Linked.prev_head (h : Linked m head l) : m.prev head ∈ head :: l := by
  obtain ⟨p, hp, hlast⟩ := h.last
  exact hlast.2 ▸ hp

omit [DecidableEq P] in
/-- Going forward and back, or back and forward, from any node of a ring leads to that node. -/
theorem Linked.consistent (h : Linked m head l) (he : e ∈ head :: l) :
    m.prev (m.next e) = e ∧ m.next (m.prev e) = e := by
  rcases List.mem_cons.mp he with rfl | he
  · obtain ⟨p, -, hlast⟩ := h.last
    obtain ⟨n, zs, hzs⟩ : ∃ n zs, l ++ [e] = n :: zs := List.exists_cons_of_ne_nil (by simp)
    have hring := h.ring
    rw [hzs] at hring
    have hfirst : m.Joined e n := (List.isChain_cons_cons.mp hring).1
    rw [hfirst.1, hlast.2]
    exact ⟨hfirst.2, hlast.1⟩
  · obtain ⟨xs, ys, rfl⟩ := List.append_of_mem he
    obtain ⟨us, p, n, zs, -, -, -, hpe, hen, -⟩ := h.split
    rw [hen.1, hpe.2]
    exact ⟨hen.2, hpe.1⟩

/-- Deleting an entry clears its pointers. -/
theorem Linked.listDel_null (h : Linked m head l) (he : e ∈ l) (hnull : null ∉ head :: l) :
    (m.listDel null e).next e = null ∧ (m.listDel null e).prev e = null := by
  obtain ⟨hprev, hnext⟩ := h.neighbours he
  rw [Links.listDel, if_neg]
  · exact ⟨Function.update_self .., Function.update_self ..⟩
  · rintro (hh | hh)
    · exact hnull (hh ▸ hprev)
    · exact hnull (hh ▸ hnext)

/-- Nothing happens to an entry that has been deleted. -/
theorem Links.listDel_of_null (h : m.prev e = null) : m.listDel null e = m := by
  rw [Links.listDel, if_pos (.inl h)]

/-! ## Other rings -/

variable {m' : Links P} {other x : P} {l' : List P}

omit [DecidableEq P] in
/-- A ring depends on its own pointers only. -/
theorem Linked.congr (h : Linked m head l) (hnext : ∀ x ∈ head :: l, m'.next x = m.next x)
    (hprev : ∀ x ∈ head :: l, m'.prev x = m.prev x) : Linked m' head l := by
  refine ⟨?_, h.nodup⟩
  apply isChain_imp_inner h.ring
  intro a ha b hb hab
  rw [← List.cons_append, List.dropLast_concat] at ha
  have hb' : b ∈ head :: l := by
    rcases List.mem_append.mp hb with hmem | hmem
    · exact List.mem_cons_of_mem head hmem
    · exact List.mem_singleton.mp hmem ▸ List.mem_cons_self
  exact ⟨(hnext a ha).trans hab.1, (hprev b hb').trans hab.2⟩

theorem Links.listInit_untouched (m : Links P) (hx : x ≠ e) :
    (m.listInit e).next x = m.next x ∧ (m.listInit e).prev x = m.prev x :=
  ⟨Function.update_of_ne hx .., Function.update_of_ne hx ..⟩

theorem Linked.init_other (h : Linked m head l) (hx : x ∉ head :: l) : Linked (m.listInit x) head l := by
  have huntouched : ∀ y ∈ head :: l, _ := fun y hy => m.listInit_untouched (fun heq : y = x => hx (heq ▸ hy))
  exact h.congr (fun y hy => (huntouched y hy).1) (fun y hy => (huntouched y hy).2)

/-- Adding an entry touches the entry and the ring it goes to. -/
theorem Linked.listAdd_untouched (ho : Linked m other l') (hx : x ∉ other :: l') (hxe : x ≠ e) :
    (m.listAdd e other).next x = m.next x ∧ (m.listAdd e other).prev x = m.prev x := by
  have hxp : x ≠ m.prev other := fun heq => hx (heq ▸ ho.prev_head)
  have hxo : x ≠ other := fun heq => hx (heq ▸ List.mem_cons_self)
  refine ⟨?_, ?_⟩
  · show Function.update (Function.update m.next e other) (m.prev other) e x = m.next x
    rw [Function.update_of_ne hxp, Function.update_of_ne hxe]
  · show Function.update (Function.update m.prev e (m.prev other)) other e x = m.prev x
    rw [Function.update_of_ne hxo, Function.update_of_ne hxe]

/-- Deleting an entry touches its ring only. -/
theorem Linked.listDel_untouched (ho : Linked m other l') (he : e ∈ l') (hx : x ∉ other :: l') :
    (m.listDel null e).next x = m.next x ∧ (m.listDel null e).prev x = m.prev x := by
  obtain ⟨hprev, hnext⟩ := ho.neighbours he
  have hxe : x ≠ e := fun heq => hx (heq ▸ List.mem_cons_of_mem other he)
  have hxp : x ≠ m.prev e := fun heq => hx (heq ▸ hprev)
  have hxn : x ≠ m.next e := fun heq => hx (heq ▸ hnext)
  unfold Links.listDel
  split_ifs with hnull
  · exact ⟨rfl, rfl⟩
  refine ⟨?_, ?_⟩
  · show Function.update (Function.update m.next (m.prev e) (m.next e)) e null x = m.next x
    rw [Function.update_of_ne hxe, Function.update_of_ne hxp]
  · show Function.update (Function.update m.prev (m.next e) (m.prev e)) e null x = m.prev x
    rw [Function.update_of_ne hxe, Function.update_of_ne hxn]

theorem Linked.add_other (h : Linked m head l) (ho : Linked m other l') (hapart : (head :: l).Disjoint (other :: l'))
    (he : e ∉ head :: l) : Linked (m.listAdd e other) head l := by
  have huntouched : ∀ x ∈ head :: l, _ := fun x hx =>
    ho.listAdd_untouched (fun hx' => hapart hx hx') (fun heq : x = e => he (heq ▸ hx))
  exact h.congr (fun x hx => (huntouched x hx).1) (fun x hx => (huntouched x hx).2)

theorem Linked.del_other (h : Linked m head l) (ho : Linked m other l') (hapart : (head :: l).Disjoint (other :: l'))
    (he : e ∈ l') : Linked (m.listDel null e) head l := by
  have huntouched : ∀ x ∈ head :: l, _ := fun x hx =>
    @Linked.listDel_untouched _ _ _ null _ _ _ _ ho he (fun hx' => hapart hx hx')
  exact h.congr (fun x hx => (huntouched x hx).1) (fun x hx => (huntouched x hx).2)

/-! ## Traversals -/

/-- `list_for_each_entry` from `pos` on: the entries it visits, `none` when it has not come back to the head in time. -/
def Links.listForEachEntry (m : Links P) (head : P) : ℕ → P → Option (List P)
  | 0, _ => none
  | fuel + 1, pos => if pos = head then some [] else (m.listForEachEntry head fuel (m.next pos)).map (pos :: ·)

/-- `list_for_each_entry_safe` with its body: the entries it visits and the pointers it leaves. -/
def Links.listForEachEntrySafe (head : P) (body : P → Links P → Links P) :
    ℕ → Links P → P → P → Option (List P × Links P)
  | 0, _, _, _ => none
  | fuel + 1, m, pos, n =>
    if pos = head then some ([], m)
    else
      let m := body pos m
      (Links.listForEachEntrySafe head body fuel m n (m.next n)).map fun r => (pos :: r.1, r.2)

def Links.listEmpty (m : Links P) (head : P) : Bool := m.next head = head

theorem listForEachEntry_chain (hl : (x :: (l ++ [head])).IsChain m.Joined) (hhead : head ∉ l) {fuel : ℕ}
    (hfuel : l.length < fuel) : m.listForEachEntry head fuel (m.next x) = some l := by
  induction l generalizing x fuel with
  | nil =>
    obtain ⟨fuel, rfl⟩ := Nat.exists_eq_add_of_lt hfuel
    have hx : m.next x = head := (List.isChain_pair.mp hl).1
    rw [Links.listForEachEntry, if_pos hx]
  | cons y l ih =>
    obtain ⟨fuel, rfl⟩ := Nat.exists_eq_add_of_lt hfuel
    obtain ⟨hxy, hrest⟩ := List.isChain_cons_cons.mp hl
    obtain ⟨hy, hhead⟩ := not_or.mp (List.mem_cons.not.mp hhead)
    have hlater := @ih y hrest hhead ((y :: l).length + fuel) (by rw [List.length_cons]; omega)
    rw [Links.listForEachEntry, hxy.1, if_neg (Ne.symm hy), hlater, Option.map_some]

/-- Going forward through a ring gives its entries in order. -/
theorem Linked.listForEachEntry (h : Linked m head l) {fuel : ℕ} (hfuel : l.length < fuel) :
    m.listForEachEntry head fuel (m.next head) = some l :=
  listForEachEntry_chain h.ring (List.nodup_cons.mp h.nodup).1 hfuel

/-- The safe traversal may delete the entries that it visits: it still visits all of them. -/
theorem Linked.listForEachEntrySafe (drop : P → Bool) {kept : List P} (h : Linked m head (kept ++ l))
    (hnull : null ∉ head :: (kept ++ l)) {fuel : ℕ} (hfuel : l.length < fuel) :
    Links.listForEachEntrySafe head (fun pos m => if drop pos then m.listDel null pos else m) fuel m (l.headD head)
      (m.next (l.headD head)) = some (l, (l.filter drop).foldl (fun m pos => m.listDel null pos) m) := by
  induction l generalizing m kept fuel with
  | nil =>
    obtain ⟨fuel, rfl⟩ := Nat.exists_eq_add_of_lt hfuel
    rw [Links.listForEachEntrySafe, List.headD_nil, if_pos rfl]
    rfl
  | cons y l ih =>
    obtain ⟨fuel, rfl⟩ := Nat.exists_eq_add_of_lt hfuel
    have hy : y ≠ head := fun heq => (List.nodup_cons.mp h.nodup).1 (heq ▸ List.mem_append_right kept List.mem_cons_self)
    have hlater : l.length < (y :: l).length + fuel := by
      rw [List.length_cons]
      omega
    obtain ⟨us, p, n, zs, hus, hzs, -, -, hyn, -⟩ := h.split
    have hnext : m.next y = l.headD head := by
      rw [hyn.1]
      cases l with
      | nil => exact (List.cons.inj hzs).1.symm
      | cons z l => exact (List.cons.inj hzs).1.symm
    rw [Links.listForEachEntrySafe, List.headD_cons, if_neg hy, hnext]
    cases hdrop : drop y with
    | true =>
      have hrest : null ∉ head :: (kept ++ l) := by
        simp only [List.mem_cons, List.mem_append, not_or] at hnull ⊢
        exact ⟨hnull.1, hnull.2.1, hnull.2.2.2⟩
      rw [List.filter_cons_of_pos hdrop, List.foldl_cons]
      simp only [if_true]
      rw [ih (h.del hnull) hrest hlater]
      rfl
    | false =>
      rw [List.append_cons] at h hnull
      rw [List.filter_cons_of_neg (by simpa using hdrop)]
      simp only [Bool.false_eq_true, if_false]
      rw [ih h hnull hlater]
      rfl

theorem Linked.listEmpty (h : Linked m head l) : m.listEmpty head = l.isEmpty := by
  unfold Links.listEmpty
  rw [h.next_head]
  cases l with
  | nil => simp
  | cons y l =>
    have hy : y ≠ head := fun heq => (List.nodup_cons.mp h.nodup).1 (heq ▸ List.mem_cons_self)
    simpa using hy

end

end OpenUsb
