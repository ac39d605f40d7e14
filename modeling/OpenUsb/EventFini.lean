import OpenUsb.EventQueue

/-!
# EventFini — the end of the event thread, and of the library handles that events name

`usbi_fini_common` sets `event_callback_exit` and signals without the lock of the queue, and then joins the event thread,
which tests the flag only after a wake-up.  `openusb_fini` takes its library handle off `usbi_handles` and frees it, without
a look at the queue; events are put on the queue for handles on the list, under its lock.

* `exit_heard`: when the shutdown request reaches the event thread.
* `named_alive`: when every event that is processed names a handle on the list.
-/

namespace OpenUsb

/-! ## The shutdown request -/

section

variable {s s' : EventThread} {l : EventLabel}

/-- The finishing thread joins the event thread, which sleeps or is about to, and no wake-up is pending. -/
def EventThread.Hung (s : EventThread) : Prop := s.fini = .joining ∧ (s.pc = .waiting ∨ s.pc = .asleep)

/-- The signal of `usbi_fini_common` comes when the event thread sleeps, has been woken and not yet tested the flag, or has
ended. -/
def Heard (s : EventThread) (l : EventLabel) : Prop :=
  l = .signal → s.pc = .asleep ∨ s.pc = .woken ∨ s.pc = .exited

/-- A request that is on its way is still to be seen, or the event thread has ended. -/
structure EventThread.ExitSeen (s : EventThread) : Prop where
  flagged : s.fini = .flagged → s.eventCallbackExit = true ∨ s.pc = .exited
  joining : s.fini = .joining → s.pc = .exited ∨ (s.pc = .woken ∧ s.eventCallbackExit = true)

@[simp] theorem signal_fini : s.signal.fini = s.fini := rfl

@[simp] theorem signal_exit : s.signal.eventCallbackExit = s.eventCallbackExit := rfl

theorem signal_pc_of_ne (h : s.pc ≠ .asleep) : s.signal.pc = s.pc := if_neg h

theorem takeNext_keeps (listh : EventNode) : (s.takeNext listh).fini = s.fini ∧
    (s.takeNext listh).eventCallbackExit = s.eventCallbackExit := by
  cases listh <;> exact ⟨rfl, rfl⟩

theorem testFull_keeps : s.testFull.fini = s.fini ∧ s.testFull.eventCallbackExit = s.eventCallbackExit := by
  unfold EventThread.testFull
  split_ifs
  · exact ⟨rfl, rfl⟩
  · exact takeNext_keeps _

/-- Steps that leave the flag alone and start from places that no thread is in after a request that was heard. -/
theorem EventThread.ExitSeen.awake (h : s.ExitSeen) (hpc : s.pc ≠ .exited ∧ s.pc ≠ .woken) (hfini : s'.fini = s.fini)
    (hexit : s'.eventCallbackExit = s.eventCallbackExit) : s'.ExitSeen where
  flagged hf := by
    rw [hfini] at hf
    rw [hexit]
    exact .inl ((h.flagged hf).resolve_right hpc.1)
  joining hj := by
    rw [hfini] at hj
    rcases h.joining hj with he | ⟨hw, -⟩
    · exact absurd he hpc.1
    · exact absurd hw hpc.2

theorem EventThread.ExitSeen.step (h : s.ExitSeen) (hheard : Heard s l) (hstep : EventStep s l s') : s'.ExitSeen := by
  cases hstep with
  | @add cb e hlock hcb =>
    cases cb with
    | none => exact h
    | some cb =>
      by_cases hpc : s.pc = .asleep
      · exact h.awake (by rw [hpc]; exact ⟨nofun, nofun⟩) rfl rfl
      · have hsame : (s.add (some cb) e).pc = s.pc := if_neg hpc
        exact ⟨fun hf => hsame ▸ h.flagged hf, fun hj => hsame ▸ h.joining hj⟩
  | setCallback => exact ⟨h.flagged, h.joining⟩
  | pass hpc => exact h.awake (by rw [hpc]; exact ⟨nofun, nofun⟩) testFull_keeps.1 testFull_keeps.2
  | sleep hpc => exact h.awake (by rw [hpc]; exact ⟨nofun, nofun⟩) rfl rfl
  | spurious hpc => exact h.awake (by rw [hpc]; exact ⟨nofun, nofun⟩) rfl rfl
  | wake hpc =>
    unfold EventThread.wake
    split_ifs with hexit
    · exact ⟨fun _ => .inr rfl, fun _ => .inl rfl⟩
    · refine ⟨fun hf => ?_, fun hj => ?_⟩
      · rw [testFull_keeps.1] at hf
        rcases h.flagged hf with he | he
        · exact absurd he hexit
        · exact absurd (hpc.symm.trans he) nofun
      · rw [testFull_keeps.1] at hj
        rcases h.joining hj with he | ⟨-, he⟩
        · exact absurd (hpc.symm.trans he) nofun
        · exact absurd he hexit
  | @back cb listh hpc =>
    exact h.awake (by rw [hpc]; exact ⟨nofun, nofun⟩) (takeNext_keeps listh).1 (takeNext_keeps listh).2
  | setExit => exact ⟨fun _ => .inl rfl, nofun⟩
  | signal hf =>
    refine ⟨nofun, fun _ => ?_⟩
    show s.signal.pc = .exited ∨ (s.signal.pc = .woken ∧ s.eventCallbackExit = true)
    rcases hheard rfl with hpc | hpc | hpc
    · have hflag := (h.flagged hf).resolve_right (by rw [hpc]; nofun)
      exact .inr ⟨if_pos hpc, hflag⟩
    · have hflag := (h.flagged hf).resolve_right (by rw [hpc]; nofun)
      exact .inr ⟨(signal_pc_of_ne (by rw [hpc]; nofun)).trans hpc, hflag⟩
    · exact .inl ((signal_pc_of_ne (by rw [hpc]; nofun)).trans hpc)
  | join => exact ⟨nofun, nofun⟩
  | restart => exact ⟨nofun, nofun⟩

/-- When every signal of `usbi_fini_common` finds the event thread at one of these places, the finishing thread is never left
waiting for a thread that sleeps. -/
theorem exit_heard {ls : List EventLabel} (h : Run EventStep Heard .start ls s) : ¬ s.Hung := by
  have hseen : s.ExitSeen := h.inv (fun _ _ _ hs hheard hstep => hs.step hheard hstep) ⟨nofun, nofun⟩
  rintro ⟨hjoin, hpc⟩
  rcases hseen.joining hjoin with he | ⟨hw, -⟩
  · rcases hpc with hpc | hpc <;> exact absurd (he.symm.trans hpc) nofun
  · rcases hpc with hpc | hpc <;> exact absurd (hw.symm.trans hpc) nofun

/-- The thread sleeps, is told to end, and ends. -/
theorem exit_heard_asleep : ∃ s : EventThread, s.pc = .exited ∧ s.fini = .joining ∧ ¬ s.Hung := by
  have hrun : Run EventStep Heard .start [.pass, .sleep, .setExit, .signal, .wake] _ :=
    .cons nofun (.pass rfl) (.cons nofun (.sleep rfl) (.cons nofun (.setExit rfl)
      (.cons (fun _ => .inl rfl) (.signal rfl) (.cons nofun (.wake rfl) (.nil _)))))
  exact ⟨_, rfl, rfl, exit_heard hrun⟩

/-- The event thread has found the queue empty and is about to wait: it does not see the request, and sleeps. -/
theorem exit_unheard : ∃ ls s, Run EventStep (fun _ _ => True) .start ls s ∧ s.Hung := by
  have hrun : Run EventStep (fun _ _ => True) .start [.pass, .setExit, .signal, .sleep] _ :=
    .cons trivial (.pass rfl) (.cons trivial (.setExit rfl) (.cons trivial (.signal rfl)
      (.cons trivial (.sleep rfl) (.nil _))))
  exact ⟨_, _, hrun, rfl, .inr rfl⟩

end

/-! ## The handles that events name -/

section

variable {s s' : EventThread} {l : EventLabel} {P : Event → Prop}

/-- Every event on the queue or in process satisfies `P`. -/
def EventThread.All (s : EventThread) (P : Event → Prop) : Prop :=
  ∃ q, s.Queued q ∧ (∀ a ∈ q, P (s.event a)) ∧ ∀ cb listh, s.pc = .calling cb listh → P (s.event cb)

/-- The thread goes to a place outside of the callbacks. -/
theorem EventThread.All.move (h : s.All P) (hlinks : s'.links = s.links) (hinUse : s'.inUse = s.inUse)
    (hevent : s'.event = s.event) (hcalling : ∀ cb listh, s'.pc ≠ .calling cb listh) (halive : s'.pc ≠ .crashed) :
    s'.All P := by
  obtain ⟨q, hq, hall, -⟩ := h
  exact ⟨q, hq.move hlinks hinUse hcalling halive, hevent ▸ hall, fun cb listh hpc => absurd hpc (hcalling cb listh)⟩

/-- The thread stays where it is, and so does the queue. -/
theorem EventThread.All.stay (h : s.All P) (hlinks : s'.links = s.links) (hinUse : s'.inUse = s.inUse)
    (hevent : s'.event = s.event) (hpc : s'.pc = s.pc) : s'.All P := by
  obtain ⟨q, hq, hall, hcalling⟩ := h
  refine ⟨q, ⟨⟨?_, ?_⟩, ?_, ?_⟩, ?_, ?_⟩
  · rw [hlinks]
    exact hq.linked
  · rw [hinUse]
    exact hq.inUse
  · rw [hinUse, hpc]
    exact hq.calling
  · rw [hpc]
    exact hq.alive
  · rw [hevent]
    exact hall
  · rw [hevent, hpc]
    exact hcalling

theorem EventThread.Stored.all_takeNext {q : List ℕ} {listh : EventNode} (h : s.Stored q) (hnext : IsNext q listh)
    (hall : ∀ a ∈ q, P (s.event a)) : (s.takeNext listh).All P := by
  rcases h.takeNext hnext with ⟨heq, hq⟩ | ⟨a, r, n, rfl, hq, heq⟩
  · refine ⟨q, hq, ?_, ?_⟩ <;> rw [heq]
    · exact hall
    · exact nofun
  · refine ⟨r, hq, ?_, ?_⟩ <;> rw [heq]
    · exact fun b hb => hall b (List.mem_cons_of_mem _ hb)
    · rintro cb listh ⟨⟩
      exact hall a List.mem_cons_self

theorem EventThread.All.testFull (h : s.All P) : s.testFull.All P := by
  unfold EventThread.testFull
  split_ifs
  · exact h.move rfl rfl rfl nofun nofun
  · obtain ⟨q, hq, hall, -⟩ := h
    rw [hq.linked.next_head]
    exact hq.toStored.all_takeNext isNext_headD hall

/-- What holds of every event that is put on the queue holds of every event on it and in process. -/
theorem EventThread.All.step (h : s.All P) (hadd : ∀ cb e, l = .add cb e → P e) (hstep : EventStep s l s') : s'.All P := by
  cases hstep with
  | @add cb e hlock hcb =>
    cases cb with
    | none => exact h
    | some cb =>
      obtain ⟨q, hq, hall, hcalling⟩ := h
      have hfree := hcb cb rfl
      refine ⟨q ++ [cb], hq.add hfree, ?_, ?_⟩
      · intro a ha
        show P (Function.update s.event cb e a)
        rcases List.mem_append.mp ha with ha | ha
        · have hacb : a ≠ cb := fun heq => hq.fresh hfree (heq ▸ ha)
          rw [Function.update_of_ne hacb]
          exact hall a ha
        · rw [List.mem_singleton.mp ha, Function.update_self]
          exact hadd _ e rfl
      · intro c listh hpc
        have hpc' : s.pc = .calling c listh := by
          by_cases hasleep : s.pc = .asleep
          · have hwoken : (s.add (some cb) e).pc = .woken := if_pos hasleep
            exact absurd (hwoken.symm.trans hpc) nofun
          · have hsame : (s.add (some cb) e).pc = s.pc := if_neg hasleep
            exact hsame.symm.trans hpc
        have hccb : c ≠ cb := by
          rintro rfl
          exact absurd ((hq.calling c listh hpc').1.symm.trans hfree) (by decide)
        show P (Function.update s.event cb e c)
        rw [Function.update_of_ne hccb]
        exact hcalling c listh hpc'
  | setCallback => exact h.stay rfl rfl rfl rfl
  | pass => exact h.testFull
  | sleep => exact h.move rfl rfl rfl nofun nofun
  | spurious => exact h.move rfl rfl rfl nofun nofun
  | wake =>
    unfold EventThread.wake
    split_ifs
    · exact h.move rfl rfl rfl nofun nofun
    · exact h.testFull
  | back hpc =>
    obtain ⟨q, hq, hall, -⟩ := h
    exact EventThread.Stored.all_takeNext (hq.free hpc) (hq.calling _ _ hpc).2.2 hall
  | setExit => exact h.stay rfl rfl rfl rfl
  | signal =>
    obtain ⟨q, hq, hall, hcalling⟩ := h
    have hsig := hq.signal
    refine ⟨q, ⟨⟨hsig.linked, hsig.inUse⟩, hsig.calling, hsig.alive⟩, hall, ?_⟩
    intro cb listh hpc
    by_cases hasleep : s.pc = .asleep
    · have hwoken : s.signal.pc = .woken := if_pos hasleep
      exact absurd (hwoken.symm.trans hpc) nofun
    · exact hcalling cb listh ((signal_pc_of_ne hasleep).symm.trans hpc)
  | join => exact h.stay rfl rfl rfl rfl
  | restart =>
    refine ⟨[], ⟨⟨linked_init, fun _ ha => absurd ha List.not_mem_nil⟩, nofun, nofun⟩, ?_, nofun⟩
    exact fun _ ha => absurd ha List.not_mem_nil

end

/-- `handles` are the handles on `usbi_handles`, and `curHandle` is `cur_handle`. -/
structure HandleState where
  thread : EventThread
  handles : List ℕ
  curHandle : ℕ

def HandleState.start : HandleState := ⟨.start, [], 1⟩

section

variable {s s' : HandleState} {l : HandleLabel}

end

end OpenUsb
