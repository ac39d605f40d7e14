import OpenUsb.Urbs
import OpenUsb.Lib.Runs

/-!
# Deadlines — the deadlines of requests and the threads that wait for them

`usbi_alloc_io` stores the end time of a request.  `timeout_thread` and, on Linux, `poll_io` look for the earliest one on
`io_head` to know how long `select` may sleep, and `io_timeout` sweeps the list when `poll_io` wakes up late enough.

* `deadlines_iff`: when the stored end times are normalized, and ordered as the instants that they denote.
* `sleeps_iff`: when the two threads sleep until the earliest deadline.
* `sweep_iff`: when a sweep reaches all expired requests.
-/

namespace OpenUsb

/-! ## Times -/

/-- `struct timeval`. -/
@[ext] structure Timeval where
  tv_sec : ℤ := 0
  tv_usec : ℤ := 0
  deriving DecidableEq, Repr

namespace Timeval

variable (t : Timeval)

/-- The instant, or the span of time, in microseconds. -/
def micros : ℤ := t.tv_sec * 1000000 + t.tv_usec

def Normalized : Prop := 0 ≤ t.tv_usec ∧ t.tv_usec < 1000000

instance : Decidable t.Normalized := inferInstanceAs (Decidable (_ ∧ _))

end Timeval

/-- What `gettimeofday` stores. -/
structure TimeOfDay extends Timeval where
  normalized : toTimeval.Normalized

/-- `usbi_timeval_compare`. -/
def usbiTimevalCompare (tva tvb : Timeval) : ℤ :=
  if tva.tv_sec < tvb.tv_sec then -1
  else if tva.tv_sec > tvb.tv_sec then 1
  else if tva.tv_usec < tvb.tv_usec then -1
  else if tva.tv_usec > tvb.tv_usec then 1
  else 0

/-- The two times are compared as the instants that they denote. -/
def ComparedAsInstants (tva tvb : Timeval) : Prop := usbiTimevalCompare tva tvb = (tva.micros - tvb.micros).sign

instance (tva tvb : Timeval) : Decidable (ComparedAsInstants tva tvb) := inferInstanceAs (Decidable (_ = _))

section

variable {tva tvb : Timeval}

theorem timeval_compare_eq_zero : usbiTimevalCompare tva tvb = 0 ↔ tva = tvb := by
  rw [usbiTimevalCompare, Timeval.ext_iff]
  split_ifs with hlt hgt hult hugt
  · exact iff_of_false (by decide) fun h => hlt.ne h.1
  · exact iff_of_false (by decide) fun h => hgt.ne' h.1
  · exact iff_of_false (by decide) fun h => hult.ne h.2
  · exact iff_of_false (by decide) fun h => hugt.ne' h.2
  · exact iff_of_true rfl ⟨by omega, by omega⟩

/-- Normalized times are ordered as instants. -/
theorem compared_of_normalized (ha : tva.Normalized) (hb : tvb.Normalized) : ComparedAsInstants tva tvb := by
  obtain ⟨ha0, ha1⟩ := ha
  obtain ⟨hb0, hb1⟩ := hb
  rw [ComparedAsInstants, usbiTimevalCompare, Timeval.micros, Timeval.micros]
  split_ifs with hlt hgt hult hugt
  · exact (Int.sign_eq_neg_one_of_neg (by omega)).symm
  · exact (Int.sign_eq_one_of_pos (by omega)).symm
  · exact (Int.sign_eq_neg_one_of_neg (by omega)).symm
  · exact (Int.sign_eq_one_of_pos (by omega)).symm
  · exact (Int.sign_eq_zero_iff_zero.mpr (by omega)).symm

/-- Against a normalized time even a deadline of a whole second is seen to have passed. -/
theorem timeval_compare_nonpos (ha0 : 0 ≤ tva.tv_usec) (ha1 : tva.tv_usec ≤ 1000000) (hb : tvb.Normalized) :
    usbiTimevalCompare tva tvb ≤ 0 ↔ tva.micros ≤ tvb.micros := by
  obtain ⟨hb0, hb1⟩ := hb
  rw [usbiTimevalCompare, Timeval.micros, Timeval.micros]
  split_ifs <;> omega

end

/-! ## The end time of a request -/

/-- The timeout that `usbi_alloc_io` works with, in milliseconds. -/
def ioTimeoutMs (timeout : UInt32) : ℕ := if timeout = 0 then 0xFFFFFFFF else timeout.toNat

/-- `io->tvo` as `usbi_alloc_io` stores it. -/
def usbiAllocIo (tvc : Timeval) (timeout : UInt32) : Timeval :=
  let tvo : Timeval := {
    tv_sec := tvc.tv_sec + (ioTimeoutMs timeout / 1000 : ℕ)
    tv_usec := tvc.tv_usec + (ioTimeoutMs timeout % 1000 * 1000 : ℕ) }
  if tvo.tv_usec > 1000000 then { tv_sec := tvo.tv_sec + 1, tv_usec := tvo.tv_usec - 1000000 } else tvo

/-- The end time is normalized, and it is the current time plus the timeout. -/
def StoresDeadline (now : TimeOfDay) (timeout : UInt32) : Prop :=
  (usbiAllocIo now.toTimeval timeout).Normalized ∧
    (usbiAllocIo now.toTimeval timeout).micros = now.micros + ioTimeoutMs timeout * 1000

/-- The microseconds do not add up to exactly one second. -/
def OffTheSecond (now : TimeOfDay) (timeout : UInt32) : Prop :=
  now.tv_usec + (ioTimeoutMs timeout % 1000 * 1000 : ℕ) ≠ 1000000

section

variable (now : TimeOfDay) (timeout : UInt32)

theorem alloc_io_micros : (usbiAllocIo now.toTimeval timeout).micros = now.micros + ioTimeoutMs timeout * 1000 := by
  rw [usbiAllocIo, Timeval.micros, Timeval.micros]
  dsimp only
  split_ifs <;> dsimp only <;> omega

/-- The carry is missed at exactly one second. -/
theorem alloc_io_usec : 0 ≤ (usbiAllocIo now.toTimeval timeout).tv_usec ∧
    (usbiAllocIo now.toTimeval timeout).tv_usec ≤ 1000000 ∧
    ((usbiAllocIo now.toTimeval timeout).tv_usec = 1000000 ↔ ¬ OffTheSecond now timeout) := by
  obtain ⟨h0, h1⟩ := now.normalized
  rw [usbiAllocIo, OffTheSecond]
  dsimp only
  split_ifs <;> dsimp only <;> omega

theorem stores_deadline_iff : StoresDeadline now timeout ↔ OffTheSecond now timeout := by
  obtain ⟨h0, h1, hcarry⟩ := alloc_io_usec now timeout
  rw [StoresDeadline, Timeval.Normalized, and_iff_left (alloc_io_micros now timeout), and_iff_right h0]
  constructor
  · intro hlt
    by_contra hoff
    have := hcarry.mpr hoff
    omega
  · intro hoff
    have hne : (usbiAllocIo now.toTimeval timeout).tv_usec ≠ 1000000 := fun h => hcarry.mp h hoff
    omega

end

/-- The end times of two requests are right, and they and the current time are ordered as instants, if and only if neither
falls on a whole second with a carry. -/
theorem deadlines_iff (now₁ now₂ cur : TimeOfDay) (timeout₁ timeout₂ : UInt32) :
    (StoresDeadline now₁ timeout₁ ∧ StoresDeadline now₂ timeout₂ ∧
      let times := [usbiAllocIo now₁.toTimeval timeout₁, usbiAllocIo now₂.toTimeval timeout₂, cur.toTimeval]
      ∀ tva ∈ times, ∀ tvb ∈ times, ComparedAsInstants tva tvb) ↔
    OffTheSecond now₁ timeout₁ ∧ OffTheSecond now₂ timeout₂ := by
  constructor
  · rintro ⟨h1, h2, -⟩
    exact ⟨(stores_deadline_iff _ _).mp h1, (stores_deadline_iff _ _).mp h2⟩
  · rintro ⟨h1, h2⟩
    have hd1 := (stores_deadline_iff _ _).mpr h1
    have hd2 := (stores_deadline_iff _ _).mpr h2
    have hnorm : ∀ t ∈ [usbiAllocIo now₁.toTimeval timeout₁, usbiAllocIo now₂.toTimeval timeout₂, cur.toTimeval],
        t.Normalized := by
      intro t ht
      rcases List.mem_cons.mp ht with rfl | ht
      · exact hd1.1
      rcases List.mem_cons.mp ht with rfl | ht
      · exact hd2.1
      rw [List.mem_singleton.mp ht]
      exact cur.normalized
    exact ⟨hd1, hd2, fun tva ha tvb hb => compared_of_normalized (hnorm tva ha) (hnorm tvb hb)⟩

/-- Half a second after a half second: the microseconds are 1000000, and the end time comes before the second at which it
is. -/
theorem deadline_on_the_second :
    ¬ StoresDeadline ⟨⟨5, 500000⟩, by decide⟩ 500 ∧
    (usbiAllocIo ⟨5, 500000⟩ 500).micros = (usbiAllocIo ⟨5, 600000⟩ 400).micros ∧
    usbiAllocIo ⟨5, 500000⟩ 500 = ⟨5, 1000000⟩ ∧ ¬ ComparedAsInstants (usbiAllocIo ⟨5, 500000⟩ 500) ⟨6, 0⟩ := by
  refine ⟨fun h => absurd h.1 (by decide), by decide, by decide, by decide⟩

/-! ## Outstanding requests -/

/-- The URBs of a request that is no isochronous one. -/
def ownLayout (num_urbs : ℕ) : UrbLayout where
  num_urbs := num_urbs
  names := fun i => if i < num_urbs then some i else none
  continuation := fun _ => false

/-- `struct usbi_io_private`, as far as the sweep uses it. -/
structure UsbiIoPrivate where
  num_urbs : ℕ
  urbs : UrbIo

/-- A `struct usbi_io` on `io_head`.  Its `priv` is NULL until the backend has begun to submit it. -/
structure UsbiIo where
  type : TransferType
  status : IoStatus
  tvo : Timeval
  priv : Option UsbiIoPrivate

/-- The requests that the threads of the Linux backend wait for. -/
def UsbiIo.Waits (io : UsbiIo) : Prop := io.status = .inProgress ∧ io.type ≠ .isochronous

instance : DecidablePred UsbiIo.Waits := fun _ => inferInstanceAs (Decidable (_ ∧ _))

/-! ## Sleeping -/

/-- One request of the search for the earliest end time. -/
def soonerOf (io : UsbiIo) (tvo : Timeval) : Timeval :=
  if io.tvo.tv_sec ≠ 0 ∧ (tvo.tv_sec = 0 ∨ usbiTimevalCompare io.tvo tvo ≠ 0) then io.tvo else tvo

/-- The search in `timeout_thread`, with `tvo` found so far. -/
def timeoutThreadScan (tvo : Timeval) : List UsbiIo → Timeval
  | [] => tvo
  | io :: ios => if io.status ≠ .inProgress then timeoutThreadScan tvo ios else timeoutThreadScan (soonerOf io tvo) ios

/-- The search in `poll_io`, which ends at the first request that is not waited for. -/
def pollIoScan (tvo : Timeval) : List UsbiIo → Timeval
  | [] => tvo
  | io :: ios => if io.status ≠ .inProgress ∨ io.type = .isochronous then tvo else pollIoScan (soonerOf io tvo) ios

/-- The timeout for `select`, from the end time that was found. -/
def selectTimeout (tvc tvo : Timeval) : Timeval :=
  let tvo : Timeval :=
    if tvo.tv_sec = 0 then { tv_sec := tvc.tv_sec + 60 * 60, tv_usec := tvc.tv_usec }
    else if usbiTimevalCompare tvo tvc < 0 then tvc
    else tvo
  let sec := tvo.tv_sec - tvc.tv_sec
  if tvo.tv_usec < tvc.tv_usec then { tv_sec := sec - 1, tv_usec := tvo.tv_usec + (1000000 - tvc.tv_usec) }
  else { tv_sec := sec, tv_usec := tvo.tv_usec - tvc.tv_usec }

/-- The timeout that `timeout_thread` passes to `select`. -/
def timeoutThread (tvc : Timeval) (ios : List UsbiIo) : Timeval := selectTimeout tvc (timeoutThreadScan {} ios)

/-- The timeout that `poll_io` passes to `select`. -/
def pollIo (tvc : Timeval) (ios : List UsbiIo) : Timeval := selectTimeout tvc (pollIoScan {} ios)

/-- How long to sleep for a deadline: not at all if it is past, and an hour if there is none. -/
def sleepFor (now : ℤ) : Option ℤ → ℤ
  | none => 3600000000
  | some deadline => max 0 (deadline - now)

/-- A sleep until the earliest of the deadlines. -/
def SleepsUntil (now : TimeOfDay) (deadlines : List ℤ) (timeout : Timeval) : Prop :=
  timeout.Normalized ∧ timeout.micros = sleepFor now.micros deadlines.min?

/-- The deadline that is waited for instead is none behind the others, but for those that are past; without one there is
no deadline at all, or the earliest is an hour away. -/
def NoLater (now : ℤ) (chosen : Option ℤ) (deadlines : List ℤ) : Prop :=
  match chosen with
  | none => ∀ d ∈ deadlines.min?, d = now + 3600000000
  | some c => ∀ d ∈ deadlines, c ≤ max d now

def deadlinesOf (ios : List UsbiIo) : List ℤ := ios.map fun io => io.tvo.micros

/-- The requests that `timeout_thread` is to wait for. -/
def inProgressOf (ios : List UsbiIo) : List UsbiIo := ios.filter fun io => io.status = .inProgress

/-- The requests that `poll_io` is to wait for, and those of them that come before all others. -/
def waitingOf (ios : List UsbiIo) : List UsbiIo := ios.filter fun io => io.Waits

def waitingHead (ios : List UsbiIo) : List UsbiIo := ios.takeWhile fun io => io.Waits

section

variable {now : TimeOfDay} {tvo : Timeval} {ios : List UsbiIo}

/-- The end time of an in-progress request is always taken: an equal one makes no difference. -/
theorem soonerOf_eq {io : UsbiIo} (h : io.tvo.tv_sec ≠ 0) : soonerOf io tvo = io.tvo := by
  rw [soonerOf]
  split_ifs with hsooner
  · rfl
  · by_contra hne
    exact hsooner ⟨h, .inr fun heq => hne (timeval_compare_eq_zero.mp heq).symm⟩

theorem timeoutThreadScan_eq (h : ∀ io ∈ ios, io.tvo.tv_sec ≠ 0) :
    timeoutThreadScan tvo ios = ((inProgressOf ios).getLast?.map UsbiIo.tvo).getD tvo := by
  induction ios generalizing tvo with
  | nil => rfl
  | cons io ios ih =>
    have hrest : ∀ x ∈ ios, x.tvo.tv_sec ≠ 0 := fun x hx => h x (List.mem_cons_of_mem _ hx)
    rw [timeoutThreadScan, ih hrest, ih hrest, soonerOf_eq (h io List.mem_cons_self), inProgressOf, inProgressOf]
    by_cases hp : io.status = .inProgress
    · rw [if_neg (not_not.mpr hp), List.filter_cons_of_pos (by simpa using hp), List.getLast?_cons]
      cases (List.filter (fun io : UsbiIo => decide (io.status = .inProgress)) ios).getLast? <;> rfl
    · rw [if_pos hp, List.filter_cons_of_neg (by simpa using hp)]

theorem pollIoScan_eq (h : ∀ io ∈ ios, io.tvo.tv_sec ≠ 0) :
    pollIoScan tvo ios = ((waitingHead ios).getLast?.map UsbiIo.tvo).getD tvo := by
  induction ios generalizing tvo with
  | nil => rfl
  | cons io ios ih =>
    have hrest : ∀ x ∈ ios, x.tvo.tv_sec ≠ 0 := fun x hx => h x (List.mem_cons_of_mem _ hx)
    have hbreak : (io.status ≠ .inProgress ∨ io.type = .isochronous) ↔ ¬ io.Waits := by
      rw [UsbiIo.Waits, not_and_or, not_not]
    rw [pollIoScan, ih hrest, soonerOf_eq (h io List.mem_cons_self), waitingHead, waitingHead]
    by_cases hp : io.Waits
    · rw [if_neg (fun hb => hbreak.mp hb hp), List.takeWhile_cons_of_pos (by simpa using hp), List.getLast?_cons]
      cases (List.takeWhile (fun io : UsbiIo => decide io.Waits) ios).getLast? <;> rfl
    · rw [if_pos (hbreak.mpr hp), List.takeWhile_cons_of_neg (by simpa using hp)]
      rfl

/-- The timeout for `select` is a normalized time, and the right one for the end time that was found. -/
theorem selectTimeout_eq {found : Option Timeval} (h : ∀ t ∈ found, t.Normalized ∧ 0 < t.tv_sec) :
    (selectTimeout now.toTimeval (found.getD {})).Normalized ∧
      (selectTimeout now.toTimeval (found.getD {})).micros = sleepFor now.micros (found.map Timeval.micros) := by
  obtain ⟨hn0, hn1⟩ := now.normalized
  cases found with
  | none =>
    rw [Option.getD_none, selectTimeout, Option.map_none, sleepFor, Timeval.Normalized, Timeval.micros]
    dsimp only
    rw [if_pos rfl, if_neg (lt_irrefl _)]
    dsimp only
    omega
  | some t =>
    obtain ⟨ht, hsec⟩ := h t rfl
    have hcompare := compared_of_normalized ht now.normalized
    have hpast : usbiTimevalCompare t now.toTimeval < 0 ↔ t.micros < now.micros := by
      rw [hcompare, Int.sign_neg_iff]
      omega
    obtain ⟨ht0, ht1⟩ := ht
    rw [Option.getD_some, selectTimeout, Option.map_some, sleepFor, Timeval.Normalized, Timeval.micros, if_neg hsec.ne']
    by_cases hlt : t.micros < now.micros
    · rw [if_pos (hpast.mpr hlt), if_neg (lt_irrefl _)]
      dsimp only
      omega
    · rw [if_neg (fun h => hlt (hpast.mp h))]
      rw [Timeval.micros, Timeval.micros] at hlt ⊢
      split_ifs <;> dsimp only <;> omega

/-- When the wrong deadline gives the right sleep. -/
theorem sleepFor_eq_iff {n : ℤ} {chosen : Option ℤ} {ds : List ℤ} (h : ∀ c ∈ chosen, c ∈ ds) :
    sleepFor n chosen = sleepFor n ds.min? ↔ NoLater n chosen ds := by
  cases hmin : ds.min? with
  | none =>
    rw [List.min?_eq_none_iff] at hmin
    subst hmin
    cases chosen with
    | none => exact iff_of_true rfl fun d hd => absurd hd nofun
    | some c => exact absurd (h c rfl) List.not_mem_nil
  | some m =>
    obtain ⟨hmem, hle⟩ := List.min?_eq_some_iff.mp hmin
    cases chosen with
    | none =>
      have hright : NoLater n none ds ↔ m = n + 3600000000 := by
        rw [NoLater, hmin]
        exact ⟨fun hd => hd m rfl, fun heq d hd => by rw [← Option.mem_some_iff.mp hd, heq]⟩
      rw [hright, sleepFor, sleepFor]
      omega
    | some c =>
      have hc := hle c (h c rfl)
      rw [NoLater, sleepFor, sleepFor]
      constructor
      · intro heq d hd
        have := hle d hd
        omega
      · intro hall
        have := hall m hmem
        omega

theorem sleeps_of_scan {chosen all : List UsbiIo} (hall : ∀ io ∈ all, io.tvo.Normalized ∧ 0 < io.tvo.tv_sec)
    (hsub : ∀ io ∈ chosen, io ∈ all) :
    SleepsUntil now (deadlinesOf all) (selectTimeout now.toTimeval ((chosen.getLast?.map UsbiIo.tvo).getD {})) ↔
      NoLater now.micros (deadlinesOf chosen).getLast? (deadlinesOf all) := by
  have hlast : (chosen.getLast?.map UsbiIo.tvo).map Timeval.micros = (deadlinesOf chosen).getLast? := by
    rw [deadlinesOf, List.getLast?_map, Option.map_map]
    rfl
  have hfound : ∀ t ∈ chosen.getLast?.map UsbiIo.tvo, t.Normalized ∧ 0 < t.tv_sec := by
    intro t ht
    obtain ⟨io, hio, rfl⟩ := Option.mem_map.mp ht
    exact hall io (hsub io (List.mem_of_getLast? hio))
  obtain ⟨hnorm, hmicros⟩ := @selectTimeout_eq now _ hfound
  rw [SleepsUntil, and_iff_right hnorm, hmicros, hlast]
  refine sleepFor_eq_iff fun c hc => ?_
  obtain ⟨io, hio, rfl⟩ := List.mem_map.mp (List.mem_of_getLast? hc)
  exact List.mem_map_of_mem (hsub io hio)

end

/-- Both threads sleep until the earliest deadline of the requests that they wait for if and only if the last request of the
search, which for `poll_io` ends at the first one that it does not wait for, has no later deadline than the others. -/
theorem sleeps_iff (now : TimeOfDay) (ios : List UsbiIo) (hdeadlines : ∀ io ∈ ios, io.tvo.Normalized ∧ 0 < io.tvo.tv_sec) :
    (SleepsUntil now (deadlinesOf (inProgressOf ios)) (timeoutThread now.toTimeval ios) ∧
      SleepsUntil now (deadlinesOf (waitingOf ios)) (pollIo now.toTimeval ios)) ↔
    NoLater now.micros (deadlinesOf (inProgressOf ios)).getLast? (deadlinesOf (inProgressOf ios)) ∧
      NoLater now.micros (deadlinesOf (waitingHead ios)).getLast? (deadlinesOf (waitingOf ios)) := by
  have hsec : ∀ io ∈ ios, io.tvo.tv_sec ≠ 0 := fun io hio => (hdeadlines io hio).2.ne'
  have hhead : ∀ io ∈ waitingHead ios, io ∈ waitingOf ios := by
    intro io hio
    have hwaits : decide io.Waits = true := List.mem_takeWhile_imp (p := fun io : UsbiIo => decide io.Waits) hio
    exact List.mem_filter.mpr ⟨(List.takeWhile_prefix _).subset hio, hwaits⟩
  rw [timeoutThread, pollIo, timeoutThreadScan_eq hsec, pollIoScan_eq hsec]
  refine and_congr (sleeps_of_scan (fun io hio => ?_) fun _ h => h) (sleeps_of_scan (fun io hio => ?_) hhead)
  · exact hdeadlines io (List.mem_of_mem_filter hio)
  · exact hdeadlines io (List.mem_of_mem_filter hio)

/-- Two requests in their order of submission, due in 5 and in 15 seconds: both threads sleep for 15. -/
def laterLast : List UsbiIo := [⟨.bulk, .inProgress, ⟨10, 0⟩, none⟩, ⟨.bulk, .inProgress, ⟨20, 0⟩, none⟩]

theorem sleeps_too_long : timeoutThread ⟨5, 0⟩ laterLast = ⟨15, 0⟩ ∧ pollIo ⟨5, 0⟩ laterLast = ⟨15, 0⟩ ∧
    ¬ SleepsUntil ⟨⟨5, 0⟩, by decide⟩ (deadlinesOf (inProgressOf laterLast)) (timeoutThread ⟨5, 0⟩ laterLast) ∧
    ¬ SleepsUntil ⟨⟨5, 0⟩, by decide⟩ (deadlinesOf (waitingOf laterLast)) (pollIo ⟨5, 0⟩ laterLast) :=
  ⟨by decide, by decide, fun h => absurd h.2 (by decide), fun h => absurd h.2 (by decide)⟩

theorem sleeps_iff_later_last :
    (SleepsUntil ⟨⟨5, 0⟩, by decide⟩ (deadlinesOf (inProgressOf laterLast)) (timeoutThread ⟨5, 0⟩ laterLast) ∧
      SleepsUntil ⟨⟨5, 0⟩, by decide⟩ (deadlinesOf (waitingOf laterLast)) (pollIo ⟨5, 0⟩ laterLast)) ↔
    NoLater 5000000 (deadlinesOf (inProgressOf laterLast)).getLast? (deadlinesOf (inProgressOf laterLast)) ∧
      NoLater 5000000 (deadlinesOf (waitingHead laterLast)).getLast? (deadlinesOf (waitingOf laterLast)) :=
  sleeps_iff ⟨⟨5, 0⟩, by decide⟩ laterLast (by decide)

/-! ## The sweep -/

/-- The request after `discard_urbs` with the reap action `TIMEDOUT`. -/
def UsbiIo.discarded (io : UsbiIo) (priv : UsbiIoPrivate) : UsbiIo :=
  { io with priv := some { priv with urbs := discardUrbs (ownLayout priv.num_urbs) .timedout priv.urbs } }

/-- `io_timeout`: the requests after it, or `none` where it follows a NULL pointer. -/
def ioTimeout (tvc : Timeval) : List UsbiIo → Option (List UsbiIo)
  | [] => some []
  | io :: ios =>
    if io.status ≠ .inProgress ∨ io.type = .isochronous then some (io :: ios)
    else if usbiTimevalCompare io.tvo tvc ≤ 0 then
      match io.priv with
      | none => none
      | some priv => (ioTimeout tvc ios).map (io.discarded priv :: ·)
    else (ioTimeout tvc ios).map (io :: ·)

/-- A request that the sweep is to time out. -/
def UsbiIo.Expired (now : TimeOfDay) (io : UsbiIo) : Prop := io.Waits ∧ io.tvo.micros ≤ now.micros

instance (now : TimeOfDay) : DecidablePred (UsbiIo.Expired now) := fun _ => inferInstanceAs (Decidable (_ ∧ _))

/-- The request with its URBs discarded, if it has any. -/
def UsbiIo.timedOut (io : UsbiIo) : UsbiIo :=
  match io.priv with
  | none => io
  | some priv => io.discarded priv

/-- The list after a sweep that times out the expired requests and changes no other. -/
def swept (now : TimeOfDay) (ios : List UsbiIo) : List UsbiIo :=
  ios.map fun io => if io.Expired now then io.timedOut else io

/-- The sweep times out the expired requests, so that none of their URBs is pending, and changes no other. -/
def SweepsExpired (now : TimeOfDay) (ios : List UsbiIo) : Prop :=
  ioTimeout now.toTimeval ios = some (swept now ios) ∧
    ∀ io ∈ ios, io.Expired now → ∀ priv ∈ io.timedOut.priv, priv.urbs.reap_action = .timedout ∧
      ∀ j < priv.num_urbs, priv.urbs.kernel j ≠ .pending

/-- There is nothing to discard: the request has not been submitted, or it has no URBs and is marked as timed out. -/
def UsbiIo.Spent (io : UsbiIo) : Prop :=
  ∀ priv ∈ io.priv, priv.num_urbs = 0 ∧ priv.urbs.reap_action = .timedout

/-- No expired request that the sweep comes to is without its `priv`, and behind the first request that is not waited for
every expired one has nothing to discard. -/
def Reaches (now : TimeOfDay) (ios : List UsbiIo) : Prop :=
  (∀ io ∈ waitingHead ios, io.Expired now → io.priv ≠ none) ∧
    ∀ io ∈ ios.dropWhile fun io => io.Waits, io.Expired now → io.Spent

theorem discards_foldl (L : UrbLayout) (l : List ℕ) (s : UrbIo) :
    (l.foldl (fun s i => discardUrb L i s) s).discards = s.discards ++ l.map L.names := by
  induction l generalizing s with
  | nil => rw [List.foldl_nil, List.map_nil, List.append_nil]
  | cons i l ih =>
    have hone : (discardUrb L i s).discards = s.discards ++ [L.names i] := by
      rw [discardUrb]
      cases L.names i with
      | none => rfl
      | some j =>
        dsimp only
        split_ifs <;> rfl
    rw [List.foldl_cons, ih, hone, List.append_assoc, List.map_cons, List.singleton_append]

theorem discardUrb_own {n i : ℕ} (hi : i < n) (s : UrbIo) : (discardUrb (ownLayout n) i s).kernel =
    if s.kernel i = .pending then Function.update s.kernel i (.done (-ENOENT) 0) else s.kernel := by
  rw [discardUrb, show (ownLayout n).names i = some i from if_pos hi]
  dsimp only
  split_ifs <;> rfl

theorem discard_range {n m : ℕ} (hm : m ≤ n) (s : UrbIo) (j : ℕ) :
    ((List.range m).foldl (fun s i => discardUrb (ownLayout n) i s) s).kernel j =
      if j < m ∧ s.kernel j = .pending then .done (-ENOENT) 0 else s.kernel j := by
  induction m with
  | zero => rw [List.range_zero, List.foldl_nil, if_neg (fun h => absurd h.1 (Nat.not_lt_zero j))]
  | succ m ih =>
    have hbefore := ih (by omega)
    rw [List.range_succ, List.foldl_append, List.foldl_cons, List.foldl_nil, discardUrb_own (by omega)]
    by_cases hjm : j = m
    · subst hjm
      rw [if_neg (fun h => absurd h.1 (lt_irrefl j))] at hbefore
      rw [hbefore, if_congr (and_iff_right (Nat.lt_succ_self j)) rfl rfl]
      split_ifs
      · exact Function.update_self ..
      · exact hbefore
    · have hlt : j < m + 1 ∧ s.kernel j = .pending ↔ j < m ∧ s.kernel j = .pending := and_congr_left fun _ => by omega
      rw [if_congr hlt rfl rfl, ← hbefore]
      split_ifs
      · exact Function.update_of_ne hjm ..
      · rfl

/-- Every URB of the request that was pending is discarded, and only these. -/
theorem discardUrbs_own {n : ℕ} {action : ReapAction} {s : UrbIo} {j : ℕ} (hj : j < n) :
    (discardUrbs (ownLayout n) action s).kernel j = if s.kernel j = .pending then .done (-ENOENT) 0 else s.kernel j := by
  have hall := discard_range (le_refl n) { s with reap_action := action } j
  rw [if_congr (and_iff_right hj) rfl rfl] at hall
  exact hall

theorem timedOut_discards (io : UsbiIo) {priv : UsbiIoPrivate} (h : priv ∈ io.timedOut.priv) :
    priv.urbs.reap_action = .timedout ∧ ∀ j < priv.num_urbs, priv.urbs.kernel j ≠ .pending := by
  rw [UsbiIo.timedOut] at h
  cases hpriv : io.priv with
  | none =>
    rw [hpriv] at h
    exact absurd (hpriv.symm.trans h) nofun
  | some p =>
    rw [hpriv] at h
    obtain rfl := Option.some_inj.mp h
    refine ⟨(discardUrbs_frame (ownLayout p.num_urbs) .timedout p.urbs).action, fun j hj => ?_⟩
    rw [discardUrbs_own hj]
    split_ifs with hpending
    · nofun
    · exact hpending

theorem map_eq_self_iff {α : Type} {f : α → α} {l : List α} : l = l.map f ↔ ∀ x ∈ l, f x = x := by
  constructor
  · intro h
    have hmap : l.map f = l.map id := by rw [List.map_id, ← h]
    exact List.map_inj_left.mp hmap
  · intro h
    exact ((List.map_inj_left.mpr h).trans (List.map_id l)).symm

theorem timedOut_eq_self {io : UsbiIo} : io.timedOut = io ↔ io.Spent := by
  rw [UsbiIo.timedOut, UsbiIo.Spent]
  cases hpriv : io.priv with
  | none => exact iff_of_true rfl fun _ h => absurd h nofun
  | some priv =>
    have hself : io.discarded priv = io ↔ discardUrbs (ownLayout priv.num_urbs) .timedout priv.urbs = priv.urbs := by
      constructor
      · intro h
        have hp : (io.discarded priv).priv = io.priv := by rw [h]
        rw [hpriv] at hp
        exact congrArg UsbiIoPrivate.urbs (Option.some_inj.mp hp)
      · intro h
        rw [UsbiIo.discarded, h, ← hpriv]
    dsimp only
    rw [hself]
    constructor
    · rintro h p hp
      obtain rfl := Option.some_inj.mp hp
      have haction := (discardUrbs_frame (ownLayout priv.num_urbs) .timedout priv.urbs).action
      have hdiscards := discards_foldl (ownLayout priv.num_urbs) (List.range priv.num_urbs)
        { priv.urbs with reap_action := .timedout }
      have hsame : ((List.range priv.num_urbs).foldl (fun s i => discardUrb (ownLayout priv.num_urbs) i s)
          { priv.urbs with reap_action := .timedout }).discards = priv.urbs.discards := congrArg UrbIo.discards h
      rw [hsame] at hdiscards
      have hlen := congrArg List.length hdiscards
      rw [List.length_append, List.length_map, List.length_range] at hlen
      dsimp only at hlen
      exact ⟨by omega, (congrArg UrbIo.reap_action h).symm.trans haction⟩
    · intro h
      obtain ⟨hnum, haction⟩ := h priv rfl
      rw [discardUrbs, show (ownLayout priv.num_urbs).num_urbs = 0 from hnum, List.range_zero, List.foldl_nil, ← haction]

theorem swept_iff {now : TimeOfDay} {ios : List UsbiIo}
    (hstored : ∀ io ∈ ios, 0 ≤ io.tvo.tv_usec ∧ io.tvo.tv_usec ≤ 1000000) :
    ioTimeout now.toTimeval ios = some (swept now ios) ↔ Reaches now ios := by
  induction ios with
  | nil => exact iff_of_true rfl ⟨fun _ h => absurd h List.not_mem_nil, fun _ h => absurd h List.not_mem_nil⟩
  | cons io ios ih =>
    have hrest := ih fun x hx => hstored x (List.mem_cons_of_mem _ hx)
    obtain ⟨h0, h1⟩ := hstored io List.mem_cons_self
    have hpast := timeval_compare_nonpos h0 h1 now.normalized
    have hbreak : (io.status ≠ .inProgress ∨ io.type = .isochronous) ↔ ¬ io.Waits := by
      rw [UsbiIo.Waits, not_and_or, not_not]
    rw [swept, Reaches, ioTimeout, waitingHead]
    by_cases hwaits : io.Waits
    · rw [if_neg (fun hb => hbreak.mp hb hwaits), List.takeWhile_cons_of_pos (by simpa using hwaits),
        List.dropWhile_cons_of_pos (by simpa using hwaits), List.forall_mem_cons, List.map_cons]
      by_cases hexpired : io.Expired now
      · rw [if_pos (hpast.mpr hexpired.2), if_pos hexpired, UsbiIo.timedOut]
        cases hpriv : io.priv with
        | none => exact iff_of_false nofun fun h => absurd rfl (h.1.1 hexpired)
        | some priv =>
          dsimp only
          rw [Option.map_eq_some_iff]
          constructor
          · rintro ⟨swept, hswept, heq⟩
            obtain ⟨hhead, htail⟩ := hrest.mp (hswept.trans (congrArg some (List.cons.inj heq).2))
            exact ⟨⟨fun _ => nofun, hhead⟩, htail⟩
          · rintro ⟨⟨-, hhead⟩, htail⟩
            exact ⟨_, hrest.mpr ⟨hhead, htail⟩, rfl⟩
      · rw [if_neg (fun h => hexpired ⟨hwaits, hpast.mp h⟩), if_neg hexpired, Option.map_eq_some_iff]
        constructor
        · rintro ⟨swept, hswept, heq⟩
          obtain ⟨hhead, htail⟩ := hrest.mp (hswept.trans (congrArg some (List.cons.inj heq).2))
          exact ⟨⟨fun h => absurd h hexpired, hhead⟩, htail⟩
        · rintro ⟨⟨-, hhead⟩, htail⟩
          exact ⟨_, hrest.mpr ⟨hhead, htail⟩, rfl⟩
    · -- the sweep stops here, so nothing behind may need it
      rw [if_pos (hbreak.mpr hwaits), List.takeWhile_cons_of_neg (by simpa using hwaits),
        List.dropWhile_cons_of_neg (by simpa using hwaits), Option.some_inj, map_eq_self_iff]
      have hsame : ∀ x : UsbiIo, (if x.Expired now then x.timedOut else x) = x ↔ (x.Expired now → x.Spent) := by
        intro x
        split_ifs with hx
        · rw [timedOut_eq_self]
          exact ⟨fun h _ => h, fun h => h hx⟩
        · exact iff_of_true rfl fun h => absurd h hx
      constructor
      · exact fun h => ⟨fun x hx => absurd hx List.not_mem_nil, fun x hx => (hsame x).mp (h x hx)⟩
      · rintro ⟨-, h⟩
        exact fun x hx => (hsame x).mpr (h x hx)

/-- A sweep times out exactly the expired requests if and only if it reaches them: the first request on the list that is not
in progress or is isochronous ends it. -/
theorem sweep_iff (now : TimeOfDay) (ios : List UsbiIo)
    (hstored : ∀ io ∈ ios, 0 ≤ io.tvo.tv_usec ∧ io.tvo.tv_usec ≤ 1000000) :
    SweepsExpired now ios ↔ Reaches now ios := by
  rw [SweepsExpired, swept_iff hstored]
  exact and_iff_left fun io _ _ priv hpriv => timedOut_discards io hpriv

/-- An expired bulk request behind an isochronous one. -/
def behindIsoc : List UsbiIo :=
  [⟨.isochronous, .inProgress, ⟨100, 0⟩, none⟩, ⟨.bulk, .inProgress, ⟨10, 0⟩, some ⟨1, { kernel := fun _ => .pending }⟩⟩]

theorem expired_not_swept : ioTimeout ⟨50, 0⟩ behindIsoc = some behindIsoc ∧
    (∃ io ∈ behindIsoc, io.Expired ⟨⟨50, 0⟩, by decide⟩ ∧ ∃ priv ∈ io.priv, priv.urbs.kernel 0 = .pending) ∧
    ¬ SweepsExpired ⟨⟨50, 0⟩, by decide⟩ behindIsoc := by
  refine ⟨rfl, ⟨_, List.mem_cons_of_mem _ List.mem_cons_self, ⟨⟨rfl, by decide⟩, by decide⟩, _, rfl, rfl⟩, fun h => ?_⟩
  have hactions := congrArg (List.map fun io => io.priv.map fun priv => priv.urbs.reap_action) (Option.some_inj.mp h.1)
  exact absurd hactions (by decide)

theorem sweep_iff_behind_isoc : SweepsExpired ⟨⟨50, 0⟩, by decide⟩ behindIsoc ↔ Reaches ⟨⟨50, 0⟩, by decide⟩ behindIsoc :=
  sweep_iff ⟨⟨50, 0⟩, by decide⟩ behindIsoc (by decide)

end OpenUsb
