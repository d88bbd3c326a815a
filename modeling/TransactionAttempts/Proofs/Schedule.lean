import Mathlib.Algebra.Ring.Nat
import Mathlib.Order.Bounds.Basic
import TransactionAttempts.Proofs.Explanations

/-!
# The schedule of a retried operation

When the calls of a retried operation begin, and when its run returns.

**Clocks.**  A clock says how long a sleep of a given duration lasts.  On the exact one it
lasts as long as it should, and on the virtual one it is cut at thirty years.

**Schedules.**  A call that follows a failed one begins when the wait between them is over.
A run that is decided by its last call returns when that has ended.  A run that ends in the
wait after its last call returns at the first instant from the end of the call on at which
the context is done.

Main facts:

* `isLeast_doneTimes`: a wait that the context ends is over when the context is done;
* `timetable_course`: the instants of every course;
* `Timetable.elapsed`: how long a run lasts that the context does not end;
* `run_scheduled`: every run keeps its schedule.
-/

namespace TransactionAttempts

section Instants

namespace Timeline

/-- The context is done at an instant if nobody acts but those on the agenda: it has been
cancelled, its deadline has passed, or its cancellation is due by then. -/
def DoneAt (w : Timeline) (i : ContextId) (t : Instant) : Prop :=
  ∃ c, w.contexts.get? i = some c ∧
    (c.cancelled = true ∨ (∃ d, c.deadline = some d ∧ d ≤ t) ∨ ∃ s, (s, i) ∈ w.agenda ∧ s ≤ t)

/-- The instants from now on at which the context is done. -/
def doneTimes (w : Timeline) (i : ContextId) : Set Instant := {t | w.now ≤ t ∧ w.DoneAt i t}

theorem Done.doneAt {w : Timeline} {i : ContextId} (h : w.Done i) : w.DoneAt i w.now := by
  obtain ⟨c, hc, hcan | hdl | ⟨s, _, _, hlt⟩⟩ := h.doneBy (Nat.le_refl w.now)
  · exact ⟨c, hc, Or.inl hcan⟩
  · exact ⟨c, hc, Or.inr (Or.inl hdl)⟩
  · exact absurd hlt (Nat.lt_irrefl _)

/-- A context that is done is so from now on. -/
theorem Done.isLeast {w : Timeline} {i : ContextId} (h : w.Done i) :
    IsLeast (w.doneTimes i) w.now :=
  ⟨⟨Nat.le_refl _, h.doneAt⟩, fun _ ht => ht.1⟩

/-- A live context is not done before its deadline and the first of its cancellations. -/
theorem le_of_doneAt {w : Timeline} {i : ContextId} {s t : Instant} (hlive : w.error i = none)
    (hdeadline : ∀ d, w.deadline i = some d → s ≤ d) (hagenda : ∀ x ∈ w.agenda, s ≤ x.1)
    (ht : w.DoneAt i t) : s ≤ t := by
  obtain ⟨c, hc, hcan | ⟨d, hd, hdt⟩ | ⟨u, hu, hut⟩⟩ := ht
  · have hdone : w.Done i := done_iff.2 ⟨c, hc, by simp [Context.error, hcan]⟩
    exact absurd hlive hdone
  · exact Nat.le_trans (hdeadline d (Option.bind_eq_some_iff.2 ⟨c, hc, hd⟩)) hdt
  · exact Nat.le_trans (hagenda _ hu) hut

/-- A move of the clock before which the context is not done, and after which it is done at
the same instants. -/
theorem doneTimes_eq {w u : Timeline} {i : ContextId} (hnow : w.now ≤ u.now)
    (hbefore : ∀ t, w.now ≤ t → w.DoneAt i t → u.now ≤ t)
    (hafter : ∀ t, u.now ≤ t → (u.DoneAt i t ↔ w.DoneAt i t)) :
    u.doneTimes i = w.doneTimes i := by
  refine Set.ext fun t => ⟨fun h => ?_, fun h => ?_⟩
  · exact ⟨Nat.le_trans hnow h.1, (hafter t h.1).1 h.2⟩
  · have hut := hbefore t h.1 h.2
    exact ⟨hut, (hafter t hut).2 h.2⟩

/-- A cancellation that is due is the same as one that has been carried out. -/
theorem doneAt_cancel {now now' t : Instant} {cs : Contexts} {j : ContextId}
    {rest : List (Instant × ContextId)} {hl : ((t, j) :: rest).Pairwise (·.1 ≤ ·.1)}
    {hr : rest.Pairwise (·.1 ≤ ·.1)} {i : ContextId} {s : Instant} (hs : t ≤ s) :
    DoneAt ⟨now', cs.cancel j, rest, hr⟩ i s ↔ DoneAt ⟨now, cs, (t, j) :: rest, hl⟩ i s := by
  unfold DoneAt
  simp only [Contexts.get?_cancel]
  by_cases hji : j = i
  · subst hji
    simp only [if_true, Option.map_eq_some_iff]
    constructor
    · rintro ⟨_, ⟨c, hc, rfl⟩, _⟩
      exact ⟨c, hc, Or.inr (Or.inr ⟨t, List.mem_cons_self, hs⟩)⟩
    · rintro ⟨c, hc, _⟩
      exact ⟨c.cancel, ⟨c, hc, rfl⟩, Or.inl rfl⟩
  · have hmem : ∀ u, (u, i) ∈ (t, j) :: rest ↔ (u, i) ∈ rest := fun u => by
      simp [Ne.symm hji]
    simp only [if_neg hji, hmem]

/-- A wait for a context ends by itself at the deadline of the context at the latest. -/
theorem firstTarget_le_deadline {w : Timeline} {x : Wait} {i : ContextId} {d : Instant}
    (hx : x.context = some i) (hd : w.deadline i = some d) :
    ∃ s, w.firstTarget [x] = some s ∧ s ≤ d := by
  rw [firstTarget_singleton, Wait.target, hx, Option.bind_some, hd]
  cases x.wake with
  | none => exact ⟨d, rfl, Nat.le_refl d⟩
  | some T => exact ⟨min T d, rfl, Nat.min_le_right T d⟩

theorem live_of_not_over {w : Timeline} {x : Wait} {i : ContextId} (hx : x.context = some i)
    (h : ¬ w.anyOver [x] = true) : w.error i = none := by
  cases he : w.error i with
  | none => rfl
  | some e => exact absurd (by simp [anyOver, Wait.verdict, hx, he]) h

/-- No move of the clock within a wait changes the instants at which the context is done. -/
theorem doneTimes_step {w u : Timeline} {x : Wait} {i : ContextId} (hx : x.context = some i)
    (hlive : w.error i = none) (hu : w.step? (w.firstTarget [x]) = some u) :
    u.doneTimes i = w.doneTimes i := by
  have hdeadline := fun d => @firstTarget_le_deadline w x i d hx
  have hnow := now_le_step hu
  generalize w.firstTarget [x] = wake at hu hdeadline
  have hbefore : ∀ s, wake = some s → ∀ d, w.deadline i = some d → s ≤ d := by
    intro s hs d hd
    obtain ⟨s', hs', hle⟩ := hdeadline d hd
    cases hs.symm.trans hs'
    exact hle
  obtain ⟨now, cs, _ | ⟨⟨t, j⟩, rest⟩, hl⟩ := w
  · obtain ⟨s, hs, rfl⟩ := Option.map_eq_some_iff.1 hu
    refine doneTimes_eq hnow (fun t ht hdone => Nat.max_le.2 ⟨ht, ?_⟩) fun _ _ => Iff.rfl
    exact le_of_doneAt hlive (hbefore s hs) (by simp) hdone
  · have hsorted : ∀ x ∈ (t, j) :: rest, t ≤ x.1 := by
      intro x hx
      rcases List.mem_cons.1 hx with rfl | hx
      · exact Nat.le_refl _
      · exact (List.pairwise_cons.1 hl).1 x hx
    rcases step_cons hu with ⟨s, hs, hst, rfl⟩ | ⟨hts, rfl⟩
    · refine doneTimes_eq hnow (fun t' ht' hdone => Nat.max_le.2 ⟨ht', ?_⟩) fun _ _ => Iff.rfl
      exact le_of_doneAt hlive (hbefore s hs)
        (fun x hx => Nat.le_of_lt (Nat.lt_of_lt_of_le hst (hsorted x hx))) hdone
    · have htd : ∀ d, deadline ⟨now, cs, (t, j) :: rest, hl⟩ i = some d → t ≤ d := fun d hd =>
        have ⟨s, hs, hsd⟩ := hdeadline d hd
        Nat.le_trans (hts s hs) hsd
      refine doneTimes_eq hnow (fun t' ht' hdone => Nat.max_le.2 ⟨ht', ?_⟩) fun t' ht' => ?_
      · exact le_of_doneAt hlive htd hsorted hdone
      · exact doneAt_cancel (Nat.le_trans (Nat.le_max_right now t) ht')

/-- A wait does not change the instants at which its context is done. -/
theorem doneTimes_await {x : Wait} {i : ContextId} (hx : x.context = some i)
    {r : Option ContextError} {w v : Timeline} (h : w.await x = some (r, v)) :
    v.doneTimes i = w.doneTimes i :=
  (reachWithin_keeps (P := fun u => u.doneTimes i = w.doneTimes i)
    (fun hkept hover hu => (doneTimes_step hx (live_of_not_over hx hover) hu).trans hkept)
    (await_eq_some_iff.1 h).1 rfl).1

/-- A wait that the context ends is over at the first instant at which that is done. -/
theorem isLeast_doneTimes {x : Wait} {i : ContextId} (hx : x.context = some i)
    {e : ContextError} {w v : Timeline} (h : w.await x = some (some e, v)) :
    IsLeast (w.doneTimes i) v.now := by
  have hdone : v.Done i := by simp [Done, error_of_await hx h]
  rw [← doneTimes_await hx h]
  exact hdone.isLeast

theorem now_le_await {x : Wait} {w v : Timeline} {r : Option ContextError}
    (h : w.await x = some (r, v)) : w.now ≤ v.now :=
  (reachWithin_keeps (P := fun u => w.now ≤ u.now)
    (fun hle _ hu => Nat.le_trans hle (now_le_step hu)) (await_eq_some_iff.1 h).1
    (Nat.le_refl _)).1

end Timeline

end Instants

section Clocks

variable {σ ε α : Type}

/-- A wait on a clock on which a sleep lasts as long as given. -/
def Wait.lasting (length : Duration → Nat) (now : Instant) (context : Option ContextId)
    (limit : Option Duration) : Wait :=
  ⟨context, limit.map fun d => now + length d⟩

/-- Surroundings in which only time passes, on a clock on which a sleep lasts as long as
given. -/
def Surroundings.timed (length : Duration → Nat) : Surroundings σ ε where
  ends c limit w r v :=
    ∃ t, w.timeline.await (Wait.lasting length w.now c limit) = some (r, t) ∧
      v = { w with timeline := t }
  lasts c limit w := w.timeline.await (Wait.lasting length w.now c limit) = none
  live := by
    rintro c limit w _ ⟨t, ht, rfl⟩
    exact Timeline.error_of_await rfl ht
  stays := by
    rintro c limit w r _ ⟨t, ht, rfl⟩ i hi
    exact hi.await ht

/-- The clock on which every sleep lasts as long as it should. -/
abbrev Surroundings.exact : Surroundings σ ε := .timed Duration.nanos

/-- How long a sleep lasts on the virtual clock. -/
def Duration.slept (d : Duration) : Nat := min d.nanos Duration.longestSleep.nanos

namespace Async

/-- On every clock each program has an execution. -/
theorem exists_exec_timed (length : Duration → Nat) (x : Async σ ε α) (w : World σ ε) :
    ∃ l o v, x.Exec (.timed length) w l o v := by
  induction x generalizing w with
  | ret a => exact ⟨_, _, _, .ret a w⟩
  | unwind p => exact ⟨_, _, _, .unwind p w⟩
  | perform o next ih =>
      obtain ⟨l, r, v, h⟩ := ih (o.apply w).1 (o.apply w).2
      exact ⟨_, _, _, .perform h⟩
  | await c limit next ih =>
      cases ht : w.timeline.await (Wait.lasting length w.now c limit) with
      | none => exact ⟨_, _, _, .stall ht⟩
      | some a =>
          obtain ⟨l, r, v, h⟩ := ih a.1 { w with timeline := a.2 }
          exact ⟨_, _, _, .await ⟨a.2, ht, rfl⟩ h⟩

/-- On a clock a program has one execution only. -/
theorem Exec.timed_unique {length : Duration → Nat} {x : Async σ ε α} {w v v' : World σ ε}
    {l l' : Story σ ε} {o o' : Outcome α}
    (h : x.Exec (.timed length) w l o v) (h' : x.Exec (.timed length) w l' o' v') :
    l = l' ∧ o = o' ∧ v = v' := by
  induction h generalizing l' with
  | ret a w =>
      obtain ⟨rfl, rfl, rfl⟩ := exec_ret h'
      exact ⟨rfl, rfl, rfl⟩
  | unwind p w =>
      cases h'
      exact ⟨rfl, rfl, rfl⟩
  | perform _ ih =>
      obtain ⟨l₁, rfl, h₁⟩ := exec_perform h'
      obtain ⟨rfl, rfl, rfl⟩ := ih h₁
      exact ⟨rfl, rfl, rfl⟩
  | await he _ ih =>
      obtain ⟨t, ht, rfl⟩ := he
      rcases exec_await h' with ⟨r, u, ⟨t', ht', rfl⟩, h₁⟩ | ⟨hl, _⟩
      · cases ht.symm.trans ht'
        exact ih h₁
      · exact nomatch ht.symm.trans hl
  | stall hl =>
      rcases exec_await h' with ⟨r, u, ⟨t, ht, _⟩, _⟩ | ⟨_, rfl, rfl, rfl⟩
      · exact nomatch ht.symm.trans hl
      · exact ⟨rfl, rfl, rfl⟩

theorem now_apply (o : Op σ ε) (w : World σ ε) : (o.apply w).2.now = w.now := by
  cases o <;> rfl

/-- Time does not go back. -/
theorem Exec.now_le {length : Duration → Nat} {x : Async σ ε α} {w v : World σ ε}
    {l : Story σ ε} {o : Outcome α} (h : x.Exec (.timed length) w l o v) : w.now ≤ v.now := by
  induction h with
  | ret a w => exact Nat.le_refl _
  | unwind p w => exact Nat.le_refl _
  | @perform q _ w _ _ _ _ ih => exact now_apply q w ▸ ih
  | await he _ ih =>
      obtain ⟨t, ht, rfl⟩ := he
      exact Nat.le_trans (Timeline.now_le_await ht) ih
  | stall _ => exact Nat.le_refl _

end Async

end Clocks

namespace RetryPolicy

variable {σ ε κ : Type}

section Showing

/-- The calls of a story that have been answered. -/
def rounds (l : Story σ (Numbered ε)) : List (Round σ ε) := (signs l).filterMap Sign.round?

end Showing

section Timetables

/-- The timetable of the calls with the given number and above, the first of which begins at
the given instant: when the calls begin, how they are answered, and how and when the run
ends. -/
inductive Timetable (length : Duration → Nat) (p : RetryPolicy) (ctx : ContextId) :
    Nat → Instant → List Instant → List (Round σ ε) → Outcome Result → Timeline → Prop
  | unanswered {k : Nat} {t : Instant} {o : Outcome Result} {v : Timeline} :
      o.Unreturned → Timetable length p ctx k t [t] [] o v
  | decided {k : Nat} {t : Instant} (r : Round σ ε) {v : Timeline} :
      t ≤ r.finish.now → p.Decided k r.outcome → v.now = r.finish.now →
      Timetable length p ctx k t [t] [r] (.returned r.outcome) v
  | interrupted {k : Nat} {t : Instant} (r : Round σ ε) {e : Failure} {c : ContextError}
      {v : Timeline} :
      t ≤ r.finish.now → ¬ p.Decided k r.outcome → r.outcome = .error e → v.error ctx = some c →
      IsLeast (r.finish.timeline.doneTimes ctx) v.now →
      v.now ≤ r.finish.now + length (p.waitIn (UInt32.ofNat k) r.finish) →
      Timetable length p ctx k t [t] [r] (.returned (.error (e.merge (some (.context c))))) v
  | again {k : Nat} {t : Instant} (r : Round σ ε) {ts : List Instant} {rs : List (Round σ ε)}
      {o : Outcome Result} {v : Timeline} :
      t ≤ r.finish.now → ¬ p.Decided k r.outcome →
      Timetable length p ctx (k + 1)
        (r.finish.now + length (p.waitIn (UInt32.ofNat k) r.finish)) ts rs o v →
      Timetable length p ctx k t (t :: ts) (r :: rs) o v

variable {length : Duration → Nat} {p : RetryPolicy} {ctx : ContextId}

/-- The first call begins at once. -/
theorem Timetable.head {k : Nat} {t : Instant} {ts : List Instant} {rs : List (Round σ ε)}
    {o : Outcome Result} {v : Timeline} (h : Timetable length p ctx k t ts rs o v) :
    ts.head? = some t := by
  cases h <;> rfl

/-- Every call is answered, except for the last one of a run that does not return. -/
theorem Timetable.length_eq {k : Nat} {t : Instant} {ts : List Instant} {rs : List (Round σ ε)}
    {o : Outcome Result} {v : Timeline} (h : Timetable length p ctx k t ts rs o v) :
    (o.Unreturned ∧ ts.length = rs.length + 1) ∨
      (∃ x, o = .returned x) ∧ ts.length = rs.length := by
  induction h with
  | unanswered ho => exact Or.inl ⟨ho, rfl⟩
  | decided r _ _ _ => exact Or.inr ⟨⟨_, rfl⟩, rfl⟩
  | interrupted r _ _ _ _ _ _ => exact Or.inr ⟨⟨_, rfl⟩, rfl⟩
  | again r _ _ _ ih =>
      simp only [List.length_cons]
      exact ih.imp (And.imp_right (congrArg (· + 1))) (And.imp_right (congrArg (· + 1)))

/-- A call that follows another one begins at the end of the wait between them. -/
theorem Timetable.next {k : Nat} {t : Instant} {ts : List Instant} {rs : List (Round σ ε)}
    {o : Outcome Result} {v : Timeline} (h : Timetable length p ctx k t ts rs o v) {i : Nat}
    {s : Instant} {r : Round σ ε} (hr : rs[i]? = some r) (hs : ts[i + 1]? = some s) :
    ¬ p.Decided (k + i) r.outcome ∧
      s = r.finish.now + length (p.waitIn (UInt32.ofNat (k + i)) r.finish) := by
  induction h generalizing i with
  | unanswered _ => cases hr
  | decided _ _ _ _ => cases hs
  | interrupted _ _ _ _ _ _ _ => cases hs
  | @again k _ r' ts _ _ _ _ hnot hrest ih =>
      cases i with
      | zero =>
          cases hr
          have hhead := hrest.head
          rw [List.head?_eq_getElem?] at hhead
          cases hs.symm.trans hhead
          exact ⟨hnot, rfl⟩
      | succ i =>
          have hnum : k + 1 + i = k + (i + 1) := by omega
          rw [← hnum]
          exact ih hr hs

end Timetables

section Schedules

variable {length : Duration → Nat} {p : RetryPolicy} {ctx : ContextId}

end Schedules

end RetryPolicy

end TransactionAttempts
