import TransactionAttempts.Async.World

/-!
# Several programs at once

Programs that run jointly share one world.  A program that is resumed proceeds
until it waits or ends, so each goes on where it stopped and no two of them act
at the same time.

**Order.**  While some wait is over, all programs whose wait is over are resumed
in their order.  Otherwise the clock moves.

* `Async.poll` runs a program up to its next wait;
* `Task` is what is left of a program between two polls;
* `Task.Resumed` relates a task to those it can turn into; it is well-founded
  since programs are finite trees, and therefore a joint run ends.

Main fact: `Tasks.wellFounded_advanced`, on which the recursion of `Tasks.finish`
rests.
-/

namespace TransactionAttempts

/-- A program between two polls. -/
inductive Task (σ ε α : Type) where
  | ended (o : Outcome α)
  | parked (x : Wait) (next : Option ContextError → Async σ ε α)

variable {σ ε α : Type}

/-- Runs a program until it ends or has to wait. -/
def Async.poll : Async σ ε α → World σ ε → Task σ ε α × World σ ε
  | .ret a, w => (.ended (.returned a), w)
  | .unwind p, w => (.ended (.unwound p), w)
  | .perform o next, w => (next (o.apply w).1).poll (o.apply w).2
  | .await c limit next, w =>
      match (Wait.since w.now c limit).verdict w.timeline with
      | some r => (next r).poll w
      | none => (.parked (Wait.since w.now c limit) next, w)

namespace Task

/-- A program that has not been polled; nothing keeps it from starting. -/
def ofAsync (x : Async σ ε α) : Task σ ε α := .parked ⟨none, some 0⟩ fun _ => x

/-- How the task ended; a task that still waits has stalled. -/
def outcome : Task σ ε α → Outcome α
  | .ended o => o
  | .parked _ _ => .stalled

def waits : Task σ ε α → List Wait
  | .ended _ => []
  | .parked x _ => [x]

/-- Lets a task go on if its wait is over. -/
def resume? : Task σ ε α → World σ ε → Option (Task σ ε α × World σ ε)
  | .ended _, _ => none
  | .parked x next, w => (x.verdict w.timeline).map fun r => (next r).poll w

/-- The first task is what a poll can leave of the second. -/
inductive Resumed : Task σ ε α → Task σ ε α → Prop
  | poll (x : Wait) (next : Option ContextError → Async σ ε α)
      (r : Option ContextError) (w : World σ ε) :
      Resumed ((next r).poll w).1 (.parked x next)

theorem resumed_of_resume {t u : Task σ ε α} {w v : World σ ε}
    (h : u.resume? w = some (t, v)) : Resumed t u := by
  cases u with
  | ended o => nomatch h
  | parked x next =>
      obtain ⟨r, _, hr⟩ := Option.map_eq_some_iff.1 h
      have ht : ((next r).poll w).1 = t := congrArg Prod.fst hr
      exact ht ▸ Resumed.poll x next r w

theorem acc_poll (x : Async σ ε α) (w : World σ ε) : Acc Resumed (x.poll w).1 := by
  induction x generalizing w with
  | ret a => exact ⟨_, fun _ h => nomatch h⟩
  | unwind p => exact ⟨_, fun _ h => nomatch h⟩
  | perform o next ih => exact ih _ _
  | await c limit next ih =>
      simp only [Async.poll]
      split
      · exact ih _ _
      · exact ⟨_, fun _ h => by cases h with | poll _ _ r v => exact ih r v⟩

theorem wellFounded_resumed : WellFounded (Resumed (σ := σ) (ε := ε) (α := α)) :=
  ⟨fun _ => ⟨_, fun _ h => by cases h with | poll _ next r v => exact acc_poll (next r) v⟩⟩

end Task

namespace Tasks

/-- Resumes the tasks whose wait is over, in their order, each once.  The number
says how many were resumed. -/
def pass : List (Task σ ε α) → World σ ε → Nat × List (Task σ ε α) × World σ ε
  | [], w => (0, [], w)
  | t :: ts, w =>
      match t.resume? w with
      | some (u, v) =>
          let r := pass ts v
          (1 + r.1, u :: r.2.1, r.2.2)
      | none =>
          let r := pass ts w
          (r.1, t :: r.2.1, r.2.2)

/-- The first list comes from the second by resuming at least one task. -/
inductive Advanced : List (Task σ ε α) → List (Task σ ε α) → Prop
  | head {t u : Task σ ε α} {ts us : List (Task σ ε α)} :
      Task.Resumed t u → ts.length = us.length → Advanced (t :: ts) (u :: us)
  | tail {t : Task σ ε α} {ts us : List (Task σ ε α)} :
      Advanced ts us → Advanced (t :: ts) (t :: us)

theorem length_advanced {ts us : List (Task σ ε α)} (h : Advanced ts us) :
    ts.length = us.length := by
  induction h with
  | head _ h => simp [h]
  | tail _ ih => simp [ih]

theorem acc_advanced : ∀ (n : Nat) (ts : List (Task σ ε α)), ts.length = n → Acc Advanced ts
  | 0, ts, h => ⟨_, fun us hu => by
      rw [List.length_eq_zero_iff.1 h] at hu
      nomatch hu⟩
  | n + 1, t :: ts, h => by
      induction t using Task.wellFounded_resumed.induction generalizing ts with
      | _ t iht =>
          have hts : ts.length = n := by simpa using h
          induction acc_advanced n ts hts with
          | intro ts _ ihts =>
              refine ⟨_, fun us hu => ?_⟩
              cases hu with
              | head ht hl => exact iht _ ht _ (by simp [hl, hts])
              | tail hs =>
                  have hl := (length_advanced hs).trans hts
                  exact ihts _ hs (by simp [hl]) hl

theorem wellFounded_advanced : WellFounded (Advanced (σ := σ) (ε := ε) (α := α)) :=
  ⟨fun ts => acc_advanced ts.length ts rfl⟩

theorem length_pass (ts : List (Task σ ε α)) (w : World σ ε) :
    (pass ts w).2.1.length = ts.length := by
  induction ts generalizing w with
  | nil => rfl
  | cons t ts ih =>
      simp only [pass]
      split <;> simp [ih]

theorem advanced_pass (ts : List (Task σ ε α)) (w : World σ ε) (h : (pass ts w).1 ≠ 0) :
    Advanced (pass ts w).2.1 ts := by
  induction ts generalizing w with
  | nil => exact absurd rfl h
  | cons t ts ih =>
      simp only [pass] at h ⊢
      split at h
      · rename_i u v hu
        exact .head (Task.resumed_of_resume hu) (length_pass ts v)
      · exact .tail (ih w h)

/-- Lets the tasks go on until all have ended or none ever will. -/
def finish (ts : List (Task σ ε α)) (w : World σ ε) : List (Outcome α) × World σ ε :=
  match w.timeline.reach (ts.flatMap Task.waits) with
  | none => (ts.map Task.outcome, w)
  | some t =>
      let r := pass ts { w with timeline := t }
      if _h : r.1 = 0 then (ts.map Task.outcome, w) else finish r.2.1 r.2.2
termination_by wellFounded_advanced.wrap ts
decreasing_by exact advanced_pass ts _ (by assumption)

end Tasks

/-- Runs programs jointly to their ends. -/
def Async.runJointly (xs : List (Async σ ε α)) (w : World σ ε) :
    List (Outcome α) × World σ ε :=
  Tasks.finish (xs.map Task.ofAsync) w

end TransactionAttempts
