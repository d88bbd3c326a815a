import TransactionAttempts.Proofs.Attempts

/-!
# The calls of an executor

An executor calls the pool and the steps.  Its recorded run is that of the same
executor over the watched pool and the watched steps, so that its story tells of
every call.

* `Call`: a call, with the context or the transaction that it is given;
* `Executor.recorded`: the program that is run;
* `Executor.record`: the story of its run.

Main facts:

* `run_recorded`, `run_recordedAttempt`: the recorded run, or attempt, comes to the same
  outcome and the same world;
* `exec_begin`, `exec_commit`, `exec_rollback`: what the watched pool does is watched;
* `atCalls_watch`, `atCalls_wait`: which calls a story tells of;
* `report_ran`: what is reported of a step.
-/

namespace TransactionAttempts

/-- A call that an executor makes. -/
inductive Call (τ : Type) where
  | begin (given : ContextId)
  | step (index : Nat) (tx : τ)
  | commit (tx : τ) (given : ContextId)
  | rollback (tx : τ) (given : ContextId)

/-- What a call is answered with.  The answer of a step may be its panic. -/
abbrev Call.Reply {τ : Type} : Call τ → Type
  | .begin _ => Except Failure τ
  | .step _ _ => Except Payload Result
  | .commit _ _ => Result
  | .rollback _ _ => Result

/-- The events of a recorded run. -/
abbrev Recorded (ε τ : Type) := Watched ε (Call τ) Call.Reply

/-- An entry of the report on a recorded run. -/
abbrev Entry (τ : Type) := Item (Call τ) Call.Reply

variable {σ ε τ : Type}

section Recording

/-- A panic that was handed over is raised again. -/
def Async.rethrow : Except Payload Result → Async σ ε Result
  | .ok r => .ret r
  | .error p => .unwind p

/-- The pool, each of whose calls is watched. -/
def Pool.watched (pool : Pool σ ε τ) : Pool σ (Recorded ε τ) τ where
  begin ctx := Async.watch (Call.begin ctx) (pool.begin ctx)
  commit tx ctx := Async.watch (Call.commit tx ctx) (pool.commit tx ctx)
  rollback tx ctx := Async.watch (Call.rollback tx ctx) (pool.rollback tx ctx)

/-- The step as a watched call. -/
def Step.watched (index : Nat) (step : Step σ ε τ) : Step σ (Recorded ε τ) τ := fun tx =>
  (Async.watch (Call.step index tx) (step tx).caught).bind Async.rethrow

/-- The steps from a given index on as watched calls. -/
def watchSteps : Nat → List (Step σ ε τ) → List (Step σ (Recorded ε τ) τ)
  | _, [] => []
  | index, step :: rest => step.watched index :: watchSteps (index + 1) rest

theorem length_watchSteps (steps : List (Step σ ε τ)) (index : Nat) :
    (watchSteps index steps).length = steps.length := by
  induction steps generalizing index with
  | nil => rfl
  | cons step rest ih => exact congrArg (· + 1) (ih (index + 1))

/-- An attempt, each of whose calls is watched. -/
def Pool.recordedAttempt (pool : Pool σ ε τ) (ctx : ContextId) (grace : Duration)
    (steps : List (Step σ ε τ)) (k : UInt32) : Async σ (Recorded ε τ) Result :=
  pool.watched.attempt ctx grace (watchSteps 0 steps) k

namespace Executor

/-- The executor over the watched pool. -/
def watched (x : Executor σ ε τ) : Executor σ (Recorded ε τ) τ :=
  ⟨x.pool.map Pool.watched, x.retry, x.gracePeriod⟩

/-- The run of the executor, each of whose calls is watched. -/
def recorded (x : Executor σ ε τ) (ctx : ContextId) (steps : List (Step σ ε τ)) :
    Async σ (Recorded ε τ) Result :=
  x.watched.run ctx (watchSteps 0 steps)

/-- The attempts of a watched executor. -/
abbrev watchedAttempts (pool : Pool σ ε τ) (ctx : ContextId) (grace : Duration)
    (steps : List (Step σ ε τ)) : UInt32 → UInt32 × Async σ (Recorded ε τ) Result :=
  nextAttempt pool.watched ctx grace (watchSteps 0 steps)

/-- The story of the recorded run. -/
def record (x : Executor σ ε τ) (ctx : ContextId) (steps : List (Step σ ε τ))
    (w : World σ ε) : Story σ (Recorded ε τ) :=
  (x.recorded ctx steps).story w.untraced

end Executor

end Recording

section Agreement

open Async

theorem Async.caught_rethrow (x : Async σ ε Result) : x.caught.bind rethrow = x := by
  induction x with
  | ret a => rfl
  | unwind p => rfl
  | perform o next ih => exact congrArg (Async.perform o) (funext ih)
  | await c limit next ih => exact congrArg (Async.await c limit) (funext ih)

theorem Pool.alike_watched (pool : Pool σ ε τ) : pool.Alike pool.watched where
  begin ctx := @alike_watch σ ε (Call τ) Call.Reply (.begin ctx) (pool.begin ctx)
  commit tx ctx := @alike_watch σ ε (Call τ) Call.Reply (.commit tx ctx) (pool.commit tx ctx)
  rollback tx ctx := @alike_watch σ ε (Call τ) Call.Reply (.rollback tx ctx) (pool.rollback tx ctx)

theorem Step.alike_watched (index : Nat) (step : Step σ ε τ) (tx : τ) :
    Async.Alike (step tx) (step.watched index tx) := by
  have h : Async.Alike ((step tx).caught.bind rethrow) (step.watched index tx) := by
    refine Alike.bind
      (@alike_watch σ ε (Call τ) Call.Reply (.step index tx) (step tx).caught) fun r => ?_
    cases r with
    | ok r => exact .ret r
    | error p => exact .unwind p
  rwa [caught_rethrow] at h

theorem alike_watchSteps (steps : List (Step σ ε τ)) (index : Nat) :
    Pool.StepsAlike steps (watchSteps index steps) := by
  induction steps generalizing index with
  | nil => exact .nil
  | cons step rest ih => exact .cons (step.alike_watched index) (ih (index + 1))

/-- The recorded attempt comes to the same outcome and the same world. -/
theorem Pool.run_recordedAttempt (pool : Pool σ ε τ) (ctx : ContextId) (grace : Duration)
    (steps : List (Step σ ε τ)) (k : UInt32) (w : World σ ε) :
    ((pool.attempt ctx grace steps k).run w).1 =
        ((pool.recordedAttempt ctx grace steps k).run w.untraced).1 ∧
      ((pool.attempt ctx grace steps k).run w).2.Agree
        ((pool.recordedAttempt ctx grace steps k).run w.untraced).2 :=
  (Pool.alike_attempt pool.alike_watched ctx grace k (alike_watchSteps steps 0)).run
    w.agree_untraced_right

namespace Executor

theorem alike_recorded (x : Executor σ ε τ) (ctx : ContextId) (steps : List (Step σ ε τ)) :
    Async.Alike (x.run ctx steps) (x.recorded ctx steps) := by
  obtain ⟨pool, retry, grace⟩ := x
  cases pool with
  | none => exact .ret _
  | some pool => exact alike_run pool.alike_watched retry grace ctx (alike_watchSteps steps 0)

/-- The recorded run comes to the same outcome and the same world. -/
theorem run_recorded (x : Executor σ ε τ) (ctx : ContextId) (steps : List (Step σ ε τ))
    (w : World σ ε) :
    ((x.run ctx steps).run w).1 = ((x.recorded ctx steps).run w.untraced).1 ∧
      ((x.run ctx steps).run w).2.Agree ((x.recorded ctx steps).run w.untraced).2 :=
  (x.alike_recorded ctx steps).run w.agree_untraced_right

/-- The record of a run tells of an execution. -/
theorem exec_record (x : Executor σ ε τ) (ctx : ContextId) (steps : List (Step σ ε τ))
    (w : World σ ε) :
    (x.recorded ctx steps).Exec .clock w.untraced (x.record ctx steps w)
      ((x.run ctx steps).run w).1 ((x.recorded ctx steps).run w.untraced).2 := by
  rw [(x.run_recorded ctx steps w).1]
  exact Async.exec_run _ _

end Executor

end Agreement

section Stories

variable {P : World σ (Recorded ε τ) → Call τ → Prop} {l l' : Story σ (Recorded ε τ)}

/-- Every call that is told of fits the world in which it is made. -/
def AtCalls (P : World σ (Recorded ε τ) → Call τ → Prop) (l : Story σ (Recorded ε τ)) : Prop :=
  ∀ y ∈ l, ∀ c, y.2 = .mark (.called c) → P y.1 c

theorem AtCalls.nil : AtCalls P [] := fun _ hy => absurd hy List.not_mem_nil

theorem AtCalls.append (h : AtCalls P l) (h' : AtCalls P l') : AtCalls P (l ++ l') :=
  List.forall_mem_append.2 ⟨h, h'⟩

/-- One event in front, which fits if it is a call. -/
theorem AtCalls.cons {y : World σ (Recorded ε τ) × Event (Watched ε (Call τ) Call.Reply)}
    (hy : ∀ c, y.2 = .mark (.called c) → P y.1 c) (h : AtCalls P l) : AtCalls P (y :: l) :=
  List.forall_mem_cons.2 ⟨hy, h⟩

/-- What the library says is no call. -/
theorem atCalls_notice (w : World σ (Recorded ε τ)) (n : Notice) :
    AtCalls P [(w, .notice n)] :=
  .cons (fun _ hc => (nomatch hc)) .nil

/-- Nothing is called in a wait. -/
theorem atCalls_wait (p : RetryPolicy) (k : UInt32) (e : Failure) (w : World σ (Recorded ε τ)) :
    AtCalls P (p.waitStory k e w) :=
  .cons (fun _ hc => (nomatch hc)) (atCalls_notice _ _)

/-- What is told of a call is the call itself, and no other one. -/
theorem exists_watch {E : Surroundings σ (Recorded ε τ)} {c : Call τ} {x : Async σ ε c.Reply}
    {w v : World σ (Recorded ε τ)} {o : Outcome c.Reply}
    (h : (Async.watch c x).Exec E w l o v) :
    ∃ rest, l = (w, .mark (.called c)) :: rest ∧ AtCalls P rest := by
  have hwithin : ∀ l' : Story σ (Recorded ε τ), (∀ y ∈ l', ∃ e, y.2 = .mark (.within c e)) →
      AtCalls P l' := by
    intro l' hl' y hy d hd
    obtain ⟨e, he⟩ := hl' y hy
    cases he.symm.trans hd
  rcases Async.exec_watch h with ⟨r, u, l', hx, _, _, rfl⟩ | ⟨l', hx, _, rfl⟩
  · refine ⟨_, rfl, (hwithin l' (Async.exec_within hx)).append (.cons (fun d hd => ?_) .nil)⟩
    cases hd
  · exact ⟨_, rfl, hwithin l' (Async.exec_within hx)⟩

/-- A watched call fits if it does so when it is made. -/
theorem atCalls_watch {E : Surroundings σ (Recorded ε τ)} {c : Call τ} {x : Async σ ε c.Reply}
    {w v : World σ (Recorded ε τ)} {o : Outcome c.Reply} (hc : P w c)
    (h : (Async.watch c x).Exec E w l o v) : AtCalls P l := by
  obtain ⟨rest, rfl, hrest⟩ := exists_watch (P := P) h
  refine .cons (fun d hd => ?_) hrest
  cases hd
  exact hc

end Stories

section Reports

variable {E : Surroundings σ (Recorded ε τ)}

open Async

theorem Pool.exec_begin {pool : Pool σ ε τ} {given : ContextId}
    {w v : World σ (Recorded ε τ)} {l : Story σ (Recorded ε τ)} {o : Outcome (Except Failure τ)}
    (h : (pool.watched.begin given).Exec E w l o v) :
    (watch (Call.begin given) (pool.begin given)).Exec E w l o v :=
  h

theorem Pool.exec_commit {pool : Pool σ ε τ} {tx : τ} {given : ContextId}
    {w v : World σ (Recorded ε τ)} {l : Story σ (Recorded ε τ)} {o : Outcome Result}
    (h : (pool.watched.commit tx given).Exec E w l o v) :
    (watch (Call.commit tx given) (pool.commit tx given)).Exec E w l o v :=
  h

theorem Pool.exec_rollback {pool : Pool σ ε τ} {tx : τ} {given : ContextId}
    {w v : World σ (Recorded ε τ)} {l : Story σ (Recorded ε τ)} {o : Outcome Result}
    (h : (pool.watched.rollback tx given).Exec E w l o v) :
    (watch (Call.rollback tx given) (pool.rollback tx given)).Exec E w l o v :=
  h

/-- What a panic that was handed over becomes when it is raised again. -/
def Outcome.rethrown {α : Type} : Outcome (Except Payload α) → Outcome α
  | .returned (.ok a) => .returned a
  | .returned (.error p) => .unwound p
  | .unwound p => .unwound p
  | .stalled => .stalled

/-- Inside a capture, a watched step is a watched call whose panic is raised again. -/
theorem Step.exec_watched {step : Step σ ε τ} {i : Nat} {tx : τ} {w v : World σ (Recorded ε τ)}
    {l : Story σ (Recorded ε τ)} {o : Outcome Result}
    (h : (step.watched i tx).bracketed.Exec E w l o v) :
    ∃ o', (watch (Call.step i tx) (step tx).caught.bracketed).Exec E w l o' v ∧
      o = o'.rethrown ∧ ∀ p, o' ≠ .unwound p := by
  have h' : ((watch (Call.step i tx) (step tx).caught.bracketed).bind fun r =>
      (rethrow r).bracketed).Exec E w l o v := by
    rw [← bracketed_watch, ← bracketed_bind]
    exact h
  rcases exec_bind h' with ⟨r, u, l₁, l₂, hx, hr, rfl⟩ | ⟨o', hx, ho⟩
  · cases r with
    | ok r =>
        obtain ⟨rfl, rfl, rfl⟩ := exec_ret hr
        rw [List.append_nil]
        exact ⟨_, hx, rfl, fun p hp => nomatch hp⟩
    | error p =>
        cases hr
        rw [List.append_nil]
        exact ⟨_, hx, rfl, fun p hp => nomatch hp⟩
  · have hstalled : o' = .stalled := by
      rcases exec_watch hx with ⟨r, _, _, _, rfl, _, _⟩ | ⟨l', hw, _, _⟩
      · cases ho
      · -- what is caught does not unwind
        rw [bracketed_caught, ← caught_within] at hw
        obtain ⟨o'', _, rfl⟩ := exec_caught hw
        cases o'' with
        | returned a => cases ho
        | unwound p => cases ho
        | stalled => rfl
    subst hstalled
    cases ho
    exact ⟨.stalled, hx, rfl, fun p hp => nomatch hp⟩

/-- A watched step is told of, and its panic is an answer before it is raised again. -/
theorem Step.report_watched {step : Step σ ε τ} {i : Nat} {tx : τ}
    {w v : World σ (Recorded ε τ)} {l : Story σ (Recorded ε τ)} {o : Outcome Result}
    (h : (step.watched i tx).bracketed.Exec E w l o v) (ctx : ContextId) :
    (∃ r, o = .returned r ∧
        l.report ctx = [.called (.step i tx) (w.timeline.error ctx),
          .answered (.step i tx) (.ok r)]) ∨
      (∃ p, o = .unwound p ∧
        l.report ctx = [.called (.step i tx) (w.timeline.error ctx),
          .answered (.step i tx) (.error p)]) ∨
      (o = .stalled ∧ l.report ctx = [.called (.step i tx) (w.timeline.error ctx)]) := by
  obtain ⟨o', hx, rfl, hnot⟩ := Step.exec_watched h
  rcases report_watch hx ctx with ⟨r, rfl, hl⟩ | ⟨ho, hl⟩
  · cases r with
    | ok r => exact Or.inl ⟨r, rfl, hl⟩
    | error p => exact Or.inr (Or.inl ⟨p, rfl, hl⟩)
  · cases o' with
    | returned r => exact absurd rfl (ho r)
    | unwound p => exact absurd rfl (hnot p)
    | stalled => exact Or.inr (Or.inr ⟨rfl, hl⟩)

/-- What is reported of a step. -/
theorem Pool.report_ran {k : UInt32} {i : Nat} {step : Step σ ε τ} {tx : τ}
    {w v : World σ (Recorded ε τ)} {l : Story σ (Recorded ε τ)} {o : Outcome Result}
    (h : Ran E k i (step.watched i tx) w l o v) (ctx : ContextId) :
    (∃ r, o = .returned r ∧
        l.report ctx = [.called (.step i tx) (w.timeline.error ctx),
          .answered (.step i tx) (.ok r)]) ∨
      (∃ p site, o = .returned (.error (p.failure site)) ∧
        l.report ctx = [.called (.step i tx) (w.timeline.error ctx),
          .answered (.step i tx) (.error p), .notice (.stepPanicked k i (p.failure site))]) ∨
      (o = .stalled ∧ l.report ctx = [.called (.step i tx) (w.timeline.error ctx)]) := by
  cases h with
  | @returned u _ r hb =>
      rcases Step.report_watched hb ctx with ⟨r', hr, hl⟩ | ⟨p, hp, _⟩ | ⟨hs, _⟩
      · cases hr
        exact Or.inl ⟨r, rfl, hl⟩
      · cases hp
      · cases hs
  | @panicked u _ p e hb he =>
      rcases Step.report_watched hb ctx with ⟨r', hr, _⟩ | ⟨p', hp, hl⟩ | ⟨hs, _⟩
      · cases hr
      · cases hp
        cases he
        refine Or.inr (Or.inl ⟨p, u.capture.record, rfl, ?_⟩)
        rw [Story.report_append, hl]
        rfl
      · cases hs
  | stalled hb =>
      rcases Step.report_watched hb ctx with ⟨r', hr, _⟩ | ⟨p, hp, _⟩ | ⟨_, hl⟩
      · cases hr
      · cases hp
      · exact Or.inr (Or.inr ⟨rfl, hl⟩)

end Reports

end TransactionAttempts
