import Mathlib.Data.List.Forall2
import TransactionAttempts.Executor
import TransactionAttempts.Proofs.Retrying

/-!
# The course of an attempt

All that one attempt can come to, in any surroundings and for any pool and steps.

* `Undoing`: a rollback under a given context, and its report;
* `Undone`: the choice of that context;
* `Ran`: one step, whose panic is turned into a failure;
* `StepsCourse`: the steps from some index on;
* `AttemptCourse`: the whole attempt.

Main facts:

* `exec_attempt`: every execution of an attempt is a course;
* `alike_attempt`: attempts on like pools with like steps are alike.
-/

namespace TransactionAttempts

/-- The failure of an attempt whose step failed, joined with that of the rollback. -/
def Failure.abandoned (e : Failure) (later : Option Failure) : Failure :=
  if e.isStop || e.isCancellation then (e.cause.merge later).asStop else e.cause.merge later

section Worlds

variable {σ ε : Type}

/-- The world with a fresh context that lasts for the grace period. -/
def World.withGrace (w : World σ ε) (grace : Duration) : World σ ε :=
  { w with timeline := w.timeline.create (Context.create w.now (some grace)) }

/-- The world in which a capture has been entered. -/
def World.captured (w : World σ ε) : World σ ε := { w with capture := w.capture.enter }

/-- The world in which a capture has been left. -/
def World.released (w : World σ ε) : World σ ε := { w with capture := w.capture.leave }

/-- The world in which the record of a panic has been taken out. -/
def World.recovered (w : World σ ε) : World σ ε := { w with capture := w.capture.leave.take }

end Worlds

namespace Pool

variable {σ ε ε' τ : Type}

section Courses

variable (E : Surroundings σ ε) (pool : Pool σ ε τ) (ctx : ContextId) (grace : Duration)
  (k : UInt32)

/-- A rollback under a given context. -/
inductive Undoing (tx : τ) (given : ContextId) :
    World σ ε → Story σ ε → Outcome (Option Failure) → World σ ε → Prop
  | done {w v : World σ ε} {l : Story σ ε} :
      (pool.rollback tx given).Exec E w l (.returned (.ok ())) v →
      Undoing tx given w (l ++ [(v, .notice (.rolledBack k))]) (.returned none)
        (v.log (.notice (.rolledBack k)))
  | failed {w v : World σ ε} {l : Story σ ε} {e : Failure} :
      (pool.rollback tx given).Exec E w l (.returned (.error e)) v →
      Undoing tx given w (l ++ [(v, .notice (.rollbackFailed k e))])
        (.returned (some (.rollbackFailed e))) (v.log (.notice (.rollbackFailed k e)))
  | lost {w v : World σ ε} {l : Story σ ε} {o : Outcome Result} {o' : Outcome (Option Failure)} :
      (pool.rollback tx given).Exec E w l o v → o.Broken o' → Undoing tx given w l o' v

/-- A rollback under the caller's context while that is live, and under a fresh one otherwise. -/
inductive Undone (tx : τ) : World σ ε → Story σ ε → Outcome (Option Failure) → World σ ε → Prop
  | live {w v : World σ ε} {l : Story σ ε} {o : Outcome (Option Failure)} :
      w.timeline.error ctx = none → Undoing E pool k tx ctx w l o v → Undone tx w l o v
  | late {w v : World σ ε} {l : Story σ ε} {o : Outcome (Option Failure)} {c : ContextError} :
      w.timeline.error ctx = some c →
      Undoing E pool k tx w.timeline.contexts.size (w.withGrace grace) l o v → Undone tx w l o v

/-- One step.  It never unwinds. -/
inductive Ran (i : Nat) (body : Async σ ε Result) :
    World σ ε → Story σ ε → Outcome Result → World σ ε → Prop
  | returned {w u : World σ ε} {l : Story σ ε} {r : Result} :
      body.bracketed.Exec E w.captured l (.returned r) u →
      Ran i body w l (.returned r) u.released
  | panicked {w u : World σ ε} {l : Story σ ε} {p : Payload} {e : Failure} :
      body.bracketed.Exec E w.captured l (.unwound p) u → p.failure u.capture.record = e →
      Ran i body w (l ++ [(u.recovered, .notice (.stepPanicked k i e))]) (.returned (.error e))
        (u.recovered.log (.notice (.stepPanicked k i e)))
  | stalled {w u : World σ ε} {l : Story σ ε} :
      body.bracketed.Exec E w.captured l .stalled u → Ran i body w l .stalled u

/-- The steps from a given index on. -/
inductive StepsCourse (tx : τ) :
    Nat → List (Step σ ε τ) → World σ ε → Story σ ε → Outcome Result → World σ ε → Prop
  | passed {i : Nat} {w : World σ ε} : StepsCourse tx i [] w [] (.returned (.ok ())) w
  | interrupted {i : Nat} {step : Step σ ε τ} {rest : List (Step σ ε τ)} {w v : World σ ε}
      {l : Story σ ε} {o : Outcome (Option Failure)} {c : ContextError} :
      w.timeline.error ctx = some c →
      Undoing E pool k tx w.timeline.contexts.size (w.withGrace grace) l o v →
      StepsCourse tx i (step :: rest) w l
        (o.map fun later => .error (Failure.merge (.context c) later).asStop) v
  | stalled {i : Nat} {step : Step σ ε τ} {rest : List (Step σ ε τ)} {w v : World σ ε}
      {l : Story σ ε} :
      w.timeline.error ctx = none → Ran E k i (step tx) w l .stalled v →
      StepsCourse tx i (step :: rest) w l .stalled v
  | failed {i : Nat} {step : Step σ ε τ} {rest : List (Step σ ε τ)} {w u v : World σ ε}
      {l l' : Story σ ε} {e : Failure} {o : Outcome (Option Failure)} :
      w.timeline.error ctx = none → Ran E k i (step tx) w l (.returned (.error e)) u →
      Undone E pool ctx grace k tx u l' o v →
      StepsCourse tx i (step :: rest) w (l ++ l') (o.map fun later => .error (e.abandoned later)) v
  | next {i : Nat} {step : Step σ ε τ} {rest : List (Step σ ε τ)} {w u v : World σ ε}
      {l l' : Story σ ε} {o : Outcome Result} :
      w.timeline.error ctx = none → Ran E k i (step tx) w l (.returned (.ok ())) u →
      StepsCourse tx (i + 1) rest u l' o v → StepsCourse tx i (step :: rest) w (l ++ l') o v

/-- The world after an attempt has been announced. -/
def announced (steps : List (Step σ ε τ)) (w : World σ ε) : World σ ε :=
  w.log (.notice (.beginning k steps.length))

/-- A whole attempt. -/
inductive AttemptCourse (steps : List (Step σ ε τ)) :
    World σ ε → Story σ ε → Outcome Result → World σ ε → Prop
  | lost {w v : World σ ε} {l : Story σ ε} {o : Outcome (Except Failure τ)}
      {o' : Outcome Result} :
      (pool.begin ctx).Exec E (announced k steps w) l o v → o.Broken o' →
      AttemptCourse steps w ((w, .notice (.beginning k steps.length)) :: l) o' v
  | unopened {w v : World σ ε} {l : Story σ ε} {e : Failure} :
      (pool.begin ctx).Exec E (announced k steps w) l (.returned (.error e)) v →
      AttemptCourse steps w ((w, .notice (.beginning k steps.length)) :: l)
        (.returned (.error (.beginFailed e))) v
  | undone {w u v : World σ ε} {l l' : Story σ ε} {tx : τ} {o : Outcome Result} :
      (pool.begin ctx).Exec E (announced k steps w) l (.returned (.ok tx)) u →
      StepsCourse E pool ctx grace k tx 0 steps u l' o v → o ≠ .returned (.ok ()) →
      AttemptCourse steps w ((w, .notice (.beginning k steps.length)) :: (l ++ l')) o v
  | unfinished {w u u' v : World σ ε} {l l' l'' : Story σ ε} {tx : τ} {o o' : Outcome Result} :
      (pool.begin ctx).Exec E (announced k steps w) l (.returned (.ok tx)) u →
      StepsCourse E pool ctx grace k tx 0 steps u l' (.returned (.ok ())) u' →
      (pool.commit tx ctx).Exec E u' l'' o v → o.Broken o' →
      AttemptCourse steps w ((w, .notice (.beginning k steps.length)) :: (l ++ (l' ++ l''))) o' v
  | refused {w u u' v : World σ ε} {l l' l'' : Story σ ε} {tx : τ} {e : Failure} :
      (pool.begin ctx).Exec E (announced k steps w) l (.returned (.ok tx)) u →
      StepsCourse E pool ctx grace k tx 0 steps u l' (.returned (.ok ())) u' →
      (pool.commit tx ctx).Exec E u' l'' (.returned (.error e)) v →
      AttemptCourse steps w ((w, .notice (.beginning k steps.length)) :: (l ++ (l' ++ l'')))
        (.returned (.error (.commitFailed e))) v
  | committed {w u u' v : World σ ε} {l l' l'' : Story σ ε} {tx : τ} :
      (pool.begin ctx).Exec E (announced k steps w) l (.returned (.ok tx)) u →
      StepsCourse E pool ctx grace k tx 0 steps u l' (.returned (.ok ())) u' →
      (pool.commit tx ctx).Exec E u' l'' (.returned (.ok ())) v →
      AttemptCourse steps w
        ((w, .notice (.beginning k steps.length)) ::
          (l ++ (l' ++ (l'' ++ [(v, .notice (.committed k))]))))
        (.returned (.ok ())) (v.log (.notice (.committed k)))

end Courses

section Inversion

variable {E : Surroundings σ ε} {pool : Pool σ ε τ} {ctx : ContextId} {grace : Duration}
  {k : UInt32}

theorem exec_rollBack {tx : τ} {given : ContextId} {w v : World σ ε} {l : Story σ ε}
    {o : Outcome (Option Failure)} (h : (pool.rollBack k tx given).Exec E w l o v) :
    Undoing E pool k tx given w l o v := by
  rcases Async.exec_bind h with ⟨r, u, l₁, l₂, hr, h₁, rfl⟩ | ⟨o', hr, ho⟩
  · cases r with
    | ok _ =>
        obtain ⟨l₃, rfl, h₂⟩ := Async.exec_request_bind h₁
        obtain ⟨rfl, rfl, rfl⟩ := Async.exec_ret h₂
        exact .done hr
    | error e =>
        obtain ⟨l₃, rfl, h₂⟩ := Async.exec_request_bind h₁
        obtain ⟨rfl, rfl, rfl⟩ := Async.exec_ret h₂
        exact .failed hr
  · exact .lost hr ho

theorem exec_rollBackInGrace {tx : τ} {w v : World σ ε} {l : Story σ ε}
    {o : Outcome (Option Failure)} (h : (pool.rollBackInGrace grace k tx).Exec E w l o v) :
    Undoing E pool k tx w.timeline.contexts.size (w.withGrace grace) l o v := by
  obtain ⟨l', rfl, h'⟩ := Async.exec_request_bind h
  exact exec_rollBack h'

theorem exec_abandon {tx : τ} {e : Failure} {w v : World σ ε} {l : Story σ ε}
    {o : Outcome Failure} (h : (pool.abandon ctx grace k tx e).Exec E w l o v) :
    ∃ o', Undone E pool ctx grace k tx w l o' v ∧ o = o'.map e.abandoned := by
  rcases Async.exec_errorOf h with ⟨c, he, h'⟩ | ⟨he, h'⟩
  · obtain ⟨o', hu, rfl⟩ := Async.exec_map h'
    exact ⟨o', .late he (exec_rollBackInGrace hu), rfl⟩
  · obtain ⟨o', hu, rfl⟩ := Async.exec_map h'
    exact ⟨o', .live he (exec_rollBack hu), rfl⟩

theorem exec_runStep {i : Nat} {body : Async σ ε Result} {w v : World σ ε} {l : Story σ ε}
    {o : Outcome Result} (h : (runStep k i body).Exec E w l o v) : Ran E k i body w l o v := by
  rcases Async.exec_bind h with ⟨r, u, l₁, l₂, hb, h₁, rfl⟩ | ⟨o', hb, ho⟩
  · obtain ⟨o', u', hbody, hr, ⟨hst, _⟩ | ⟨_, rfl⟩⟩ := Async.exec_captured hb
    · cases hst
    · cases o' with
      | returned r' =>
          cases hr
          obtain ⟨rfl, rfl, rfl⟩ := Async.exec_ret h₁
          rw [List.append_nil]
          exact .returned hbody
      | unwound p =>
          cases hr
          obtain ⟨l₃, rfl, h₂⟩ := Async.exec_request_bind h₁
          obtain ⟨l₄, rfl, h₃⟩ := Async.exec_request_bind h₂
          obtain ⟨rfl, rfl, rfl⟩ := Async.exec_ret h₃
          exact .panicked hbody rfl
      | stalled => cases hr
  · obtain ⟨o'', u', hbody, rfl, ⟨hst, rfl⟩ | ⟨hst, _⟩⟩ := Async.exec_captured hb
    · cases o'' with
      | returned r => cases hst
      | unwound p => cases hst
      | stalled =>
          cases ho
          exact .stalled hbody
    · cases o'' with
      | returned r => cases ho
      | unwound p => cases ho
      | stalled => exact absurd rfl hst

theorem exec_runSteps {tx : τ} {i : Nat} {steps : List (Step σ ε τ)} {w v : World σ ε}
    {l : Story σ ε} {o : Outcome Result}
    (h : (pool.runSteps ctx grace k tx i steps).Exec E w l o v) :
    StepsCourse E pool ctx grace k tx i steps w l o v := by
  induction steps generalizing i w l with
  | nil =>
      obtain ⟨rfl, rfl, rfl⟩ := Async.exec_ret h
      exact .passed
  | cons step rest ih =>
      rcases Async.exec_errorOf h with ⟨c, he, h'⟩ | ⟨he, h'⟩
      · obtain ⟨o', hu, rfl⟩ := Async.exec_map h'
        exact .interrupted he (exec_rollBackInGrace hu)
      · rcases Async.exec_bind h' with ⟨r, u, l₁, l₂, hs, h₁, rfl⟩ | ⟨o', hs, ho⟩
        · cases r with
          | ok _ => exact .next he (exec_runStep hs) (ih h₁)
          | error e =>
              obtain ⟨o', ha, rfl⟩ := Async.exec_map h₁
              obtain ⟨o'', hu, rfl⟩ := exec_abandon ha
              have hmap : (o''.map e.abandoned).map Except.error =
                  o''.map fun later => (.error (e.abandoned later) : Result) := by
                cases o'' <;> rfl
              rw [hmap]
              exact .failed he (exec_runStep hs) hu
        · cases exec_runStep hs with
          | returned _ => cases ho
          | panicked _ _ => cases ho
          | stalled hb =>
              cases ho
              exact .stalled he (.stalled hb)

/-- Every execution of an attempt is a course. -/
theorem exec_attempt {steps : List (Step σ ε τ)} {w v : World σ ε} {l : Story σ ε}
    {o : Outcome Result} (h : (pool.attempt ctx grace steps k).Exec E w l o v) :
    AttemptCourse E pool ctx grace k steps w l o v := by
  obtain ⟨l₀, rfl, h₀⟩ := Async.exec_request_bind h
  show AttemptCourse E pool ctx grace k steps w ((w, .notice (.beginning k steps.length)) :: l₀) o v
  rcases Async.exec_bind h₀ with ⟨r, u, l₁, l₂, hb, h₁, rfl⟩ | ⟨o', hb, ho⟩
  · cases r with
    | error e =>
        obtain ⟨rfl, rfl, rfl⟩ := Async.exec_ret h₁
        rw [List.append_nil]
        exact .unopened hb
    | ok tx =>
        rcases Async.exec_bind h₁ with ⟨r, u', l₃, l₄, hs, h₂, rfl⟩ | ⟨o', hs, ho⟩
        · cases r with
          | error e =>
              obtain ⟨rfl, rfl, rfl⟩ := Async.exec_ret h₂
              rw [List.append_nil]
              exact .undone hb (exec_runSteps hs) (by simp)
          | ok _ =>
              rcases Async.exec_bind h₂ with ⟨r, u'', l₅, l₆, hc, h₃, rfl⟩ | ⟨o', hc, ho⟩
              · cases r with
                | error e =>
                    obtain ⟨rfl, rfl, rfl⟩ := Async.exec_ret h₃
                    rw [List.append_nil]
                    exact .refused hb (exec_runSteps hs) hc
                | ok _ =>
                    obtain ⟨l₇, rfl, h₄⟩ := Async.exec_request_bind h₃
                    obtain ⟨rfl, rfl, rfl⟩ := Async.exec_ret h₄
                    exact .committed hb (exec_runSteps hs) hc
              · exact .unfinished hb (exec_runSteps hs) hc ho
        · have hne : o' = o := by cases ho <;> rfl
          have hbroken : o ≠ .returned (.ok ()) := by cases ho <;> simp
          exact .undone hb (hne ▸ exec_runSteps hs) hbroken
  · exact .lost hb ho

end Inversion

section Agreement

open Async

/-- Pools whose programs are alike. -/
structure Alike (pool : Pool σ ε τ) (pool' : Pool σ ε' τ) : Prop where
  begin : ∀ ctx, Async.Alike (pool.begin ctx) (pool'.begin ctx)
  commit : ∀ tx ctx, Async.Alike (pool.commit tx ctx) (pool'.commit tx ctx)
  rollback : ∀ tx ctx, Async.Alike (pool.rollback tx ctx) (pool'.rollback tx ctx)

/-- Steps whose programs are alike. -/
def StepsAlike (steps : List (Step σ ε τ)) (steps' : List (Step σ ε' τ)) : Prop :=
  List.Forall₂ (fun s s' => ∀ tx, Async.Alike (s tx) (s' tx)) steps steps'

variable {pool : Pool σ ε τ} {pool' : Pool σ ε' τ}

theorem alike_rollBack (h : pool.Alike pool') (k : UInt32) (tx : τ) (ctx : ContextId) :
    Async.Alike (pool.rollBack k tx ctx) (pool'.rollBack k tx ctx) := by
  refine Alike.bind (h.rollback tx ctx) fun r => ?_
  cases r with
  | ok _ => exact Alike.bind (alike_emit (.notice (.rolledBack k)) _) fun _ => .ret _
  | error e => exact Alike.bind (alike_emit (.notice (.rollbackFailed k e)) _) fun _ => .ret _

theorem alike_rollBackInGrace (h : pool.Alike pool') (grace : Duration) (k : UInt32) (tx : τ) :
    Async.Alike (pool.rollBackInGrace grace k tx) (pool'.rollBackInGrace grace k tx) :=
  Alike.bind (alike_create (some grace)) fun c => alike_rollBack h k tx c

theorem alike_runStep (k : UInt32) (i : Nat) {body : Async σ ε Result} {body' : Async σ ε' Result}
    (h : Async.Alike body body') : Async.Alike (runStep k i body) (runStep k i body') := by
  refine Alike.bind h.captured fun r => ?_
  cases r with
  | ok r => exact .ret r
  | error p =>
      exact Alike.bind alike_takeRecord fun site =>
        Alike.bind (alike_emit (.notice (.stepPanicked k i (p.failure site))) _) fun _ => .ret _

theorem alike_abandon (h : pool.Alike pool') (ctx : ContextId) (grace : Duration) (k : UInt32)
    (tx : τ) (e : Failure) :
    Async.Alike (pool.abandon ctx grace k tx e) (pool'.abandon ctx grace k tx e) := by
  refine Alike.bind (alike_errorOf ctx) fun r => ?_
  cases r with
  | some c => exact Alike.bind (alike_rollBackInGrace h grace k tx) fun _ => .ret _
  | none => exact Alike.bind (alike_rollBack h k tx ctx) fun _ => .ret _

theorem alike_runSteps (h : pool.Alike pool') (ctx : ContextId) (grace : Duration) (k : UInt32)
    (tx : τ) {steps : List (Step σ ε τ)} {steps' : List (Step σ ε' τ)}
    (hs : StepsAlike steps steps') (i : Nat) :
    Async.Alike (pool.runSteps ctx grace k tx i steps)
      (pool'.runSteps ctx grace k tx i steps') := by
  induction hs generalizing i with
  | nil => exact .ret _
  | cons hstep _ ih =>
      refine Alike.bind (alike_errorOf ctx) fun r => ?_
      cases r with
      | some c => exact Alike.bind (alike_rollBackInGrace h grace k tx) fun _ => .ret _
      | none =>
          refine Alike.bind (alike_runStep k i (hstep tx)) fun r => ?_
          cases r with
          | ok _ => exact ih (i + 1)
          | error e => exact Alike.bind (alike_abandon h ctx grace k tx e) fun _ => .ret _

/-- Attempts on like pools with like steps are alike. -/
theorem alike_attempt (h : pool.Alike pool') (ctx : ContextId) (grace : Duration) (k : UInt32)
    {steps : List (Step σ ε τ)} {steps' : List (Step σ ε' τ)} (hs : StepsAlike steps steps') :
    Async.Alike (pool.attempt ctx grace steps k) (pool'.attempt ctx grace steps' k) := by
  refine Alike.bind (alike_emit (.notice (.beginning k steps.length)) _) fun _ => ?_
  refine Alike.bind (h.begin ctx) fun r => ?_
  cases r with
  | error e => exact .ret _
  | ok tx =>
      refine Alike.bind (alike_runSteps h ctx grace k tx hs 0) fun r => ?_
      cases r with
      | error e => exact .ret _
      | ok _ =>
          refine Alike.bind (h.commit tx ctx) fun r => ?_
          cases r with
          | error e => exact .ret _
          | ok _ => exact Alike.bind (alike_emit (.notice (.committed k)) _) fun _ => .ret _

end Agreement

end Pool

/-- Executors over like pools run alike with like steps. -/
theorem Executor.alike_run {σ ε ε' τ : Type} {pool : Pool σ ε τ} {pool' : Pool σ ε' τ}
    (h : pool.Alike pool') (p : RetryPolicy) (grace : Duration) (ctx : ContextId)
    {steps : List (Step σ ε τ)} {steps' : List (Step σ ε' τ)} (hs : Pool.StepsAlike steps steps') :
    Async.Alike ((Executor.mk (some pool) p grace).run ctx steps)
      ((Executor.mk (some pool') p grace).run ctx steps') := by
  have hnext : ∀ m m' : UInt32, m = m' →
      (nextAttempt pool ctx grace steps m).1 = (nextAttempt pool' ctx grace steps' m').1 ∧
        Async.Alike (nextAttempt pool ctx grace steps m).2
          (nextAttempt pool' ctx grace steps' m').2 := by
    rintro m _ rfl
    exact ⟨rfl, Pool.alike_attempt h ctx grace (m + 1) hs⟩
  exact RetryPolicy.alike_run p ctx hnext rfl

section Instances

/-- A pool that agrees to everything. -/
def Pool.agreeing : Pool Unit Unit Unit where
  begin _ := return .ok ()
  commit _ _ := return .ok ()
  rollback _ _ := return .ok ()

/-- A world with one live context. -/
def World.single {ε : Type} : World Unit ε :=
  { World.initial (fun _ => 0) () with timeline := Timeline.start.create Context.unbounded }

end Instances

end TransactionAttempts
