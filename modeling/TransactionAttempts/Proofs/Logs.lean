import TransactionAttempts.Proofs.Calls

/-!
# Logs of attempts and of runs

What happened in an attempt, and in a run, as data.  A log has a report, which lists
all calls with their answers and all that the library says, and a result.

**Attempts.**

* `unopened`: the transaction was not begun;
* `undone`: after some steps there was a setback, and a rollback followed;
* `finished`: all steps passed, and a commit followed.

**Runs.**  A run is a list of attempts with waits between them.  It ends with an
attempt or in the wait after one.

**Telling.**  `Told` relates the outcome of a program and what has been reported of
it to a result and a report.  Either the program has returned the result and the
report is complete, or it has not returned and a prefix has been reported.

Main facts:

* `told_attempt`: every attempt has a log that tells of it;
* `told_run`: so has every run;
* `told_run_returned`: the log of a run that returns ends as the run does.
-/

namespace TransactionAttempts

variable {σ ε τ α β ι : Type}

section Telling

/-- The program has returned the result and said the whole word, or it has not returned
and has said a prefix of it. -/
inductive Told : Outcome α → List ι → α → List ι → Prop
  | whole (a : α) (word : List ι) : Told (.returned a) word a word
  | part {o : Outcome α} {said word : List ι} {a : α} :
      o.Unreturned → said <+: word → Told o said a word

theorem Told.map {o : Outcome α} {said word : List ι} {a : α} (h : Told o said a word)
    (f : α → β) : Told (o.map f) said (f a) word := by
  cases h with
  | whole => exact .whole (f a) _
  | part ho hp =>
      refine .part ?_ hp
      cases o with
      | returned b => exact absurd rfl (ho b)
      | unwound p => exact fun b hb => nomatch hb
      | stalled => exact fun b hb => nomatch hb

theorem Told.behind {o : Outcome α} {said word : List ι} {a : α} (h : Told o said a word)
    (before : List ι) : Told o (before ++ said) a (before ++ word) := by
  cases h with
  | whole => exact .whole a _
  | part ho hp => exact .part ho ((List.prefix_append_right_inj before).2 hp)

/-- What is told of a word is told of what it is translated to. -/
theorem Told.filterMap {o : Outcome α} {said word : List ι} {a : α} {κ : Type}
    (h : Told o said a word) (f : ι → Option κ) : Told o (said.filterMap f) a (word.filterMap f) := by
  cases h with
  | whole => exact .whole a _
  | part ho hp => exact .part ho (hp.filterMap f)

theorem Told.returned {said word : List ι} {a b : α} (h : Told (.returned b) said a word) :
    a = b ∧ said = word := by
  cases h with
  | whole => exact ⟨rfl, rfl⟩
  | part ho _ => exact absurd rfl (ho b)

/-- What is said is a prefix of the word. -/
theorem Told.said {o : Outcome α} {said word : List ι} {a : α} (h : Told o said a word) :
    said <+: word := by
  cases h with
  | whole => exact List.prefix_refl _
  | part _ hp => exact hp

end Telling

section Attempts

/-- A rollback: the context that it was given, the error of the caller's context when it
was called, and its answer. -/
structure Undo where
  given : ContextId
  error : Option ContextError
  reply : Result

namespace Undo

/-- The failure of the rollback, if any. -/
def later (u : Undo) : Option Failure :=
  match u.reply with
  | .ok () => none
  | .error e => some (.rollbackFailed e)

def notice (u : Undo) (k : UInt32) : Notice :=
  match u.reply with
  | .ok () => .rolledBack k
  | .error e => .rollbackFailed k e

def report (u : Undo) (tx : τ) (k : UInt32) : List (Entry τ) :=
  [.called (.rollback tx u.given) u.error, .answered (.rollback tx u.given) u.reply,
    .notice (u.notice k)]

end Undo

/-- Why an attempt is undone. -/
inductive Setback where
  /-- The caller's context was done before a step. -/
  | interrupted (cause : ContextError)
  | failed (e : Failure)
  | panicked (p : Payload) (site : Option PanicSite)

namespace Setback

/-- The failure of the attempt, joined with that of the rollback. -/
def failure : Setback → Option Failure → Failure
  | interrupted cause, later => (Failure.merge (.context cause) later).asStop
  | failed e, later => e.abandoned later
  | panicked p site, later => (p.failure site).abandoned later

/-- The step with the given index is called, unless the context was done before. -/
def report (tx : τ) (k : UInt32) (i : Nat) : Setback → List (Entry τ)
  | interrupted _ => []
  | failed e => [.called (.step i tx) none, .answered (.step i tx) (.ok (.error e))]
  | panicked p site =>
      [.called (.step i tx) none, .answered (.step i tx) (.error p),
        .notice (.stepPanicked k i (p.failure site))]

/-- A context that was done before a step has the same error when the rollback is called. -/
def Fits (u : Undo) : Setback → Prop
  | interrupted cause => u.error = some cause
  | _ => True

end Setback

/-- Some steps from a given index on, each of which was called while the context was
live and has succeeded. -/
def passedSteps (tx : τ) (i j : Nat) : List (Entry τ) :=
  (List.range' i j).flatMap fun i =>
    [.called (.step i tx) none, .answered (.step i tx) (.ok (.ok ()))]

theorem passedSteps_succ (tx : τ) (i j : Nat) :
    passedSteps tx i (j + 1) =
      [.called (.step i tx) none, .answered (.step i tx) (.ok (.ok ()))] ++
        passedSteps tx (i + 1) j := by
  simp only [passedSteps, List.range'_succ, List.flatMap_cons]

/-- Steps from a given index on, the setback after some of them, and the rollback. -/
def undoneReport (tx : τ) (k : UInt32) (i j : Nat) (s : Setback) (u : Undo) : List (Entry τ) :=
  passedSteps tx i j ++ (s.report tx k (i + j) ++ u.report tx k)

theorem undoneReport_succ (tx : τ) (k : UInt32) (i j : Nat) (s : Setback) (u : Undo) :
    undoneReport tx k i (j + 1) s u =
      [.called (.step i tx) none, .answered (.step i tx) (.ok (.ok ()))] ++
        undoneReport tx k (i + 1) j s u := by
  have hij : i + (j + 1) = i + 1 + j := by omega
  simp only [undoneReport, passedSteps_succ, hij, List.append_assoc]

/-- What happened in an attempt. -/
inductive AttemptLog (τ : Type) where
  | unopened (e : Failure)
  | undone (tx : τ) (passed : Nat) (setback : Setback) (undo : Undo)
  | finished (tx : τ) (error : Option ContextError) (reply : Result)

namespace AttemptLog

def result : AttemptLog τ → Result
  | unopened e => .error (.beginFailed e)
  | undone _ _ s u => .error (s.failure u.later)
  | finished _ _ (.error e) => .error (.commitFailed e)
  | finished _ _ (.ok ()) => .ok ()

/-- What follows the call that begins the transaction, for the given number of steps. -/
def tail (ctx : ContextId) (n : Nat) (k : UInt32) : AttemptLog τ → List (Entry τ)
  | unopened e => [.answered (.begin ctx) (.error e)]
  | undone tx passed s u => .answered (.begin ctx) (.ok tx) :: undoneReport tx k 0 passed s u
  | finished tx error (.error e) =>
      .answered (.begin ctx) (.ok tx) :: (passedSteps tx 0 n ++
        [.called (.commit tx ctx) error, .answered (.commit tx ctx) (.error e)])
  | finished tx error (.ok ()) =>
      .answered (.begin ctx) (.ok tx) :: (passedSteps tx 0 n ++
        [.called (.commit tx ctx) error, .answered (.commit tx ctx) (.ok ()),
          .notice (.committed k)])

/-- The report of an attempt, where the caller's context has the given error at its
beginning. -/
def report (ctx : ContextId) (start : Option ContextError) (n : Nat) (k : UInt32)
    (log : AttemptLog τ) : List (Entry τ) :=
  .notice (.beginning k n) :: .called (.begin ctx) start :: log.tail ctx n k

/-- The setback was met before the steps had all passed. -/
def Fits (n : Nat) : AttemptLog τ → Prop
  | undone _ passed s u => passed < n ∧ s.Fits u
  | _ => True

end AttemptLog

variable {E : Surroundings σ (Recorded ε τ)} {pool : Pool σ ε τ} {ctx : ContextId}
  {grace : Duration} {k : UInt32}

theorem told_undoing (ctx : ContextId) {tx : τ} {given : ContextId}
    {w v : World σ (Recorded ε τ)} {l : Story σ (Recorded ε τ)} {o : Outcome (Option Failure)}
    (h : Pool.Undoing E pool.watched k tx given w l o v) :
    ∃ u : Undo, u.given = given ∧ u.error = w.timeline.error ctx ∧
      Told o (l.report ctx) u.later (u.report tx k) := by
  cases h with
  | done h =>
      refine ⟨⟨given, w.timeline.error ctx, .ok ()⟩, rfl, rfl, ?_⟩
      rw [Story.report_append, Async.report_returned (Pool.exec_rollback h)]
      exact .whole none _
  | @failed v l e h =>
      refine ⟨⟨given, w.timeline.error ctx, .error e⟩, rfl, rfl, ?_⟩
      rw [Story.report_append, Async.report_returned (Pool.exec_rollback h)]
      exact .whole (some (Failure.rollbackFailed e)) _
  | lost h ho =>
      refine ⟨⟨given, w.timeline.error ctx, .ok ()⟩, rfl, rfl, ?_⟩
      rw [Async.report_unreturned (Pool.exec_rollback h) ho.left]
      exact .part ho.right ⟨_, rfl⟩

theorem told_undone {tx : τ} {w v : World σ (Recorded ε τ)} {l : Story σ (Recorded ε τ)}
    {o : Outcome (Option Failure)} (h : Pool.Undone E pool.watched ctx grace k tx w l o v) :
    ∃ u : Undo, Told o (l.report ctx) u.later (u.report tx k) := by
  cases h with
  | live _ h =>
      obtain ⟨u, _, _, hu⟩ := told_undoing ctx h
      exact ⟨u, hu⟩
  | late _ h =>
      obtain ⟨u, _, _, hu⟩ := told_undoing ctx h
      exact ⟨u, hu⟩

/-- The steps from an index on either all pass, or there is a setback after some of
them, and then the transaction is rolled back. -/
theorem told_steps {tx : τ} {i : Nat} {steps : List (Step σ ε τ)}
    {w v : World σ (Recorded ε τ)} {l : Story σ (Recorded ε τ)} {o : Outcome Result}
    (h : Pool.StepsCourse E pool.watched ctx grace k tx i (watchSteps i steps) w l o v) :
    (o = .returned (.ok ()) ∧ l.report ctx = passedSteps tx i steps.length) ∨
      (o ≠ .returned (.ok ()) ∧ ∃ j s u, j < steps.length ∧ s.Fits u ∧
        Told o (l.report ctx) (.error (s.failure u.later)) (undoneReport tx k i j s u)) := by
  induction steps generalizing i w l with
  | nil =>
      cases h with
      | passed => exact Or.inl ⟨rfl, rfl⟩
  | cons step rest ih =>
      have hne : ∀ {γ : Type} (o : Outcome γ) (f : γ → Failure),
          o.map (fun a => (.error (f a) : Result)) ≠ .returned (.ok ()) := by
        intro γ o f
        cases o <;> exact fun hr => nomatch hr
      cases h with
      | interrupted he h =>
          obtain ⟨u, _, hu, ht⟩ := told_undoing ctx h
          refine Or.inr ⟨hne _ _, 0, .interrupted _, u, Nat.succ_pos _, ?_, ht.map _⟩
          exact hu.trans (Timeline.error_create he _)
      | stalled he h =>
          rcases Pool.report_ran h ctx with ⟨r, hr, _⟩ | ⟨p, site, hr, _⟩ | ⟨_, hl⟩
          · cases hr
          · cases hr
          · refine Or.inr ⟨by simp, 0, .failed default, ⟨ctx, none, .ok ()⟩, Nat.succ_pos _,
              trivial, .part (by simp [Outcome.Unreturned]) ?_⟩
            rw [hl, he]
            exact ⟨_, rfl⟩
      | @failed _ _ _ _ u _ l₁ l₂ e o he h hu =>
          refine Or.inr ⟨hne _ _, 0, ?_⟩
          obtain ⟨undo, ht⟩ := told_undone hu
          rw [Story.report_append]
          rcases Pool.report_ran h ctx with ⟨r, hr, hl⟩ | ⟨p, site, hr, hl⟩ | ⟨hr, _⟩
          · cases hr
            refine ⟨.failed e, undo, Nat.succ_pos _, trivial, ?_⟩
            rw [hl, he]
            exact (ht.map _).behind _
          · cases hr
            refine ⟨.panicked p site, undo, Nat.succ_pos _, trivial, ?_⟩
            rw [hl, he]
            exact (ht.map _).behind _
          · cases hr
      | next he h hrest =>
          rw [Story.report_append]
          have hl := Pool.report_ran h ctx
          rcases hl with ⟨r, hr, hl⟩ | ⟨p, site, hr, _⟩ | ⟨hr, _⟩
          · cases hr
            rw [hl, he]
            rcases ih hrest with ⟨rfl, hr⟩ | ⟨ho, j, s, u, hj, hs, ht⟩
            · refine Or.inl ⟨rfl, ?_⟩
              rw [hr]
              exact (passedSteps_succ tx i rest.length).symm
            · refine Or.inr ⟨ho, j + 1, s, u, Nat.succ_lt_succ hj, hs, ?_⟩
              rw [undoneReport_succ]
              exact ht.behind _
          · cases hr
          · cases hr

/-- Steps that have all passed are reported as such. -/
theorem report_passed {tx : τ} {i : Nat} {steps : List (Step σ ε τ)}
    {w v : World σ (Recorded ε τ)} {l : Story σ (Recorded ε τ)}
    (h : Pool.StepsCourse E pool.watched ctx grace k tx i (watchSteps i steps) w l
      (.returned (.ok ())) v) : l.report ctx = passedSteps tx i steps.length := by
  rcases told_steps h with ⟨_, hl⟩ | ⟨hne, _⟩
  · exact hl
  · exact absurd rfl hne

/-- Every attempt has a log that tells of it, and in which it is committed only if it
has returned. -/
theorem told_attempt {steps : List (Step σ ε τ)} {w v : World σ (Recorded ε τ)}
    {l : Story σ (Recorded ε τ)} {o : Outcome Result}
    (h : Pool.AttemptCourse E pool.watched ctx grace k (watchSteps 0 steps) w l o v) :
    ∃ log : AttemptLog τ, log.Fits steps.length ∧
      (log.result = .ok () → o = .returned (.ok ())) ∧
      Told o (l.report ctx) log.result
        (log.report ctx (w.timeline.error ctx) steps.length k) := by
  have hhead : ∀ (u : World σ (Recorded ε τ)) (l' : Story σ (Recorded ε τ)),
      Story.report ctx ((u, .notice (.beginning k (watchSteps 0 steps).length)) :: l') =
        .notice (.beginning k steps.length) :: l'.report ctx := by
    intro u l'
    rw [length_watchSteps]
    rfl
  cases h with
  | lost h ho =>
      refine ⟨.unopened default, trivial, fun h => (nomatch h), .part ho.right ?_⟩
      rw [hhead, Async.report_unreturned (Pool.exec_begin h) ho.left]
      exact ⟨_, rfl⟩
  | @unopened _ l e h =>
      refine ⟨.unopened e, trivial, fun h => (nomatch h), ?_⟩
      rw [hhead, Async.report_returned (Pool.exec_begin h)]
      exact .whole _ _
  | @undone _ _ _ _ tx o h hs hne =>
      have hb := Async.report_returned (Pool.exec_begin h) ctx
      rcases told_steps hs with ⟨ho, _⟩ | ⟨_, j, s, u, hj, hsu, ht⟩
      · exact absurd ho hne
      · refine ⟨.undone tx j s u, ⟨hj, hsu⟩, fun h => (nomatch h), ?_⟩
        rw [hhead, Story.report_append, hb]
        exact ht.behind [.notice (.beginning k steps.length),
          .called (.begin ctx) (w.timeline.error ctx), .answered (.begin ctx) (.ok tx)]
  | @unfinished _ u' _ _ _ _ tx o o' h hs hc ho =>
      have hb := Async.report_returned (Pool.exec_begin h) ctx
      have hp := report_passed hs
      have hl := Async.report_unreturned (Pool.exec_commit hc) ho.left ctx
      refine ⟨.finished tx (u'.timeline.error ctx) (.error default), trivial,
        fun h => (nomatch h), .part ho.right ?_⟩
      rw [hhead, Story.report_append, Story.report_append, hb, hp, hl]
      refine ⟨[.answered (.commit tx ctx) (.error default)], ?_⟩
      simp only [AttemptLog.report, AttemptLog.tail, List.cons_append, List.append_assoc]
      rfl
  | @refused _ u' _ _ _ _ tx e h hs hc =>
      have hb := Async.report_returned (Pool.exec_begin h) ctx
      have hp := report_passed hs
      have hl := Async.report_returned (Pool.exec_commit hc) ctx
      refine ⟨.finished tx (u'.timeline.error ctx) (.error e), trivial,
        fun h => (nomatch h), ?_⟩
      rw [hhead, Story.report_append, Story.report_append, hb, hp, hl]
      exact .whole _ _
  | @committed _ u' v _ _ _ tx h hs hc =>
      have hb := Async.report_returned (Pool.exec_begin h) ctx
      have hp := report_passed hs
      have hl := Async.report_returned (Pool.exec_commit hc) ctx
      refine ⟨.finished tx (u'.timeline.error ctx) (.ok ()), trivial, fun _ => rfl, ?_⟩
      simp only [hhead, Story.report_append, hb, hp, hl]
      exact .whole _ _

end Attempts

section Runs

/-- What happened in a run, from some attempt on. -/
inductive RunLog (τ : Type) where
  /-- The attempt was the last one. -/
  | last (log : AttemptLog τ)
  /-- The context ended the wait after the attempt. -/
  | interrupted (log : AttemptLog τ) (e : Failure) (wait : Duration) (cause : ContextError)
  /-- Another attempt followed after the wait. -/
  | retried (log : AttemptLog τ) (e : Failure) (wait : Duration) (rest : RunLog τ)

namespace RunLog

def attempts : RunLog τ → List (AttemptLog τ)
  | last log => [log]
  | interrupted log _ _ _ => [log]
  | retried log _ _ rest => log :: rest.attempts

def result : RunLog τ → Result
  | last log => log.result
  | interrupted _ e _ cause => .error (e.merge (some (.context cause)))
  | retried _ _ _ rest => rest.result

/-- What is said about a wait. -/
def waitReport (p : RetryPolicy) (k : UInt32) (e : Failure) (wait : Duration) : List (Entry τ) :=
  [.consulted k p.delay, .notice (.retrying k p.maxAttempts wait e)]

/-- What is said after the last attempt. -/
def farewell (k : UInt32) : Result → List (Entry τ)
  | .error e => if e.isStop then [.notice (.givingUp k e)] else []
  | .ok () => []

/-- The report of a run from the attempt with the given number on. -/
def report (p : RetryPolicy) (ctx : ContextId) (n : Nat) : UInt32 → RunLog τ → List (Entry τ)
  | k, last log => log.report ctx none n k ++ farewell k log.result
  | k, interrupted log e wait _ => log.report ctx none n k ++ waitReport p k e wait
  | k, retried log e wait rest =>
      log.report ctx none n k ++ (waitReport p k e wait ++ rest.report p ctx n (k + 1))

/-- The log keeps the rules of retrying, if as many attempts as given may follow the first. -/
def Fits (n : Nat) : Nat → RunLog τ → Prop
  | left, last log => log.Fits n ∧ ∀ e, log.result = .error e → e.isStop = true ∨ left = 0
  | _ + 1, interrupted log e _ _ => log.Fits n ∧ log.result = .error e ∧ e.isStop = false
  | left + 1, retried log e _ rest =>
      log.Fits n ∧ log.result = .error e ∧ e.isStop = false ∧ rest.Fits n left
  | 0, _ => False

/-- If the log ends in a wait, the context has ended that wait in the given world. -/
def Ended (E : Surroundings σ (Recorded ε τ)) (ctx : ContextId) (v : World σ (Recorded ε τ)) :
    RunLog τ → Prop
  | last _ => True
  | interrupted _ _ wait cause => ∃ u, E.ends (some ctx) (some wait) u (some cause) v
  | retried _ _ _ rest => rest.Ended E ctx v

end RunLog

/-- A log of one attempt can be completed to one of a run. -/
theorem exists_runLog {log : AttemptLog τ} {n : Nat} (hlog : log.Fits n) (p : RetryPolicy)
    (ctx : ContextId) (k : UInt32) (left : Nat) (hne : log.result ≠ .ok ()) :
    ∃ r : RunLog τ, r.Fits n left ∧ r.result ≠ .ok () ∧
      log.report ctx none n k <+: r.report p ctx n k := by
  cases hr : log.result with
  | ok _ => exact absurd hr hne
  | error e =>
      by_cases hlast : e.isStop = true ∨ left = 0
      · refine ⟨.last log, ?_, hne, ⟨_, rfl⟩⟩
        cases left <;> refine ⟨hlog, fun e' he => ?_⟩ <;> cases hr.symm.trans he <;> exact hlast
      · obtain ⟨hs, hl⟩ := not_or.1 hlast
        obtain ⟨m, rfl⟩ := Nat.exists_eq_succ_of_ne_zero hl
        exact ⟨.interrupted log e .zero .canceled, ⟨hlog, hr, eq_false_of_ne_true hs⟩,
          fun h => (nomatch h), ⟨_, rfl⟩⟩

theorem report_waitStory {p : RetryPolicy} {k : UInt32} {e : Failure}
    {w : World σ (Recorded ε τ)} (ctx : ContextId) :
    Story.report ctx (p.waitStory k e w) = RunLog.waitReport p k e (p.waitIn k w) :=
  rfl

variable {E : Surroundings σ (Recorded ε τ)} {pool : Pool σ ε τ} {ctx : ContextId}
  {grace : Duration} {p : RetryPolicy} {steps : List (Step σ ε τ)}

/-- What an attempt has returned is told by a log of it. -/
theorem told_attempt_returned {k : UInt32} {w v : World σ (Recorded ε τ)}
    {l : Story σ (Recorded ε τ)} {r : Result}
    (h : (pool.recordedAttempt ctx grace steps k).Exec E w l (.returned r) v) :
    ∃ log : AttemptLog τ, log.Fits steps.length ∧ log.result = r ∧
      l.report ctx = log.report ctx (w.timeline.error ctx) steps.length k := by
  obtain ⟨log, hfits, _, ht⟩ := told_attempt (Pool.exec_attempt h)
  exact ⟨log, hfits, ht.returned⟩

theorem told_returned {k : UInt32} {w v : World σ (Recorded ε τ)}
    {l : Story σ (Recorded ε τ)} {r : Result} (hlive : w.timeline.error ctx = none)
    (h : (pool.watched.attempt ctx grace (watchSteps 0 steps) k).Exec E w l (.returned r) v) :
    ∃ log : AttemptLog τ, log.Fits steps.length ∧ log.result = r ∧
      l.report ctx = log.report ctx none steps.length k := by
  rw [← hlive]
  exact told_attempt_returned h

/-- Every run that is not prevented has a log that tells of it, in which it succeeds only
if it has returned, and which ends as the run does if that returns. -/
theorem told_course {left : Nat} {m k : UInt32} {w v : World σ (Recorded ε τ)}
    {l : Story σ (Recorded ε τ)} {o : Outcome Result} (hlive : w.timeline.error ctx = none)
    (h : p.Course E ctx (Executor.watchedAttempts pool ctx grace steps) left k m w l o v)
    (hk : m + 1 = k) :
    ∃ log : RunLog τ, log.Fits steps.length left ∧
      (log.result = .ok () → o = .returned (.ok ())) ∧
      (∀ r, o = .returned r → log.Ended E ctx v) ∧
      Told o (l.report ctx) log.result (log.report p ctx steps.length k) := by
  induction h with
  | @lost left k m w v l o o' h ho =>
      subst hk
      obtain ⟨log, hfits, hok, ht⟩ := told_attempt (Pool.exec_attempt h)
      have hne : log.result ≠ .ok () := fun hr => ho.left _ (hok hr)
      obtain ⟨r, hr, hrne, hpre⟩ := exists_runLog hfits p ctx (m + 1) left hne
      rw [hlive] at ht
      exact ⟨r, hr, fun h => absurd h hrne, fun a ha => absurd ha (ho.right a),
        .part ho.right (ht.said.trans hpre)⟩
  | @succeeded left k m w v l h =>
      subst hk
      obtain ⟨log, hfits, hr, hl⟩ := told_returned hlive h
      have hrep : RunLog.report p ctx steps.length (m + 1) (.last log) = l.report ctx := by
        rw [RunLog.report, hr, hl]
        exact List.append_nil _
      refine ⟨.last log, ?_, fun _ => rfl, fun _ _ => trivial, ?_⟩
      · cases left <;> exact ⟨hfits, fun e he => nomatch hr.symm.trans he⟩
      · rw [hrep, RunLog.result, hr]
        exact .whole _ _
  | @stopped left k m w v l e h hs =>
      subst hk
      obtain ⟨log, hfits, hr, hl⟩ := told_returned hlive h
      have hrep : RunLog.report p ctx steps.length (m + 1) (.last log) =
          Story.report ctx (l ++ [(v, .notice (.givingUp (m + 1) e))]) := by
        rw [RunLog.report, Story.report_append, hr, hl, RunLog.farewell, if_pos hs]
        rfl
      refine ⟨.last log, ?_, fun h => (nomatch hr.symm.trans h), fun _ _ => trivial, ?_⟩
      · have hstop : ∀ e', log.result = .error e' → e'.isStop = true := by
          intro e' he
          cases hr.symm.trans he
          exact hs
        cases left <;> exact ⟨hfits, fun e' he => Or.inl (hstop e' he)⟩
      · rw [hrep, RunLog.result, hr]
        exact .whole _ _
  | @exhausted k m w v l e h hs =>
      subst hk
      obtain ⟨log, hfits, hr, hl⟩ := told_returned hlive h
      have hrep : RunLog.report p ctx steps.length (m + 1) (.last log) = l.report ctx := by
        rw [RunLog.report, hr, hl, RunLog.farewell, if_neg (by simp [hs])]
        exact List.append_nil _
      refine ⟨.last log, ⟨hfits, fun _ _ => Or.inr rfl⟩, fun h => (nomatch hr.symm.trans h),
        fun _ _ => trivial, ?_⟩
      rw [hrep, RunLog.result, hr]
      exact .whole _ _
  | @interrupted left k m w u v l e c h hs he =>
      subst hk
      obtain ⟨log, hfits, hr, hl⟩ := told_returned hlive h
      refine ⟨.interrupted log e (p.waitIn (m + 1) u) c, ⟨hfits, hr, hs⟩, fun h => (nomatch h),
        fun _ _ => ⟨_, he⟩, ?_⟩
      rw [Story.report_append, hl, report_waitStory]
      exact .whole _ _
  | @hung left k m w u l e h hs hlast =>
      subst hk
      obtain ⟨log, hfits, hr, hl⟩ := told_returned hlive h
      refine ⟨.interrupted log e (p.waitIn (m + 1) u) .canceled, ⟨hfits, hr, hs⟩,
        fun h => (nomatch h), fun _ h => (nomatch h), .part (fun _ h => nomatch h) ?_⟩
      rw [Story.report_append, hl, report_waitStory]
      exact List.prefix_refl _
  | @again left k m w u u' v l l' e o h hs he _ ih =>
      subst hk
      obtain ⟨log, hfits, hr, hl⟩ := told_returned hlive h
      obtain ⟨rest, hrest, hok, hended, ht⟩ := ih (E.live he) rfl
      refine ⟨.retried log e (p.waitIn (m + 1) u) rest, ⟨hfits, hr, hs, hrest⟩, hok, hended, ?_⟩
      rw [Story.report_append, Story.report_append, hl, report_waitStory]
      exact (ht.behind _).behind _

/-- A run makes no attempt, since it has no pool or its context is done, or it is a course
of attempts. -/
theorem exec_recorded {x : Executor σ ε τ} {w v : World σ (Recorded ε τ)}
    {l : Story σ (Recorded ε τ)} {o : Outcome Result}
    (h : (x.recorded ctx steps).Exec E w l o v) :
    (l = [] ∧ v = w ∧ ∃ e, o = .returned (.error e) ∧
        ((x.pool = none ∧ e = .emptyDatabase) ∨
          ∃ c, w.timeline.error ctx = some c ∧ e = .context c)) ∨
      (w.timeline.error ctx = none ∧ ∃ pool, x.pool = some pool ∧
        x.retry.Course E ctx (Executor.watchedAttempts pool ctx x.gracePeriod steps)
          (x.retry.maxAttempts.toNat - 1) 1 0 w l o v) := by
  obtain ⟨pool, retry, grace⟩ := x
  cases pool with
  | none =>
      obtain ⟨rfl, rfl, rfl⟩ := Async.exec_ret h
      exact Or.inl ⟨rfl, rfl, _, rfl, Or.inl ⟨rfl, rfl⟩⟩
  | some pool =>
      have hrun : (retry.run ctx (Executor.watchedAttempts pool ctx grace steps) 0).Exec E
        w l o v := h
      rcases RetryPolicy.exec_run hrun with ⟨c, hc, rfl, rfl, rfl⟩ | ⟨hlive, hcourse⟩
      · exact Or.inl ⟨rfl, rfl, _, rfl, Or.inr ⟨c, hc, rfl⟩⟩
      · exact Or.inr ⟨hlive, pool, rfl, hcourse⟩

/-- What an executor does, told in all detail: it makes no attempt, since it has no pool
or its context is done, or a log tells of its run. -/
theorem told_run {x : Executor σ ε τ} {w v : World σ (Recorded ε τ)}
    {l : Story σ (Recorded ε τ)} {o : Outcome Result}
    (h : (x.recorded ctx steps).Exec E w l o v) :
    (l = [] ∧ v = w ∧ ∃ e, o = .returned (.error e) ∧
        ((x.pool = none ∧ e = .emptyDatabase) ∨
          ∃ c, w.timeline.error ctx = some c ∧ e = .context c)) ∨
      (w.timeline.error ctx = none ∧ ∃ log : RunLog τ,
        log.Fits steps.length (x.retry.maxAttempts.toNat - 1) ∧
        (log.result = .ok () → o = .returned (.ok ())) ∧
        Told o (l.report ctx) log.result (log.report x.retry ctx steps.length 1)) := by
  rcases exec_recorded h with hnone | ⟨hlive, pool, _, hcourse⟩
  · exact Or.inl hnone
  · obtain ⟨log, hfits, hok, _, ht⟩ := told_course hlive hcourse rfl
    exact Or.inr ⟨hlive, log, hfits, hok, ht⟩

/-- A run that returns has made no attempt, or a log with the same result tells of it, which
ends as the run does. -/
theorem told_run_returned {x : Executor σ ε τ} {w v : World σ (Recorded ε τ)}
    {l : Story σ (Recorded ε τ)} {r : Result}
    (h : (x.recorded ctx steps).Exec E w l (.returned r) v) :
    (l = [] ∧ ∃ e, r = .error e ∧
        ((x.pool = none ∧ e = .emptyDatabase) ∨
          ∃ c, w.timeline.error ctx = some c ∧ e = .context c)) ∨
      ∃ log : RunLog τ, log.Fits steps.length (x.retry.maxAttempts.toNat - 1) ∧
        log.result = r ∧ l.report ctx = log.report x.retry ctx steps.length 1 ∧
        log.Ended E ctx v := by
  rcases exec_recorded h with ⟨hnil, _, e, he, hwhy⟩ | ⟨hlive, pool, _, hcourse⟩
  · cases he
    exact Or.inl ⟨hnil, e, rfl, hwhy⟩
  · obtain ⟨log, hfits, _, hended, ht⟩ := told_course hlive hcourse rfl
    obtain ⟨hr, hsaid⟩ := ht.returned
    exact Or.inr ⟨log, hfits, hr, hsaid, hended _ rfl⟩

end Runs

end TransactionAttempts
