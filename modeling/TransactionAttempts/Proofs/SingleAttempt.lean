import TransactionAttempts.Proofs.LiveWork

/-!
# A single attempt

Steps can be run in one transaction without retrying, or by an executor that tries once:
one that was made from the pool alone, or one whose settings allow no attempt or one and
leave the grace period as it is.  Where nothing is retried, the delay does not matter.

**On a live context** there is no difference.  What the executor does is what the single
transaction does, and then it may remark that it gives up.

**On a context that is done** the executor does nothing, and its failure is that of the
context.  The single transaction is begun all the same, and then no step is called.

Main facts:

* `exec_once_iff`: the executions of an executor that tries once;
* `begins_once`: what an attempt on a context that is done calls;
* `single_attempt_agrees`: both ways to run the steps once agree.
-/

namespace TransactionAttempts

variable {σ ε τ : Type}

section Settings

/-- The executor was made from the pool alone, or with settings that allow no more than one
attempt and leave the grace period as it is. -/
inductive Executor.TriesOnce (pool : Pool σ ε τ) : Executor σ ε τ → Prop
  | plain : TriesOnce pool (ofPool pool)
  | configured {config : Config} {x : Executor σ ε τ} :
      config.retry.attempts ≤ 1 → config.gracePeriod = Config.defaultGracePeriod →
      Executor.new (some pool) config = .ok x → TriesOnce pool x

/-- The executor has the pool and the usual grace period, and one attempt. -/
theorem Executor.TriesOnce.fields {pool : Pool σ ε τ} {x : Executor σ ε τ}
    (h : TriesOnce pool x) :
    ∃ p : RetryPolicy, p.maxAttempts = 1 ∧ x = ⟨some pool, p, Config.defaultGracePeriod⟩ := by
  cases h with
  | plain => exact ⟨RetryPolicy.once, rfl, rfl⟩
  | @configured config x hattempts hgrace hnew =>
      cases hnew
      have hmax : config.retry.normalized.maxAttempts = 1 :=
        config.retry.maxAttempts_normalized.trans (if_pos hattempts)
      exact ⟨config.retry.normalized, hmax, by rw [hgrace]⟩

end Settings

section Executions

variable {E : Surroundings σ (Recorded ε τ)} {pool : Pool σ ε τ} {x : Executor σ ε τ}
  {ctx : ContextId} {steps : List (Step σ ε τ)} {w v : World σ (Recorded ε τ)}
  {l : Story σ (Recorded ε τ)} {o : Outcome Result}

/-- The steps in one transaction, each of whose calls is watched. -/
def Pool.recordedOnce (pool : Pool σ ε τ) (ctx : ContextId) (steps : List (Step σ ε τ)) :
    Async σ (Recorded ε τ) Result :=
  pool.watched.withTransaction ctx (watchSteps 0 steps)

/-- What the executor remarks behind its only attempt. -/
def remark (v : World σ (Recorded ε τ)) : Outcome Result → Story σ (Recorded ε τ)
  | .returned (.error e) => if e.isStop then [(v, .notice (.givingUp 1 e))] else []
  | _ => []

/-- The world after the remark. -/
def remarked (v : World σ (Recorded ε τ)) : Outcome Result → World σ (Recorded ε τ)
  | .returned (.error e) => if e.isStop then v.log (.notice (.givingUp 1 e)) else v
  | _ => v

theorem agree_remarked (v : World σ (Recorded ε τ)) (o : Outcome Result) :
    (remarked v o).Agree v := by
  unfold remarked
  split
  · split <;> exact ⟨rfl, rfl, rfl, rfl, rfl⟩
  · exact ⟨rfl, rfl, rfl, rfl, rfl⟩

/-- The recorded run of an executor that tries once. -/
theorem Executor.TriesOnce.recorded_eq (hx : x.TriesOnce pool) (ctx : ContextId)
    (steps : List (Step σ ε τ)) :
    x.recorded ctx steps = (Async.errorOf ctx).bind fun
      | some cause => .ret (.error (.context cause))
      | none => (pool.recordedOnce ctx steps).bind fun
          | .ok () => .ret (.ok ())
          | .error e => RetryPolicy.giveUp 1 e := by
  obtain ⟨p, hmax, rfl⟩ := hx.fields
  refine congrArg (Async.bind (Async.errorOf ctx)) (funext fun r => ?_)
  cases r with
  | some cause => rfl
  | none =>
      show p.attemptsFrom ctx _ (p.maxAttempts.toNat - 1) 1 0 = _
      rw [hmax]
      rfl

theorem exec_giveUp_remark {e : Failure} :
    (RetryPolicy.giveUp 1 e).Exec E w (remark w (.returned (.error e))) (.returned (.error e))
      (remarked w (.returned (.error e))) := by
  unfold RetryPolicy.giveUp
  cases hs : e.isStop with
  | true =>
      simp only [remark, remarked, hs, if_true]
      exact .perform (.ret _ _)
  | false =>
      simp only [remark, remarked, hs]
      exact .ret _ _

/-- On a live context, an executor that tries once does what the single transaction does, and
then it may remark that it gives up. -/
theorem Executor.TriesOnce.exec_once_iff (hx : x.TriesOnce pool)
    (hlive : w.timeline.error ctx = none) :
    (x.recorded ctx steps).Exec E w l o v ↔ ∃ l' v',
      (pool.recordedOnce ctx steps).Exec E w l' o v' ∧ l = l' ++ remark v' o ∧
        v = remarked v' o := by
  rw [hx.recorded_eq]
  constructor
  · intro h
    obtain ⟨l₁, rfl, h₁⟩ := Async.exec_request_bind h
    simp only [Op.apply, hlive] at h₁
    rcases Async.exec_bind h₁ with ⟨r, u, l₂, l₃, ha, hr, rfl⟩ | ⟨o', ha, ho⟩
    · cases r with
      | ok _ =>
          obtain ⟨rfl, rfl, rfl⟩ := Async.exec_ret hr
          exact ⟨_, _, ha, rfl, rfl⟩
      | error e =>
          obtain ⟨rfl, ⟨hs, rfl, rfl⟩ | ⟨hs, rfl, rfl⟩⟩ := RetryPolicy.exec_giveUp hr <;>
            exact ⟨_, _, ha, by simp [remark, hs], by simp [remarked, hs]⟩
    · cases ho <;> exact ⟨_, _, ha, (List.append_nil _).symm, rfl⟩
  · rintro ⟨l', v', ha, rfl, rfl⟩
    refine .perform (l := l' ++ remark v' o) ?_
    simp only [Op.apply, hlive]
    cases o with
    | returned r =>
        cases r with
        | ok _ => exact ha.bind (.ret _ _)
        | error e => exact ha.bind exec_giveUp_remark
    | unwound p =>
        have hl : l' ++ remark v' (.unwound p) = l' := List.append_nil l'
        rw [hl]
        exact ha.bind_broken _ (.unwound p)
    | stalled =>
        have hl : l' ++ remark v' .stalled = l' := List.append_nil l'
        rw [hl]
        exact ha.bind_broken _ .stalled

end Executions

section Calls

variable {E : Surroundings σ (Recorded ε τ)} {pool : Pool σ ε τ} {ctx : ContextId}
  {grace : Duration} {steps : List (Step σ ε τ)} {k : UInt32} {w v : World σ (Recorded ε τ)}
  {l : Story σ (Recorded ε τ)} {o : Outcome Result}

/-- The calls of a story and their answers, each with its instant. -/
def Story.timedCalls (ctx : ContextId) (l : Story σ (Recorded ε τ)) :
    List (Instant × Entry τ) :=
  l.filterMap fun y => ((Item.of? ctx y).filter Item.isCall).map fun e => (y.1.now, e)

theorem timedCalls_remark (ctx : ContextId) (l : Story σ (Recorded ε τ))
    (v : World σ (Recorded ε τ)) (o : Outcome Result) :
    Story.timedCalls ctx (l ++ remark v o) = Story.timedCalls ctx l := by
  have hremark : Story.timedCalls ctx (remark v o) = [] := by
    unfold remark
    split
    · split <;> rfl
    · rfl
  rw [Story.timedCalls, List.filterMap_append, ← Story.timedCalls, ← Story.timedCalls, hremark,
    List.append_nil]

namespace Call

def isBegin : Call τ → Bool
  | .begin _ => true
  | _ => false

def isStep : Call τ → Bool
  | .step _ _ => true
  | _ => false

end Call

/-- The entry is a call of the given kind. -/
def Item.calls (f : Call τ → Bool) : Entry τ → Bool
  | .called c _ => f c
  | _ => false

/-- A call is shown with the error that the caller's context has then. -/
theorem Item.error_of_called {y : World σ (Recorded ε τ) × Event (Recorded ε τ)} {c : Call τ}
    {error : Option ContextError} (h : Item.of? ctx y = some (.called c error)) :
    error = y.1.timeline.error ctx := by
  obtain ⟨u, e⟩ := y
  cases e with
  | mark m =>
      cases m with
      | called c => cases h; rfl
      | _ => cases h
  | _ => cases h

/-- How many calls of a kind a story tells of. -/
def Story.countCalls (ctx : ContextId) (f : Call τ → Bool) (l : Story σ (Recorded ε τ)) : Nat :=
  (l.report ctx).countP (Item.calls f)

/-- Behind its first call, an attempt begins nothing. -/
theorem begins_tail (log : AttemptLog τ) (ctx : ContextId) (n : Nat) (k : UInt32) :
    (log.tail ctx n k).countP (Item.calls Call.isBegin) = 0 := by
  have hpassed : ∀ (tx : τ) (i j : Nat),
      (passedSteps tx i j).countP (Item.calls Call.isBegin) = 0 := by
    intro tx i j
    induction j generalizing i with
    | zero => rfl
    | succ j ih => rw [passedSteps_succ, List.countP_append, ih]; rfl
  cases log with
  | unopened e => rfl
  | undone tx passed s u =>
      have hs : (s.report tx k (0 + passed)).countP (Item.calls Call.isBegin) = 0 := by
        cases s <;> rfl
      have hu : (u.report tx k).countP (Item.calls Call.isBegin) = 0 := rfl
      rw [AttemptLog.tail, List.countP_cons, undoneReport, List.countP_append,
        List.countP_append, hpassed, hs, hu]
      rfl
  | finished tx error reply =>
      cases reply <;>
        rw [AttemptLog.tail, List.countP_cons, List.countP_append, hpassed] <;> rfl

/-- Every attempt begins with the call that begins its transaction. -/
theorem report_announced
    (h : Pool.AttemptCourse E pool.watched ctx grace k (watchSteps 0 steps) w l o v) :
    ∃ rest, l.report ctx = .notice (.beginning k steps.length) ::
      .called (.begin ctx) (w.timeline.error ctx) :: rest := by
  have hbegin : ∀ {u v : World σ (Recorded ε τ)} {l₁ : Story σ (Recorded ε τ)}
      {o' : Outcome (Except Failure τ)} (l₂ : Story σ (Recorded ε τ)),
      (pool.watched.begin ctx).Exec E (Pool.announced k (watchSteps 0 steps) w) l₁ o' v →
      ∃ rest, Story.report ctx ((u, .notice (.beginning k (watchSteps 0 steps).length)) ::
        (l₁ ++ l₂)) = .notice (.beginning k steps.length) ::
          .called (.begin ctx) (w.timeline.error ctx) :: rest := by
    intro u v l₁ o' l₂ hb
    obtain ⟨rest, rfl, _⟩ := exists_watch (P := fun _ _ => True) (Pool.exec_begin hb)
    rw [length_watchSteps]
    exact ⟨_, rfl⟩
  cases h with
  | lost hb _ | unopened hb => simpa using hbegin [] hb
  | undone hb _ _ | unfinished hb _ _ _ | refused hb _ _ | committed hb _ _ =>
      exact hbegin _ hb

/-- On a context that is done, an attempt calls begin once and no step. -/
theorem begins_once (hdone : w.timeline.Done ctx)
    (h : (pool.recordedOnce ctx steps).Exec E w l o v) :
    l.countCalls ctx Call.isBegin = 1 ∧ l.countCalls ctx Call.isStep = 0 := by
  have hcourse := Pool.exec_attempt h
  obtain ⟨rest, hl⟩ := report_announced hcourse
  obtain ⟨log, _, _, ht⟩ := told_attempt hcourse
  have hprefix := ht.said
  rw [hl, AttemptLog.report, List.cons_prefix_cons, List.cons_prefix_cons] at hprefix
  obtain ⟨_, _, hrest⟩ := hprefix
  constructor
  · have hle := hrest.sublist.countP_le (p := Item.calls Call.isBegin)
    rw [begins_tail] at hle
    rw [Story.countCalls, hl]
    simp only [List.countP_cons, Nat.le_zero.1 hle]
    rfl
  · refine List.countP_eq_zero.2 fun e he hstep => ?_
    -- a step is called on a live context, but this one is done at every event
    obtain ⟨y, hy, hshown⟩ := List.mem_filterMap.1 he
    have hlive : e.Live := by
      rw [hl] at he
      rcases List.mem_cons.1 he with rfl | he
      · cases hstep
      · rcases List.mem_cons.1 he with rfl | he
        · cases hstep
        · exact live_attempt log ctx steps.length 1 e
            (List.mem_cons_of_mem _ (List.mem_cons_of_mem _ (hrest.subset he)))
    cases e with
    | called c error =>
        have hwork : c.isWork = true := by
          cases c with
          | step _ _ => rfl
          | _ => cases hstep
        exact (h.done hdone).1 y hy ((Item.error_of_called hshown).symm.trans (hlive hwork))
    | _ => cases hstep

end Calls

section Agreement

/-- **Both ways to run the steps once agree.**  On a live context, every execution of an
executor that tries once is matched by one of the single transaction, and the other way
round: the same calls are made at the same instants with the same contexts, they are
answered alike, and the result and the world after it are the same.  On a context that is
done the executor calls nothing and fails with the error of the context, while the single
transaction is begun exactly once and runs no step. -/
theorem single_attempt_agrees {pool : Pool σ ε τ} {x : Executor σ ε τ}
    (hx : Executor.TriesOnce pool x) (ctx : ContextId) (steps : List (Step σ ε τ)) :
    (∀ (E : Surroundings σ (Recorded ε τ)) w, w.timeline.error ctx = none →
      (∀ l o v, (x.recorded ctx steps).Exec E w l o v → ∃ l' v',
        (pool.recordedOnce ctx steps).Exec E w l' o v' ∧
          Story.timedCalls ctx l = Story.timedCalls ctx l' ∧ v.Agree v') ∧
      (∀ l' o v', (pool.recordedOnce ctx steps).Exec E w l' o v' → ∃ l v,
        (x.recorded ctx steps).Exec E w l o v ∧
          Story.timedCalls ctx l = Story.timedCalls ctx l' ∧ v.Agree v')) ∧
    (∀ w : World σ ε, w.timeline.error ctx = none →
      ((x.run ctx steps).run w).1 = ((pool.withTransaction ctx steps).run w).1 ∧
      ((x.run ctx steps).run w).2.Agree ((pool.withTransaction ctx steps).run w).2 ∧
      Story.timedCalls ctx (x.record ctx steps w) =
        Story.timedCalls ctx ((pool.recordedOnce ctx steps).story w.untraced)) ∧
    (∀ (E : Surroundings σ (Recorded ε τ)) w c, w.timeline.error ctx = some c →
      (∀ l o v, (x.recorded ctx steps).Exec E w l o v →
        l = [] ∧ o = .returned (.error (.context c)) ∧ v = w) ∧
      (∀ l o v, (pool.recordedOnce ctx steps).Exec E w l o v →
        Story.countCalls ctx Call.isBegin l = 1 ∧ Story.countCalls ctx Call.isStep l = 0)) ∧
    (∀ (w : World σ ε) c, w.timeline.error ctx = some c →
      (x.run ctx steps).run w = (.returned (.error (.context c)), w)) := by
  refine ⟨fun E w hlive => ⟨fun l o v h => ?_, fun l' o v' h => ?_⟩, fun w hlive => ?_,
    fun E w c hc => ⟨fun l o v h => ?_, fun l o v h => ?_⟩, fun w c hc => ?_⟩
  · obtain ⟨l', v', h', rfl, rfl⟩ := (hx.exec_once_iff hlive).1 h
    exact ⟨l', v', h', timedCalls_remark ctx l' v' o, agree_remarked v' o⟩
  · exact ⟨_, _, (hx.exec_once_iff hlive).2 ⟨l', v', h, rfl, rfl⟩, timedCalls_remark ctx l' v' o,
      agree_remarked v' o⟩
  · obtain ⟨l', v', h', hl, hv⟩ := (hx.exec_once_iff hlive).1 (x.exec_record ctx steps w)
    obtain ⟨rfl, hrun⟩ := Async.eq_run_of_exec h'
    obtain ⟨ho, hagree⟩ := pool.run_recordedAttempt ctx Config.defaultGracePeriod steps 1 w
    have hworld : ((x.recorded ctx steps).run w.untraced).2.Agree v' := hv ▸ agree_remarked v' _
    refine ⟨(ho.trans (congrArg Prod.fst hrun)).symm, ?_, hl ▸ timedCalls_remark ctx _ v' _⟩
    have hrecorded : ((pool.recordedOnce ctx steps).run w.untraced).2 = v' := by rw [hrun]
    have hsecond : ((pool.withTransaction ctx steps).run w).2.Agree v' := hrecorded ▸ hagree
    exact ((x.run_recorded ctx steps w).2.trans hworld).trans hsecond.symm
  · rw [hx.recorded_eq] at h
    obtain ⟨l₁, rfl, h₁⟩ := Async.exec_request_bind h
    simp only [Op.apply, hc] at h₁
    obtain ⟨rfl, rfl, rfl⟩ := Async.exec_ret h₁
    exact ⟨rfl, rfl, rfl⟩
  · exact begins_once (by simp [Timeline.Done, hc]) h
  · obtain ⟨p, _, rfl⟩ := hx.fields
    exact RetryPolicy.run_prevented _ hc

/-- A pool that agrees to everything and whose transactions are told by their numbers. -/
def Pool.numbering : Pool Nat Unit Nat where
  begin _ := Async.modifyGet fun n => (.ok n, n + 1)
  commit _ _ := return .ok ()
  rollback _ _ := return .ok ()

/-- A step that refuses to be run again. -/
def Step.stubborn : Step Nat Unit Nat := fun _ => return .error (.stop (.other "not again"))

/-- Settings that allow no attempt, with a delay that never comes to pass. -/
def Config.hesitant : Config :=
  ⟨RetryPolicy.every 0 (Duration.ofSeconds 5), Config.defaultGracePeriod⟩

/-- A final failure passes through the executor as it is. -/
theorem single_attempt_agrees_stubborn :
    ∃ x, Executor.new (some Pool.numbering) Config.hesitant = .ok x ∧
      Executor.TriesOnce Pool.numbering x ∧
      ∃ w : World Nat Unit, w.timeline.error 0 = none ∧
        ((x.run 0 [Step.stubborn]).run w).1 =
          ((Pool.numbering.withTransaction 0 [Step.stubborn]).run w).1 ∧
        ((x.run 0 [Step.stubborn]).run w).1 =
          .returned (.error (.stop (.other "not again"))) := by
  have hx : Executor.TriesOnce Pool.numbering
      ⟨some Pool.numbering, Config.hesitant.retry.normalized, Config.defaultGracePeriod⟩ :=
    .configured (by decide) rfl rfl
  have hagree := (single_attempt_agrees hx 0 [Step.stubborn]).2.1
    { World.initial (fun _ => 0) 0 with timeline := Timeline.start.create Context.unbounded } rfl
  exact ⟨_, rfl, hx, _, rfl, hagree.1, rfl⟩

end Agreement

end TransactionAttempts
