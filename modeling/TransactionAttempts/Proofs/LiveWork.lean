import TransactionAttempts.Proofs.Logs

/-!
# New work on a live context only

To begin a transaction and to call a step is new work.  Whatever the pool and the steps
do, and whoever else cancels the caller's context during a wait, new work starts only
while that context is live.

Main facts:

* `live_report`: in the report of every log, new work starts on a live context;
* `work_while_live`: so it does in every execution, and none follows once the context
  is done.
-/

namespace TransactionAttempts

variable {σ ε τ : Type}

section Reports

/-- The call begins a transaction or is one of a step. -/
def Call.isWork : Call τ → Bool
  | .begin _ => true
  | .step _ _ => true
  | _ => false

/-- If the entry starts new work, the caller's context is live. -/
def Item.Live : Entry τ → Prop
  | .called c error => c.isWork = true → error = none
  | _ => True

theorem live_passedSteps (tx : τ) (i j : Nat) : ∀ e ∈ passedSteps tx i j, e.Live := by
  intro e he
  obtain ⟨m, _, hm⟩ := List.mem_flatMap.1 he
  rcases List.mem_cons.1 hm with rfl | hm
  · exact fun _ => rfl
  · rw [List.mem_singleton.1 hm]
    trivial

theorem live_undoneReport (tx : τ) (k : UInt32) (i j : Nat) (s : Setback) (u : Undo) :
    ∀ e ∈ undoneReport tx k i j s u, e.Live := by
  have hs : ∀ e ∈ s.report tx k (i + j), e.Live := by
    cases s <;> simp [Setback.report, Item.Live]
  have hu : ∀ e ∈ u.report tx k, e.Live := by
    simp [Undo.report, Item.Live, Call.isWork]
  exact List.forall_mem_append.2
    ⟨live_passedSteps tx i j, List.forall_mem_append.2 ⟨hs, hu⟩⟩

theorem live_attempt (log : AttemptLog τ) (ctx : ContextId) (n : Nat) (k : UInt32) :
    ∀ e ∈ log.report ctx none n k, e.Live := by
  refine List.forall_mem_cons.2 ⟨trivial, List.forall_mem_cons.2 ⟨fun _ => rfl, ?_⟩⟩
  cases log with
  | unopened e => simp [AttemptLog.tail, Item.Live]
  | undone tx passed s u =>
      exact List.forall_mem_cons.2 ⟨trivial, live_undoneReport tx k 0 passed s u⟩
  | finished tx error reply =>
      cases reply <;>
        refine List.forall_mem_cons.2 ⟨trivial, List.forall_mem_append.2
          ⟨live_passedSteps tx 0 n, ?_⟩⟩ <;> simp [Item.Live, Call.isWork]

/-- In the report of a run, new work starts on a live context. -/
theorem live_report (r : RunLog τ) (p : RetryPolicy) (ctx : ContextId) (n : Nat) (k : UInt32) :
    ∀ e ∈ r.report p ctx n k, e.Live := by
  have hwait : ∀ (k : UInt32) (f : Failure) (wait : Duration),
      ∀ e ∈ (RunLog.waitReport p k f wait : List (Entry τ)), e.Live := by
    simp [RunLog.waitReport, Item.Live]
  induction r generalizing k with
  | last log =>
      refine List.forall_mem_append.2 ⟨live_attempt log ctx n k, ?_⟩
      cases log.result with
      | ok _ => simp [RunLog.farewell]
      | error f =>
          simp only [RunLog.farewell]
          split <;> simp [Item.Live]
  | interrupted log f wait cause =>
      exact List.forall_mem_append.2 ⟨live_attempt log ctx n k, hwait k f wait⟩
  | retried log f wait rest ih =>
      exact List.forall_mem_append.2 ⟨live_attempt log ctx n k,
        List.forall_mem_append.2 ⟨hwait k f wait, ih (k + 1)⟩⟩

end Reports

section Executions

variable {E : Surroundings σ (Recorded ε τ)} {x : Executor σ ε τ} {ctx : ContextId}
  {steps : List (Step σ ε τ)}

/-- The event is the beginning of new work. -/
def startsWork : Event (Recorded ε τ) → Bool
  | .mark (.called c) => c.isWork
  | _ => false

/-- New work starts while the caller's context is neither cancelled nor past its deadline. -/
theorem not_done_of_startsWork {w v : World σ (Recorded ε τ)} {l : Story σ (Recorded ε τ)}
    {o : Outcome Result} (h : (x.recorded ctx steps).Exec E w l o v) :
    ∀ y ∈ l, startsWork y.2 = true → ¬ y.1.timeline.Done ctx := by
  rcases told_run h with ⟨rfl, _⟩ | ⟨_, log, _, _, ht⟩
  · simp
  · rintro ⟨u, e⟩ hy hwork
    unfold startsWork at hwork
    split at hwork
    · rename_i c hc
      cases hc
      have hmem : (.called c (u.timeline.error ctx) : Entry τ) ∈ l.report ctx :=
        List.mem_filterMap.2 ⟨_, hy, rfl⟩
      have hlive := live_report log x.retry ctx steps.length 1 _ (ht.said.subset hmem)
      exact fun hdone => hdone (hlive hwork)
    · cases hwork

/-- **No new work on a done context.**  In every execution, whoever cancels the caller's
context, a transaction is begun and a step is called only while that context is live.
From where it is done, no execution begins another one or calls a further step, and a
run that is started on a context that is done does nothing at all. -/
theorem work_while_live (E : Surroundings σ (Recorded ε τ)) (x : Executor σ ε τ)
    (ctx : ContextId) (steps : List (Step σ ε τ)) :
    (∀ w l o v, (x.recorded ctx steps).Exec E w l o v →
      ∀ y ∈ l, startsWork y.2 = true → y.1.timeline.error ctx = none) ∧
    (∀ w l y u l' o v, Async.Reaches E (x.recorded ctx steps) w l y u → y.Exec E u l' o v →
      u.timeline.Done ctx → ∀ z ∈ l', startsWork z.2 = false) ∧
    (∀ w e, w.timeline.error ctx = some e → x.pool.isSome = true →
      x.record ctx steps w = [] ∧
        (x.run ctx steps).run w = (.returned (.error (.context e)), w)) := by
  refine ⟨fun w l o v h y hy hwork => ?_, fun w l y u l' o v hr h hdone z hz => ?_,
    fun w e he hpool => ?_⟩
  · exact Decidable.not_not.1 (not_done_of_startsWork h y hy hwork)
  · refine eq_false_of_ne_true fun hwork => ?_
    have hz' : z ∈ l ++ l' := List.mem_append_right l hz
    exact not_done_of_startsWork (hr.exec h) z hz' hwork ((h.done hdone).1 z hz)
  · constructor
    · rcases told_run (x.exec_record ctx steps w) with ⟨hl, _⟩ | ⟨hlive, _⟩
      · exact hl
      · exact nomatch he.symm.trans hlive
    · obtain ⟨pool, retry, grace⟩ := x
      obtain ⟨pool, rfl⟩ := Option.isSome_iff_exists.1 hpool
      have h : (retry.run ctx (Executor.nextAttempt pool ctx grace steps) 0).Exec .clock w _ _ _ :=
        Async.exec_run _ w
      rcases RetryPolicy.exec_run h with ⟨c, hc, _, ho, hv⟩ | ⟨hlive, _⟩
      · cases he.symm.trans hc
        exact Prod.ext ho hv
      · exact nomatch he.symm.trans hlive

/-- A step that cancels the caller's context and succeeds. -/
def Step.cancelling : Step Unit Unit Unit := fun _ => do
  Async.cancel 0
  return .ok ()

/-- The first of two steps cancels the context.  The begin and that step are called before, and
from there on the transaction is only rolled back.  A run that is started there does nothing. -/
theorem work_while_live_cancelling :
    ∃ x : Executor Unit Unit Unit, x = .ofPool Pool.agreeing ∧ ∃ l y u,
      Async.Reaches .clock (x.recorded 0 [Step.cancelling, Step.cancelling]) World.single l y u ∧
      u.timeline.error 0 = some .canceled ∧
      l.report 0 = [.notice (.beginning 1 2), .called (.begin 0) none,
        .answered (.begin 0) (.ok ()), .called (.step 0 ()) none] ∧
      Story.report 0 (y.story u) = [.answered (.step 0 ()) (.ok (.ok ())),
        .called (.rollback () 1) (some .canceled), .answered (.rollback () 1) (.ok ()),
        .notice (.rolledBack 1), .notice (.givingUp 1 (.stop (.context .canceled)))] ∧
      (∀ z ∈ l, startsWork z.2 = true → z.1.timeline.error 0 = none) ∧
      (∀ z ∈ y.story u, startsWork z.2 = false) ∧
      x.record 0 [Step.cancelling, Step.cancelling] u.untraced = [] := by
  obtain ⟨hlive, hdone, hstart⟩ := work_while_live .clock (.ofPool Pool.agreeing) 0
    [Step.cancelling, Step.cancelling]
  -- the place right behind the cancellation, which is the eighth operation of the run
  have hplace : ∃ l y u, Async.Reaches .clock
      ((Executor.ofPool Pool.agreeing).recorded 0 [Step.cancelling, Step.cancelling])
      World.single l y u ∧ u.timeline.error 0 = some .canceled ∧
      l.report 0 = [.notice (.beginning 1 2), .called (.begin 0) none,
        .answered (.begin 0) (.ok ()), .called (.step 0 ()) none] ∧
      Story.report 0 (y.story u) = [.answered (.step 0 ()) (.ok (.ok ())),
        .called (.rollback () 1) (some .canceled), .answered (.rollback () 1) (.ok ()),
        .notice (.rolledBack 1), .notice (.givingUp 1 (.stop (.context .canceled)))] :=
    ⟨_, _, _, .perform (.perform (.perform (.perform (.perform (.perform (.perform (.perform
      (.here _ _)))))))), rfl, rfl, rfl⟩
  obtain ⟨l, y, u, hreach, hcanceled, hbefore, hafter⟩ := hplace
  have hexec := hreach.exec (Async.exec_run y u)
  refine ⟨_, rfl, l, y, u, hreach, hcanceled, hbefore, hafter, fun z hz => ?_, ?_, ?_⟩
  · exact hlive _ _ _ _ hexec z (List.mem_append_left _ hz)
  · exact hdone _ _ _ _ _ _ _ hreach (Async.exec_run y u) (by simp [Timeline.Done, hcanceled])
  · exact (hstart u.untraced _ hcanceled rfl).1

end Executions

end TransactionAttempts
