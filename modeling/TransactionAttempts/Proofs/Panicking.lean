import TransactionAttempts.Proofs.Causes
import TransactionAttempts.Proofs.Lifecycle
import TransactionAttempts.Proofs.Simulation

/-!
# Panics of steps

A panic of a step is a failure of the step like any other.  It stays inside the attempt, which
is rolled back, and unless that was the last attempt the run goes on.  Whoever returns the
failure instead of raising the panic sees the same run.

**Replacements.**  `recovering` takes out the record of the panic and returns its failure, and
`returning` returns the failure without a site.  The first one tames every program, and the
second one those that do not look at sites.

Main facts:

* `contained_recorded`: a panic of a step does not leave the run, and a rollback follows it;
* `attempts_of_panicked`: a run whose last attempt has panicked has used up its attempts;
* `panics_are_failures`: the run is the same with the failures returned.
-/

namespace TransactionAttempts

variable {σ ε τ α β : Type}

section Containment

/-- Every panic of a step is told of at once, and then its transaction is rolled back. -/
def PanicsUndone : List (Entry τ) → Prop
  | [] => True
  | e :: rest =>
      (∀ i tx p, e = .answered (.step i tx) (.error p) → ∃ k site given error rest',
        rest = .notice (.stepPanicked k i (p.failure site)) ::
          .called (.rollback tx given) error :: rest') ∧ PanicsUndone rest

theorem PanicsUndone.append {l l' : List (Entry τ)} (h : PanicsUndone l)
    (h' : PanicsUndone l') : PanicsUndone (l ++ l') := by
  induction l with
  | nil => exact h'
  | cons e rest ih =>
      refine ⟨fun i tx p he => ?_, ih h.2⟩
      obtain ⟨k, site, given, error, rest', hr⟩ := h.1 i tx p he
      exact ⟨k, site, given, error, rest' ++ l', by rw [hr]; rfl⟩

/-- Panics of steps stay inside: they are undone, and what unwinds is a call of the pool. -/
structure Contained (o : Outcome α) (l : List (Entry τ)) : Prop where
  undone : PanicsUndone l
  escaped : ∀ p, o = .unwound p → ∃ before c error, l = before ++ [.called c error] ∧
    ∀ i tx, c ≠ .step i tx

theorem Contained.behind {o : Outcome α} {l l' : List (Entry τ)} (h : PanicsUndone l)
    (h' : Contained o l') : Contained o (l ++ l') := by
  refine ⟨h.append h'.undone, fun p hp => ?_⟩
  obtain ⟨before, c, error, rfl, hc⟩ := h'.escaped p hp
  exact ⟨l ++ before, c, error, (List.append_assoc _ _ _).symm, hc⟩

theorem Contained.cons {o : Outcome α} {e : Entry τ} {l : List (Entry τ)}
    (he : ∀ i tx p, e = .answered (.step i tx) (.error p) → ∃ k site given error rest,
      l = .notice (.stepPanicked k i (p.failure site)) ::
        .called (.rollback tx given) error :: rest)
    (h : Contained o l) : Contained o (e :: l) := by
  refine ⟨⟨he, h.undone⟩, fun p hp => ?_⟩
  obtain ⟨before, c, error, rfl, hc⟩ := h.escaped p hp
  exact ⟨e :: before, c, error, rfl, hc⟩

theorem Contained.broken {o : Outcome α} {o' : Outcome β} {l : List (Entry τ)}
    (h : Contained o l) (ho : o.Broken o') : Contained o' l := by
  cases ho with
  | unwound p => exact ⟨h.undone, fun q hq => h.escaped p rfl⟩
  | stalled => exact ⟨h.undone, nofun⟩

theorem Contained.map {o : Outcome α} {l : List (Entry τ)} (h : Contained o l) (f : α → β) :
    Contained (o.map f) l := by
  cases o with
  | returned a => exact ⟨h.undone, nofun⟩
  | unwound p => exact h.broken (.unwound p)
  | stalled => exact h.broken .stalled

variable {E : Surroundings σ (Recorded ε τ)} {pool : Pool σ ε τ} {ctx : ContextId}
  {grace : Duration} {k : UInt32} {tx : τ} {w v : World σ (Recorded ε τ)}
  {l : Story σ (Recorded ε τ)}

/-- A call of the pool, which is the last one told of if it unwinds. -/
theorem contained_watch {c : Call τ} (hc : ∀ i tx, c ≠ .step i tx) {x : Async σ ε c.Reply}
    {o : Outcome c.Reply} (h : (Async.watch c x).Exec E w l o v) :
    Contained o (l.report ctx) := by
  have hanswer : ∀ (r : c.Reply) i tx p,
      (Item.answered c r : Entry τ) ≠ .answered (.step i tx) (.error p) := by
    intro r i tx p he
    injection he with he
    exact hc i tx he
  rcases Async.report_watch h ctx with ⟨r, rfl, hl⟩ | ⟨_, hl⟩
  · rw [hl]
    exact ⟨⟨nofun, fun i tx p he => absurd he (hanswer r i tx p), trivial⟩, nofun⟩
  · rw [hl]
    exact ⟨⟨nofun, trivial⟩, fun p _ => ⟨[], c, _, rfl, hc⟩⟩

theorem contained_undoing {given : ContextId} {o : Outcome (Option Failure)}
    (h : Pool.Undoing E pool.watched k tx given w l o v) : Contained o (l.report ctx) := by
  cases h with
  | done h =>
      rw [Story.report_append]
      exact .behind (contained_watch nofun (Pool.exec_rollback h)).undone ⟨⟨nofun, trivial⟩, nofun⟩
  | failed h =>
      rw [Story.report_append]
      exact .behind (contained_watch nofun (Pool.exec_rollback h)).undone ⟨⟨nofun, trivial⟩, nofun⟩
  | lost h ho => exact (contained_watch nofun (Pool.exec_rollback h)).broken ho

/-- What is told of undoing an attempt begins with the call of the rollback. -/
theorem called_undoing {given : ContextId} {o : Outcome (Option Failure)}
    (h : Pool.Undoing E pool.watched k tx given w l o v) (ctx : ContextId) :
    ∃ error rest, l.report ctx = .called (.rollback tx given) error :: rest := by
  cases h with
  | done h =>
      rw [Story.report_append, Async.report_returned (Pool.exec_rollback h)]
      exact ⟨_, _, rfl⟩
  | failed h =>
      rw [Story.report_append, Async.report_returned (Pool.exec_rollback h)]
      exact ⟨_, _, rfl⟩
  | lost h ho =>
      rw [Async.report_unreturned (Pool.exec_rollback h) ho.left]
      exact ⟨_, _, rfl⟩

theorem contained_undone {o : Outcome (Option Failure)}
    (h : Pool.Undone E pool.watched ctx grace k tx w l o v) :
    Contained o (l.report ctx) ∧
      ∃ given error rest, l.report ctx = .called (.rollback tx given) error :: rest := by
  cases h with
  | live _ h => exact ⟨contained_undoing h, _, called_undoing h ctx⟩
  | late _ h => exact ⟨contained_undoing h, _, called_undoing h ctx⟩

/-- A step that has panicked is followed by the rollback, and no step unwinds. -/
theorem contained_steps {i : Nat} {steps : List (Step σ ε τ)} {o : Outcome Result}
    (h : Pool.StepsCourse E pool.watched ctx grace k tx i (watchSteps i steps) w l o v) :
    Contained o (l.report ctx) := by
  induction steps generalizing i w l with
  | nil =>
      cases h with
      | passed => exact ⟨trivial, nofun⟩
  | cons step rest ih =>
      cases h with
      | interrupted _ h => exact (contained_undoing h).map _
      | stalled _ h =>
          rcases Pool.report_ran h ctx with ⟨r, hr, _⟩ | ⟨p, site, hr, _⟩ | ⟨_, hl⟩
          · cases hr
          · cases hr
          · rw [hl]
            exact ⟨⟨nofun, trivial⟩, nofun⟩
      | failed _ h hu =>
          obtain ⟨hundone, given, error, rest', hrest⟩ := contained_undone hu
          rw [Story.report_append]
          rcases Pool.report_ran h ctx with ⟨r, _, hl⟩ | ⟨p, site, _, hl⟩ | ⟨hr, _⟩
          · rw [hl]
            exact (Contained.cons nofun (.cons nofun hundone)).map _
          · rw [hl]
            refine (Contained.cons nofun (.cons (fun j tx' q he => ?_) (.cons nofun hundone))).map _
            injection he with hcall hreply
            cases hcall
            cases hreply
            exact ⟨k, site, given, error, rest', congrArg (_ :: ·) hrest⟩
          · cases hr
      | next _ h hrest =>
          rw [Story.report_append]
          rcases Pool.report_ran h ctx with ⟨r, hr, hl⟩ | ⟨p, site, hr, _⟩ | ⟨hr, _⟩
          · rw [hl]
            exact .cons nofun (.cons nofun (ih hrest))
          · cases hr
          · cases hr

theorem contained_attempt {steps : List (Step σ ε τ)} {o : Outcome Result}
    (h : Pool.AttemptCourse E pool.watched ctx grace k (watchSteps 0 steps) w l o v) :
    Contained o (l.report ctx) := by
  have hbegin : ∀ {w v : World σ (Recorded ε τ)} {l : Story σ (Recorded ε τ)}
      {r : Except Failure τ}, (pool.watched.begin ctx).Exec E w l (.returned r) v →
        PanicsUndone (l.report ctx) :=
    fun h => (contained_watch nofun (Pool.exec_begin h)).undone
  have hcommit : ∀ {tx : τ} {w v : World σ (Recorded ε τ)} {l : Story σ (Recorded ε τ)}
      {o : Outcome Result}, (pool.watched.commit tx ctx).Exec E w l o v →
        Contained o (l.report ctx) :=
    fun h => contained_watch nofun (Pool.exec_commit h)
  cases h with
  | lost h ho => exact .cons nofun ((contained_watch nofun (Pool.exec_begin h)).broken ho)
  | unopened h => exact .cons nofun ⟨hbegin h, nofun⟩
  | undone h hs _ =>
      refine .cons nofun ?_
      rw [← Story.report, Story.report_append]
      exact .behind (hbegin h) (contained_steps hs)
  | unfinished h hs hc ho =>
      refine .cons nofun ?_
      rw [← Story.report, Story.report_append, Story.report_append]
      exact .behind (hbegin h) (.behind (contained_steps hs).undone ((hcommit hc).broken ho))
  | refused h hs hc =>
      refine .cons nofun ?_
      rw [← Story.report, Story.report_append, Story.report_append]
      exact .behind (hbegin h) (.behind (contained_steps hs).undone ⟨(hcommit hc).undone, nofun⟩)
  | committed h hs hc =>
      refine .cons nofun ?_
      rw [← Story.report, Story.report_append, Story.report_append, Story.report_append]
      exact .behind (hbegin h) (.behind (contained_steps hs).undone
        (.behind (hcommit hc).undone ⟨⟨nofun, trivial⟩, nofun⟩))

theorem contained_course {p : RetryPolicy} {steps : List (Step σ ε τ)} {left : Nat}
    {m k : UInt32} {o : Outcome Result}
    (h : p.Course E ctx (Executor.watchedAttempts pool ctx grace steps) left k m w l o v) :
    Contained o (l.report ctx) := by
  have hattempt : ∀ {m : UInt32} {w v : World σ (Recorded ε τ)} {l : Story σ (Recorded ε τ)}
      {o : Outcome Result},
      (Executor.watchedAttempts pool ctx grace steps m).2.Exec E w l o v →
        Contained o (l.report ctx) :=
    fun h => contained_attempt (Pool.exec_attempt h)
  have hwait : ∀ (k : UInt32) (e : Failure) (u : World σ (Recorded ε τ)),
      PanicsUndone (Story.report ctx (p.waitStory k e u)) :=
    fun _ _ _ => ⟨nofun, nofun, trivial⟩
  induction h with
  | lost h ho => exact (hattempt h).broken ho
  | succeeded h => exact hattempt h
  | stopped h _ =>
      rw [Story.report_append]
      exact .behind (hattempt h).undone ⟨⟨nofun, trivial⟩, nofun⟩
  | exhausted h _ => exact hattempt h
  | interrupted h _ _ =>
      rw [Story.report_append]
      exact .behind (hattempt h).undone ⟨hwait _ _ _, nofun⟩
  | hung h _ _ =>
      rw [Story.report_append]
      exact .behind (hattempt h).undone ⟨hwait _ _ _, nofun⟩
  | again h _ _ _ ih =>
      rw [Story.report_append, Story.report_append]
      exact .behind (hattempt h).undone (.behind (hwait _ _ _) ih)

/-- No panic of a step leaves a run, and each is followed by a rollback. -/
theorem contained_recorded {x : Executor σ ε τ} {steps : List (Step σ ε τ)}
    {o : Outcome Result} (h : (x.recorded ctx steps).Exec E w l o v) :
    Contained o (l.report ctx) := by
  rcases exec_recorded h with ⟨rfl, _, e, rfl, _⟩ | ⟨_, pool, _, hcourse⟩
  · exact ⟨trivial, nofun⟩
  · exact contained_course hcourse

end Containment

section Retrying

/-- A panic of a step has led to the rollback. -/
def AttemptLog.panicked : AttemptLog τ → Bool
  | .undone _ _ (.panicked _ _) _ => true
  | _ => false

/-- An attempt that has panicked fails, and not for good. -/
theorem AttemptLog.result_panicked {log : AttemptLog τ} (h : log.panicked = true) :
    ∃ e, log.result = .error e ∧ e.isStop = false := by
  cases log with
  | unopened e => cases h
  | finished tx error reply => cases h
  | undone tx passed s u =>
      cases s with
      | panicked p site => exact ⟨_, rfl, Setback.isStop_failure (.panicked p site) u.later⟩
      | interrupted c => cases h
      | failed e => cases h

/-- A run whose last attempt has panicked has used up its attempts, unless the context ended
the wait after it. -/
theorem RunLog.attempts_of_panicked {r : RunLog τ} {n left : Nat} (hfits : r.Fits n left)
    (h : r.lastAttempt.panicked = true) (hend : r.ending = none) :
    r.attempts.length = left + 1 := by
  induction r generalizing left with
  | last log =>
      obtain ⟨e, he, hs⟩ := AttemptLog.result_panicked h
      have hlast : e.isStop = true ∨ left = 0 := by cases left <;> exact hfits.2 e he
      rcases hlast with hstop | rfl
      · cases hs.symm.trans hstop
      · rfl
  | interrupted log e wait cause => cases hend
  | retried log e wait rest ih =>
      cases left with
      | zero => exact hfits.elim
      | succ left => exact congrArg (· + 1) (ih hfits.2.2.2 h hend)

end Retrying

section Replacement

namespace Async

/-- The program that takes out the record of its panic and returns the failure. -/
def recovering : Async σ ε Result → Async σ ε Result
  | .ret r => .ret r
  | .unwind p => .perform .takeRecord fun site => .ret (.error (p.failure site))
  | .perform o next => .perform o fun a => (next a).recovering
  | .await c limit next => .await c limit fun r => (next r).recovering

/-- The program that returns the failure of its panic without a site. -/
def returning : Async σ ε Result → Async σ ε Result
  | .ret r => .ret r
  | .unwind p => .ret (.error (p.failure none))
  | .perform o next => .perform o fun a => (next a).returning
  | .await c limit next => .await c limit fun r => (next r).returning

theorem tamed_recovering (x : Async σ ε Result) : Tamed true Payload.Becomes x x.recovering := by
  induction x with
  | ret r => exact .ret (.refl r)
  | unwind p =>
      refine .recovered fun site => ?_
      cases site with
      | none => exact ⟨_, _, rfl⟩
      | some site => exact ⟨_, _, rfl⟩
  | perform o next ih => exact .perform (Or.inl rfl) ih
  | await c limit next ih => exact .await ih

/-- A program that does not look at sites is tamed by returning the failure of its panic. -/
theorem Oblivious.returning {x : Async σ ε Result} (h : x.Oblivious false) :
    Tamed false Payload.Becomes x x.returning := by
  have hany : ∀ {x y : Async σ ε Result}, Tamed false (fun _ _ => False) x y →
      Tamed false Payload.Becomes x y.returning := by
    intro x y h
    induction h with
    | ret hr => exact .ret hr
    | unwind p => exact .returned rfl ⟨_, _, rfl⟩
    | emit he _ ih => exact .emit he ih
    | perform ho _ ih => exact .perform ho ih
    | await _ ih => exact .await ih
    | takeRecord hs _ ih => exact .takeRecord hs ih
    | unhooked hs _ ih => exact .unhooked hs ih
    | returned _ hr => exact hr.elim
    | recovered hr => exact (hr none).elim
  exact hany h

end Async

/-- In a strict comparison no pool is excluded. -/
theorem Pool.oblivious_of_strict (pool : Pool σ ε τ) : pool.Oblivious true where
  begin ctx := Async.tamed_refl _ (pool.begin ctx)
  commit tx ctx := Async.tamed_refl _ (pool.commit tx ctx)
  rollback tx ctx := Async.tamed_refl _ (pool.rollback tx ctx)

/-- The run looks the same with other steps, comes to a like outcome, and ends in the same
state at the same instant. -/
structure Executor.RunsAlike (x : Executor σ ε τ) (ctx : ContextId)
    (steps steps' : List (Step σ ε τ)) (w : World σ ε) : Prop where
  seen : (x.record ctx steps w).sights = (x.record ctx steps' w).sights
  outcome : ((x.run ctx steps).run w).1.Near SameAnswer ((x.run ctx steps').run w).1
  left : ((x.run ctx steps).run w).2.Near false ((x.run ctx steps').run w).2

/-- A run goes like the one with tamed steps. -/
theorem Executor.runsAlike_of_tamed {strict : Bool} {x : Executor σ ε τ} {ctx : ContextId}
    {steps steps' : List (Step σ ε τ)} (hpool : ∀ pool ∈ x.pool, pool.Oblivious strict)
    (h : StepsTamed strict steps steps') (w : World σ ε) : x.RunsAlike ctx steps steps' w := by
  obtain ⟨l', o', v', hexec, hl, ho, hv⟩ :=
    matched_recorded (blind_clock strict) hpool h (.refl strict _) (x.exec_record ctx steps w)
  obtain ⟨hl', hrun⟩ := Async.eq_run_of_exec hexec
  obtain ⟨hsame, hleft⟩ := x.run_recorded ctx steps w
  obtain ⟨hsame', hleft'⟩ := x.run_recorded ctx steps' w
  rw [hrun] at hsame' hleft'
  refine ⟨hl.trans (congrArg Story.sights hl'), ?_, ?_⟩
  · rw [hsame']
    exact ho
  · exact ⟨hleft.timeline.trans (hv.timeline.trans hleft'.timeline.symm), nofun,
      hleft.source.trans (hv.source.trans hleft'.source.symm),
      hleft.draws.trans (hv.draws.trans hleft'.draws.symm),
      hleft.state.trans (hv.state.trans hleft'.state.symm)⟩

end Replacement

open Async

/-- **A panicking step is a failing step.**  In every execution of a run, the panics of steps
stay inside and are each followed by the rollback of the transaction.  A log tells of the run,
in which no attempt that has panicked has failed for good; if the last attempt has panicked,
then the attempts were used up, or the context has ended the wait after it.

The run with tamed steps, which return the failures of their panics, goes the same way in all
surroundings that are blind to captures and traces: the same is seen, each event at its
instant, and the results are the same up to sites.  With the clock alone, this holds for every
pool and all steps if the record of each panic is taken out and its failure returned.  It also
holds if the failure is simply returned, where neither the pool nor the steps look at sites. -/
theorem panics_are_failures (x : Executor σ ε τ) (ctx : ContextId) (steps : List (Step σ ε τ)) :
    (∀ (E : Surroundings σ (Recorded ε τ)) w l o v, (x.recorded ctx steps).Exec E w l o v →
      Contained o (l.report ctx) ∧
      (l = [] ∨ ∃ log : RunLog τ,
        log.Fits steps.length (x.retry.maxAttempts.toNat - 1) ∧
        Told o (l.report ctx) log.result (log.report x.retry ctx steps.length 1) ∧
        (∀ a ∈ log.attempts, a.panicked = true → ∃ e, a.result = .error e ∧ e.isStop = false) ∧
        (log.lastAttempt.panicked = true → log.ending = none →
          log.attempts.length = x.retry.maxAttempts.toNat))) ∧
    (∀ (strict : Bool) (E : Surroundings σ (Recorded ε τ)) steps', E.Blind strict →
      (∀ pool ∈ x.pool, pool.Oblivious strict) → StepsTamed strict steps steps' →
      ∀ w l o v, (x.recorded ctx steps).Exec E w l o v →
        ∃ l' o' v', (x.recorded ctx steps').Exec E w l' o' v' ∧ l.sights = l'.sights ∧
          o.Near SameAnswer o' ∧ v.Near strict v') ∧
    (∀ w, x.RunsAlike ctx steps (steps.map fun step tx => (step tx).recovering) w) ∧
    ((∀ pool ∈ x.pool, pool.Oblivious false) → (∀ step ∈ steps, ∀ tx, (step tx).Oblivious false) →
      ∀ w, x.RunsAlike ctx steps (steps.map fun step tx => (step tx).returning) w) := by
  refine ⟨fun E w l o v h => ⟨contained_recorded h, ?_⟩, ?_, fun w => ?_, fun hpool hsteps w => ?_⟩
  · have hmax := x.retry.one_le_maxAttempts
    rcases told_run h with ⟨rfl, _⟩ | ⟨_, log, hfits, _, ht⟩
    · exact Or.inl rfl
    · refine Or.inr ⟨log, hfits, ht, fun a _ => AttemptLog.result_panicked, fun hp hend => ?_⟩
      rw [RunLog.attempts_of_panicked hfits hp hend]
      omega
  · intro strict E steps' hE hpool htamed w l o v h
    exact matched_recorded hE hpool htamed (.refl strict w) h
  · have hpool : ∀ pool ∈ x.pool, pool.Oblivious true := fun pool _ => pool.oblivious_of_strict
    refine Executor.runsAlike_of_tamed hpool ?_ w
    rw [StepsTamed, List.forall₂_map_right_iff]
    exact List.forall₂_same.2 fun step _ tx => tamed_recovering (step tx)
  · refine Executor.runsAlike_of_tamed hpool ?_ w
    rw [StepsTamed, List.forall₂_map_right_iff]
    exact List.forall₂_same.2 fun step hstep tx => (hsteps step hstep tx).returning

section Instance

/-- A pool that agrees to everything and counts the transactions it begins. -/
def Pool.counting : Pool Nat ε Unit where
  begin _ := do
    Async.modify (· + 1)
    return .ok ()
  commit _ _ := return .ok ()
  rollback _ _ := return .ok ()

theorem Pool.oblivious_counting : (Pool.counting : Pool Nat ε Unit).Oblivious false where
  begin _ := .perform (Or.inr nofun) fun _ => .ret (.refl _)
  commit _ _ := .ret (.refl _)
  rollback _ _ := .ret (.refl _)

/-- A step that panics in the first transaction. -/
def Step.startled : Step Nat ε Unit := fun _ => do
  match ← Async.get with
  | 1 => Async.panic (.text "boom") ⟨"here", ""⟩
  | _ => return .ok ()

theorem Step.oblivious_startled : ((Step.startled : Step Nat ε Unit) ()).Oblivious false := by
  refine .perform (Or.inr nofun) fun n => ?_
  match n with
  | 0 => exact .ret (.refl _)
  | 1 => exact .perform (Or.inr nofun) fun _ => .unwind _
  | n + 2 => exact .ret (.refl _)

/-- Two attempts without a delay. -/
def Executor.twice : Executor Nat Nat Unit :=
  ⟨some Pool.counting, RetryPolicy.every 2 Duration.zero, Duration.zero⟩

/-- A world with one live context. -/
def World.live : World Nat Nat :=
  { World.initial (fun _ => 0) 0 with timeline := Timeline.start.create Context.unbounded }

/-- The panic in the first of two attempts is retried like the failure in its place. -/
theorem panics_are_failures_startled :
    (∀ pool ∈ Executor.twice.pool, pool.Oblivious false) ∧
      (∀ step ∈ [(Step.startled : Step Nat Nat Unit)], ∀ tx, (step tx).Oblivious false) ∧
      Executor.twice.RunsAlike 0 [Step.startled]
        ([Step.startled].map fun step tx => (step tx).returning) World.live ∧
      ∃ v, (Executor.twice.run 0 [Step.startled]).run World.live = (.returned (.ok ()), v) ∧
        v.state = 2 := by
  have hpool : ∀ pool ∈ Executor.twice.pool, pool.Oblivious false := by
    intro pool h
    cases h
    exact Pool.oblivious_counting
  have hsteps : ∀ step ∈ [(Step.startled : Step Nat Nat Unit)], ∀ tx,
      (step tx).Oblivious false := by
    intro step h tx
    cases List.mem_singleton.1 h
    exact Step.oblivious_startled
  have halike := (panics_are_failures Executor.twice 0 [Step.startled]).2.2.2 hpool hsteps
  exact ⟨hpool, hsteps, halike World.live, _, rfl, rfl⟩

end Instance

end TransactionAttempts
