import TransactionAttempts.Proofs.Logs

/-!
# The contexts of rollbacks

A rollback is called under the caller's context while that is live, and under a fresh one
that lasts for the grace period otherwise.

**Fresh contexts.**  A context is fresh if it did not exist at the event before the call,
when the begin or the step before had been answered.  Contexts that differ share nothing,
so nobody who has run until then can cancel it or wait for it.

Main facts:

* `granted_own`, `granted_fresh`: the two ways in which a rollback is given a context;
* `granted_steps`, `granted_attempt`, `granted_course`: what holds of all rollbacks of some
  steps, of an attempt and of a run;
* `rollback_granted`: the context of every rollback of a run and of a transaction.
-/

namespace TransactionAttempts

variable {σ ε τ : Type}

section Granting

/-- The context that a rollback is given, which is called in the second world, while the
event before it was left in the first one. -/
structure Granted (ctx : ContextId) (grace : Duration) (before w : World σ ε)
    (given : ContextId) : Prop where
  /-- It is the caller's context exactly if that is live. -/
  own_iff : given = ctx ↔ w.timeline.error ctx = none
  /-- Any other one is new, nobody has cancelled it, and it ends after the grace period
  unless that instant cannot be represented. -/
  fresh : given ≠ ctx → given = before.timeline.contexts.size ∧
    w.timeline.contexts.get? given = some ⟨false, Instant.after? w.now grace⟩
  /-- It is live if there is any grace at all. -/
  live : 0 < grace.nanos → w.timeline.error given = none

variable {ctx : ContextId} {grace : Duration} {before w : World σ ε}

theorem granted_own (h : w.timeline.error ctx = none) : Granted ctx grace before w ctx where
  own_iff := ⟨fun _ => h, fun _ => rfl⟩
  fresh hne := absurd rfl hne
  live _ := h

/-- A timeout that takes time has not passed when it starts. -/
theorem Context.error_withTimeout (now : Instant) {d : Duration} (hd : 0 < d.nanos) :
    (Context.withTimeout now d).error now = none := by
  have hlt : ¬ now + d.nanos ≤ now := Nat.not_le.2 (Nat.lt_add_of_pos_right hd)
  unfold withTimeout error Instant.after?
  split <;> simp [hlt]

/-- A context that is done is in the table. -/
theorem Timeline.Done.lt_size {t : Timeline} {i : ContextId} (h : t.Done i) :
    i < t.contexts.size := by
  obtain ⟨c, hc, _⟩ := Timeline.done_iff.1 h
  exact (List.getElem?_eq_some_iff.1 hc).1

theorem granted_fresh {c : ContextError} (hdone : w.timeline.error ctx = some c)
    (hsize : before.timeline.contexts.size = w.timeline.contexts.size) :
    Granted ctx grace before (w.withGrace grace) w.timeline.contexts.size where
  own_iff := by
    have hlt : ctx < w.timeline.contexts.size :=
      Timeline.Done.lt_size (by simp [Timeline.Done, hdone])
    have herror : (w.withGrace grace).timeline.error ctx = some c :=
      Timeline.error_create hdone _
    rw [herror]
    exact ⟨fun he => absurd he (Nat.ne_of_gt hlt), fun he => by cases he⟩
  fresh _ := ⟨hsize.symm, Contexts.get?_push_size _ _⟩
  live hgrace := by
    have hget : (w.withGrace grace).timeline.contexts.get? w.timeline.contexts.size =
        some (Context.withTimeout w.now grace) := Contexts.get?_push_size _ _
    show ((w.withGrace grace).timeline.contexts.get? w.timeline.contexts.size).bind
      (·.error w.now) = none
    rw [hget]
    exact Context.error_withTimeout w.now hgrace

end Granting

section Stories

/-- The world of the last event that is told, or the given one if nothing is. -/
def Story.lastWorld : World σ ε → Story σ ε → World σ ε
  | w, [] => w
  | _, y :: rest => Story.lastWorld y.1 rest

theorem Story.lastWorld_append (w : World σ ε) (l l' : Story σ ε) :
    Story.lastWorld w (l ++ l') = Story.lastWorld (Story.lastWorld w l) l' := by
  induction l generalizing w with
  | nil => rfl
  | cons y rest ih => exact ih y.1

/-- Every rollback that is told of is given its context, after an event in the given world. -/
def AllGranted (ctx : ContextId) (grace : Duration) :
    World σ (Recorded ε τ) → Story σ (Recorded ε τ) → Prop
  | _, [] => True
  | before, y :: rest =>
      (∀ tx given, y.2 = .mark (.called (.rollback tx given)) →
        Granted ctx grace before y.1 given) ∧ AllGranted ctx grace y.1 rest

/-- No rollback is told of. -/
def Quiet (l : Story σ (Recorded ε τ)) : Prop :=
  AtCalls (fun _ c => ∀ tx given, c ≠ .rollback tx given) l

variable {ctx : ContextId} {grace : Duration} {before : World σ (Recorded ε τ)}
  {l l' : Story σ (Recorded ε τ)}

theorem AllGranted.append (h : AllGranted ctx grace before l)
    (h' : AllGranted ctx grace (l.lastWorld before) l') :
    AllGranted ctx grace before (l ++ l') := by
  induction l generalizing before with
  | nil => exact h'
  | cons y rest ih => exact ⟨h.1, ih h.2 h'⟩

theorem Quiet.allGranted (h : Quiet l) : AllGranted ctx grace before l := by
  induction l generalizing before with
  | nil => trivial
  | cons y rest ih =>
      exact ⟨fun tx given he => absurd rfl (h y List.mem_cons_self _ he tx given),
        ih fun z hz => h z (List.mem_cons_of_mem y hz)⟩

theorem allGranted_notice (w : World σ (Recorded ε τ)) (n : Notice) :
    AllGranted ctx grace before [(w, .notice n)] :=
  Quiet.allGranted (atCalls_notice w n)

/-- What holds of all rollbacks holds of each. -/
theorem AllGranted.at {earlier later : Story σ (Recorded ε τ)} {w : World σ (Recorded ε τ)}
    {tx : τ} {given : ContextId}
    (h : AllGranted ctx grace before
      (earlier ++ (w, .mark (.called (.rollback tx given))) :: later)) :
    Granted ctx grace (earlier.lastWorld before) w given := by
  induction earlier generalizing before with
  | nil => exact h.1 tx given rfl
  | cons y rest ih => exact ih h.2

end Stories

section Calls

variable {E : Surroundings σ (Recorded ε τ)} {ctx : ContextId} {grace : Duration}
  {before w v : World σ (Recorded ε τ)} {l : Story σ (Recorded ε τ)}

/-- A call that has returned leaves the contexts as they were when its answer was told. -/
theorem timeline_watch {c : Call τ} {x : Async σ ε c.Reply} {r : c.Reply}
    (h : (Async.watch c x).Exec E w l (.returned r) v) :
    (l.lastWorld before).timeline = v.timeline := by
  rcases Async.exec_watch h with ⟨r', u, l', _, hr, rfl, rfl⟩ | ⟨l', _, ho, _⟩
  · rw [← List.singleton_append, Story.lastWorld_append, Story.lastWorld_append]
    rfl
  · exact absurd rfl (ho.left r)

variable {pool : Pool σ ε τ} {k : UInt32}

theorem granted_undoing {tx : τ} {given : ContextId} {o : Outcome (Option Failure)}
    (hg : Granted ctx grace before w given)
    (h : Pool.Undoing E pool.watched k tx given w l o v) : AllGranted ctx grace before l := by
  have hcall : ∀ {l : Story σ (Recorded ε τ)} {o : Outcome Result} {v : World σ (Recorded ε τ)},
      (pool.watched.rollback tx given).Exec E w l o v → AllGranted ctx grace before l := by
    intro l o v h
    obtain ⟨rest, rfl, hrest⟩ := exists_watch (Pool.exec_rollback h)
    refine ⟨fun tx' given' he => ?_, Quiet.allGranted hrest⟩
    cases he
    exact hg
  cases h with
  | done h => exact (hcall h).append (allGranted_notice _ _)
  | failed h => exact (hcall h).append (allGranted_notice _ _)
  | lost h _ => exact hcall h

theorem granted_undone {tx : τ} {o : Outcome (Option Failure)}
    (hsize : before.timeline.contexts.size = w.timeline.contexts.size)
    (h : Pool.Undone E pool.watched ctx grace k tx w l o v) : AllGranted ctx grace before l := by
  cases h with
  | live he h => exact granted_undoing (granted_own he) h
  | late he h => exact granted_undoing (granted_fresh he hsize) h

theorem quiet_ran {i : Nat} {step : Step σ ε τ} {tx : τ} {o : Outcome Result}
    (h : Pool.Ran E k i (step.watched i tx) w l o v) : Quiet l := by
  have hbody : ∀ {l : Story σ (Recorded ε τ)} {o : Outcome Result} {u : World σ (Recorded ε τ)},
      (step.watched i tx).bracketed.Exec E w.captured l o u → Quiet l := by
    intro l o u h
    obtain ⟨o', hx, _⟩ := Step.exec_watched h
    exact atCalls_watch (by simp) hx
  cases h with
  | returned hb => exact hbody hb
  | panicked hb _ => exact AtCalls.append (hbody hb) (atCalls_notice _ _)
  | stalled hb => exact hbody hb

/-- A step that has come back leaves the contexts as they were at its last event. -/
theorem timeline_ran {i : Nat} {step : Step σ ε τ} {tx : τ} {r : Result}
    (h : Pool.Ran E k i (step.watched i tx) w l (.returned r) v) :
    (l.lastWorld before).timeline = v.timeline := by
  cases h with
  | @returned u _ _ hb =>
      obtain ⟨o', hx, ho, _⟩ := Step.exec_watched hb
      cases o' with
      | returned r' => exact timeline_watch (v := u) hx
      | unwound p => cases ho
      | stalled => cases ho
  | panicked hb _ =>
      rw [Story.lastWorld_append]
      rfl

/-- The rollbacks of some steps, which begin when the contexts are as they were at the last
event. -/
theorem granted_steps {tx : τ} {i : Nat} {steps : List (Step σ ε τ)} {o : Outcome Result}
    (hsize : before.timeline.contexts.size = w.timeline.contexts.size)
    (h : Pool.StepsCourse E pool.watched ctx grace k tx i (watchSteps i steps) w l o v) :
    AllGranted ctx grace before l := by
  induction steps generalizing i w l before with
  | nil =>
      cases h with
      | passed => trivial
  | cons step rest ih =>
      cases h with
      | interrupted he h => exact granted_undoing (granted_fresh he hsize) h
      | stalled _ h => exact (quiet_ran h).allGranted
      | failed _ h hu =>
          exact (quiet_ran h).allGranted.append
            (granted_undone (congrArg (·.contexts.size) (timeline_ran h)) hu)
      | next _ h hrest =>
          exact (quiet_ran h).allGranted.append
            (ih (congrArg (·.contexts.size) (timeline_ran h)) hrest)

/-- The rollbacks of an attempt, whatever was told before it. -/
theorem granted_attempt {steps : List (Step σ ε τ)} {o : Outcome Result}
    (h : Pool.AttemptCourse E pool.watched ctx grace k (watchSteps 0 steps) w l o v)
    (before : World σ (Recorded ε τ)) : AllGranted ctx grace before l := by
  have hhead : ∀ {n : Nat} {l : Story σ (Recorded ε τ)},
      AllGranted ctx grace w l →
        AllGranted ctx grace before ((w, .notice (.beginning k n)) :: l) :=
    fun hl => ⟨fun _ _ he => (nomatch he), hl⟩
  have hbegin : ∀ {l : Story σ (Recorded ε τ)} {o : Outcome (Except Failure τ)}
      {u v : World σ (Recorded ε τ)}, (pool.watched.begin ctx).Exec E u l o v → Quiet l :=
    fun h => atCalls_watch (by simp) (Pool.exec_begin h)
  have hcommit : ∀ {tx : τ} {l : Story σ (Recorded ε τ)} {o : Outcome Result}
      {u v : World σ (Recorded ε τ)}, (pool.watched.commit tx ctx).Exec E u l o v → Quiet l :=
    fun h => atCalls_watch (by simp) (Pool.exec_commit h)
  have hopened : ∀ {tx : τ} {l l' : Story σ (Recorded ε τ)} {o : Outcome Result}
      {u u' v : World σ (Recorded ε τ)},
      (pool.watched.begin ctx).Exec E u l (.returned (.ok tx)) u' →
      Pool.StepsCourse E pool.watched ctx grace k tx 0 (watchSteps 0 steps) u' l' o v →
      AllGranted ctx grace w (l ++ l') :=
    fun hb hs => (hbegin hb).allGranted.append
      (granted_steps (congrArg (·.contexts.size) (timeline_watch (Pool.exec_begin hb))) hs)
  cases h with
  | lost hb _ => exact hhead (hbegin hb).allGranted
  | unopened hb => exact hhead (hbegin hb).allGranted
  | undone hb hs _ => exact hhead (hopened hb hs)
  | unfinished hb hs hc _ =>
      rw [← List.append_assoc]
      exact hhead ((hopened hb hs).append (hcommit hc).allGranted)
  | refused hb hs hc =>
      rw [← List.append_assoc]
      exact hhead ((hopened hb hs).append (hcommit hc).allGranted)
  | committed hb hs hc =>
      rw [← List.append_assoc]
      exact hhead ((hopened hb hs).append ((hcommit hc).allGranted.append (allGranted_notice _ _)))

/-- The rollbacks of a run. -/
theorem granted_course {p : RetryPolicy} {steps : List (Step σ ε τ)} {left : Nat}
    {m : UInt32} {o : Outcome Result}
    (h : p.Course E ctx (Executor.watchedAttempts pool ctx grace steps) left k m w l o v)
    (before : World σ (Recorded ε τ)) : AllGranted ctx grace before l := by
  have hattempt : ∀ {m : UInt32} {l : Story σ (Recorded ε τ)} {o : Outcome Result}
      {w v : World σ (Recorded ε τ)} (before : World σ (Recorded ε τ)),
      (Executor.watchedAttempts pool ctx grace steps m).2.Exec E w l o v →
      AllGranted ctx grace before l :=
    fun before h => granted_attempt (Pool.exec_attempt h) before
  have hwait : ∀ (k : UInt32) (e : Failure) (u before : World σ (Recorded ε τ)),
      AllGranted ctx grace before (p.waitStory k e u) :=
    fun k e u _ => Quiet.allGranted (atCalls_wait p k e u)
  induction h generalizing before with
  | lost h _ => exact hattempt before h
  | succeeded h => exact hattempt before h
  | stopped h _ => exact (hattempt before h).append (allGranted_notice _ _)
  | exhausted h _ => exact hattempt before h
  | interrupted h _ _ => exact (hattempt before h).append (hwait _ _ _ _)
  | hung h _ _ => exact (hattempt before h).append (hwait _ _ _ _)
  | again h _ _ _ ih =>
      exact (hattempt before h).append ((hwait _ _ _ _).append (ih _))

end Calls

/-- **The context of every rollback.**  In every execution of a run, and of a transaction
without retries, a rollback is called under the caller's context exactly if that is live,
and otherwise under a fresh one that ends after the grace period, if ever.  If there is any
grace at all, the context of a rollback is live when it is called. -/
theorem rollback_granted (E : Surroundings σ (Recorded ε τ)) (ctx : ContextId)
    (steps : List (Step σ ε τ)) :
    (∀ (x : Executor σ ε τ) w l o v, (x.recorded ctx steps).Exec E w l o v →
      ∀ (earlier later : Story σ (Recorded ε τ)) u tx given,
        l = earlier ++ (u, .mark (.called (.rollback tx given))) :: later →
        Granted ctx x.gracePeriod (earlier.lastWorld w) u given) ∧
    (∀ (pool : Pool σ ε τ) w l o v,
      (pool.watched.withTransaction ctx (watchSteps 0 steps)).Exec E w l o v →
      ∀ (earlier later : Story σ (Recorded ε τ)) u tx given,
        l = earlier ++ (u, .mark (.called (.rollback tx given))) :: later →
        Granted ctx Config.defaultGracePeriod (earlier.lastWorld w) u given) := by
  constructor
  · intro x w l o v h earlier later u tx given hl
    rcases exec_recorded h with ⟨hnil, _⟩ | ⟨_, pool, _, hcourse⟩
    · rw [hnil] at hl
      exact absurd hl.symm (by simp)
    · have hall := granted_course hcourse w
      rw [hl] at hall
      exact hall.at
  · intro pool w l o v h earlier later u tx given hl
    have hall := granted_attempt (Pool.exec_attempt h) w
    rw [hl] at hall
    exact hall.at

/-- What a report shows as called is called at some place of the story. -/
theorem exists_place {ctx : ContextId} {l : Story σ (Recorded ε τ)} {c : Call τ}
    {error : Option ContextError} (h : Item.called c error ∈ l.report ctx) :
    ∃ earlier u later, l = earlier ++ (u, .mark (.called c)) :: later ∧
      u.timeline.error ctx = error := by
  obtain ⟨⟨u, e⟩, hmem, he⟩ := List.mem_filterMap.1 h
  obtain ⟨earlier, later, hl⟩ := List.append_of_mem hmem
  cases e with
  | mark m =>
      cases m with
      | called d =>
          cases he
          exact ⟨earlier, u, later, hl, rfl⟩
      | answered d r => cases he
      | within d e => cases he
  | notice n => cases he
  | consulted attempt base => cases he

/-- A step that cancels the caller's context and fails. -/
def Step.resigning : Step Unit Unit Unit := fun _ => do
  Async.cancel 0
  return .error (.other "full")

/-- What such a step has done is rolled back under a live context that is not the caller's. -/
theorem rollback_granted_resigning :
    (∃ l o v, ((Executor.ofPool Pool.agreeing).recorded 0 [Step.resigning]).Exec .clock
        World.single l o v ∧
      ∃ earlier u later, l = earlier ++ (u, .mark (.called (.rollback () 1))) :: later ∧
        Granted 0 (Duration.ofSeconds 30) (Story.lastWorld World.single earlier) u 1 ∧
        u.timeline.error 0 = some .canceled ∧ u.timeline.error 1 = none) ∧
    ∃ l o v, (Pool.agreeing.watched.withTransaction 0 (watchSteps 0 [Step.resigning])).Exec .clock
        World.single l o v ∧
      ∃ earlier u later, l = earlier ++ (u, .mark (.called (.rollback () 1))) :: later ∧
        Granted 0 (Duration.ofSeconds 30) (Story.lastWorld World.single earlier) u 1 := by
  obtain ⟨hruns, htransactions⟩ := rollback_granted .clock 0 [Step.resigning]
  constructor
  · have h := Async.exec_run ((Executor.ofPool Pool.agreeing).recorded 0 [Step.resigning])
      World.single
    have hcalled : Item.called (.rollback () 1) (some .canceled) ∈ Story.report 0
        (((Executor.ofPool Pool.agreeing).recorded 0 [Step.resigning]).story World.single) :=
      List.mem_iff_getElem?.2 ⟨5, rfl⟩
    obtain ⟨earlier, u, later, hl, hdone⟩ := exists_place hcalled
    have hgranted := hruns _ _ _ _ _ h earlier later u () 1 hl
    exact ⟨_, _, _, h, earlier, u, later, hl, hgranted, hdone, hgranted.live (by decide)⟩
  · have h := Async.exec_run
      (Pool.agreeing.watched.withTransaction 0 (watchSteps 0 [Step.resigning])) World.single
    have hcalled : Item.called (.rollback () 1) (some .canceled) ∈ Story.report 0
        ((Pool.agreeing.watched.withTransaction 0 (watchSteps 0 [Step.resigning])).story
          World.single) := List.mem_iff_getElem?.2 ⟨5, rfl⟩
    obtain ⟨earlier, u, later, hl, _⟩ := exists_place hcalled
    exact ⟨_, _, _, h, earlier, u, later, hl,
      htransactions _ _ _ _ _ h earlier later u () 1 hl⟩

end TransactionAttempts
