import TransactionAttempts.Proofs.Taming

/-!
# Matching executions

A program is matched by another one if each of its executions has a counterpart: started in a
world that is near, it ends near, with a like outcome, and the same is seen on the way.  The
rules follow the way in which programs are made: a sequence is matched part by part, and a
loop by induction over the attempts that may still follow.

Main facts:

* `Matched.bind`: a sequence;
* `matched_runStep`: a step that may panic is matched by one that returns instead;
* `matched_attempt`, `matched_run`: so are attempts, and what is retried.
-/

namespace TransactionAttempts

variable {σ ε τ α α' β β' : Type} {E : Surroundings σ (Recorded ε τ)} {strict : Bool}

namespace Async

/-- Every execution of the first program is matched by one of the second, in a world that is
related to that in which the first one begins. -/
def MatchedFrom (E : Surroundings σ (Recorded ε τ)) (strict : Bool)
    (P : World σ (Recorded ε τ) → World σ (Recorded ε τ) → Prop) (Q : α → β → Prop)
    (x : Async σ (Recorded ε τ) α) (y : Async σ (Recorded ε τ) β) : Prop :=
  ∀ ⦃w w' v l o⦄, P w w' → x.Exec E w l o v →
    ∃ l' o' v', y.Exec E w' l' o' v' ∧ l.sights = l'.sights ∧ o.Near Q o' ∧ v.Near strict v'

/-- Every execution of the first program is matched by one of the second in a near world. -/
def Matched (E : Surroundings σ (Recorded ε τ)) (strict : Bool) (Q : α → β → Prop)
    (x : Async σ (Recorded ε τ) α) (y : Async σ (Recorded ε τ) β) : Prop :=
  MatchedFrom E strict (World.Near strict) Q x y

section Rules

variable {Q : α → β → Prop} {R : α' → β' → Prop}

theorem matched_ret {a : α} {b : β} (h : Q a b) :
    Matched E strict Q (.ret a) (.ret b) := by
  intro w w' v l o hw hx
  obtain ⟨rfl, rfl, rfl⟩ := exec_ret hx
  exact ⟨_, _, _, .ret b w', rfl, .returned h, hw⟩

/-- What follows a program is matched, and so it is behind one that has returned. -/
theorem MatchedFrom.behind {P : World σ (Recorded ε τ) → World σ (Recorded ε τ) → Prop}
    {x : Async σ (Recorded ε τ) α'} {y : Async σ (Recorded ε τ) β}
    {g : β → Async σ (Recorded ε τ) β'} {b : β} {u v u' w' : World σ (Recorded ε τ)}
    {l₁ l₁' l₂ : Story σ (Recorded ε τ)} {o : Outcome α'}
    (h : MatchedFrom E strict P R x (g b)) (hu : P u u') (hx : x.Exec E u l₂ o v)
    (hy : y.Exec E w' l₁' (.returned b) u') (hl : l₁.sights = l₁'.sights) :
    ∃ l' o' v', (y.bind g).Exec E w' l' o' v' ∧ Story.sights (l₁ ++ l₂) = l'.sights ∧
      o.Near R o' ∧ v.Near strict v' := by
  obtain ⟨l₂', o', v', hg, hl₂, ho, hv⟩ := h hu hx
  refine ⟨_, o', v', hy.bind hg, ?_, ho, hv⟩
  rw [Story.sights_append, Story.sights_append, hl, hl₂]

/-- A sequence is matched if its first parts are and, after like answers, its second parts. -/
theorem Matched.bind {x : Async σ (Recorded ε τ) α} {y : Async σ (Recorded ε τ) β}
    {f : α → Async σ (Recorded ε τ) α'} {g : β → Async σ (Recorded ε τ) β'}
    (hxy : Matched E strict Q x y) (hfg : ∀ a b, Q a b → Matched E strict R (f a) (g b)) :
    Matched E strict R (x.bind f) (y.bind g) := by
  intro w w' v l o hw h
  rcases exec_bind h with ⟨a, u, l₁, l₂, hx, hf, rfl⟩ | ⟨o₁, hx, ho⟩
  · obtain ⟨l₁', o₁', u', hy, hl₁, hq, hu⟩ := hxy hw hx
    cases hq with
    | returned hab => exact (hfg _ _ hab).behind hu hf hy hl₁
  · obtain ⟨l', o₁', v', hy, hl, hq, hv⟩ := hxy hw hx
    cases ho with
    | unwound p =>
        cases hq with
        | unwound => exact ⟨l', _, v', hy.bind_broken g (.unwound p), hl, .unwound p, hv⟩
    | stalled =>
        cases hq with
        | stalled => exact ⟨l', _, v', hy.bind_broken g .stalled, hl, .stalled, hv⟩

theorem matched_request {q : Op σ (Recorded ε τ)} (hq : q ≠ .takeRecord) :
    Matched E strict Eq (request q) (request q) := by
  intro w w' v l o hw hx
  obtain ⟨l₁, rfl, h₁⟩ := exec_perform hx
  obtain ⟨rfl, rfl, rfl⟩ := exec_ret h₁
  obtain ⟨ha, hnear⟩ := Op.near_apply (Or.inr hq) hw
  refine ⟨_, _, _, .perform (.ret _ _), ?_, .returned ha, hnear⟩
  rw [Story.sights_append, Story.sights_append, sights_story q hw]

theorem matched_errorOf (c : ContextId) :
    Matched E strict Eq (errorOf c) (errorOf c) :=
  matched_request (q := .error c) (by simp)

/-- In a loose comparison different records may be taken out. -/
theorem matched_takeRecord :
    Matched E strict (fun _ _ => True) (request .takeRecord) (request .takeRecord) := by
  intro w w' v l o hw hx
  obtain ⟨l₁, rfl, h₁⟩ := exec_perform hx
  obtain ⟨rfl, rfl, rfl⟩ := exec_ret h₁
  exact ⟨_, _, _, .perform (.ret _ _), rfl, .returned trivial, hw.recapture Capture.take⟩

theorem matched_emit {e e' : Event (Recorded ε τ)} (he : e.seen? = e'.seen?) :
    Matched E strict (fun _ _ => True) (request (.emit e)) (request (.emit e')) := by
  intro w w' v l o hw hx
  obtain ⟨l₁, rfl, h₁⟩ := exec_perform hx
  obtain ⟨rfl, rfl, rfl⟩ := exec_ret h₁
  refine ⟨_, _, _, .perform (.ret _ _), ?_, .returned trivial, hw.timeline, hw.capture,
    hw.source, hw.draws, hw.state⟩
  rw [Story.sights_append, Story.sights_append]
  exact congrArg (· ++ _) (sights_emit he hw)

theorem matched_awaitEnd (hE : E.Blind strict) (c : ContextId) (limit : Option Duration) :
    Matched E strict Eq (awaitEnd c limit) (awaitEnd c limit) := by
  intro w w' v l o hw hx
  rcases exec_await hx with ⟨a, u, he, h₁⟩ | ⟨hlast, rfl, rfl, rfl⟩
  · obtain ⟨rfl, rfl, rfl⟩ := exec_ret h₁
    obtain ⟨v', he', hv⟩ := hE.ends hw he
    exact ⟨_, _, _, .await he' (.ret a v'), rfl, .returned rfl, hv⟩
  · exact ⟨_, _, _, .stall (hE.lasts hw hlast), rfl, .stalled, hw⟩

/-- A watched call is announced, carried out and answered. -/
theorem watch_bind (c : Call τ) (x : Async σ ε c.Reply)
    (f : c.Reply → Async σ (Recorded ε τ) α) :
    (watch c x).bind f = (mark (.called c)).bind fun _ =>
      (x.within c).bind fun r => (mark (.answered c r)).bind fun _ => f r :=
  congrArg (Async.perform _) (funext fun _ => bind_assoc (x.within c) _ f)

end Rules

section Calls

/-- What the program does depends in no way on where panics were raised. -/
def Oblivious (strict : Bool) (x : Async σ ε (Except Failure β)) : Prop :=
  Tamed strict (fun _ _ => False) x x

/-- A program that takes out no record. -/
example (e : ε) (r : Except Failure β) :
    ((mark e).bind fun _ => .ret r : Async σ ε _).Oblivious false :=
  .perform (Or.inr nofun) fun _ => .ret (.refl r)

/-- A program that does not look at sites matches itself, as a watched call. -/
theorem matched_within {x : Async σ ε (Except Failure β)} (hx : x.Oblivious strict)
    (hE : E.Blind strict) (c : Call τ) :
    Matched E strict SameAnswer (x.within c) (x.within c) := by
  intro w w' v l o hw h
  obtain ⟨l', o', v', hy, hl, hend⟩ := Tamed.exec_within hx hE c hw h
  cases hend with
  | near ho hv => exact ⟨l', o', v', hy, hl, ho, hv⟩
  | tamed hr _ => exact hr.elim

theorem Matched.watch {c : Call τ} {Q : c.Reply → c.Reply → Prop} {x y : Async σ ε c.Reply}
    (hseen : ∀ r r', Q r r' → c.seen r = c.seen r')
    (h : Matched E strict Q (x.within c) (y.within c)) :
    Matched E strict Q (Async.watch c x) (Async.watch c y) := by
  refine Matched.bind (matched_emit rfl) fun _ _ _ => Matched.bind h fun r r' hr => ?_
  exact Matched.bind (matched_emit (Event.seen_answered (hseen r r' hr))) fun _ _ _ =>
    matched_ret hr

end Calls

end Async

open Async

section Steps

variable {k : UInt32} {i : Nat} {tx : τ}

/-- Nothing is left to be caught of a watched step but the answer of the call. -/
theorem caught_watched (z : Async σ ε Result) :
    ((watch (Call.step i tx) z.caught : Async σ (Recorded ε τ) _).bind rethrow).caught =
      watch (Call.step i tx) z.caught := by
  have hinner : ((z.caught.within (Call.step i tx) : Async σ (Recorded ε τ) _).bind fun r =>
      (mark (.answered (Call.step i tx) r)).bind fun _ => rethrow r).caught =
        (z.caught.within (Call.step i tx)).bind fun r =>
          (mark (.answered (Call.step i tx) r)).bind fun _ => .ret r := by
    induction z with
    | ret a => rfl
    | unwind p => rfl
    | perform o next ih => exact congrArg (Async.perform _) (funext fun a => ih _)
    | await c limit next ih => exact congrArg (Async.await c limit) (funext ih)
  rw [watch_bind]
  exact congrArg (Async.perform _) (funext fun _ => hinner)

/-- What is done with the outcome of a step. -/
def settleStep (k : UInt32) (i : Nat) : Except Payload Result → Async σ ε Result
  | .ok r => .ret r
  | .error p =>
      (request .takeRecord).bind fun site =>
        (note (.stepPanicked k i (p.failure site))).bind fun _ => .ret (.error (p.failure site))

/-- A watched step is a watched call inside a capture. -/
theorem runStep_watched (step : Step σ ε τ) :
    Pool.runStep k i (step.watched i tx) =
      (request .enterCapture).bind fun _ =>
        (watch (Call.step i tx) (step tx).bracketed.caught).bind fun r =>
          (request .leaveCapture).bind fun _ => settleStep k i r := by
  have hsettle : Pool.runStep k i (step.watched i tx) =
      (step.watched i tx).captured.bind (settleStep k i) :=
    congrArg (Async.bind _) (funext fun r => by cases r <;> rfl)
  have hcall : (step.watched i tx).bracketed.caught =
      watch (Call.step i tx) (step tx).bracketed.caught := by
    rw [← bracketed_caught, ← bracketed_caught, ← bracketed_watch]
    exact congrArg bracketed (caught_watched (step tx))
  rw [hsettle, captured, capturedRest_eq, hcall]
  exact congrArg (Async.perform _) (funext fun _ => bind_assoc _ _ _)

/-- What follows a step that has panicked is matched by what follows one that has returned
the failure instead. -/
theorem settled_tamed {p : Payload} {r : Result} (hr : p.Becomes r) :
    MatchedFrom E strict (fun w w' => w.taken.Near strict w') SameAnswer
      ((mark (.answered (Call.step i tx) (.error p))).bind fun _ =>
        (request .leaveCapture).bind fun _ => settleStep k i (.error p))
      ((mark (.answered (Call.step i tx) (.ok r))).bind fun _ =>
        (request .leaveCapture).bind fun _ => settleStep k i (.ok r)) := by
  intro w w' v l o hw h
  obtain ⟨location, stack, rfl⟩ := hr
  obtain ⟨l₁, rfl, h₁⟩ := exec_request_bind h
  obtain ⟨l₂, rfl, h₂⟩ := exec_request_bind h₁
  obtain ⟨l₃, rfl, h₃⟩ := exec_request_bind h₂
  obtain ⟨l₄, rfl, h₄⟩ := exec_request_bind h₃
  obtain ⟨rfl, rfl, rfl⟩ := exec_ret h₄
  have hseen : (Event.mark (.answered (Call.step i tx) (.error p)) : Event (Recorded ε τ)).seen? =
      (Event.mark (.answered (Call.step i tx)
        (.ok (.error (.panic p.message location stack))))).seen? := rfl
  have hloose : w.Near false w' := ⟨hw.timeline, nofun, hw.source, hw.draws, hw.state⟩
  refine ⟨_, _, _, .perform (.perform (.ret _ _)), ?_, .returned (.error ?_), hw.timeline,
    fun hs => ?_, hw.source, hw.draws, hw.state⟩
  · exact sights_emit hseen hloose
  · exact Failure.siteless_failure p _
  · exact congrArg Capture.leave (hw.capture hs)

/-- A program whose panics are caught is matched by a tamed one, if what follows is matched
after like answers, after the same panic, and after a panic and what is returned instead. -/
theorem matched_caught {allowed : Payload → Result → Prop} {x y : Async σ ε Result}
    {f : Except Payload Result → Async σ (Recorded ε τ) Result}
    (h : Tamed strict allowed x y) (hE : E.Blind strict) (c : Call τ)
    (hok : ∀ r r', SameAnswer r r' → Matched E strict SameAnswer (f (.ok r)) (f (.ok r')))
    (herror : ∀ p, Matched E strict SameAnswer (f (.error p)) (f (.error p)))
    (htamed : ∀ p r, allowed p r → MatchedFrom E strict (fun w w' => w.taken.Near strict w')
      SameAnswer (f (.error p)) (f (.ok r))) :
    Matched E strict SameAnswer ((x.within c).caught.bind f) ((y.within c).caught.bind f) := by
  intro w w' v l o hw hx
  rcases exec_bind hx with ⟨r, u, l₁, l₂, hc, hf, rfl⟩ | ⟨o₁, hc, ho⟩
  · obtain ⟨o₁, hwithin, hr⟩ := exec_caught hc
    obtain ⟨l₁', o₁', u', hy, hl₁, hend⟩ := h.exec_within hE c hw hwithin
    cases hend with
    | near hnear hu =>
        cases hnear with
        | returned hab =>
            cases hr
            exact (hok _ _ hab).behind hu hf hy.caught hl₁
        | unwound p =>
            cases hr
            exact (herror p).behind hu hf hy.caught hl₁
        | stalled => cases hr
    | tamed hallowed hu =>
        cases hr
        exact (htamed _ _ hallowed).behind hu hf hy.caught hl₁
  · -- what is caught does not unwind, so the call has stalled
    obtain ⟨o₂, hwithin, rfl⟩ := exec_caught hc
    obtain ⟨l', o', v', hy, hl, hend⟩ := h.exec_within hE c hw hwithin
    cases hend with
    | near hnear hv =>
        cases hnear with
        | returned hab => cases ho
        | unwound p => cases ho
        | stalled =>
            cases ho
            exact ⟨l', _, v', hy.caught.bind_broken f .stalled, hl, .stalled, hv⟩
    | tamed _ _ => cases ho

/-- A step is matched by a tamed one: its panic becomes a failure either way. -/
theorem matched_runStep {step step' : Step σ ε τ} (hE : E.Blind strict)
    (h : Tamed strict Payload.Becomes (step tx) (step' tx)) :
    Matched E strict SameAnswer (Pool.runStep k i (step.watched i tx))
      (Pool.runStep k i (step'.watched i tx)) := by
  rw [runStep_watched, runStep_watched]
  refine Matched.bind (matched_request (by simp)) fun _ _ _ => ?_
  rw [watch_bind, watch_bind, ← caught_within, ← caught_within]
  refine Matched.bind (matched_emit rfl) fun _ _ _ => ?_
  refine matched_caught h.bracketed hE (.step i tx) (fun r r' hr => ?_) (fun p => ?_)
    fun p r hr => settled_tamed hr
  · have hseen : (Call.step i tx).seen (.ok r) = (Call.step i tx).seen (.ok r') :=
      congrArg Except.ok hr.mapError_eq
    refine Matched.bind (matched_emit (Event.seen_answered hseen)) fun _ _ _ => ?_
    exact Matched.bind (matched_request (by simp)) fun _ _ _ => matched_ret hr
  · refine Matched.bind (matched_emit rfl) fun _ _ _ => ?_
    refine Matched.bind (matched_request (by simp)) fun _ _ _ => ?_
    refine Matched.bind matched_takeRecord fun site site' _ => ?_
    refine Matched.bind (matched_emit rfl) fun _ _ _ => matched_ret (.error ?_)
    rw [Failure.siteless_failure, Failure.siteless_failure]

end Steps

/-- What the pool does depends in no way on where panics were raised. -/
structure Pool.Oblivious (strict : Bool) (pool : Pool σ ε τ) : Prop where
  begin : ∀ ctx, (pool.begin ctx).Oblivious strict
  commit : ∀ tx ctx, (pool.commit tx ctx).Oblivious strict
  rollback : ∀ tx ctx, (pool.rollback tx ctx).Oblivious strict

/-- Steps, each of which is tamed by the one at the same place. -/
def StepsTamed (strict : Bool) (steps steps' : List (Step σ ε τ)) : Prop :=
  List.Forall₂ (fun s s' => ∀ tx, Tamed strict Payload.Becomes (s tx) (s' tx)) steps steps'

/-- The failures of a rollback are the same up to the sites of panics. -/
def SameLater (later later' : Option Failure) : Prop :=
  later.map Failure.siteless = later'.map Failure.siteless

section Attempts

variable {pool : Pool σ ε τ} {ctx : ContextId} {grace : Duration} {k : UInt32} {tx : τ}

/-- A call of a pool that does not look at sites matches itself. -/
theorem matched_beginCall (hE : E.Blind strict) (hpool : pool.Oblivious strict) :
    Matched E strict SameAnswer (pool.watched.begin ctx) (pool.watched.begin ctx) :=
  Matched.watch (c := .begin ctx) (fun _ _ hr => SameAnswer.mapError_eq hr)
    (matched_within (hpool.begin ctx) hE _)

theorem matched_commitCall (hE : E.Blind strict) (hpool : pool.Oblivious strict) :
    Matched E strict SameAnswer (pool.watched.commit tx ctx) (pool.watched.commit tx ctx) :=
  Matched.watch (c := .commit tx ctx) (fun _ _ hr => SameAnswer.mapError_eq hr)
    (matched_within (hpool.commit tx ctx) hE _)

theorem matched_rollbackCall (hE : E.Blind strict) (hpool : pool.Oblivious strict)
    (given : ContextId) :
    Matched E strict SameAnswer (pool.watched.rollback tx given)
      (pool.watched.rollback tx given) :=
  Matched.watch (c := .rollback tx given) (fun _ _ hr => SameAnswer.mapError_eq hr)
    (matched_within (hpool.rollback tx given) hE _)

theorem matched_rollBack (hE : E.Blind strict) (hpool : pool.Oblivious strict)
    (given : ContextId) :
    Matched E strict SameLater (pool.watched.rollBack k tx given)
      (pool.watched.rollBack k tx given) := by
  refine Matched.bind (matched_rollbackCall hE hpool given) fun r r' hr => ?_
  cases hr with
  | ok _ => exact Matched.bind (matched_emit rfl) fun _ _ _ => matched_ret rfl
  | @error e e' he =>
      have hnotice : (Notice.rollbackFailed k e).siteless = (Notice.rollbackFailed k e').siteless :=
        congrArg (Notice.rollbackFailed k) he
      refine Matched.bind (matched_emit (congrArg (some <| Event.notice ·) hnotice)) fun _ _ _ => ?_
      exact matched_ret (congrArg (some <| Failure.rollbackFailed ·) he)

theorem matched_rollBackInGrace (hE : E.Blind strict) (hpool : pool.Oblivious strict) :
    Matched E strict SameLater (pool.watched.rollBackInGrace grace k tx)
      (pool.watched.rollBackInGrace grace k tx) := by
  have hcreate : Matched E strict Eq (create (some grace)) (create (some grace)) :=
    matched_request (q := .create (some grace)) (by simp)
  refine Matched.bind hcreate ?_
  rintro c _ rfl
  exact matched_rollBack hE hpool c

theorem matched_abandon (hE : E.Blind strict) (hpool : pool.Oblivious strict) {e e' : Failure}
    (he : e.siteless = e'.siteless) :
    Matched E strict (fun a b => a.siteless = b.siteless)
      (pool.watched.abandon ctx grace k tx e) (pool.watched.abandon ctx grace k tx e') := by
  have hjoin : ∀ a b, SameLater a b → (e.abandoned a).siteless = (e'.abandoned b).siteless := by
    intro a b hab
    rw [← Failure.abandoned_siteless, ← Failure.abandoned_siteless, he, hab]
  refine Matched.bind (matched_errorOf ctx) ?_
  rintro r _ rfl
  cases r with
  | some c =>
      exact Matched.bind (matched_rollBackInGrace hE hpool) fun a b hab =>
        matched_ret (hjoin a b hab)
  | none =>
      exact Matched.bind (matched_rollBack hE hpool ctx) fun a b hab => matched_ret (hjoin a b hab)

theorem matched_runSteps (hE : E.Blind strict) (hpool : pool.Oblivious strict)
    {steps steps' : List (Step σ ε τ)} (h : StepsTamed strict steps steps') (i : Nat) :
    Matched E strict SameAnswer (pool.watched.runSteps ctx grace k tx i (watchSteps i steps))
      (pool.watched.runSteps ctx grace k tx i (watchSteps i steps')) := by
  induction h generalizing i with
  | nil => exact matched_ret (.ok ())
  | cons hstep _ ih =>
      refine Matched.bind (matched_errorOf ctx) ?_
      rintro r _ rfl
      cases r with
      | some c =>
          refine Matched.bind (matched_rollBackInGrace hE hpool) fun a b hab => ?_
          refine matched_ret (.error ?_)
          rw [← Failure.asStop_siteless, ← Failure.asStop_siteless, ← Failure.merge_siteless,
            ← Failure.merge_siteless, hab]
      | none =>
          refine Matched.bind (matched_runStep hE (hstep tx)) fun r r' hr => ?_
          cases hr with
          | ok _ => exact ih (i + 1)
          | error he =>
              exact Matched.bind (matched_abandon hE hpool he) fun a b hab =>
                matched_ret (.error hab)

/-- An attempt is matched by one with tamed steps. -/
theorem matched_attempt (hE : E.Blind strict) (hpool : pool.Oblivious strict)
    {steps steps' : List (Step σ ε τ)} (h : StepsTamed strict steps steps') :
    Matched E strict SameAnswer (pool.recordedAttempt ctx grace steps k)
      (pool.recordedAttempt ctx grace steps' k) := by
  have hlen : (watchSteps 0 steps).length = (watchSteps 0 steps').length := by
    rw [length_watchSteps, length_watchSteps, h.length_eq]
  refine Matched.bind (matched_emit (by rw [hlen])) fun _ _ _ => ?_
  refine Matched.bind (matched_beginCall hE hpool) fun r r' hr => ?_
  cases hr with
  | error he => exact matched_ret (.error (congrArg Failure.beginFailed he))
  | ok tx =>
      refine Matched.bind (matched_runSteps hE hpool h 0) fun r r' hr => ?_
      cases hr with
      | error he => exact matched_ret (.error he)
      | ok _ =>
          refine Matched.bind (matched_commitCall hE hpool) fun r r' hr => ?_
          cases hr with
          | error he => exact matched_ret (.error (congrArg Failure.commitFailed he))
          | ok _ => exact Matched.bind (matched_emit rfl) fun _ _ _ => matched_ret (.ok ())

end Attempts

section Retrying

variable {ctx : ContextId} {k : UInt32} {e e' : Failure} {κ : Type}

theorem matched_nextWait (p : RetryPolicy) :
    Matched E strict Eq (p.nextWait k) (p.nextWait k) := by
  refine Matched.bind (matched_emit rfl) fun _ _ _ => ?_
  by_cases hs : p.method.spread p.delay = 0
  · simp only [hs, if_true]
    exact matched_ret rfl
  · simp only [hs, if_false]
    refine Matched.bind (matched_request (by simp)) fun a b hab => ?_
    exact matched_ret (by rw [hab])

theorem matched_giveUp (he : e.siteless = e'.siteless) :
    Matched E strict SameAnswer (RetryPolicy.giveUp k e) (RetryPolicy.giveUp k e') := by
  have hstop : e.isStop = e'.isStop := by
    rw [← Failure.isStop_siteless e, he, Failure.isStop_siteless]
  have hnotice : (Notice.givingUp k e).siteless = (Notice.givingUp k e').siteless :=
    congrArg (Notice.givingUp k) he
  unfold RetryPolicy.giveUp
  rw [hstop]
  cases e'.isStop with
  | true =>
      exact Matched.bind (matched_emit (congrArg (some <| Event.notice ·) hnotice)) fun _ _ _ =>
        matched_ret (.error he)
  | false => exact matched_ret (.error he)

theorem matched_waitAfter (hE : E.Blind strict) (p : RetryPolicy)
    (he : e.siteless = e'.siteless) :
    Matched E strict Eq (p.waitAfter ctx k e) (p.waitAfter ctx k e') := by
  refine Matched.bind (matched_nextWait p) ?_
  rintro d _ rfl
  have hnotice : (Notice.retrying k p.maxAttempts d e).siteless =
      (Notice.retrying k p.maxAttempts d e').siteless :=
    congrArg (Notice.retrying k p.maxAttempts d) he
  exact Matched.bind (matched_emit (congrArg (some <| Event.notice ·) hnotice)) fun _ _ _ =>
    matched_awaitEnd hE ctx (some d)

variable {f g : κ → κ × Async σ (Recorded ε τ) Result}

theorem matched_attemptsFrom (hE : E.Blind strict) (p : RetryPolicy)
    (hfg : ∀ m, (f m).1 = (g m).1 ∧ Matched E strict SameAnswer (f m).2 (g m).2) (left : Nat) :
    ∀ {k : UInt32} {m : κ}, Matched E strict SameAnswer (p.attemptsFrom ctx f left k m)
      (p.attemptsFrom ctx g left k m) := by
  induction left with
  | zero =>
      intro k m
      refine Matched.bind (hfg m).2 fun r r' hr => ?_
      cases hr with
      | ok _ => exact matched_ret (.ok ())
      | error he => exact matched_giveUp he
  | succ left ih =>
      intro k m
      refine Matched.bind (hfg m).2 fun r r' hr => ?_
      cases hr with
      | ok _ => exact matched_ret (.ok ())
      | @error e e' he =>
          have hstop : e.isStop = e'.isStop := by
            rw [← Failure.isStop_siteless e, he, Failure.isStop_siteless]
          simp only [hstop]
          cases e'.isStop with
          | true => exact matched_giveUp he
          | false =>
              refine Matched.bind (matched_waitAfter hE p he) ?_
              rintro r _ rfl
              cases r with
              | some c =>
                  refine matched_ret (.error ?_)
                  rw [← Failure.merge_siteless, ← Failure.merge_siteless, he]
              | none =>
                  rw [(hfg m).1]
                  exact ih

/-- What is retried is matched if each call of it is. -/
theorem matched_run (hE : E.Blind strict) (p : RetryPolicy)
    (hfg : ∀ m, (f m).1 = (g m).1 ∧ Matched E strict SameAnswer (f m).2 (g m).2) (m : κ) :
    Matched E strict SameAnswer (p.run ctx f m) (p.run ctx g m) := by
  refine Matched.bind (matched_errorOf ctx) ?_
  rintro r _ rfl
  cases r with
  | some c => exact matched_ret (.refl _)
  | none => exact matched_attemptsFrom hE p hfg _

/-- The run of an executor is matched by its run with tamed steps. -/
theorem matched_recorded (hE : E.Blind strict) {x : Executor σ ε τ}
    (hpool : ∀ pool ∈ x.pool, pool.Oblivious strict) {steps steps' : List (Step σ ε τ)}
    (h : StepsTamed strict steps steps') :
    Matched E strict SameAnswer (x.recorded ctx steps) (x.recorded ctx steps') := by
  obtain ⟨pool, retry, grace⟩ := x
  cases pool with
  | none => exact matched_ret (.refl _)
  | some pool =>
      have hnext : ∀ m : UInt32,
          (Executor.watchedAttempts pool ctx grace steps m).1 =
              (Executor.watchedAttempts pool ctx grace steps' m).1 ∧
            Matched E strict SameAnswer (Executor.watchedAttempts pool ctx grace steps m).2
              (Executor.watchedAttempts pool ctx grace steps' m).2 :=
        fun m => ⟨rfl, matched_attempt hE (hpool pool rfl) h⟩
      exact matched_run hE retry hnext 0

end Retrying

end TransactionAttempts
