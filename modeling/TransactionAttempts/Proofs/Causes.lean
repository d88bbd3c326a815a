import TransactionAttempts.Proofs.Logs
import TransactionAttempts.Proofs.Parts

/-!
# What errors are made from

The error of a failing attempt is made from what led to its end and from the failure of
its rollback.  The error of a failing run is made from that of its last attempt and from
the error of the context, if that ended the wait after it.  Both are told by a log of the
calls and their answers, which also says whether there is an error at all.

**Finality.**  `Final` and `Retryable` list the ways in which an attempt fails.  It is
final if the context was done before a step, or if the error of a step is marked at its
root or has the error of a context as a part.  What the begin, the commit or the rollback
answer never makes an attempt final, and neither does a panic.

**Causes.**  `Composed` says what an attempt comes to.  It succeeds if its commit does.  The
error of a begin or of a commit is wrapped.  Of what led to a rollback the marks are taken
off, and the failure of the rollback stands behind it.

Main facts:

* `attempt_final_iff`: the mark at the root of the error of an attempt;
* `causes_kept`: what the errors of attempts and of runs hold.
-/

namespace TransactionAttempts

variable {σ ε τ : Type}

section Marks

namespace Failure

/-- The failure without the mark at its root, if it has one. -/
def unmarked : Failure → Failure
  | .stop inner => inner
  | e => e

theorem unmarked_eq_self {e : Failure} (h : e.isStop = false) : e.unmarked = e := by
  cases e with
  | stop inner => cases h
  | _ => rfl

/-- What is left of a failure without its marks is not marked by a join. -/
theorem isStop_merge_cause (e : Failure) (later : Option Failure) :
    (e.cause.merge later).isStop = false := by
  cases later with
  | none => exact isStop_cause e
  | some f => exact isStop_merge _ f

end Failure

namespace Setback

/-- What led to the rollback. -/
def origin : Setback → Failure
  | interrupted cause => .context cause
  | failed e => e
  | panicked p site => p.failure site

/-- The setback ends the run. -/
def isFinal : Setback → Bool
  | interrupted _ => true
  | failed e => e.isStop || e.isCancellation
  | panicked _ _ => false

theorem origin_panicked_not_final (p : Payload) (site : Option PanicSite) :
    ((p.failure site).isStop || (p.failure site).isCancellation) = false := by
  cases site <;> simp [Payload.failure, Failure.isStop, Failure.isCancellation,
    Failure.contains_eq, Failure.children, Failure.isContext]

/-- The failure of an attempt is what led to the rollback, without its marks and joined with
what the rollback failed with, and it is marked once if the setback is final. -/
theorem failure_eq (s : Setback) (later : Option Failure) :
    s.failure later = if s.isFinal then .stop (s.origin.cause.merge later)
      else s.origin.cause.merge later := by
  have hstop : ∀ e : Failure, (e.cause.merge later).asStop = .stop (e.cause.merge later) :=
    fun e => Failure.asStop_eq_stop (Failure.isStop_merge_cause e later)
  cases s with
  | interrupted cause => exact hstop (.context cause)
  | failed e =>
      simp only [failure, Failure.abandoned, hstop]
      rfl
  | panicked p site =>
      simp only [failure, Failure.abandoned, origin_panicked_not_final]
      rfl

theorem isStop_failure (s : Setback) (later : Option Failure) :
    (s.failure later).isStop = s.isFinal := by
  rw [failure_eq]
  cases s.isFinal with
  | true => rfl
  | false => exact Failure.isStop_merge_cause s.origin later

theorem unmarked_failure (s : Setback) (later : Option Failure) :
    (s.failure later).unmarked = s.origin.cause.merge later := by
  rw [failure_eq]
  cases s.isFinal with
  | true => rfl
  | false => exact Failure.unmarked_eq_self (Failure.isStop_merge_cause s.origin later)

end Setback

end Marks

section Finality

namespace AttemptLog

/-- The ways in which an attempt fails for good. -/
inductive Final : AttemptLog τ → Prop
  /-- The caller's context was done before a step. -/
  | interrupted {tx : τ} {passed : Nat} {c : ContextError} {u : Undo} :
      u.error = some c → Final (.undone tx passed (.interrupted c) u)
  /-- The error of a step was marked at its root. -/
  | marked {tx : τ} {passed : Nat} {e : Failure} {u : Undo} :
      e.isStop = true → Final (.undone tx passed (.failed e) u)
  /-- The error of a context was a part of that of a step. -/
  | cancelled {tx : τ} {passed : Nat} {e : Failure} {c : ContextError} {u : Undo} :
      Failure.Part (.context c) e → Final (.undone tx passed (.failed e) u)

/-- The ways in which an attempt fails that may be followed by another one.  The errors of
the begin, of the commit and of the rollback are arbitrary. -/
inductive Retryable : AttemptLog τ → Prop
  | unopened (e : Failure) : Retryable (.unopened e)
  | refused (tx : τ) (error : Option ContextError) (e : Failure) :
      Retryable (.finished tx error (.error e))
  | panicked (tx : τ) (passed : Nat) (p : Payload) (site : Option PanicSite) (u : Undo) :
      Retryable (.undone tx passed (.panicked p site) u)
  /-- The error of a step may hold marks below its root. -/
  | failed {tx : τ} {passed : Nat} {e : Failure} {u : Undo} :
      e.isStop = false → (∀ c, ¬ Failure.Part (.context c) e) →
      Retryable (.undone tx passed (.failed e) u)

theorem final_iff_isFinal {tx : τ} {passed n : Nat} {s : Setback} {u : Undo}
    (h : (undone tx passed s u).Fits n) : (undone tx passed s u).Final ↔ s.isFinal = true := by
  cases s with
  | interrupted c => exact ⟨fun _ => rfl, fun _ => .interrupted h.2⟩
  | failed e =>
      simp only [Setback.isFinal, Bool.or_eq_true, Failure.isCancellation_iff]
      constructor
      · intro hf
        cases hf with
        | marked hs => exact Or.inl hs
        | cancelled hc => exact Or.inr ⟨_, hc⟩
      · rintro (hs | ⟨c, hc⟩)
        · exact .marked hs
        · exact .cancelled hc
  | panicked p site => exact ⟨fun hf => (nomatch hf), fun hs => nomatch hs⟩

theorem retryable_iff_isFinal {tx : τ} {passed : Nat} {s : Setback} {u : Undo} :
    (undone tx passed s u).Retryable ↔ s.isFinal = false := by
  cases s with
  | interrupted c => exact ⟨fun hr => (nomatch hr), fun hs => nomatch hs⟩
  | failed e =>
      have hc : e.isCancellation = false ↔ ∀ c, ¬ Failure.Part (.context c) e := by
        rw [← Bool.not_eq_true, Failure.isCancellation_iff, not_exists]
      simp only [Setback.isFinal, Bool.or_eq_false_iff, hc]
      constructor
      · intro hr
        cases hr with
        | failed hs hc => exact ⟨hs, hc⟩
      · exact fun ⟨hs, hc⟩ => .failed hs hc
  | panicked p site => exact ⟨fun _ => rfl, fun _ => .panicked tx passed p site u⟩

/-- An attempt fails for good exactly if its error is marked at the root. -/
theorem final_iff {log : AttemptLog τ} {n : Nat} (hfits : log.Fits n) :
    (∃ e, log.result = .error e ∧ e.isStop = true) ↔ log.Final := by
  cases log with
  | unopened f =>
      refine ⟨?_, nofun⟩
      rintro ⟨e, he, hs⟩
      cases he
      cases hs
  | undone tx passed s u =>
      rw [final_iff_isFinal hfits, ← s.isStop_failure u.later]
      exact ⟨fun ⟨e, he, hs⟩ => Except.error.inj he ▸ hs, fun hs => ⟨_, rfl, hs⟩⟩
  | finished tx error reply =>
      refine ⟨?_, nofun⟩
      rintro ⟨e, he, hs⟩
      cases reply with
      | ok _ => cases he
      | error f =>
          cases he
          cases hs

/-- An attempt fails so that it may be retried exactly if its error is not marked. -/
theorem retryable_iff {log : AttemptLog τ} :
    (∃ e, log.result = .error e ∧ e.isStop = false) ↔ log.Retryable := by
  cases log with
  | unopened f => exact ⟨fun _ => .unopened f, fun _ => ⟨_, rfl, rfl⟩⟩
  | undone tx passed s u =>
      rw [retryable_iff_isFinal, ← s.isStop_failure u.later]
      exact ⟨fun ⟨e, he, hs⟩ => Except.error.inj he ▸ hs, fun hs => ⟨_, rfl, hs⟩⟩
  | finished tx error reply =>
      cases reply with
      | ok _ => exact ⟨fun ⟨e, he, _⟩ => (nomatch he), nofun⟩
      | error f => exact ⟨fun _ => .refused tx error f, fun _ => ⟨_, rfl, rfl⟩⟩

/-- The error of an attempt is marked once at most. -/
theorem isStop_of_stop {log : AttemptLog τ} {x : Failure} (h : log.result = .error (.stop x)) :
    x.isStop = false := by
  cases log with
  | unopened f => cases h
  | undone tx passed s u =>
      have hx : x = s.origin.cause.merge u.later := by
        rw [← Setback.unmarked_failure, Except.error.inj h]
        rfl
      rw [hx]
      exact Failure.isStop_merge_cause _ _
  | finished tx error reply => cases reply <;> cases h

end AttemptLog

variable {E : Surroundings σ (Recorded ε τ)} {pool : Pool σ ε τ} {ctx : ContextId}
  {grace : Duration} {steps : List (Step σ ε τ)} {k : UInt32}

/-- **When the error of an attempt is final.**  For every attempt that returns there is a log
that tells of its calls and answers.  The attempt fails with an error that is marked at its
root exactly if the log is one of a final failure, and with one that is not marked exactly if
it is one of a failure that may be retried.  Below the mark there is no other one. -/
theorem attempt_final_iff {w v : World σ (Recorded ε τ)} {l : Story σ (Recorded ε τ)}
    {r : Result} (h : (pool.recordedAttempt ctx grace steps k).Exec E w l (.returned r) v) :
    ∃ log : AttemptLog τ, log.Fits steps.length ∧
      l.report ctx = log.report ctx (w.timeline.error ctx) steps.length k ∧
      ((∃ e, r = .error e ∧ e.isStop = true) ↔ log.Final) ∧
      ((∃ e, r = .error e ∧ e.isStop = false) ↔ log.Retryable) ∧
      ∀ x, r = .error (.stop x) → x.isStop = false := by
  obtain ⟨log, hfits, rfl, hl⟩ := told_attempt_returned h
  exact ⟨log, hfits, hl, log.final_iff hfits, log.retryable_iff, fun x => log.isStop_of_stop⟩

/-- A pool whose commits and rollbacks fail. -/
def Pool.stubborn : Pool Unit Unit Unit where
  begin _ := return .ok ()
  commit _ _ := return .error (.other "lost")
  rollback _ _ := return .error (.stop (.context .canceled))

/-- A step that fails. -/
def Step.failing (e : Failure) : Step Unit Unit Unit := fun _ => return .error e

/-- A step that marks its error twice makes the attempt final, and one mark is left. -/
theorem attempt_final_iff_stubborn :
    ∃ l v, (Pool.stubborn.recordedAttempt 0 .zero
        [Step.failing (.stop (.stop (.other "full")))] 1).Exec .clock World.single l
          (.returned (.error (.stop (.multiple
            [.other "full", .rollbackFailed (.stop (.context .canceled))])))) v ∧
      ∃ log : AttemptLog Unit, log.Final ∧ l.report 0 = log.report 0 none 1 1 := by
  have h := Async.exec_run (Pool.stubborn.recordedAttempt 0 .zero
    [Step.failing (.stop (.stop (.other "full")))] 1) World.single
  obtain ⟨log, _, hl, hfinal, _⟩ := attempt_final_iff h
  exact ⟨_, _, h, log, hfinal.1 ⟨_, rfl, rfl⟩, hl⟩

end Finality

section Composition

/-- How the result of an attempt is composed. -/
inductive AttemptLog.Composed : AttemptLog τ → Result → Prop
  | unopened (e : Failure) : Composed (.unopened e) (.error (.beginFailed e))
  | refused (tx : τ) (error : Option ContextError) (e : Failure) :
      Composed (.finished tx error (.error e)) (.error (.commitFailed e))
  | committed (tx : τ) (error : Option ContextError) :
      Composed (.finished tx error (.ok ())) (.ok ())
  /-- The rollback succeeded. -/
  | undone {tx : τ} {passed : Nat} {s : Setback} {u : Undo} {e : Failure} :
      u.reply = .ok () → e.unmarked = s.origin.cause → Composed (.undone tx passed s u) (.error e)
  /-- The rollback failed, too. -/
  | unclean {tx : τ} {passed : Nat} {s : Setback} {u : Undo} {e f : Failure} :
      u.reply = .error f →
      e.unmarked = .multiple (s.origin.cause.members ++ [.rollbackFailed f]) →
      Composed (.undone tx passed s u) (.error e)

/-- What went wrong in an attempt: marks are left on, and nothing is joined. -/
def AttemptLog.causes : AttemptLog τ → List Failure
  | unopened e => [.beginFailed e]
  | undone _ _ s u => s.origin :: u.later.toList
  | finished _ _ (.error e) => [.commitFailed e]
  | finished _ _ (.ok ()) => []

theorem AttemptLog.composed_result (log : AttemptLog τ) : log.Composed log.result := by
  cases log with
  | unopened f => exact .unopened f
  | undone tx passed s u =>
      cases hu : u.reply with
      | ok _ =>
          have hlater : u.later = none := by rw [Undo.later, hu]
          refine .undone hu ?_
          rw [Setback.unmarked_failure, hlater, Failure.merge_none]
      | error f =>
          have hlater : u.later = some (.rollbackFailed f) := by rw [Undo.later, hu]
          refine .unclean hu ?_
          rw [Setback.unmarked_failure, hlater]
          rfl
  | finished tx error reply =>
      cases reply with
      | ok _ => exact .committed tx error
      | error f => exact .refused tx error f

namespace RunLog

/-- The last attempt of a run. -/
def lastAttempt : RunLog τ → AttemptLog τ
  | last log => log
  | interrupted log _ _ _ => log
  | retried _ _ _ rest => rest.lastAttempt

/-- The error of the context, if that ended the wait after the last attempt. -/
def ending : RunLog τ → Option ContextError
  | last _ => none
  | interrupted _ _ _ cause => some cause
  | retried _ _ _ rest => rest.ending

/-- What went wrong in the last attempt and after it. -/
def causes (r : RunLog τ) : List Failure :=
  r.lastAttempt.causes ++ r.ending.toList.map Failure.context

/-- The result of a run is that of its last attempt, unless the context ended the wait after
it.  Then the error of the context stands behind that of the attempt. -/
theorem result_composed {log : RunLog τ} {n left : Nat} (hfits : log.Fits n left) :
    (log.ending = none ∧ log.result = log.lastAttempt.result) ∨
      ∃ c f, log.ending = some c ∧ log.lastAttempt.result = .error f ∧
        log.result = .error (.multiple (f.members ++ [.context c])) := by
  induction log generalizing left with
  | last log => exact Or.inl ⟨rfl, rfl⟩
  | interrupted log f wait cause =>
      cases left with
      | zero => exact hfits.elim
      | succ left => exact Or.inr ⟨cause, f, rfl, hfits.2.1, rfl⟩
  | retried log f wait rest ih =>
      cases left with
      | zero => exact hfits.elim
      | succ left => exact ih hfits.2.2.2

end RunLog

section Searching

variable {test : Failure → Bool}

theorem Setback.contains_failure (hstop : ∀ e, test (.stop e) = false)
    (hmultiple : ∀ es, test (.multiple es) = false) (s : Setback) (later : Option Failure) :
    (s.failure later).contains test =
      (s.origin.contains test || later.any (Failure.contains test)) := by
  have hjoin : (s.origin.cause.merge later).contains test =
      (s.origin.contains test || later.any (Failure.contains test)) := by
    cases later with
    | none => simp [Failure.contains_cause hstop]
    | some f => simp [Failure.contains_merge hmultiple, Failure.contains_cause hstop]
  rw [failure_eq]
  cases s.isFinal with
  | true => exact (Failure.contains_stop hstop _).trans hjoin
  | false => exact hjoin

/-- The error of an attempt holds what its causes hold, and nothing else. -/
theorem AttemptLog.contains_result (hstop : ∀ e, test (.stop e) = false)
    (hmultiple : ∀ es, test (.multiple es) = false) {log : AttemptLog τ} {e : Failure}
    (h : log.result = .error e) : e.contains test = log.causes.any (Failure.contains test) := by
  cases log with
  | unopened f =>
      cases h
      simp [causes]
  | undone tx passed s u =>
      cases h
      rw [Setback.contains_failure hstop hmultiple, causes, List.any_cons]
      cases u.later <;> simp
  | finished tx error reply =>
      cases reply with
      | ok _ => cases h
      | error f =>
          cases h
          simp [causes]

/-- The error of a run holds what its causes hold, and nothing else. -/
theorem RunLog.contains_result (hstop : ∀ e, test (.stop e) = false)
    (hmultiple : ∀ es, test (.multiple es) = false) {log : RunLog τ} {n left : Nat} {e : Failure}
    (hfits : log.Fits n left) (h : log.result = .error e) :
    e.contains test = log.causes.any (Failure.contains test) := by
  rcases result_composed hfits with ⟨hnone, hr⟩ | ⟨c, f, hsome, hf, hr⟩
  · have hattempt := AttemptLog.contains_result hstop hmultiple (hr.symm.trans h)
    simp [causes, hnone, hattempt]
  · have hattempt := AttemptLog.contains_result hstop hmultiple hf
    have he : e = f.merge (some (.context c)) := Except.error.inj (h.symm.trans hr)
    rw [he, Failure.contains_merge hmultiple, hattempt, causes, List.any_append, hsome]
    simp

end Searching

/-- **No cause is lost and none is invented.**  For every attempt that returns there is a log
that tells of its calls and answers, and of which its result is composed: so an attempt whose
begin or commit fails gives the error of that, and one that is rolled back gives the error of
what led to the rollback.  For every run that returns after some attempt there is such a log,
too; its result is that of the last attempt, or lists the members of the error of that and the
error of the context, which ended the wait.  A search for causes, by a test that fails on marks
and on lists, succeeds in the error of the run exactly if it succeeds in one of the causes that
the log tells of. -/
theorem causes_kept (E : Surroundings σ (Recorded ε τ)) (ctx : ContextId)
    (steps : List (Step σ ε τ)) :
    (∀ (pool : Pool σ ε τ) grace k w l r v,
      (pool.recordedAttempt ctx grace steps k).Exec E w l (.returned r) v →
      ∃ log : AttemptLog τ, log.Fits steps.length ∧
        l.report ctx = log.report ctx (w.timeline.error ctx) steps.length k ∧
        log.result = r ∧ log.Composed r) ∧
    (∀ (x : Executor σ ε τ) w l r v, (x.recorded ctx steps).Exec E w l (.returned r) v →
      (l = [] ∧ ∃ e, r = .error e ∧
        ((x.pool = none ∧ e = .emptyDatabase) ∨
          ∃ c, w.timeline.error ctx = some c ∧ e = .context c)) ∨
      ∃ log : RunLog τ, log.Fits steps.length (x.retry.maxAttempts.toNat - 1) ∧
        l.report ctx = log.report x.retry ctx steps.length 1 ∧ log.Ended E ctx v ∧
        log.result = r ∧ log.lastAttempt.Composed log.lastAttempt.result ∧
        ((log.ending = none ∧ r = log.lastAttempt.result) ∨
          ∃ c f, log.ending = some c ∧ log.lastAttempt.result = .error f ∧
            r = .error (.multiple (f.members ++ [.context c]))) ∧
        ∀ e, r = .error e → ∀ test : Failure → Bool, (∀ g, test (.stop g) = false) →
          (∀ gs, test (.multiple gs) = false) →
          (e.contains test = true ↔ ∃ g ∈ log.causes, g.contains test = true)) := by
  refine ⟨fun pool grace k w l r v h => ?_, fun x w l r v h => ?_⟩
  · obtain ⟨log, hfits, rfl, hreport⟩ := told_attempt_returned h
    exact ⟨log, hfits, hreport, rfl, log.composed_result⟩
  · rcases told_run_returned h with hnone | ⟨log, hfits, rfl, hreport, hended⟩
    · exact Or.inl hnone
    · refine Or.inr ⟨log, hfits, hreport, hended, rfl, log.lastAttempt.composed_result,
        log.result_composed hfits, fun e he test hstop hmultiple => ?_⟩
      rw [log.contains_result hstop hmultiple hfits he, List.any_eq_true]

/-- Three attempts on a pool whose commits and rollbacks fail. -/
def Executor.stubborn : Executor Unit Unit Unit := ⟨some .stubborn, .every 3 .zero, .zero⟩

/-- A step that marks its error twice and whose rollback fails: one mark is left on the error,
which lists both.  The run ends with it, and what is found in it is among its causes. -/
theorem causes_kept_stubborn :
    ∃ e, e = Failure.stop (.multiple
        [.other "full", .rollbackFailed (.stop (.context .canceled))]) ∧
      (∃ l v, (Pool.stubborn.recordedAttempt 0 .zero
          [Step.failing (.stop (.stop (.other "full")))] 1).Exec .clock World.single l
            (.returned (.error e)) v ∧
        ∃ log : AttemptLog Unit, l.report 0 = log.report 0 none 1 1 ∧ log.Composed (.error e)) ∧
      ∃ l v, (Executor.stubborn.recorded 0
          [Step.failing (.stop (.stop (.other "full")))]).Exec .clock World.single l
            (.returned (.error e)) v ∧
        ∃ log : RunLog Unit, log.result = .error e ∧ log.ending = none ∧
          ∃ g ∈ log.causes, g.contains Failure.isContext = true := by
  have hattempt := Async.exec_run (Pool.stubborn.recordedAttempt 0 .zero
    [Step.failing (.stop (.stop (.other "full")))] 1) World.single
  have hrun := Async.exec_run (Executor.stubborn.recorded 0
    [Step.failing (.stop (.stop (.other "full")))]) World.single
  obtain ⟨hattempts, hruns⟩ := causes_kept .clock 0
    [Step.failing (.stop (.stop (.other "full")))]
  refine ⟨_, rfl, ?_, ?_⟩
  · obtain ⟨log, _, hreport, _, hcomposed⟩ := hattempts _ _ _ _ _ _ _ hattempt
    exact ⟨_, _, hattempt, log, hreport, hcomposed⟩
  · rcases hruns _ _ _ _ _ hrun with ⟨hnil, _⟩ | ⟨log, _, _, _, hr, _, hending, hcauses⟩
    · cases hnil
    · refine ⟨_, _, hrun, log, hr, ?_, ?_⟩
      · rcases hending with ⟨hnone, _⟩ | ⟨c, f, _, _, he⟩
        · exact hnone
        · cases he
      · exact (hcauses _ rfl _ (fun _ => rfl) fun _ => rfl).1 rfl

end Composition

end TransactionAttempts
