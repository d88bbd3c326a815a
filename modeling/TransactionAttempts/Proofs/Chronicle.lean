import TransactionAttempts.Proofs.Lifecycle

/-!
# What the log says

A reader of the log sees the calls of a run, their answers, and between them what the
library says: a level, a message and named texts.

**Lines.**  Next to a call stand the lines that belong to it.  The beginning of a transaction
is announced before it, and a panic, a rollback and a commit are told of after they have
happened.

**Chronicles.**  A chronicle is the log of a run from some attempt on.  The lines of every
attempt carry its number, and behind those of a failed one stands why the run ends or that
it goes on.

**Breaks.**  A run that does not return breaks its chronicle off.  It does so where a call is
not answered, or where a wait has no end.

Main facts:

* `lines_report`, `chronicle_report`: the log of an attempt and of a run;
* `broken_course`: the end of the report of a run that does not return;
* `countP_committed`: a commit is told of in the chronicle of a success alone;
* `log_faithful`: every run is told of by a chronicle.
-/

namespace TransactionAttempts

variable {σ ε τ : Type}

/-- A line of the log: a call, an answer, or what the library says. -/
inductive Line (τ : Type) where
  | called (c : Call τ)
  | answered (c : Call τ) (r : c.Reply)
  | said (level : Level) (message : String) (fields : List (String × String))

section Lines

namespace Line

/-- The number of an attempt as a named text. -/
def number (k : Nat) : String × String := ("attempt", toString k)

def beginning (k n : Nat) : Line τ :=
  said .debug "Beginning transaction" [number k, ("steps", toString n)]

def committed (k : Nat) : Line τ := said .debug "Transaction committed" [number k]

def rolledBack (k : Nat) : Line τ := said .debug "Transaction rolled back" [number k]

def rollbackFailed (k : Nat) (e : Failure) : Line τ :=
  said .warn "Rollback failed" [number k, ("error", e.message)]

def stepPanicked (k i : Nat) (p : Payload) : Line τ :=
  said .warn "Step panicked"
    [number k, ("step", toString i), ("error", "function caused a panic: " ++ p.message)]

def givingUp (k : Nat) (e : Failure) : Line τ :=
  said .debug "Stop error received, giving up" [number k, ("error", e.message)]

def retrying (k max : Nat) (wait : Duration) (e : Failure) : Line τ :=
  said .debug "Attempt failed, retrying"
    [number k, ("max_attempts", toString max),
      ("delay_ms", toString (Notice.shownMillis wait)), ("error", e.message)]

/-- The line tells of a commit. -/
def isCommitted : Line τ → Bool
  | said _ message _ => message = "Transaction committed"
  | _ => false

end Line

/-- The line of an entry, unless it is not for the log. -/
def Item.line? : Entry τ → Option (Line τ)
  | .called c _ => some (.called c)
  | .answered c r => some (.answered c r)
  | .notice n => some (.said n.level n.message n.fields)
  | .consulted _ _ => none

/-- The log of a story. -/
def Story.lines (ctx : ContextId) (l : Story σ (Recorded ε τ)) : List (Line τ) :=
  (l.report ctx).filterMap Item.line?

/-- A call or an answer of the attempt with the given number at `n` steps, and the lines that
belong to it. -/
def Item.lines (k n : Nat) : Entry τ → List (Line τ)
  | .called (.begin given) _ => [.beginning k n, .called (.begin given)]
  | .called c _ => [.called c]
  | .answered (.step i tx) (.error p) => [.answered (.step i tx) (.error p), .stepPanicked k i p]
  | .answered (.rollback tx given) (.ok ()) =>
      [.answered (.rollback tx given) (.ok ()), .rolledBack k]
  | .answered (.rollback tx given) (.error e) =>
      [.answered (.rollback tx given) (.error e), .rollbackFailed k e]
  | .answered (.commit tx given) (.ok ()) =>
      [.answered (.commit tx given) (.ok ()), .committed k]
  | .answered c r => [.answered c r]
  | _ => []

/-- The log of an attempt: its calls and answers, with the lines that belong to them. -/
def AttemptLog.lines (ctx : ContextId) (k n : Nat) (log : AttemptLog τ) : List (Line τ) :=
  (log.calls ctx n).flatMap (Item.lines k n)

/-- A number of an attempt is shown as it is. -/
theorem number_ofNat {k : Nat} (hk : k < UInt32.size) :
    ("attempt", toString (UInt32.ofNat k)) = Line.number k := by
  have hnat : (UInt32.ofNat k).toNat = k := UInt32.toNat_ofNat_of_lt' hk
  exact congrArg (Prod.mk "attempt") (congrArg toString hnat)

theorem message_failure (p : Payload) (site : Option PanicSite) :
    (p.failure site).message = "function caused a panic: " ++ p.message := by
  cases site <;> simp [Payload.failure, Failure.message, Failure.writeTo]

section Rendering

/-- The report of an attempt up to the answer to its begin. -/
def openingReport (ctx : ContextId) (n : Nat) (k : UInt32) (r : Except Failure τ) :
    List (Entry τ) :=
  [.notice (.beginning k n), .called (.begin ctx) none, .answered (.begin ctx) r]

variable {k : Nat}

theorem lines_passedSteps (tx : τ) (i j n : Nat) :
    (passedSteps tx i j).filterMap Item.line? =
      (passedSteps tx i j).flatMap (Item.lines k n) := by
  induction j generalizing i with
  | zero => rfl
  | succ j ih =>
      rw [passedSteps_succ, List.filterMap_append, List.flatMap_append, ih]
      rfl

variable (hk : k < UInt32.size)
include hk

theorem lines_setback (s : Setback) (tx : τ) (i n : Nat) :
    (s.report tx (UInt32.ofNat k) i).filterMap Item.line? =
      (s.calls tx i).flatMap (Item.lines k n) := by
  cases s with
  | interrupted cause => rfl
  | failed e => rfl
  | panicked p site =>
      simp [Setback.report, Setback.calls, Item.line?, Item.lines, Line.stepPanicked,
        Notice.level, Notice.message, Notice.fields, message_failure, number_ofNat hk]

theorem lines_undo (u : Undo) (tx : τ) (n : Nat) :
    (u.report tx (UInt32.ofNat k)).filterMap Item.line? =
      (u.calls tx).flatMap (Item.lines k n) := by
  obtain ⟨given, error, reply⟩ := u
  cases reply <;>
    simp [Undo.report, Undo.calls, Undo.notice, Item.line?, Item.lines, Line.rolledBack,
      Line.rollbackFailed, Notice.level, Notice.message, Notice.fields, number_ofNat hk]

theorem lines_opening (ctx : ContextId) (n : Nat) (r : Except Failure τ) :
    (openingReport ctx n (UInt32.ofNat k) r).filterMap Item.line? =
      [.called (.begin ctx) none, .answered (.begin ctx) r].flatMap (Item.lines k n) := by
  simp [openingReport, Item.line?, Item.lines, Line.beginning, Notice.level, Notice.message,
    Notice.fields, number_ofNat hk]

/-- The log of an attempt shows its calls and the lines that belong to them. -/
theorem lines_report (log : AttemptLog τ) (ctx : ContextId) (n : Nat) :
    (log.report ctx none n (UInt32.ofNat k)).filterMap Item.line? = log.lines ctx k n := by
  cases log with
  | unopened e => exact lines_opening hk ctx n (.error e)
  | undone tx passed s u =>
      have hsplit : AttemptLog.report ctx none n (UInt32.ofNat k) (.undone tx passed s u) =
          openingReport ctx n (UInt32.ofNat k) (.ok tx) ++
            (passedSteps tx 0 passed ++
              (s.report tx (UInt32.ofNat k) passed ++ u.report tx (UInt32.ofNat k))) := by
        rw [AttemptLog.report, AttemptLog.tail, undoneReport, Nat.zero_add]
        rfl
      rw [hsplit, AttemptLog.lines, AttemptLog.calls]
      simp only [List.filterMap_append, List.flatMap_append]
      rw [lines_opening hk, lines_passedSteps, lines_setback hk, lines_undo hk]
  | finished tx error reply =>
      have hfinish : ∀ (reply : Result) (l : List (Entry τ)),
          l.filterMap Item.line? =
            [.called (.commit tx ctx) error, .answered (.commit tx ctx) reply].flatMap
              (Item.lines k n) →
          (openingReport ctx n (UInt32.ofNat k) (.ok tx) ++
            (passedSteps tx 0 n ++ l)).filterMap Item.line? =
              (AttemptLog.finished tx error reply).lines ctx k n := by
        intro reply l hl
        rw [AttemptLog.lines, AttemptLog.calls]
        simp only [List.filterMap_append, List.flatMap_append]
        rw [lines_opening hk, lines_passedSteps, hl]
      cases reply with
      | error e =>
          exact hfinish (.error e)
            [.called (.commit tx ctx) error, .answered (.commit tx ctx) (.error e)] rfl
      | ok _ =>
          refine hfinish (.ok ()) [.called (.commit tx ctx) error,
            .answered (.commit tx ctx) (.ok ()), .notice (.committed (UInt32.ofNat k))] ?_
          simp [Item.line?, Item.lines, Line.committed, Notice.level, Notice.message,
            Notice.fields, number_ofNat hk]

end Rendering

end Lines

section Breaks

/-- The report ends with a call that has not been answered. -/
def Unanswered (l : List (Entry τ)) : Prop := ∃ before c error, l = before ++ [.called c error]

/-- The report ends with the announcement of a wait that may last for ever. -/
def Endless (E : Surroundings σ (Recorded ε τ)) (p : RetryPolicy) (ctx : ContextId)
    (l : List (Entry τ)) (v : World σ (Recorded ε τ)) : Prop :=
  ∃ before k e wait, l = before ++ RunLog.waitReport p k e wait ∧
    E.lasts (some ctx) (some wait) v

theorem Unanswered.behind {l : List (Entry τ)} (h : Unanswered l) (l' : List (Entry τ)) :
    Unanswered (l' ++ l) := by
  obtain ⟨before, c, error, rfl⟩ := h
  exact ⟨l' ++ before, c, error, (List.append_assoc _ _ _).symm⟩

variable {E : Surroundings σ (Recorded ε τ)} {pool : Pool σ ε τ} {ctx : ContextId}
  {grace : Duration} {k : UInt32} {tx : τ} {w v : World σ (Recorded ε τ)}
  {l : Story σ (Recorded ε τ)}

theorem Endless.behind {p : RetryPolicy} {l : List (Entry τ)} (h : Endless E p ctx l v)
    (l' : List (Entry τ)) : Endless E p ctx (l' ++ l) v := by
  obtain ⟨before, k, e, wait, rfl, hlast⟩ := h
  exact ⟨l' ++ before, k, e, wait, (List.append_assoc _ _ _).symm, hlast⟩

theorem unanswered_watch {c : Call τ} {x : Async σ ε c.Reply} {o : Outcome c.Reply}
    (h : (Async.watch c x).Exec E w l o v) (ho : o.Unreturned) : Unanswered (l.report ctx) :=
  ⟨[], c, _, Async.report_unreturned h ho ctx⟩

theorem unanswered_undoing {given : ContextId} {o : Outcome (Option Failure)}
    (h : Pool.Undoing E pool.watched k tx given w l o v) (ho : o.Unreturned) :
    Unanswered (l.report ctx) := by
  cases h with
  | done _ => exact absurd rfl (ho _)
  | failed _ => exact absurd rfl (ho _)
  | lost h hbroken => exact unanswered_watch (Pool.exec_rollback h) hbroken.left

theorem unanswered_undone {o : Outcome (Option Failure)}
    (h : Pool.Undone E pool.watched ctx grace k tx w l o v) (ho : o.Unreturned) :
    Unanswered (l.report ctx) := by
  cases h with
  | live _ h => exact unanswered_undoing h ho
  | late _ h => exact unanswered_undoing h ho

theorem unanswered_steps {i : Nat} {steps : List (Step σ ε τ)} {o : Outcome Result}
    (h : Pool.StepsCourse E pool.watched ctx grace k tx i (watchSteps i steps) w l o v)
    (ho : o.Unreturned) : Unanswered (l.report ctx) := by
  have hmap : ∀ {o : Outcome (Option Failure)} {f : Option Failure → Result},
      (o.map f).Unreturned → o.Unreturned := by
    rintro o f ho later rfl
    exact ho _ rfl
  induction steps generalizing i w l with
  | nil =>
      cases h with
      | passed => exact absurd rfl (ho _)
  | cons step rest ih =>
      cases h with
      | interrupted _ h => exact unanswered_undoing h (hmap ho)
      | stalled _ h =>
          rcases Pool.report_ran h ctx with ⟨r, hr, _⟩ | ⟨p, site, hr, _⟩ | ⟨_, hl⟩
          · cases hr
          · cases hr
          · exact ⟨[], _, _, hl⟩
      | failed _ _ hu =>
          rw [Story.report_append]
          exact (unanswered_undone hu (hmap ho)).behind _
      | next _ _ hrest =>
          rw [Story.report_append]
          exact (ih hrest).behind _

theorem unanswered_attempt {steps : List (Step σ ε τ)} {o : Outcome Result}
    (h : Pool.AttemptCourse E pool.watched ctx grace k (watchSteps 0 steps) w l o v)
    (ho : o.Unreturned) : Unanswered (l.report ctx) := by
  have hhead : ∀ {n : Notice} {l : Story σ (Recorded ε τ)}, Unanswered (l.report ctx) →
      Unanswered (Story.report ctx ((w, .notice n) :: l)) :=
    fun h => h.behind [.notice _]
  cases h with
  | lost h hbroken => exact hhead (unanswered_watch (Pool.exec_begin h) hbroken.left)
  | unopened _ => exact absurd rfl (ho _)
  | undone _ hs _ =>
      refine hhead ?_
      rw [Story.report_append]
      exact (unanswered_steps hs ho).behind _
  | unfinished _ _ hc hbroken =>
      refine hhead ?_
      rw [Story.report_append, Story.report_append]
      exact ((unanswered_watch (Pool.exec_commit hc) hbroken.left).behind _).behind _
  | refused _ _ _ => exact absurd rfl (ho _)
  | committed _ _ _ => exact absurd rfl (ho _)

/-- A run that does not return ends in a call without an answer or in a wait without an end. -/
theorem broken_course {p : RetryPolicy} {steps : List (Step σ ε τ)} {left : Nat}
    {m : UInt32} {o : Outcome Result}
    (h : p.Course E ctx (Executor.watchedAttempts pool ctx grace steps) left k m w l o v)
    (ho : o.Unreturned) : Unanswered (l.report ctx) ∨ Endless E p ctx (l.report ctx) v := by
  induction h with
  | lost h hbroken => exact Or.inl (unanswered_attempt (Pool.exec_attempt h) hbroken.left)
  | succeeded _ => exact absurd rfl (ho _)
  | stopped _ _ => exact absurd rfl (ho _)
  | exhausted _ _ => exact absurd rfl (ho _)
  | interrupted _ _ _ => exact absurd rfl (ho _)
  | hung _ _ hlast =>
      rw [Story.report_append]
      exact Or.inr ⟨_, _, _, _, rfl, hlast⟩
  | again _ _ _ _ ih =>
      rw [Story.report_append, Story.report_append]
      exact (ih ho).imp (fun h => (h.behind _).behind _) fun h => (h.behind _).behind _

end Breaks

section Chronicles

/-- How often an operation may be tried. -/
def RetryPolicy.limit (p : RetryPolicy) : Nat := max 1 p.attempts.toNat

/-- The log of a run from the attempt with the given number on, and its result, for the given
number of steps. -/
inductive Chronicle (p : RetryPolicy) (ctx : ContextId) (n : Nat) :
    Nat → List (Line τ) → Result → Prop
  | succeeded {k : Nat} {log : AttemptLog τ} :
      log.Fits n → log.result = .ok () → Chronicle p ctx n k (log.lines ctx k n) (.ok ())
  | stopped {k : Nat} {log : AttemptLog τ} {e : Failure} :
      log.Fits n → log.result = .error e → e.isStop = true →
      Chronicle p ctx n k (log.lines ctx k n ++ [.givingUp k e]) (.error e)
  | exhausted {k : Nat} {log : AttemptLog τ} {e : Failure} :
      log.Fits n → log.result = .error e → e.isStop = false → k = p.limit →
      Chronicle p ctx n k (log.lines ctx k n) (.error e)
  | interrupted {k : Nat} {log : AttemptLog τ} {e : Failure} (wait : Duration)
      (cause : ContextError) :
      log.Fits n → log.result = .error e → e.isStop = false → k < p.limit →
      Chronicle p ctx n k (log.lines ctx k n ++ [.retrying k p.limit wait e])
        (.error (e.merge (some (.context cause))))
  | retried {k : Nat} {log : AttemptLog τ} {e : Failure} (wait : Duration)
      {rest : List (Line τ)} {r : Result} :
      log.Fits n → log.result = .error e → e.isStop = false → k < p.limit →
      Chronicle p ctx n (k + 1) rest r →
      Chronicle p ctx n k (log.lines ctx k n ++ (.retrying k p.limit wait e :: rest)) r

variable {p : RetryPolicy} {ctx : ContextId} {n : Nat}

theorem toNat_maxAttempts (p : RetryPolicy) : p.maxAttempts.toNat = p.limit :=
  p.toNat_maxAttempts

theorem lines_waitReport {k : Nat} (hk : k < UInt32.size) (e : Failure) (wait : Duration) :
    (RunLog.waitReport p (UInt32.ofNat k) e wait : List (Entry τ)).filterMap Item.line? =
      [.retrying k p.limit wait e] := by
  have hmax : toString p.maxAttempts = toString p.limit :=
    congrArg toString (toNat_maxAttempts p)
  show [Line.said .debug "Attempt failed, retrying"
    [("attempt", toString (UInt32.ofNat k)), ("max_attempts", toString p.maxAttempts),
      ("delay_ms", toString (Notice.shownMillis wait)), ("error", e.message)]] = _
  rw [number_ofNat hk, hmax, Line.retrying]

theorem lines_farewell {k : Nat} (hk : k < UInt32.size) (e : Failure) :
    (RunLog.farewell (UInt32.ofNat k) (.error e) : List (Entry τ)).filterMap Item.line? =
      if e.isStop then [.givingUp k e] else [] := by
  cases hs : e.isStop with
  | true =>
      simp only [RunLog.farewell, hs, if_true]
      show [Line.said .debug "Stop error received, giving up"
        [("attempt", toString (UInt32.ofNat k)), ("error", e.message)]] = _
      rw [number_ofNat hk, Line.givingUp]
  | false => simp [RunLog.farewell, hs]

/-- The report of every run is shown as a chronicle. -/
theorem chronicle_report {r : RunLog τ} {left k : Nat} (h : r.Fits n left)
    (hk : left + k = p.limit) :
    Chronicle p ctx n k ((r.report p ctx n (UInt32.ofNat k)).filterMap Item.line?) r.result := by
  have hlimit : p.limit < UInt32.size := toNat_maxAttempts p ▸ p.maxAttempts.toNat_lt
  induction r generalizing left k with
  | last log =>
      have hlog : log.Fits n ∧ ∀ e, log.result = .error e → e.isStop = true ∨ left = 0 := by
        cases left <;> exact h
      have hsize : k < UInt32.size := by omega
      rw [RunLog.report, RunLog.result, List.filterMap_append, lines_report hsize]
      cases hr : log.result with
      | ok _ =>
          rw [RunLog.farewell, List.filterMap_nil, List.append_nil]
          exact .succeeded hlog.1 hr
      | error e =>
          rw [lines_farewell hsize]
          cases hs : e.isStop with
          | true => exact .stopped hlog.1 hr hs
          | false =>
              have hleft : left = 0 := (hlog.2 e hr).resolve_left (by simp [hs])
              simp only [Bool.false_eq_true, if_false, List.append_nil]
              exact .exhausted hlog.1 hr hs (by omega)
  | interrupted log e wait cause =>
      cases left with
      | zero => exact h.elim
      | succ left =>
          have hsize : k < UInt32.size := by omega
          rw [RunLog.report, List.filterMap_append, lines_report hsize, lines_waitReport hsize]
          exact .interrupted wait cause h.1 h.2.1 h.2.2 (by omega)
  | retried log e wait rest ih =>
      cases left with
      | zero => exact h.elim
      | succ left =>
          have hsize : k < UInt32.size := by omega
          have hrest := ih h.2.2.2 (k := k + 1) (by omega)
          rw [UInt32.ofNat_add] at hrest
          rw [RunLog.report, List.filterMap_append, List.filterMap_append, lines_report hsize,
            lines_waitReport hsize]
          exact .retried wait h.1 h.2.1 h.2.2.1 (by omega) hrest

/-- How many commits a log tells of that ends with the given result. -/
def commitCount : Result → Nat
  | .ok () => 1
  | .error _ => 0

theorem countP_passedSteps (tx : τ) (i j k n : Nat) :
    ((passedSteps tx i j).flatMap (Item.lines k n)).countP Line.isCommitted = 0 := by
  induction j generalizing i with
  | zero => rfl
  | succ j ih =>
      rw [passedSteps_succ, List.flatMap_append, List.countP_append, ih]
      rfl

theorem countP_attempt (log : AttemptLog τ) (ctx : ContextId) (k n : Nat) :
    (log.lines ctx k n).countP Line.isCommitted = commitCount log.result := by
  have hbegin : ∀ r : Except Failure τ,
      (([.called (.begin ctx) none, .answered (.begin ctx) r] : List (Entry τ)).flatMap
        (Item.lines k n)).countP Line.isCommitted = 0 := fun r => by
    simp [Item.lines, Line.beginning, Line.isCommitted]
  cases log with
  | unopened e => exact hbegin (.error e)
  | undone tx passed s u =>
      have hs : ((s.calls tx passed).flatMap (Item.lines k n)).countP Line.isCommitted = 0 := by
        cases s <;> simp [Setback.calls, Item.lines, Line.stepPanicked, Line.isCommitted]
      have hu : ((u.calls tx).flatMap (Item.lines k n)).countP Line.isCommitted = 0 := by
        obtain ⟨given, error, reply⟩ := u
        cases reply <;>
          simp [Undo.calls, Item.lines, Line.rolledBack, Line.rollbackFailed, Line.isCommitted]
      rw [AttemptLog.lines, AttemptLog.calls]
      simp only [List.flatMap_append, List.countP_append, hbegin, countP_passedSteps, hs, hu]
      rfl
  | finished tx error reply =>
      rw [AttemptLog.lines, AttemptLog.calls]
      simp only [List.flatMap_append, List.countP_append, hbegin, countP_passedSteps]
      cases reply <;>
        simp [Item.lines, Line.committed, Line.isCommitted, AttemptLog.result, commitCount]

/-- A commit is told of once in the log of a success, and never in that of a failure. -/
theorem countP_committed {k : Nat} {lines : List (Line τ)} {r : Result}
    (h : Chronicle p ctx n k lines r) : lines.countP Line.isCommitted = commitCount r := by
  have hwait : ∀ (k : Nat) (wait : Duration) (e : Failure),
      (Line.retrying k p.limit wait e : Line τ).isCommitted = false := fun k wait e => by
    simp [Line.retrying, Line.isCommitted]
  have hstop : ∀ (k : Nat) (e : Failure), (Line.givingUp k e : Line τ).isCommitted = false :=
    fun k e => by simp [Line.givingUp, Line.isCommitted]
  induction h with
  | succeeded _ hr => rw [countP_attempt, hr]
  | stopped _ hr _ => simp [countP_attempt, hr, hstop, commitCount]
  | exhausted _ hr _ _ => rw [countP_attempt, hr]
  | interrupted wait cause _ hr _ _ => simp [countP_attempt, hr, hwait, commitCount]
  | retried wait _ hr _ _ _ ih => simp [countP_attempt, hr, hwait, ih, commitCount]

/-- How the log of a run that does not return breaks off: a call is not answered, or a wait
has no end. -/
theorem broken_lines {E : Surroundings σ (Recorded ε τ)} {x : Executor σ ε τ}
    {steps : List (Step σ ε τ)} {w v : World σ (Recorded ε τ)} {l : Story σ (Recorded ε τ)}
    {o : Outcome Result} (h : (x.recorded ctx steps).Exec E w l o v) (ho : o.Unreturned) :
    (∃ before c, Story.lines ctx l = before ++ [.called c]) ∨
      ∃ before k wait e, Story.lines ctx l = before ++ [.retrying k x.retry.limit wait e] ∧
        E.lasts (some ctx) (some wait) v := by
  rcases exec_recorded h with ⟨_, _, e, rfl, _⟩ | ⟨_, pool, _, hcourse⟩
  · exact absurd rfl (ho _)
  · rcases broken_course hcourse ho with ⟨before, c, error, hl⟩ |
      ⟨before, k, e, wait, hl, hlast⟩
    · refine Or.inl ⟨before.filterMap Item.line?, c, ?_⟩
      rw [Story.lines, hl, List.filterMap_append]
      rfl
    · refine Or.inr ⟨before.filterMap Item.line?, k.toNat, wait, e, ?_, hlast⟩
      rw [Story.lines, hl, List.filterMap_append, ← lines_waitReport k.toNat_lt,
        UInt32.ofNat_toNat]

/-- **The log is faithful.**  Unless nothing is tried, since there is no pool or the context
is done, the log of every run is a chronicle from its first attempt on, and only a run that
does not return breaks it off: where it does, a call has not been answered, or a wait has no
end.  A commit is told of at most once, and exactly if the run has succeeded. -/
theorem log_faithful (E : Surroundings σ (Recorded ε τ)) (x : Executor σ ε τ)
    (ctx : ContextId) (steps : List (Step σ ε τ)) :
    (∀ w l o v, (x.recorded ctx steps).Exec E w l o v →
      (l = [] ∧ (x.pool = none ∨ w.timeline.Done ctx)) ∨
        ∃ lines r, Chronicle x.retry ctx steps.length 1 lines r ∧
          Told o (Story.lines ctx l) r lines) ∧
    (∀ w l o v, (x.recorded ctx steps).Exec E w l o v → o.Unreturned →
      (∃ before c, Story.lines ctx l = before ++ [.called c]) ∨
        ∃ before k wait e, Story.lines ctx l = before ++ [.retrying k x.retry.limit wait e] ∧
          E.lasts (some ctx) (some wait) v) ∧
    (∀ w l o v, (x.recorded ctx steps).Exec E w l o v →
      (Story.lines ctx l).countP Line.isCommitted ≤ 1 ∧
      ((Story.lines ctx l).countP Line.isCommitted = 1 ↔ o = .returned (.ok ()))) := by
  have htold : ∀ (log : RunLog τ), log.Fits steps.length (x.retry.maxAttempts.toNat - 1) →
      Chronicle x.retry ctx steps.length 1
        ((log.report x.retry ctx steps.length 1).filterMap Item.line?) log.result := by
    intro log hfits
    have hmax := x.retry.one_le_maxAttempts
    rw [toNat_maxAttempts] at hfits hmax
    exact chronicle_report hfits (by omega)
  refine ⟨fun w l o v h => ?_, fun w l o v => broken_lines, fun w l o v h => ?_⟩
  · rcases told_run h with ⟨rfl, _, e, _, ⟨hnone, _⟩ | ⟨c, hc, _⟩⟩ | ⟨_, log, hfits, _, ht⟩
    · exact Or.inl ⟨rfl, Or.inl hnone⟩
    · exact Or.inl ⟨rfl, Or.inr (by simp [Timeline.Done, hc])⟩
    · exact Or.inr ⟨_, _, htold log hfits, ht.filterMap Item.line?⟩
  · rcases told_run h with ⟨rfl, _, e, rfl, _⟩ | ⟨_, log, hfits, hok, ht⟩
    · simp [Story.lines, Story.report]
    · have hcount := countP_committed (htold log hfits)
      -- a log that has broken off is that of no success
      have hbroken : o.Unreturned → (Story.lines ctx l).countP Line.isCommitted = 0 := by
        intro ho
        have hzero : commitCount log.result = 0 := by
          cases hlog : log.result with
          | ok _ => exact absurd (hok hlog) (ho _)
          | error e => rfl
        have hle := (ht.filterMap Item.line?).said.sublist.countP_le (p := Line.isCommitted)
        rw [hcount, hzero] at hle
        exact Nat.le_zero.1 hle
      cases o with
      | returned r =>
          obtain ⟨hr, hsaid⟩ := ht.returned
          rw [Story.lines, hsaid, hcount, hr]
          cases r <;> simp [commitCount]
      | unwound p => simp [hbroken (by rintro _ ⟨⟩)]
      | stalled => simp [hbroken (by rintro _ ⟨⟩)]

/-- A pool that is lost in its commits. -/
def Pool.crashing : Pool Unit Unit Unit where
  begin _ := return .ok ()
  commit _ _ := .unwind (.text "lost")
  rollback _ _ := return .ok ()

/-- A run without steps: its log is a chronicle that tells of the commit, or it ends with the
commit that has not been answered. -/
theorem log_faithful_crashing :
    (∃ l v, ((Executor.ofPool Pool.agreeing).recorded 0 []).Exec .clock World.single l
        (.returned (.ok ())) v ∧
      Chronicle RetryPolicy.once 0 0 1 (Story.lines 0 l) (.ok ()) ∧
      (Story.lines 0 l).countP Line.isCommitted = 1) ∧
    ∃ l v, ((Executor.ofPool Pool.crashing).recorded 0 []).Exec .clock World.single l
        (.unwound (.text "lost")) v ∧
      (∃ before c, Story.lines 0 l = before ++ [.called c]) ∧
      (Story.lines 0 l).countP Line.isCommitted ≠ 1 := by
  have hreturned := Async.exec_run ((Executor.ofPool Pool.agreeing).recorded 0 []) World.single
  have hunwound := Async.exec_run ((Executor.ofPool Pool.crashing).recorded 0 []) World.single
  constructor
  · obtain ⟨htold, _, hcount⟩ := log_faithful .clock (.ofPool Pool.agreeing) 0 []
    rcases htold _ _ _ _ hreturned with ⟨hnil, _⟩ | ⟨lines, r, hchronicle, ht⟩
    · cases hnil
    · obtain ⟨hr, hlines⟩ := ht.returned
      rw [hr, ← hlines] at hchronicle
      exact ⟨_, _, hreturned, hchronicle, (hcount _ _ _ _ hreturned).2.2 rfl⟩
  · obtain ⟨_, hbroken, hcount⟩ := log_faithful .clock (.ofPool Pool.crashing) 0 []
    refine ⟨_, _, hunwound, ?_, fun hone => nomatch (hcount _ _ _ _ hunwound).2.1 hone⟩
    rcases hbroken _ _ _ _ hunwound nofun with hcalled | ⟨_, _, _, _, _, hlast⟩
    · exact hcalled
    · exact absurd hlast Surroundings.not_lasts_clock

end Chronicles

end TransactionAttempts
