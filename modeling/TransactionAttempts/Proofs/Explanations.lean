import TransactionAttempts.Executor
import TransactionAttempts.Proofs.Parts
import TransactionAttempts.Proofs.Rounds

/-!
# Why a run failed

The error of a failing run is explained by the rounds that the run has gone through, of
which the last one counts.

**Explanations.**

* `Prevented`: the context was done at the start, and nothing was called;
* `Unchanged`: the error is that of the last call;
* `Interrupted`: the error of the last call, which was neither final nor the last one
  allowed, is joined with that of the context, which ended the wait after it.

A run that gives up before its attempts are used up says so: its error is final, or it is
a cancellation.  It is final exactly if the last call said so.

Main facts:

* `explained_run`: a failing run of any operation has exactly one of the explanations;
* `failure_explained`: so has a failing run of an executor with a pool.
-/

namespace TransactionAttempts

namespace RetryPolicy

variable {σ ε κ : Type}

section Counting

/-- The round that has been answered, if the sign shows one. -/
def Sign.round? : Sign σ ε → Option (Round σ ε)
  | .answered _ r => some r
  | _ => none

def Sign.isCall : Sign σ ε → Bool
  | .called _ => true
  | _ => false

/-- The rounds that a run goes through. -/
def roundsOf (p : RetryPolicy) (ctx : ContextId) (f : κ → κ × Async σ ε Result) (m : κ)
    (w : World σ ε) : List (Round σ ε) :=
  (p.signsOf ctx f m w).filterMap Sign.round?

/-- How often a run calls its operation. -/
def callsOf (p : RetryPolicy) (ctx : ContextId) (f : κ → κ × Async σ ε Result) (m : κ)
    (w : World σ ε) : Nat :=
  (p.signsOf ctx f m w).countP Sign.isCall

theorem rounds_roundSigns (p : RetryPolicy) (n : Nat) (rounds : List (Round σ ε)) :
    (roundSigns p n rounds).filterMap Sign.round? = rounds := by
  induction rounds generalizing n with
  | nil => rfl
  | cons r rest ih =>
      rw [roundSigns, List.filterMap_append, ih]
      rfl

theorem calls_roundSigns (p : RetryPolicy) (n : Nat) (rounds : List (Round σ ε)) :
    (roundSigns p n rounds).countP Sign.isCall = rounds.length := by
  induction rounds generalizing n with
  | nil => rfl
  | cons r rest ih =>
      rw [roundSigns, List.countP_append, ih, Nat.add_comm]
      rfl

end Counting

section Explanations

/-- The context was done at the start, and nothing was called. -/
def Prevented (ctx : ContextId) (w : World σ ε) (rounds : List (Round σ ε)) (e : Failure) :
    Prop :=
  rounds = [] ∧ ∃ c, w.timeline.error ctx = some c ∧ e = .context c

/-- The error is that of the last call. -/
def Unchanged (rounds : List (Round σ ε)) (e : Failure) : Prop :=
  ∃ r, rounds.getLast? = some r ∧ r.outcome = .error e

/-- The context ended the wait after the last call, whose error was not final and after
which more calls were allowed. -/
def Interrupted (p : RetryPolicy) (ctx : ContextId) (v : World σ ε) (rounds : List (Round σ ε))
    (e : Failure) : Prop :=
  ∃ r f c, rounds.getLast? = some r ∧ r.outcome = .error f ∧ f.isStop = false ∧
    rounds.length < p.maxAttempts.toNat ∧
    (p.Overtaken ctx rounds.length r ∨ p.Tied ctx rounds.length r) ∧
    v.timeline.error ctx = some c ∧ e = f.merge (some (.context c))

/-- The last call failed for good. -/
def EndedFinal (rounds : List (Round σ ε)) : Prop :=
  ∃ r f, rounds.getLast? = some r ∧ r.outcome = .error f ∧ f.isStop = true

/-- What the rounds of a failing run say about its error. -/
structure Explained (p : RetryPolicy) (ctx : ContextId) (w v : World σ ε)
    (rounds : List (Round σ ε)) (e : Failure) : Prop where
  reason : Prevented ctx w rounds e ∨ Unchanged rounds e ∨ p.Interrupted ctx v rounds e
  early : rounds.length < p.maxAttempts.toNat → e.isStop = true ∨ e.isCancellation = true
  final : e.isStop = true ↔ EndedFinal rounds

theorem not_prevented_unchanged {ctx : ContextId} {w : World σ ε} {rounds : List (Round σ ε)}
    {e : Failure} (hp : Prevented ctx w rounds e) : ¬ Unchanged rounds e := by
  rintro ⟨r, hr, _⟩
  rw [hp.1] at hr
  cases hr

theorem not_prevented_interrupted {p : RetryPolicy} {ctx : ContextId} {w v : World σ ε}
    {rounds : List (Round σ ε)} {e : Failure} (hp : Prevented ctx w rounds e) :
    ¬ p.Interrupted ctx v rounds e := by
  rintro ⟨r, _, _, hr, _⟩
  rw [hp.1] at hr
  cases hr

/-- What was joined with something is not what it was. -/
theorem not_unchanged_interrupted {p : RetryPolicy} {ctx : ContextId} {v : World σ ε}
    {rounds : List (Round σ ε)} {e : Failure} (hu : Unchanged rounds e) :
    ¬ p.Interrupted ctx v rounds e := by
  rintro ⟨r, f, c, hr, hf, _, _, _, _, rfl⟩
  obtain ⟨r', hr', he⟩ := hu
  cases hr.symm.trans hr'
  have hself : f = f.merge (some (.context c)) := Except.error.inj (hf.symm.trans he)
  exact Failure.merge_ne_self f (.context c) (by simp [Failure.members]) hself.symm

theorem explained_prevented {p : RetryPolicy} {ctx : ContextId} {w v : World σ ε}
    {c : ContextError} (hc : w.timeline.error ctx = some c) :
    Explained p ctx w v ([] : List (Round σ ε)) (.context c) where
  reason := Or.inl ⟨rfl, c, hc, rfl⟩
  early _ := Or.inr ((Failure.isCancellation_iff _).2 ⟨c, .self⟩)
  final := by simp [Failure.isStop, EndedFinal]

/-- The error of a call that decides the run explains it. -/
theorem explained_decided {p : RetryPolicy} {ctx : ContextId} {w v : World σ ε}
    {before : List (Round σ ε)} {r : Round σ ε} {e : Failure} (hr : r.outcome = .error e)
    (hd : p.Decided (1 + before.length) r.outcome) :
    Explained p ctx w v (before ++ [r]) e where
  reason := Or.inr (Or.inl ⟨r, List.getLast?_concat, hr⟩)
  early hlt := by
    rw [List.length_append, List.length_singleton] at hlt
    rcases hd with hok | ⟨f, hf, hs⟩ | hk
    · cases hr.symm.trans hok
    · cases hr.symm.trans hf
      exact Or.inl hs
    · omega
  final := by
    constructor
    · exact fun hs => ⟨r, e, List.getLast?_concat, hr, hs⟩
    · rintro ⟨r', f, hr', hf, hs⟩
      cases List.getLast?_concat.symm.trans hr'
      cases hr.symm.trans hf
      exact hs

/-- An error that was joined with that of the context explains the run. -/
theorem explained_interrupted {p : RetryPolicy} {ctx : ContextId} {w v : World σ ε}
    {rounds : List (Round σ ε)} {e : Failure} (h : p.Interrupted ctx v rounds e) :
    Explained p ctx w v rounds e := by
  have hall := h
  obtain ⟨r, f, c, hr, hf, hs, _, _, _, rfl⟩ := h
  refine ⟨Or.inr (Or.inr hall), fun _ => Or.inr (Failure.isCancellation_merge_context f c), ?_⟩
  rw [Failure.isStop_merge]
  constructor
  · exact fun h => nomatch h
  · rintro ⟨r', f', hr', hf', hs'⟩
    cases hr.symm.trans hr'
    cases hf.symm.trans hf'
    exact hs.symm.trans hs'

variable {p : RetryPolicy} {ctx : ContextId}

/-- Rounds none of which ends the run are fewer than the calls that are allowed. -/
theorem length_lt_maxAttempts {before : List (Round σ ε)}
    (h : ∀ i r, before[i]? = some r → ¬ p.Ends ctx (1 + i) r) :
    before.length < p.maxAttempts.toNat := by
  have hmax := p.one_le_maxAttempts
  refine Nat.lt_of_not_le fun hle => ?_
  have hlt : p.maxAttempts.toNat - 1 < before.length := by omega
  refine h _ _ (List.getElem?_eq_getElem hlt) (Or.inl (Or.inr (Or.inr ?_)))
  omega

/-- How a run ends explains its error. -/
theorem explained_concluded {w v : World σ ε} {before : List (Round σ ε)} {l : List (Sign σ ε)}
    {e : Failure} (hbefore : ∀ i r, before[i]? = some r → ¬ p.Ends ctx (1 + i) r)
    (h : Concluded p ctx 1 before l (.returned (.error e)) v.timeline) :
    l.countP Sign.isCall = (l.filterMap Sign.round?).length ∧
      Explained p ctx w v (l.filterMap Sign.round?) e := by
  have hround : ∀ {l' : List (Sign σ ε)} {r : Round σ ε}, l'.filterMap Sign.round? = [r] →
      (roundSigns p 1 before ++ l').filterMap Sign.round? = before ++ [r] := by
    intro l' r hr
    rw [List.filterMap_append, rounds_roundSigns, hr]
  have hcall : ∀ {l' : List (Sign σ ε)} {r : Round σ ε}, l'.countP Sign.isCall = 1 →
      (roundSigns p 1 before ++ l').countP Sign.isCall = (before ++ [r]).length := by
    intro l' r hl
    rw [List.countP_append, calls_roundSigns, hl, List.length_append, List.length_singleton]
  generalize ho : (Outcome.returned (.error e) : Outcome Result) = o at h
  cases h with
  | unanswered hu => exact absurd ho.symm (hu _)
  | decided r hd =>
      have hr : r.outcome = .error e := by cases r; cases ho; rfl
      rw [hround (r := r) rfl]
      exact ⟨hcall rfl, explained_decided hr hd⟩
  | @overtaken r f c v' hr hd hover hc =>
      cases ho
      rw [hround (r := r) rfl]
      have hlt := length_lt_maxAttempts hbefore
      have hlen : (before ++ [r]).length = 1 + before.length := by
        rw [List.length_append, List.length_singleton, Nat.add_comm]
      refine ⟨hcall rfl, explained_interrupted ⟨r, f, c, List.getLast?_concat, hr, ?_, ?_, ?_, hc,
        rfl⟩⟩
      · exact eq_false_of_ne_true fun hs => hd (Or.inr (Or.inl ⟨f, hr, hs⟩))
      · have hne : 1 + before.length ≠ p.maxAttempts.toNat := fun hk => hd (Or.inr (Or.inr hk))
        omega
      · rw [hlen]
        exact hover

/-- A failing run of any operation is explained by its rounds. -/
theorem explained_run {f : κ → κ × Async σ ε Result} {m : κ} {w v : World σ ε} {e : Failure}
    (h : (p.run ctx f m).run w = (.returned (.error e), v)) :
    p.callsOf ctx f m w = (p.roundsOf ctx f m w).length ∧
      Explained p ctx w v (p.roundsOf ctx f m w) e := by
  have hexec : (p.runNumbered ctx f m).Exec .clock w.untraced _ _ _ := Async.exec_run _ _
  obtain ⟨ho, hv⟩ := p.run_numbered ctx f m w
  rw [h] at ho hv
  rw [← ho] at hexec
  rcases exec_run hexec with ⟨c, hc, hl, he, _⟩ | ⟨_, hcourse⟩
  · cases he
    have hsigns : p.signsOf ctx f m w = [] := congrArg signs hl
    rw [callsOf, roundsOf, hsigns]
    exact ⟨rfl, explained_prevented hc⟩
  · have hmax := p.one_le_maxAttempts
    obtain ⟨before, hbefore, hend⟩ := signs_course hcourse rfl (by
      show p.maxAttempts.toNat - 1 + 1 = _
      omega)
    rw [← hv.timeline] at hend
    exact explained_concluded hbefore hend

end Explanations

end RetryPolicy

section Executors

open RetryPolicy

variable {σ ε τ : Type}

namespace Executor

/-- The attempts that a run makes, each with its outcome and the world in which that came. -/
def attempts (x : Executor σ ε τ) (ctx : ContextId) (steps : List (Step σ ε τ))
    (w : World σ ε) : List (Round σ ε) :=
  match x.pool with
  | none => []
  | some pool => x.retry.roundsOf ctx (nextAttempt pool ctx x.gracePeriod steps) 0 w

/-- How many attempts a run begins. -/
def attemptCount (x : Executor σ ε τ) (ctx : ContextId) (steps : List (Step σ ε τ))
    (w : World σ ε) : Nat :=
  match x.pool with
  | none => 0
  | some pool => x.retry.callsOf ctx (nextAttempt pool ctx x.gracePeriod steps) 0 w

end Executor

/-- **Every failing run is explained by its error.**  The error is that of the context,
which was done at the start, or that of the last attempt, or the latter joined with that
of the context, which ended the wait after it; and it is only one of these.  A run that has
not used up its attempts fails with an error that is final or a cancellation, and the error
is final exactly if that of the last attempt is. -/
theorem failure_explained {x : Executor σ ε τ} (hpool : x.pool.isSome = true)
    {ctx : ContextId} {steps : List (Step σ ε τ)} {w v : World σ ε} {e : Failure}
    (h : (x.run ctx steps).run w = (.returned (.error e), v)) :
    x.attemptCount ctx steps w = (x.attempts ctx steps w).length ∧
    (Prevented ctx w (x.attempts ctx steps w) e ∨ Unchanged (x.attempts ctx steps w) e ∨
      x.retry.Interrupted ctx v (x.attempts ctx steps w) e) ∧
    ¬ (Prevented ctx w (x.attempts ctx steps w) e ∧ Unchanged (x.attempts ctx steps w) e) ∧
    ¬ (Prevented ctx w (x.attempts ctx steps w) e ∧
      x.retry.Interrupted ctx v (x.attempts ctx steps w) e) ∧
    ¬ (Unchanged (x.attempts ctx steps w) e ∧
      x.retry.Interrupted ctx v (x.attempts ctx steps w) e) ∧
    ((x.attempts ctx steps w).length < x.retry.maxAttempts.toNat →
      e.isStop = true ∨ e.isCancellation = true) ∧
    (e.isStop = true ↔ EndedFinal (x.attempts ctx steps w)) := by
  obtain ⟨pool, retry, grace⟩ := x
  obtain ⟨pool, rfl⟩ := Option.isSome_iff_exists.1 hpool
  obtain ⟨hcount, hexplained⟩ := explained_run h
  exact ⟨hcount, hexplained.reason, fun ⟨hp, hu⟩ => not_prevented_unchanged hp hu,
    fun ⟨hp, hi⟩ => not_prevented_interrupted hp hi,
    fun ⟨hu, hi⟩ => not_unchanged_interrupted hu hi, hexplained.early, hexplained.final⟩

/-- A pool that never opens a transaction. -/
def Pool.unreachable : Pool Unit Unit Unit where
  begin _ := return .error (.database .poolTimedOut)
  commit _ _ := return .ok ()
  rollback _ _ := return .ok ()

/-- Three attempts with a second between them. -/
def Executor.waiting : Executor Unit Unit Unit :=
  ⟨some Pool.unreachable, RetryPolicy.every 3 (Duration.ofSeconds 1), Duration.zero⟩

/-- A world in which somebody cancels the only context after half a second. -/
def World.impatient : World Unit Unit :=
  { World.initial (fun _ => 0) () with
    timeline := (Timeline.start.create Context.unbounded).schedule 500000000 0 }

/-- The wait after the first attempt is cut short, and the error tells of both. -/
theorem failure_explained_waiting :
    Executor.waiting.pool.isSome = true ∧ ∃ v,
      (Executor.waiting.run 0 []).run World.impatient =
        (.returned (.error (.multiple [.beginFailed (.database .poolTimedOut),
          .context .canceled])), v) ∧
      (Executor.waiting.attempts 0 [] World.impatient).length = 1 ∧
      Executor.waiting.retry.Interrupted 0 v (Executor.waiting.attempts 0 [] World.impatient)
        (.multiple [.beginFailed (.database .poolTimedOut), .context .canceled]) := by
  obtain ⟨_, hreason, _⟩ := @failure_explained _ _ _ Executor.waiting rfl 0 []
    World.impatient _ _ rfl
  refine ⟨rfl, _, rfl, rfl, hreason.resolve_left ?_ |>.resolve_left ?_⟩
  · rintro ⟨_, c, hc, _⟩
    cases hc
  · rintro ⟨r, hr, he⟩
    cases hr
    cases he

end Executors

end TransactionAttempts
