import TransactionAttempts.Failure.Walk
import TransactionAttempts.Retry

/-!
# Transactions

A list of steps is run in one transaction, and the whole list is retried when
something fails.

**One attempt.**

* A transaction is begun; if that fails, the attempt fails with it.
* The steps run in order.  Before each, the context is looked at; if it is done,
  the transaction is rolled back and the failure is final.
* A panic of a step is a failure of the step.
* A failing step is followed by a rollback.  The failure is final if the step
  said so or if it holds an error of a context.
* After the last step the transaction is committed, without a look at the
  context, and a commit that fails is not followed by a rollback.

**Rollbacks.**  A rollback runs under the caller's context while that is live,
and under a fresh one that lasts for the grace period otherwise.  A failing
rollback is joined to the failure that led to it.
-/

namespace TransactionAttempts

/-- A source of transactions.  An open transaction is known by a handle and ends
with exactly one commit or rollback. -/
structure Pool (σ ε τ : Type) where
  begin : ContextId → Async σ ε (Except Failure τ)
  commit : τ → ContextId → Async σ ε Result
  rollback : τ → ContextId → Async σ ε Result

/-- A unit of work inside the open transaction.  It runs again on each attempt. -/
abbrev Step (σ ε τ : Type) := τ → Async σ ε Result

namespace Pool

variable {σ ε τ : Type}

/-- Rolls back and reports it.  The failure is that of the rollback, if any. -/
def rollBack (pool : Pool σ ε τ) (attempt : UInt32) (tx : τ) (ctx : ContextId) :
    Async σ ε (Option Failure) := do
  match ← pool.rollback tx ctx with
  | .ok () =>
      Async.note (.rolledBack attempt)
      return none
  | .error e =>
      Async.note (.rollbackFailed attempt e)
      return some (.rollbackFailed e)

/-- Rolls back under a fresh context that lasts for the grace period. -/
def rollBackInGrace (pool : Pool σ ε τ) (grace : Duration) (attempt : UInt32) (tx : τ) :
    Async σ ε (Option Failure) := do
  let ctx ← Async.create (some grace)
  pool.rollBack attempt tx ctx

/-- Runs one step.  A panic becomes a failure that tells its site. -/
def runStep (attempt : UInt32) (index : Nat) (body : Async σ ε Result) : Async σ ε Result := do
  match ← body.captured with
  | .ok r => return r
  | .error payload =>
      let site ← Async.request .takeRecord
      let e := payload.failure site
      Async.note (.stepPanicked attempt index e)
      return .error e

/-- Undoes the work after a failing step, and gives the failure of the attempt. -/
def abandon (pool : Pool σ ε τ) (ctx : ContextId) (grace : Duration) (attempt : UInt32)
    (tx : τ) (e : Failure) : Async σ ε Failure := do
  let later ←
    match ← Async.errorOf ctx with
    | some _ => pool.rollBackInGrace grace attempt tx
    | none => pool.rollBack attempt tx ctx
  let joined := e.cause.merge later
  return if e.isStop || e.isCancellation then joined.asStop else joined

/-- Runs the steps from a given index on.  On failure the transaction has been
rolled back. -/
def runSteps (pool : Pool σ ε τ) (ctx : ContextId) (grace : Duration) (attempt : UInt32)
    (tx : τ) : Nat → List (Step σ ε τ) → Async σ ε Result
  | _, [] => return .ok ()
  | index, step :: rest => do
      match ← Async.errorOf ctx with
      | some cause =>
          let later ← pool.rollBackInGrace grace attempt tx
          return .error (Failure.merge (.context cause) later).asStop
      | none =>
          match ← runStep attempt index (step tx) with
          | .error e => return .error (← pool.abandon ctx grace attempt tx e)
          | .ok () => pool.runSteps ctx grace attempt tx (index + 1) rest

/-- Runs the steps in a single transaction. -/
def attempt (pool : Pool σ ε τ) (ctx : ContextId) (grace : Duration)
    (steps : List (Step σ ε τ)) (number : UInt32) : Async σ ε Result := do
  Async.note (.beginning number steps.length)
  match ← pool.begin ctx with
  | .error e => return .error (.beginFailed e)
  | .ok tx =>
      match ← pool.runSteps ctx grace number tx 0 steps with
      | .error e => return .error e
      | .ok () =>
          match ← pool.commit tx ctx with
          | .error e => return .error (.commitFailed e)
          | .ok () =>
              Async.note (.committed number)
              return .ok ()

/-- Runs the steps in a transaction without retrying. -/
def withTransaction (pool : Pool σ ε τ) (ctx : ContextId) (steps : List (Step σ ε τ)) :
    Async σ ε Result :=
  pool.attempt ctx Config.defaultGracePeriod steps 1

end Pool

/-- Runs lists of steps in transactions, with retries. -/
structure Executor (σ ε τ : Type) where
  pool : Option (Pool σ ε τ)
  retry : RetryPolicy
  gracePeriod : Duration

namespace Executor

variable {σ ε τ : Type}

/-- An executor needs a pool and makes at least one attempt. -/
def new (pool : Option (Pool σ ε τ)) (config : Config) : Except Failure (Executor σ ε τ) :=
  match pool with
  | none => .error .emptyDatabase
  | some pool => .ok ⟨some pool, config.retry.normalized, config.gracePeriod⟩

/-- An executor that tries once. -/
def ofPool (pool : Pool σ ε τ) : Executor σ ε τ :=
  ⟨some pool, RetryPolicy.once, Config.defaultGracePeriod⟩

/-- An executor without a pool, all of whose runs fail. -/
def default : Executor σ ε τ := ⟨none, RetryPolicy.once, Config.defaultGracePeriod⟩

/-- One call of the retried operation, which counts the attempts. -/
def nextAttempt (pool : Pool σ ε τ) (ctx : ContextId) (grace : Duration)
    (steps : List (Step σ ε τ)) (made : UInt32) : UInt32 × Async σ ε Result :=
  (made + 1, pool.attempt ctx grace steps (made + 1))

/-- Runs the steps in a transaction until an attempt commits, the attempts run
out, a failure is final, or the context is done. -/
def run (x : Executor σ ε τ) (ctx : ContextId) (steps : List (Step σ ε τ)) :
    Async σ ε Result :=
  match x.pool with
  | none => return .error .emptyDatabase
  | some pool => x.retry.run ctx (nextAttempt pool ctx x.gracePeriod steps) 0

/-- A description of the executor, unless its delays are a function of the caller. -/
def text? (x : Executor σ ε τ) : Option String :=
  x.retry.text?.map fun p =>
    "RetryTransaction \x7b has_db: " ++ toString x.pool.isSome ++ ", retry: " ++ p ++
      ", grace_period: " ++ x.gracePeriod.text ++ " \x7d"

end Executor

end TransactionAttempts
