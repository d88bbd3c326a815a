import TransactionAttempts.Async.Basic
import TransactionAttempts.Config.Basic

/-!
# Retrying

An operation is repeated until it succeeds, fails for good, has used up its
attempts, or its context is done.

**Rules.**

* A context that is done at the start prevents the first attempt, and its error
  is the result.
* After a failure, in this order: a final failure is the result; the failure of
  the last attempt is the result; otherwise a wait follows.
* A context that ends during the wait ends the run.  Its error is joined to the
  failure of the attempt before.
* At least one attempt is made, even if the policy says none.

The operation may remember something from one call to the next, its memory.
-/

namespace TransactionAttempts

/-- What an operation of a transaction comes to. -/
abbrev Result := Except Failure Unit

namespace RetryPolicy

variable {σ ε κ : Type}

/-- How many attempts are made at most. -/
def maxAttempts (p : RetryPolicy) : UInt32 := max p.attempts 1

/-- Computes the wait after a failed attempt.  A random part is drawn only if
there is a choice. -/
def nextWait (p : RetryPolicy) (attempt : UInt32) : Async σ ε Duration := do
  Async.request (.emit (.consulted attempt p.delay))
  let spread := p.method.spread p.delay
  if spread = 0 then
    return p.method.wait attempt p.delay 0
  else
    let jitter ← Async.request (.draw spread)
    return p.method.wait attempt p.delay jitter

/-- Ends a run with a failure, and reports if it is final. -/
def giveUp (attempt : UInt32) (e : Failure) : Async σ ε Result := do
  if e.isStop then Async.note (.givingUp attempt e)
  return .error e

/-- Waits after a failed attempt.  The answer is the error of the context if that
ended the wait. -/
def waitAfter (p : RetryPolicy) (ctx : ContextId) (attempt : UInt32) (e : Failure) :
    Async σ ε (Option ContextError) := do
  let wait ← p.nextWait attempt
  Async.note (.retrying attempt p.maxAttempts wait e)
  Async.awaitEnd ctx (some wait)

/-- The attempts from a given number on, of which as many as given may still
follow when this one fails. -/
def attemptsFrom (p : RetryPolicy) (ctx : ContextId) (f : κ → κ × Async σ ε Result) :
    Nat → UInt32 → κ → Async σ ε Result
  | 0, attempt, memory => do
      match ← (f memory).2 with
      | .ok () => return .ok ()
      | .error e => giveUp attempt e
  | left + 1, attempt, memory => do
      match ← (f memory).2 with
      | .ok () => return .ok ()
      | .error e =>
          if e.isStop then giveUp attempt e
          else
            match ← p.waitAfter ctx attempt e with
            | some cause => return .error (e.merge (some (.context cause)))
            | none => p.attemptsFrom ctx f left (attempt + 1) (f memory).1

/-- Repeats an operation under the policy. -/
def run (p : RetryPolicy) (ctx : ContextId) (f : κ → κ × Async σ ε Result) (memory : κ) :
    Async σ ε Result := do
  match ← Async.errorOf ctx with
  | some cause => return .error (.context cause)
  | none => p.attemptsFrom ctx f (p.maxAttempts.toNat - 1) 1 memory

end RetryPolicy

end TransactionAttempts
