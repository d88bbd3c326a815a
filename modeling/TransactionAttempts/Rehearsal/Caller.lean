import TransactionAttempts.Async.World

/-!
# Callers

The context under which something is called: its timeout, whether it is cancelled
beforehand, and after what time somebody else cancels it.

* `Caller.enter` creates the context;
* `Caller.world` is a world in which nothing but that has happened.
-/

namespace TransactionAttempts

structure Caller where
  timeout : Option Duration
  cancelled : Bool
  cancelAfter : Option Duration

namespace Caller

variable {σ ε : Type}

/-- A live context that stays so. -/
def live : Caller := ⟨none, false, none⟩

/-- Creates the context; the answer is its number. -/
def enter (c : Caller) : Async σ ε ContextId := do
  let i ← Async.create c.timeout
  if c.cancelled then Async.cancel i
  if let some d := c.cancelAfter then Async.cancelLater i d
  return i

/-- The number of the only context in the world of a caller. -/
def id : ContextId := 0

def world (c : Caller) (state : σ) : World σ ε :=
  (c.enter.run (World.initial DelayMethod.scattered state)).2

end Caller

end TransactionAttempts
