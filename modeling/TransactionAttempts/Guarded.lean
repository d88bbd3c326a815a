import TransactionAttempts.Executor

/-!
# Guarded driver calls

A call of a database driver races against a context.  A context that is done at
the start keeps the call from being made, and one that ends while the call is
under way abandons it.

**Calls.**  A call works on the state of the database and waits in between.  It
waits for nothing but time.  If the context ends at the instant at which a wait of
the call does, the call is given up.

**Drivers.**  `Driver.pool` lets an executor use a driver: begins, commits and
rollbacks are guarded calls.  A transaction whose end fails is dropped.
-/

namespace TransactionAttempts

/-- A call of a driver that gives a value of type `α`, over a state `σ`. -/
inductive DriverCall (σ α : Type) where
  | complete (r : Except DriverError α)
  /-- Changes the state; what follows may depend on the state before. -/
  | update (f : σ → σ) (next : σ → DriverCall σ α)
  /-- Waits for some time, or for ever. -/
  | wait (time : Option Duration) (next : DriverCall σ α)

namespace DriverCall

variable {σ ε α : Type}

/-- A call that changes the state at once. -/
def act (f : σ → σ) : DriverCall σ Unit := .update f fun _ => .complete (.ok ())

/-- A call that never completes. -/
def never : DriverCall σ α := .wait none (.complete (.error .poolTimedOut))

/-- Carries on with a call, and gives it up when the context ends first. -/
def race (ctx : ContextId) : DriverCall σ α → Async σ ε (Except Failure α)
  | .complete r => .ret (r.mapError .database)
  | .update f next => .perform (.update f) fun s => (next s).race ctx
  | .wait time next => .await (some ctx) time fun
      | some cause => .ret (.error (.context cause))
      | none => next.race ctx

/-- Makes the call unless the context is done, and gives it up when the context
ends first. -/
def guarded (call : DriverCall σ α) (ctx : ContextId) : Async σ ε (Except Failure α) := do
  match ← Async.errorOf ctx with
  | some cause => return .error (.context cause)
  | none => call.race ctx

end DriverCall

/-- The calls of a driver.  An open transaction is known by a handle. -/
structure Driver (σ τ : Type) where
  begin : DriverCall σ τ
  commit : τ → DriverCall σ Unit
  rollback : τ → DriverCall σ Unit
  /-- What dropping an open transaction does to the state. -/
  drop : τ → σ → σ

namespace Driver

variable {σ ε τ : Type}

/-- Ends a transaction by a guarded call.  If that fails, the transaction is
dropped. -/
def endBy (d : Driver σ τ) (tx : τ) (call : DriverCall σ Unit) (ctx : ContextId) :
    Async σ ε Result := do
  match ← call.guarded ctx with
  | .ok () => return .ok ()
  | .error e =>
      Async.modify (d.drop tx)
      return .error e

def pool (d : Driver σ τ) : Pool σ ε τ where
  begin ctx := d.begin.guarded ctx
  commit tx ctx := d.endBy tx (d.commit tx) ctx
  rollback tx ctx := d.endBy tx (d.rollback tx) ctx

end Driver

end TransactionAttempts
