import TransactionAttempts.Failure.Basic

/-!
# Notices

What the library reports about its own work: a level, a message and named texts.

The wait of a `retrying` notice is given in whole milliseconds, of which the low
64 bits are shown.
-/

namespace TransactionAttempts

inductive Level where
  | debug
  | warn
deriving DecidableEq

def Level.name : Level → String
  | .debug => "DEBUG"
  | .warn => "WARN"

inductive Notice where
  | beginning (attempt : UInt32) (steps : Nat)
  | committed (attempt : UInt32)
  | rolledBack (attempt : UInt32)
  | rollbackFailed (attempt : UInt32) (error : Failure)
  | stepPanicked (attempt : UInt32) (step : Nat) (error : Failure)
  | givingUp (attempt : UInt32) (error : Failure)
  | retrying (attempt maxAttempts : UInt32) (wait : Duration) (error : Failure)

namespace Notice

def level : Notice → Level
  | .rollbackFailed _ _ => .warn
  | .stepPanicked _ _ _ => .warn
  | _ => .debug

def message : Notice → String
  | .beginning _ _ => "Beginning transaction"
  | .committed _ => "Transaction committed"
  | .rolledBack _ => "Transaction rolled back"
  | .rollbackFailed _ _ => "Rollback failed"
  | .stepPanicked _ _ _ => "Step panicked"
  | .givingUp _ _ => "Stop error received, giving up"
  | .retrying _ _ _ _ => "Attempt failed, retrying"

/-- The wait as it is shown: whole milliseconds, as far as 64 bits reach, and
the high bits are lost beyond. -/
def shownMillis (wait : Duration) : Nat := wait.toMillis % 18446744073709551616

/-- The named texts of a notice. -/
def fields : Notice → List (String × String)
  | .beginning attempt steps => [("attempt", toString attempt), ("steps", toString steps)]
  | .committed attempt => [("attempt", toString attempt)]
  | .rolledBack attempt => [("attempt", toString attempt)]
  | .rollbackFailed attempt error =>
      [("attempt", toString attempt), ("error", error.message)]
  | .stepPanicked attempt step error =>
      [("attempt", toString attempt), ("step", toString step), ("error", error.message)]
  | .givingUp attempt error => [("attempt", toString attempt), ("error", error.message)]
  | .retrying attempt maxAttempts wait error =>
      [("attempt", toString attempt), ("max_attempts", toString maxAttempts),
        ("delay_ms", toString (shownMillis wait)), ("error", error.message)]

end Notice

end TransactionAttempts
