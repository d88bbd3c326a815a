import TransactionAttempts.Async.Joint
import TransactionAttempts.Executor
import TransactionAttempts.Rehearsal.Script

/-!
# Rehearsals

An executor or a retry policy is rehearsed against calls that follow scripts.
Every call leaves a mark before its script is played, and a successful begin
opens a transaction with the next number.

* `Rehearsal.pool` and `Rehearsal.steps` are the scripted surroundings of an
  executor, `Rehearsal.operation` that of a retry policy;
* `Rehearsal.inTurn` and `Rehearsal.together` run the same work several times.
-/

namespace TransactionAttempts

/-- The kinds of calls that are counted. -/
inductive Role where
  | operation
  | begin
  | step (index : Nat)
  | commit
  | rollback
deriving DecidableEq

/-- What a call leaves in the record.  Calls are numbered by role, from one. -/
inductive Mark where
  | called (n : Nat)
  | began (n : Nat) (error : Option ContextError) (deadline : Option Instant)
  | stepped (index n tx : Nat)
  /-- A commit or a rollback of a transaction with its writes. -/
  | closed (role : Role) (n tx : Nat) (writes : List String) (error : Option ContextError)
      (deadline : Option Instant)
  /-- A run has ended. -/
  | returned

/-- The calls so far, the transactions opened so far, and their writes, each with
the number of its transaction. -/
structure Stage where
  calls : List Role
  opened : Nat
  writes : List (Nat × String)

namespace Stage

def empty : Stage := ⟨[], 0, []⟩

def enter (role : Role) (s : Stage) : Nat × Stage :=
  (s.calls.count role + 1, { s with calls := role :: s.calls })

def openNext (s : Stage) : Nat × Stage := (s.opened + 1, { s with opened := s.opened + 1 })

def write (tx : Nat) (text : String) (s : Stage) : Stage :=
  { s with writes := s.writes ++ [(tx, text)] }

/-- The writes of one transaction, in order. -/
def writesOf (s : Stage) (tx : Nat) : List String :=
  (s.writes.filter (·.1 == tx)).map (·.2)

end Stage

/-- The scripts of all calls. -/
structure Rehearsal where
  begin : List (Script String)
  commit : List (Script String)
  rollback : List (Script String)
  steps : List (List (Script String))

namespace Rehearsal

/-- Programs on the stage. -/
abbrev Play := Async Stage Mark

/-- Writes outside of a step are lost. -/
def noWrite (_ : String) : Play Result := return .ok ()

/-- Writes in an open transaction. -/
def write (tx : Nat) (text : String) : Play Result := do
  Async.modify (Stage.write tx text)
  return .ok ()

/-- Ends a transaction in one of the two ways. -/
def close (caller : ContextId) (role : Role) (scripts : List (Script String)) (tx : Nat)
    (given : ContextId) : Play Result := do
  let n ← Async.modifyGet (Stage.enter role)
  let stage ← Async.get
  let error ← Async.errorOf given
  let deadline ← Async.deadlineOf given
  Async.mark (.closed role n tx (stage.writesOf tx) error deadline)
  (Script.forCall scripts n).play caller given noWrite

def pool (x : Rehearsal) (caller : ContextId) : Pool Stage Mark Nat where
  begin given := do
    let n ← Async.modifyGet (Stage.enter .begin)
    let error ← Async.errorOf given
    let deadline ← Async.deadlineOf given
    Async.mark (.began n error deadline)
    match ← (Script.forCall x.begin n).play caller given noWrite with
    | .error e => return .error e
    | .ok () => return .ok (← Async.modifyGet Stage.openNext)
  commit := close caller .commit x.commit
  rollback := close caller .rollback x.rollback

/-- The step with the given index. -/
def step (caller : ContextId) (index : Nat) (scripts : List (Script String)) :
    Step Stage Mark Nat :=
  fun tx => do
    let n ← Async.modifyGet (Stage.enter (.step index))
    Async.mark (.stepped index n tx)
    (Script.forCall scripts n).play caller caller (write tx)

def stepsFrom (caller : ContextId) :
    Nat → List (List (Script String)) → List (Step Stage Mark Nat)
  | _, [] => []
  | index, scripts :: rest => step caller index scripts :: stepsFrom caller (index + 1) rest

def stepList (x : Rehearsal) (caller : ContextId) : List (Step Stage Mark Nat) :=
  stepsFrom caller 0 x.steps

/-- A scripted operation for a retry policy, which remembers nothing. -/
def operation (caller : ContextId) (scripts : List (Script String)) :
    Unit → Unit × Play Result :=
  fun _ => ((), do
    let n ← Async.modifyGet (Stage.enter .operation)
    Async.mark (.called n)
    (Script.forCall scripts n).play caller caller noWrite)

section Runs

/-- One run to its end, be it a result or a panic. -/
def once (x : Play Result) : Play (Except Payload Result) := do
  let r ← x.caught
  Async.mark .returned
  return r

def inTurn (x : Play Result) : Nat → Play (List (Except Payload Result))
  | 0 => return []
  | n + 1 => do
      let r ← once x
      let rest ← inTurn x n
      return r :: rest

/-- The runs as separate programs. -/
def together (x : Play Result) (n : Nat) : List (Play (Except Payload Result)) :=
  List.replicate n (once x)

end Runs

end Rehearsal

end TransactionAttempts
