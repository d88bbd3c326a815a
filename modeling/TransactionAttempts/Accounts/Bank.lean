import TransactionAttempts.Accounts.Ledger
import TransactionAttempts.Guarded
import TransactionAttempts.Rehearsal.Caller
import TransactionAttempts.Rehearsal.Script

/-!
# A bank with one connection

A database of accounts that can be reached through a single connection.  While
that is taken, a begin waits.

**Transactions.**  Statements work on a copy of the ledger, which a commit puts in
its place.  A commit or rollback that fails drops the transaction, and what is
dropped is rolled back.

* `Bank.pool` lets an executor use the bank;
* `Bank.session` carries out single requests.
-/

namespace TransactionAttempts

/-- Who has the connection. -/
inductive Connection where
  | free
  /-- A transaction has it, with its copy of the ledger. -/
  | used (copy : Ledger)
  /-- Somebody else keeps it. -/
  | held
  | closed
deriving DecidableEq

/-- The ledger that everybody sees, and how often each step has run. -/
structure Bank where
  ledger : Ledger
  connection : Connection
  stepsRun : List Nat

/-- A step with the given index has been called for the `n`-th time. -/
structure StepCall where
  index : Nat
  n : Nat

namespace Bank

abbrev Work := Async Bank StepCall

def withLedger (l : Ledger) (c : Connection) : Bank := ⟨l, c, []⟩

/-- Takes the connection for a transaction. -/
def openCopy (b : Bank) : Bank := { b with connection := .used b.ledger }

/-- Puts the copy in the place of the ledger and gives the connection back. -/
def publish (b : Bank) : Bank :=
  match b.connection with
  | .used copy => { b with ledger := copy, connection := .free }
  | _ => b

/-- Gives the connection back; the copy is lost. -/
def drop (b : Bank) : Bank :=
  match b.connection with
  | .used _ => { b with connection := .free }
  | _ => b

def close (b : Bank) : Bank := { b with connection := .closed }

/-- The answer to a statement in the open transaction, and the bank after it.
Without a transaction there is no connection for it. -/
def execute (s : Statement) (b : Bank) : Result × Bank :=
  match b.connection with
  | .used copy =>
      match copy.execute s with
      | .ok copy => (.ok (), { b with connection := .used copy })
      | .error e => (.error (.database e), b)
  | _ => (.error (.database .poolTimedOut), b)

section Driver

/-- The driver of the bank.  A begin waits while the connection is taken. -/
def driver : Driver Bank Unit where
  begin := .update id fun b =>
    match b.connection with
    | .free => .act openCopy
    | .closed => .complete (.error .poolClosed)
    | _ => .never
  commit _ := .act publish
  rollback _ := .act drop
  drop _ := drop

def pool : Pool Bank StepCall Unit := driver.pool

end Driver

section Steps

/-- The number of the next run of a step. -/
def enterStep (index : Nat) (b : Bank) : Nat × Bank :=
  (b.stepsRun.count index + 1, { b with stepsRun := index :: b.stepsRun })

/-- Scripted statements as a step. -/
def step (caller : ContextId) (index : Nat) (scripts : List (Script Statement)) :
    Step Bank StepCall Unit :=
  fun _ => do
    let n ← Async.modifyGet (enterStep index)
    Async.mark ⟨index, n⟩
    (Script.forCall scripts n).play caller caller fun s => Async.modifyGet (execute s)

def stepsFrom (caller : ContextId) :
    Nat → List (List (Script Statement)) → List (Step Bank StepCall Unit)
  | _, [] => []
  | index, scripts :: rest => step caller index scripts :: stepsFrom caller (index + 1) rest

end Steps

/-- The rows that everybody sees; a closed bank shows none. -/
def rows? (b : Bank) : Option (List (String × Int)) :=
  match b.connection with
  | .closed => none
  | _ => some b.ledger.rows

/-- A single request. -/
inductive Request where
  | begin (c : Caller)
  | commit (c : Caller)
  | rollback (c : Caller)
  | execute (s : Statement)
  | drop
  | rows
  | close

/-- What a request is answered with on success. -/
inductive Reply where
  | begun
  | committed
  | rolledBack
  | executed
  | dropped
  | rows (rows : List (String × Int))
  | closed

/-- Carries out a request.  Each context is made for its request. -/
def serve : Request → Work (Except Failure Reply)
  | .begin c => do
      let ctx ← c.enter
      return (← pool.begin ctx).map fun _ => .begun
  | .commit c => do
      let ctx ← c.enter
      return (← pool.commit () ctx).map fun _ => .committed
  | .rollback c => do
      let ctx ← c.enter
      return (← pool.rollback () ctx).map fun _ => .rolledBack
  | .execute s => do
      return (← Async.modifyGet (Bank.execute s)).map fun _ => .executed
  | .drop => do
      Async.modify Bank.drop
      return .ok .dropped
  | .rows => do
      let b ← Async.get
      return .ok (.rows b.ledger.rows)
  | .close => do
      Async.modify Bank.close
      return .ok .closed

def session : List Request → Work (List (Except Failure Reply))
  | [] => return []
  | r :: rest => do
      let x ← serve r
      let xs ← session rest
      return x :: xs

end Bank

end TransactionAttempts
