import TransactionAttempts.Context.Basic

/-!
# Failures of a transaction

A failure is a tree.  Its leaves are single causes, its unary nodes say in which
phase a cause arose or that retrying is pointless (`stop`), and `multiple` lists
failures that happened together.

**Errors from elsewhere.**  Some leaves hold an error of the database driver or one of
an unknown type.  Such an error has a text, and it may name another error as its source:
one of an unknown type again, or a failure.  So behind a leaf the chain of sources may go
on, and come back to failures.

**Operations.**

* `asStop` marks a failure as final and does not mark it twice; `cause` takes
  all marks off the root.
* `merge` joins a failure with one that followed it.  Lists on either side are
  spliced in, so joining is concatenation of `members`.
* `message` is the text of a failure, and `sources` are the errors along its chain of
  sources.

Main facts:

* `merge_some`, `members_merge`: the members of a join are those of its parts;
* `isStop_asStop`, `asStop_asStop`, `isStop_cause`, `cause_asStop`: the algebra of marks;
* `message_beginFailed`, `message_multiple` and their like: the text of a failure in
  terms of the texts of its parts.
-/

namespace TransactionAttempts

mutual

/-- Why a transaction, or a step of one, did not succeed. -/
inductive Failure where
  | emptyDatabase
  | beginFailed (inner : Failure)
  | commitFailed (inner : Failure)
  | rollbackFailed (inner : Failure)
  | panic (message : String) (location : Option String) (stack : String)
  | context (error : ContextError)
  | database (error : DriverError)
  /-- An error of an unknown type. -/
  | other (error : ForeignError)
  /-- A failure that was handed over as an error of an unknown type. -/
  | boxed (inner : Failure)
  | multiple (members : List Failure)
  | stop (inner : Failure)

/-- What a driver reports when it cannot hand out a connection or when a statement is
refused. -/
inductive DriverError where
  | rowNotFound
  | poolTimedOut
  | poolClosed
  | workerCrashed
  | protocol (text : String)
  | columnNotFound (name : String)
  | typeNotFound (name : String)
  | configuration (error : ForeignError)
  /-- The database has refused a statement. -/
  | refused (error : ForeignError)
  /-- Any other error of a driver, with its text and its source. -/
  | further (error : ForeignError)

/-- An error of an unknown type that is no failure itself. -/
inductive ForeignError where
  /-- The error has no source. -/
  | plain (text : String)
  /-- The source of the error is another one. -/
  | above (text : String) (source : ForeignError)
  /-- The source of the error is a failure. -/
  | holding (text : String) (inner : Failure)

end

section Elsewhere

/-- The text of an error of an unknown type. -/
def ForeignError.message : ForeignError → String
  | .plain text => text
  | .above text _ => text
  | .holding text _ => text

/-- A text is handed over as an error without a source. -/
instance : Coe String ForeignError := ⟨.plain⟩

/-- An error of an unknown type is shown by its text. -/
instance : Coe ForeignError String := ⟨ForeignError.message⟩

/-- The text of an error of a driver. -/
def DriverError.message : DriverError → String
  | .rowNotFound => "no rows returned by a query that expected to return at least one row"
  | .poolTimedOut => "pool timed out while waiting for an open connection"
  | .poolClosed => "attempted to acquire a connection on a closed pool"
  | .workerCrashed => "attempted to communicate with a crashed background worker"
  | .protocol text => "encountered unexpected or invalid data: " ++ text
  | .columnNotFound name => "no column found for name: " ++ name
  | .typeNotFound name => "type named " ++ name ++ " not found"
  | .configuration error => "error with configuration: " ++ (error : String)
  | .refused error => "error returned from database: " ++ (error : String)
  | .further error => error

end Elsewhere

namespace Failure

instance : Inhabited Failure := ⟨.emptyDatabase⟩

section Marks

def isStop : Failure → Bool
  | .stop _ => true
  | _ => false

/-- The failure marked as final; a mark at the root is enough. -/
def asStop : Failure → Failure
  | .stop inner => .stop inner
  | e => .stop e

/-- The failure without the marks at its root. -/
def cause : Failure → Failure
  | .stop inner => inner.cause
  | e => e

@[simp] theorem isStop_asStop (e : Failure) : e.asStop.isStop = true := by
  cases e <;> rfl

@[simp] theorem asStop_asStop (e : Failure) : e.asStop.asStop = e.asStop := by
  cases e <;> rfl

theorem cause_eq_self {e : Failure} (h : e.isStop = false) : e.cause = e := by
  cases e <;> first | rfl | simp [isStop] at h

theorem asStop_eq_stop {e : Failure} (h : e.isStop = false) : e.asStop = .stop e := by
  cases e <;> first | rfl | simp [isStop] at h

@[simp] theorem cause_asStop (e : Failure) : e.asStop.cause = e.cause := by
  cases e <;> rfl

@[simp] theorem isStop_cause : (e : Failure) → e.cause.isStop = false
  | .stop inner => isStop_cause inner
  | .emptyDatabase | .beginFailed _ | .commitFailed _ | .rollbackFailed _ | .panic _ _ _
  | .context _ | .database _ | .other _ | .boxed _ | .multiple _ => rfl

end Marks

section Joining

/-- The failures that a list holds; any other failure stands for itself. -/
def members : Failure → List Failure
  | .multiple es => es
  | e => [e]

/-- A failure together with one that followed it, if any. -/
def merge (e : Failure) : Option Failure → Failure
  | none => e
  | some f => .multiple (e.members ++ f.members)

@[simp] theorem merge_none (e : Failure) : e.merge none = e := rfl

theorem merge_some (e f : Failure) :
    e.merge (some f) = .multiple (e.members ++ f.members) := rfl

@[simp] theorem members_merge (e f : Failure) :
    (e.merge (some f)).members = e.members ++ f.members := rfl

@[simp] theorem isStop_merge (e f : Failure) : (e.merge (some f)).isStop = false := rfl

end Joining

section Text

mutual

/-- Writes the text of a failure behind another text. -/
def writeTo (s : String) : Failure → String
  | .emptyDatabase => s ++ "no database connection is set"
  | .beginFailed inner => writeTo (s ++ "starting transaction: ") inner
  | .commitFailed inner => writeTo (s ++ "committing transaction: ") inner
  | .rollbackFailed inner => writeTo (s ++ "rolling back transaction: ") inner
  | .panic text _ _ => s ++ "function caused a panic: " ++ text
  | .context error => s ++ error.message
  | .database error => s ++ "Database error: " ++ error.message
  | .other error => s ++ (error : String)
  | .boxed inner => writeTo s inner
  | .multiple es =>
      writeListTo (s ++ toString es.length ++ " errors occurred: [") "" es ++ "]"
  | .stop inner => writeTo s inner

/-- Writes the texts of some failures.  The mark stands before the first of them. -/
def writeListTo (s mark : String) : List Failure → String
  | [] => s
  | e :: es => writeListTo (writeTo (s ++ mark) e) "; " es

end

/-- The text of a failure. -/
def message (e : Failure) : String := writeTo "" e

mutual

theorem writeTo_eq (s : String) : (e : Failure) → writeTo s e = s ++ message e
  | .emptyDatabase => by simp [message, writeTo]
  | .beginFailed inner => by
      simp only [message, writeTo]
      rw [writeTo_eq _ inner, writeTo_eq ("" ++ _) inner]
      simp [String.append_assoc]
  | .commitFailed inner => by
      simp only [message, writeTo]
      rw [writeTo_eq _ inner, writeTo_eq ("" ++ _) inner]
      simp [String.append_assoc]
  | .rollbackFailed inner => by
      simp only [message, writeTo]
      rw [writeTo_eq _ inner, writeTo_eq ("" ++ _) inner]
      simp [String.append_assoc]
  | .panic _ _ _ => by simp [message, writeTo, String.append_assoc]
  | .context _ => by simp [message, writeTo]
  | .database _ => by simp [message, writeTo, String.append_assoc]
  | .other _ => by simp [message, writeTo]
  | .boxed inner => writeTo_eq s inner
  | .multiple es => by
      simp only [message, writeTo]
      rw [writeListTo_eq _ "" es, writeListTo_eq ("" ++ _ ++ _) "" es]
      simp [String.append_assoc]
  | .stop inner => writeTo_eq s inner

theorem writeListTo_eq (s mark : String) :
    (es : List Failure) → writeListTo s mark es = s ++ writeListTo "" mark es
  | [] => by simp [writeListTo]
  | e :: es => by
      simp only [writeListTo]
      rw [writeListTo_eq _ _ es, writeListTo_eq (writeTo ("" ++ mark) e) _ es,
        writeTo_eq (s ++ mark) e, writeTo_eq ("" ++ mark) e]
      simp [String.append_assoc]

end

theorem message_beginFailed (e : Failure) :
    message (.beginFailed e) = "starting transaction: " ++ message e := by
  simp [message, writeTo, writeTo_eq "starting transaction: " e]

theorem message_commitFailed (e : Failure) :
    message (.commitFailed e) = "committing transaction: " ++ message e := by
  simp [message, writeTo, writeTo_eq "committing transaction: " e]

theorem message_rollbackFailed (e : Failure) :
    message (.rollbackFailed e) = "rolling back transaction: " ++ message e := by
  simp [message, writeTo, writeTo_eq "rolling back transaction: " e]

@[simp] theorem message_stop (e : Failure) : message (.stop e) = message e := rfl

@[simp] theorem message_boxed (e : Failure) : message (.boxed e) = message e := rfl

theorem writeListTo_eq_intercalate (e : Failure) (es : List Failure) :
    writeListTo "" "" (e :: es) = "; ".intercalate ((e :: es).map message) := by
  induction es generalizing e with
  | nil => simp [writeListTo, writeTo_eq]
  | cons f es ih =>
      have hf := ih f
      simp only [List.map_cons, String.intercalate_cons_cons] at hf ⊢
      rw [← hf]
      simp only [writeListTo, writeTo_eq]
      rw [writeListTo_eq _ _ es, writeListTo_eq ("" ++ "" ++ message f) _ es]
      simp [String.append_assoc]

theorem message_multiple (es : List Failure) :
    message (.multiple es) =
      toString es.length ++ " errors occurred: [" ++ "; ".intercalate (es.map message) ++ "]" := by
  simp only [message, writeTo]
  rw [writeListTo_eq]
  cases es with
  | nil => simp [writeListTo]
  | cons e es => simp [writeListTo_eq_intercalate]

end Text

end Failure

section Sources

/-- A link of a chain of sources. -/
inductive Source where
  | failure (e : Failure)
  | driver (e : DriverError)
  | foreign (e : ForeignError)

def Source.message : Source → String
  | .failure e => e.message
  | .driver e => e.message
  | .foreign e => e.message

mutual

/-- The errors below this one along its chain of sources, outermost first.  Lists,
panics and context errors have no source. -/
def Failure.sources : Failure → List Source
  | .beginFailed inner => .failure inner :: inner.sources
  | .commitFailed inner => .failure inner :: inner.sources
  | .rollbackFailed inner => .failure inner :: inner.sources
  | .stop inner => .failure inner :: inner.sources
  | .boxed inner => .failure inner :: inner.sources
  | .other error => .foreign error :: error.sources
  | .database error => .driver error :: error.sources
  | _ => []

def DriverError.sources : DriverError → List Source
  | .configuration error => .foreign error :: error.sources
  | .refused error => .foreign error :: error.sources
  | .further error => error.sources
  | _ => []

def ForeignError.sources : ForeignError → List Source
  | .plain _ => []
  | .above _ source => .foreign source :: source.sources
  | .holding _ inner => .failure inner :: inner.sources

end

end Sources

end TransactionAttempts
