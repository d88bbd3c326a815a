import TransactionAttempts.Notice
import TransactionAttempts.Panic
import TransactionAttempts.Timeline

/-!
# Asynchronous programs

A program is a tree of requests.  Each request says what to do next and how to
go on with the answer, so a program can be run, watched and interleaved without
knowing what it was made from.

**Requests.**

* An operation (`Op`) is carried out at once.
* An `await` waits for the end of a context or of a sleep, whichever comes first;
  without a context it is a sleep alone.  It is the only request that can let
  time pass and the only one at which another program can go on.

A program ends with a value (`ret`) or with a panic (`unwind`).

Main facts:

* `bind_assoc`, `bind_ret`: programs form a monad;
* `caught_ret`, `caught_unwind`: what is caught.
-/

namespace TransactionAttempts

/-- What a program leaves in the record of a run. -/
inductive Event (ε : Type) where
  /-- The library reports on its work. -/
  | notice (n : Notice)
  /-- A wait was computed from the number of a failed attempt and a base delay. -/
  | consulted (attempt : UInt32) (base : Duration)
  /-- Whatever the surroundings of the library record. -/
  | mark (e : ε)

/-- An operation that is carried out at once, over a state `σ` of the program's
surroundings. -/
inductive Op (σ ε : Type) where
  /-- Changes the state; the answer is the state before. -/
  | update (f : σ → σ)
  | emit (e : Event ε)
  /-- Asks why a context is done. -/
  | error (c : ContextId)
  | deadline (c : ContextId)
  | cancel (c : ContextId)
  /-- Somebody else is to cancel a context after some time. -/
  | cancelLater (c : ContextId) (d : Duration)
  /-- Creates a context, with or without a timeout; the answer is its number. -/
  | create (timeout : Option Duration)
  /-- Draws a number below a bound. -/
  | draw (bound : Nat)
  | enterCapture
  | leaveCapture
  /-- A panic is being raised. -/
  | hook (site : PanicSite)
  /-- Takes out the record of the latest panic. -/
  | takeRecord

/-- What an operation answers. -/
abbrev Op.Answer {σ ε : Type} : Op σ ε → Type
  | .update _ => σ
  | .error _ => Option ContextError
  | .deadline _ => Option Instant
  | .create _ => ContextId
  | .draw _ => Nat
  | .takeRecord => Option PanicSite
  | _ => Unit

inductive Async (σ ε α : Type) where
  | ret (a : α)
  | unwind (p : Payload)
  | perform (o : Op σ ε) (next : o.Answer → Async σ ε α)
  | await (context : Option ContextId) (limit : Option Duration)
      (next : Option ContextError → Async σ ε α)

namespace Async

variable {σ ε α β γ : Type}

instance [Inhabited α] : Inhabited (Async σ ε α) := ⟨.ret default⟩

section Sequence

def bind : Async σ ε α → (α → Async σ ε β) → Async σ ε β
  | .ret a, f => f a
  | .unwind p, _ => .unwind p
  | .perform o next, f => .perform o fun a => (next a).bind f
  | .await c limit next, f => .await c limit fun r => (next r).bind f

instance : Monad (Async σ ε) where
  pure := .ret
  bind := .bind

theorem bind_ret (x : Async σ ε α) : x.bind .ret = x := by
  induction x with
  | ret a => rfl
  | unwind p => rfl
  | perform o next ih => exact congrArg (Async.perform o) (funext ih)
  | await c limit next ih => exact congrArg (Async.await c limit) (funext ih)

theorem bind_assoc (x : Async σ ε α) (f : α → Async σ ε β) (g : β → Async σ ε γ) :
    (x.bind f).bind g = x.bind fun a => (f a).bind g := by
  induction x with
  | ret a => rfl
  | unwind p => rfl
  | perform o next ih => exact congrArg (Async.perform o) (funext ih)
  | await c limit next ih => exact congrArg (Async.await c limit) (funext ih)

end Sequence

section Requests

/-- Carries out one operation. -/
def request (o : Op σ ε) : Async σ ε o.Answer := .perform o .ret

/-- Computes a value and a new state from the state. -/
def modifyGet (f : σ → α × σ) : Async σ ε α :=
  .perform (.update fun s => (f s).2) fun s => .ret (f s).1

def modify (f : σ → σ) : Async σ ε Unit := .perform (.update f) fun _ => .ret ()

def get : Async σ ε σ := .perform (.update id) .ret

def mark (e : ε) : Async σ ε Unit := request (.emit (.mark e))

def note (n : Notice) : Async σ ε Unit := request (.emit (.notice n))

def errorOf (c : ContextId) : Async σ ε (Option ContextError) := request (.error c)

def deadlineOf (c : ContextId) : Async σ ε (Option Instant) := request (.deadline c)

def cancel (c : ContextId) : Async σ ε Unit := request (.cancel c)

def cancelLater (c : ContextId) (d : Duration) : Async σ ε Unit := request (.cancelLater c d)

def create (timeout : Option Duration) : Async σ ε ContextId := request (.create timeout)

/-- Waits for the end of a context, and no longer than the limit. -/
def awaitEnd (c : ContextId) (limit : Option Duration) : Async σ ε (Option ContextError) :=
  .await (some c) limit .ret

def sleep (d : Duration) : Async σ ε Unit := .await none (some d) fun _ => .ret ()

end Requests

section Panics

/-- Runs a program and hands over its panic as a value. -/
def caught : Async σ ε α → Async σ ε (Except Payload α)
  | .ret a => .ret (.ok a)
  | .unwind p => .ret (.error p)
  | .perform o next => .perform o fun a => (next a).caught
  | .await c limit next => .await c limit fun r => (next r).caught

@[simp] theorem caught_ret (a : α) : (ret a : Async σ ε α).caught = .ret (.ok a) := rfl

@[simp] theorem caught_unwind (p : Payload) :
    (unwind p : Async σ ε α).caught = .ret (.error p) := rfl

/-- The rest of a program inside a capture that has been entered. -/
def capturedRest : Async σ ε α → Async σ ε (Except Payload α)
  | .ret a => .perform .leaveCapture fun _ => .ret (.ok a)
  | .unwind p => .perform .leaveCapture fun _ => .ret (.error p)
  | .perform o next => .perform o fun a => (next a).capturedRest
  | .await c limit next =>
      .perform .leaveCapture fun _ =>
        .await c limit fun r => .perform .enterCapture fun _ => (next r).capturedRest

/-- Runs a program inside a capture and hands over its panic as a value.  The
capture is left whenever the program waits or ends, in whichever way, and
entered again when it goes on. -/
def captured (x : Async σ ε α) : Async σ ε (Except Payload α) :=
  .perform .enterCapture fun _ => x.capturedRest

/-- Raises a panic whose site the hook gets to see. -/
def panic (p : Payload) (site : PanicSite) : Async σ ε α :=
  .perform (.hook site) fun _ => .unwind p

end Panics

end Async

end TransactionAttempts
