import TransactionAttempts.Duration

/-!
# Contexts

A context tells work to stop.  It ends when someone cancels it or when its
deadline has passed, and it never becomes live again.  Handles that were cloned
from one another share one context, so a context is kept in a table and named by
its number there; cancelling through any handle ends it for all.

**Rules.**

* A deadline has passed at the instant `now` when `deadline ≤ now`.
* Cancellation is reported in preference to a passed deadline.
* A timeout whose end does not fit the platform's instants sets no deadline.
* A sleep takes thirty years at most; a longer one ends then.  A deadline may lie
  further ahead.

Main facts:

* `Instant.afterSleep_of_le`: up to the longest, a sleep takes exactly its time;
* `Context.error_cancel`: a cancelled context reports its cancellation;
* `Contexts.error_cancel_ne`: cancelling one context leaves the others alone.
-/

namespace TransactionAttempts

/-- A position of the clock, in nanoseconds since it was started. -/
abbrev Instant := Nat

/-- The first instant that the platform cannot represent: `2^63` seconds. -/
def Instant.limit : Instant := 9223372036854775808 * 1000000000

/-- The end of a timeout that starts now, if it can be represented. -/
def Instant.after? (now : Instant) (timeout : Duration) : Option Instant :=
  if now + timeout.nanos < Instant.limit then some (now + timeout.nanos) else none

/-- The longest sleep: thirty years of 365 days. -/
def Duration.longestSleep : Duration := Duration.ofSeconds 946080000

/-- When a sleep that starts now ends. -/
def Instant.afterSleep (now : Instant) (d : Duration) : Instant :=
  now + min d.nanos Duration.longestSleep.nanos

/-- When a time limit that starts now is reached.  One that cannot be represented
ends like a sleep. -/
def Instant.afterLimit (now : Instant) (limit : Duration) : Instant :=
  (Instant.after? now limit).getD (Instant.afterSleep now limit)

theorem Instant.afterSleep_of_le (now : Instant) {d : Duration} (h : d ≤ Duration.longestSleep) :
    Instant.afterSleep now d = now + d.nanos :=
  congrArg (now + ·) (Nat.min_eq_left h)

/-- Why a context is done. -/
inductive ContextError where
  | canceled
  | deadlineExceeded
deriving DecidableEq

def ContextError.message : ContextError → String
  | .canceled => "context canceled"
  | .deadlineExceeded => "context deadline exceeded"

/-- What the handles of one context share. -/
structure Context where
  cancelled : Bool
  deadline : Option Instant
deriving DecidableEq

namespace Context

/-- A live context without a deadline. -/
def unbounded : Context := ⟨false, none⟩

/-- A live context that ends by itself after the timeout. -/
def withTimeout (now : Instant) (timeout : Duration) : Context :=
  ⟨false, Instant.after? now timeout⟩

/-- A live context, with or without a timeout. -/
def create (now : Instant) : Option Duration → Context
  | some timeout => withTimeout now timeout
  | none => unbounded

def cancel (c : Context) : Context := { c with cancelled := true }

/-- Why the context is done, or nothing while it is live. -/
def error (c : Context) (now : Instant) : Option ContextError :=
  if c.cancelled then some .canceled
  else if c.deadline.any (· ≤ now) then some .deadlineExceeded
  else none

@[simp] theorem error_cancel (c : Context) (now : Instant) :
    c.cancel.error now = some .canceled := by
  simp [cancel, error]

@[simp] theorem deadline_cancel (c : Context) : c.cancel.deadline = c.deadline := rfl

end Context

/-- The number of a context in the table. -/
abbrev ContextId := Nat

/-- All contexts ever created, in order of creation. -/
structure Contexts where
  toList : List Context

namespace Contexts

def empty : Contexts := ⟨[]⟩

/-- The number that the next created context gets. -/
def size (cs : Contexts) : Nat := cs.toList.length

def push (cs : Contexts) (c : Context) : Contexts := ⟨cs.toList ++ [c]⟩

def get? (cs : Contexts) (i : ContextId) : Option Context := cs.toList[i]?

def cancel (cs : Contexts) (i : ContextId) : Contexts := ⟨cs.toList.modify i Context.cancel⟩

def error (cs : Contexts) (now : Instant) (i : ContextId) : Option ContextError :=
  (cs.get? i).bind (·.error now)

def deadline (cs : Contexts) (i : ContextId) : Option Instant :=
  (cs.get? i).bind (·.deadline)

@[simp] theorem get?_push_size (cs : Contexts) (c : Context) :
    (cs.push c).get? cs.size = some c := by
  simp [push, get?, size]

theorem get?_cancel (cs : Contexts) (i j : ContextId) :
    (cs.cancel i).get? j = if i = j then (cs.get? j).map Context.cancel else cs.get? j := by
  simp only [cancel, get?, List.getElem?_modify]
  split <;> simp_all

theorem error_cancel_ne (cs : Contexts) (now : Instant) {i j : ContextId} (h : i ≠ j) :
    (cs.cancel i).error now j = cs.error now j := by
  simp [error, get?_cancel, h]

end Contexts

end TransactionAttempts
