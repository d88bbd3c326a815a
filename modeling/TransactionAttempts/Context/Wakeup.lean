import TransactionAttempts.Context.Basic

/-!
# Waking those who wait

How a wait for the end of a context is made of steps that others may come between.

**Waiting.**  A waiter prepares a signal, registers it, and then looks at the
context.  If it is done, the waiter returns with its error.  If it is live, the waiter
parks until its signal comes or the deadline has passed, and starts again.  The look
and the parking are two steps, and the context may end in between.

**Cancelling.**  A canceller first marks the context and then sends a signal to
every waiter that has prepared one.

* `Waiter.Turn` is what a waiter can do next;
* `Wakeup` is a context with its waiters and cancellers;
* `Wakeup.Step` is one step of one of them, or of the clock;
* `Wakeup.Reachable` holds of what steps can lead to.
-/

namespace TransactionAttempts

/-- Where a waiter stands, and whether its signal has come. -/
inductive Waiter where
  /-- It has not been called. -/
  | idle
  /-- It is at the head of its loop. -/
  | starting
  | prepared (signalled : Bool)
  | registered (signalled : Bool)
  /-- It has seen a live context. -/
  | checked (signalled : Bool)
  | parked (signalled : Bool)
  | returned (e : ContextError)
deriving DecidableEq

namespace Waiter

/-- What a signal does to a waiter: it reaches all that have prepared for it. -/
def signal : Waiter → Waiter
  | .prepared _ => .prepared true
  | .registered _ => .registered true
  | .checked _ => .checked true
  | .parked _ => .parked true
  | x => x

/-- What a waiter can do next, given the context and the clock. -/
inductive Turn (c : Context) (now : Instant) : Waiter → Waiter → Prop
  | call : Turn c now .idle .starting
  | prepare : Turn c now .starting (.prepared false)
  | register (b : Bool) : Turn c now (.prepared b) (.registered b)
  | finish (b : Bool) (e : ContextError) :
      c.error now = some e → Turn c now (.registered b) (.returned e)
  | check (b : Bool) : c.error now = none → Turn c now (.registered b) (.checked b)
  | park (b : Bool) : Turn c now (.checked b) (.parked b)
  | wake : Turn c now (.parked true) .starting
  | expire (b : Bool) (t : Instant) :
      c.deadline = some t → t ≤ now → Turn c now (.parked b) .starting

end Waiter

/-- Where a canceller stands. -/
inductive Canceller where
  | starting
  | marked
  | finished
deriving DecidableEq

/-- A context at an instant, with those who wait for its end and who cancel it. -/
structure Wakeup where
  now : Instant
  context : Context
  waiters : List Waiter
  cancellers : List Canceller

namespace Wakeup

/-- Some number of waiters and cancellers, none of which has done anything. -/
def initial (now : Instant) (context : Context) (waiters cancellers : Nat) : Wakeup :=
  ⟨now, context, List.replicate waiters .idle, List.replicate cancellers .starting⟩

def setWaiter (w : Wakeup) (i : Nat) (x : Waiter) : Wakeup :=
  { w with waiters := w.waiters.set i x }

def setCanceller (w : Wakeup) (i : Nat) (x : Canceller) : Wakeup :=
  { w with cancellers := w.cancellers.set i x }

/-- One step. -/
inductive Step : Wakeup → Wakeup → Prop
  | turn (w : Wakeup) (i : Nat) (x y : Waiter) :
      w.waiters[i]? = some x → Waiter.Turn w.context w.now x y → Step w (w.setWaiter i y)
  | mark (w : Wakeup) (i : Nat) :
      w.cancellers[i]? = some .starting →
      Step w { w.setCanceller i .marked with context := w.context.cancel }
  | notify (w : Wakeup) (i : Nat) :
      w.cancellers[i]? = some .marked →
      Step w { w.setCanceller i .finished with waiters := w.waiters.map Waiter.signal }
  | tick (w : Wakeup) (t : Instant) : w.now ≤ t → Step w { w with now := t }

/-- What steps can lead to from a given start. -/
inductive Reachable (start : Wakeup) : Wakeup → Prop
  | start : Reachable start start
  | step {v w : Wakeup} : Reachable start v → Step v w → Reachable start w

end Wakeup

end TransactionAttempts
