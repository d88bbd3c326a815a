import TransactionAttempts.Async.Basic
import TransactionAttempts.Delay

/-!
# Running a program

A program runs in a world: the course of time, the captures in progress, a
source of random numbers, the state of the surroundings, and the record of all
events, each with its instant.

* `Op.apply` carries out one operation;
* `Async.run` runs a program to its end.  Operations take no time, and a wait
  moves the clock.
-/

namespace TransactionAttempts

structure World (σ ε : Type) where
  timeline : Timeline
  capture : Capture
  /-- The random numbers, and how many of them have been drawn. -/
  source : Nat → Nat
  draws : Nat
  state : σ
  /-- The events so far, oldest first. -/
  trace : List (Instant × Event ε)

namespace World

variable {σ ε : Type}

/-- The world before anything has happened. -/
def initial (source : Nat → Nat) (state : σ) : World σ ε :=
  ⟨Timeline.start, Capture.idle, source, 0, state, []⟩

def now (w : World σ ε) : Instant := w.timeline.now

/-- Records an event at the present instant. -/
def log (w : World σ ε) (e : Event ε) : World σ ε :=
  { w with trace := w.trace ++ [(w.now, e)] }

end World

/-- The answer of an operation and the world after it. -/
def Op.apply {σ ε : Type} (w : World σ ε) : (o : Op σ ε) → o.Answer × World σ ε
  | .update f => (w.state, { w with state := f w.state })
  | .emit e => ((), w.log e)
  | .error c => (w.timeline.error c, w)
  | .deadline c => (w.timeline.deadline c, w)
  | .cancel c => ((), { w with timeline := w.timeline.cancel c })
  | .cancelLater c d =>
      ((), { w with timeline := w.timeline.schedule (Instant.afterSleep w.now d) c })
  | .create timeout =>
      (w.timeline.contexts.size,
        { w with timeline := w.timeline.create (Context.create w.now timeout) })
  | .draw bound => (pick bound (w.source w.draws), { w with draws := w.draws + 1 })
  | .enterCapture => ((), { w with capture := w.capture.enter })
  | .leaveCapture => ((), { w with capture := w.capture.leave })
  | .hook site => ((), { w with capture := w.capture.hook site })
  | .takeRecord => (w.capture.record, { w with capture := w.capture.take })

/-- How a run ended. -/
inductive Outcome (α : Type) where
  | returned (a : α)
  | unwound (p : Payload)
  /-- The program waits for something that never happens. -/
  | stalled

/-- A panic as a value. -/
def Outcome.caught {α : Type} : Outcome α → Outcome (Except Payload α)
  | .returned a => .returned (.ok a)
  | .unwound p => .returned (.error p)
  | .stalled => .stalled

/-- A request to wait, made at the given instant; its limit is a sleep. -/
def Wait.since (now : Instant) (context : Option ContextId) (limit : Option Duration) : Wait :=
  ⟨context, limit.map (Instant.afterSleep now)⟩

namespace Async

variable {σ ε α β : Type}

def run : Async σ ε α → World σ ε → Outcome α × World σ ε
  | .ret a, w => (.returned a, w)
  | .unwind p, w => (.unwound p, w)
  | .perform o next, w => (next (o.apply w).1).run (o.apply w).2
  | .await c limit next, w =>
      match w.timeline.await (Wait.since w.now c limit) with
      | some (r, t) => (next r).run { w with timeline := t }
      | none => (.stalled, w)

end Async

end TransactionAttempts
