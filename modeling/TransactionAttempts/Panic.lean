import TransactionAttempts.Failure.Basic

/-!
# Panics and their sites

A panic carries a payload up the stack.  Where it was raised is known only while
it is raised, so a hook that runs at that moment leaves a record, but only while
at least one capture is in progress.  Whoever turns the panic into a failure
takes the record out.

* `Capture` holds the number of captures in progress and the latest record;
* a payload raised again without the hook leaves no record, and an older record
  that nobody took out is then found in its place.

Main facts:

* `leave_enter`: entering and leaving a capture cancel out;
* `take_take`: a record is used once.
-/

namespace TransactionAttempts

/-- What a panic carries: a text, or something that is none. -/
inductive Payload where
  | text (s : String)
  | other
deriving DecidableEq

/-- Where a panic was raised. -/
structure PanicSite where
  location : String
  stack : String
deriving DecidableEq

/-- The captures in progress and the latest panic among them. -/
structure Capture where
  depth : Nat
  record : Option PanicSite
deriving DecidableEq

namespace Capture

def idle : Capture := ⟨0, none⟩

def enter (c : Capture) : Capture := { c with depth := c.depth + 1 }

def leave (c : Capture) : Capture := { c with depth := c.depth - 1 }

/-- What the hook does when a panic is raised. -/
def hook (c : Capture) (site : PanicSite) : Capture :=
  if c.depth > 0 then { c with record := some site } else c

/-- The capture without its record. -/
def take (c : Capture) : Capture := { c with record := none }

@[simp] theorem leave_enter (c : Capture) : c.enter.leave = c := by
  simp [enter, leave]

@[simp] theorem take_take (c : Capture) : c.take.take = c.take := rfl

theorem record_hook {c : Capture} (h : c.depth > 0) (site : PanicSite) :
    (c.hook site).record = some site := by
  simp [hook, h]

end Capture

namespace Payload

def message : Payload → String
  | .text s => s
  | .other => "unknown panic payload"

/-- The stack of a failure whose panic left no record: that of its recovery. -/
def recoveryStack : String := "recovery of a panic"

/-- The failure that a recovered panic becomes. -/
def failure (p : Payload) : Option PanicSite → Failure
  | some site => .panic p.message (some site.location) site.stack
  | none => .panic p.message none recoveryStack

end Payload

end TransactionAttempts
