import TransactionAttempts.Retry

/-!
# Scripts

A script says what a call does: it sleeps, acts on data, cancels, fails, panics.
A list of scripts serves successive calls of one kind, and its last script also
serves all calls after it.

**Contexts.**  A script knows two contexts: that of the caller, which it may
cancel, and the one that was passed to the call, which it may look at.
-/

namespace TransactionAttempts

/-- One instruction, over actions `δ` on data. -/
inductive Instruction (δ : Type) where
  | sleep (d : Duration)
  | act (a : δ)
  /-- Cancels the caller's context. -/
  | cancel
  | fail (e : Failure)
  /-- Panics, with or without running the hook. -/
  | panic (p : Payload) (hooked : Bool)
  /-- Raises a panic and swallows it. -/
  | swallow
  /-- Fails if the context of the call is done. -/
  | guard
  /-- Waits for the end of the context of the call, and fails with its error. -/
  | awaitEnd

abbrev Script (δ : Type) := List (Instruction δ)

namespace Script

/-- The script of the `n`-th call, counted from one.  No script means success. -/
def forCall {δ : Type} (scripts : List (Script δ)) (n : Nat) : Script δ :=
  (scripts[n - 1]?.or scripts.getLast?).getD []

/-- Where the panics of scripts are raised. -/
def site : PanicSite := ⟨"script", "frames of the script"⟩

/-- Plays a script.  `act` carries out an action on data, which may fail. -/
def play {σ ε δ : Type} (caller given : ContextId) (act : δ → Async σ ε Result) :
    Script δ → Async σ ε Result
  | [] => return .ok ()
  | .sleep d :: rest => do
      Async.sleep d
      play caller given act rest
  | .act a :: rest => do
      match ← act a with
      | .error e => return .error e
      | .ok () => play caller given act rest
  | .cancel :: rest => do
      Async.cancel caller
      play caller given act rest
  | .fail e :: _ => return .error e
  | .panic p hooked :: _ => if hooked then Async.panic p site else .unwind p
  | .swallow :: rest => do
      Async.request (.hook site)
      play caller given act rest
  | .guard :: rest => do
      match ← Async.errorOf given with
      | some cause => return .error (.context cause)
      | none => play caller given act rest
  | .awaitEnd :: rest => do
      match ← Async.awaitEnd given none with
      | some cause => return .error (.context cause)
      | none => play caller given act rest

end Script

end TransactionAttempts
