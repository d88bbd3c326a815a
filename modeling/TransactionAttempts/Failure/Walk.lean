import TransactionAttempts.Failure.Basic

/-!
# Looking for a cause in a failure

A failure is searched from its root downwards and from left to right, and the
search ends at the first hit.  What was handed over as an error of an unknown
type (`boxed`) is not looked into, and neither are the errors of a driver and of
unknown types (`database`, `other`).

* `search` answers whether a failure holds one that satisfies a test, and on
  which failures the test was made, in order;
* `contains` is its verdict and `visited` its record;
* `outline` lists all failures that a search without a hit would visit, each
  with its depth.
-/

namespace TransactionAttempts

namespace Failure

section Search

variable (test : Failure → Bool)

mutual

def search (e : Failure) : Bool × List Failure :=
  if test e then (true, [e])
  else
    match e with
    | .beginFailed inner => (search inner).map id (e :: ·)
    | .commitFailed inner => (search inner).map id (e :: ·)
    | .rollbackFailed inner => (search inner).map id (e :: ·)
    | .stop inner => (search inner).map id (e :: ·)
    | .multiple es => (searchList es).map id (e :: ·)
    | _ => (false, [e])

def searchList : List Failure → Bool × List Failure
  | [] => (false, [])
  | e :: es =>
      match search e with
      | (true, seen) => (true, seen)
      | (false, seen) => (searchList es).map id (seen ++ ·)

end

end Search

def contains (test : Failure → Bool) (e : Failure) : Bool := (e.search test).1

def visited (test : Failure → Bool) (e : Failure) : List Failure := (e.search test).2

def isContext : Failure → Bool
  | .context _ => true
  | _ => false

/-- Some part of the failure says that a context was done. -/
def isCancellation (e : Failure) : Bool := e.contains isContext

section Outline

mutual

def outlineFrom (depth : Nat) (e : Failure) : List (Nat × Failure) :=
  (depth, e) ::
    match e with
    | .beginFailed inner => outlineFrom (depth + 1) inner
    | .commitFailed inner => outlineFrom (depth + 1) inner
    | .rollbackFailed inner => outlineFrom (depth + 1) inner
    | .stop inner => outlineFrom (depth + 1) inner
    | .multiple es => outlineList (depth + 1) es
    | _ => []

def outlineList (depth : Nat) : List Failure → List (Nat × Failure)
  | [] => []
  | e :: es => outlineFrom depth e ++ outlineList depth es

end

/-- The failure and all below it, each with its depth, parents first. -/
def outline (e : Failure) : List (Nat × Failure) := outlineFrom 0 e

end Outline

end Failure

end TransactionAttempts
