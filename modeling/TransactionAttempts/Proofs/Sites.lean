import TransactionAttempts.Proofs.Attempts
import TransactionAttempts.Proofs.Parts

/-!
# Failures without the sites of their panics

A panic that has become a failure says where it was raised.  Nothing that is decided about a
failure depends on that: not whether it is final, not whether it holds the error of a context,
and not how it is joined with another one.

* `Failure.siteless`: the failure without all sites, also those of what was handed over as an
  error of an unknown type or stands on the chain of sources of such an error;
* `SameAnswer`: answers that differ in sites alone.

Main facts:

* `isStop_siteless`, `isCancellation_siteless`: what is decided about a failure;
* `merge_siteless`, `abandoned_siteless`: how failures are joined.
-/

namespace TransactionAttempts

section Sites

mutual

/-- The failure without the sites of its panics. -/
def Failure.siteless : Failure → Failure
  | .emptyDatabase => .emptyDatabase
  | .beginFailed inner => .beginFailed inner.siteless
  | .commitFailed inner => .commitFailed inner.siteless
  | .rollbackFailed inner => .rollbackFailed inner.siteless
  | .panic message _ _ => .panic message none ""
  | .context error => .context error
  | .database error => .database error.siteless
  | .other error => .other error.siteless
  | .boxed inner => .boxed inner.siteless
  | .multiple es => .multiple (Failure.sitelessList es)
  | .stop inner => .stop inner.siteless

def Failure.sitelessList : List Failure → List Failure
  | [] => []
  | e :: es => e.siteless :: Failure.sitelessList es

def DriverError.siteless : DriverError → DriverError
  | .configuration error => .configuration error.siteless
  | .refused error => .refused error.siteless
  | .further error => .further error.siteless
  | e => e

def ForeignError.siteless : ForeignError → ForeignError
  | .plain text => .plain text
  | .above text source => .above text source.siteless
  | .holding text inner => .holding text inner.siteless

end

namespace Failure

theorem sitelessList_eq_map (es : List Failure) : sitelessList es = es.map siteless := by
  induction es with
  | nil => rfl
  | cons e es ih => simp only [sitelessList, List.map_cons, ih]

theorem siteless_multiple (es : List Failure) :
    (multiple es).siteless = .multiple (es.map siteless) := by
  rw [siteless, sitelessList_eq_map]

theorem siteless_failure (p : Payload) (site : Option PanicSite) :
    (p.failure site).siteless = .panic p.message none "" := by
  cases site <;> rfl

end Failure

end Sites

namespace Failure

section Decisions

@[simp] theorem isStop_siteless (e : Failure) : e.siteless.isStop = e.isStop := by
  cases e <;> rfl

theorem children_siteless (e : Failure) : e.siteless.children = e.children.map siteless := by
  cases e with
  | multiple es => rw [siteless_multiple]; rfl
  | _ => rfl

theorem isContext_siteless (e : Failure) : e.siteless.isContext = e.isContext := by
  cases e <;> rfl

@[simp] theorem isCancellation_siteless (e : Failure) :
    e.siteless.isCancellation = e.isCancellation := by
  induction e using children_induction with
  | step e ih =>
      have hany : e.children.any (contains isContext ∘ siteless) =
          e.children.any (contains isContext) := by
        rw [Bool.eq_iff_iff, List.any_eq_true, List.any_eq_true]
        exact exists_congr fun x => and_congr_right fun hx => Bool.eq_iff_iff.1 (ih x hx)
      rw [isCancellation, isCancellation, contains_eq, contains_eq, isContext_siteless,
        children_siteless, List.any_map, hany]

end Decisions

section Joins

theorem cause_siteless : (e : Failure) → e.siteless.cause = e.cause.siteless
  | .stop inner => cause_siteless inner
  | .emptyDatabase | .beginFailed _ | .commitFailed _ | .rollbackFailed _ | .panic _ _ _
  | .context _ | .database _ | .other _ | .boxed _ | .multiple _ => rfl

theorem asStop_siteless (e : Failure) : e.siteless.asStop = e.asStop.siteless := by
  cases e <;> rfl

theorem members_siteless (e : Failure) : e.siteless.members = e.members.map siteless := by
  cases e with
  | multiple es => rw [siteless_multiple]; rfl
  | _ => rfl

theorem merge_siteless (e : Failure) (later : Option Failure) :
    e.siteless.merge (later.map siteless) = (e.merge later).siteless := by
  cases later with
  | none => rfl
  | some f =>
      rw [Option.map_some, merge_some, merge_some, siteless_multiple, List.map_append,
        members_siteless, members_siteless]

theorem abandoned_siteless (e : Failure) (later : Option Failure) :
    e.siteless.abandoned (later.map siteless) = (e.abandoned later).siteless := by
  unfold abandoned
  rw [isStop_siteless, isCancellation_siteless, cause_siteless, merge_siteless]
  split
  · exact asStop_siteless _
  · rfl

end Joins

end Failure

/-- The answers are the same up to the sites of panics. -/
inductive SameAnswer {β : Type} : Except Failure β → Except Failure β → Prop
  | ok (b : β) : SameAnswer (.ok b) (.ok b)
  | error {e e' : Failure} : e.siteless = e'.siteless → SameAnswer (.error e) (.error e')

theorem SameAnswer.refl {β : Type} (r : Except Failure β) : SameAnswer r r := by
  cases r with
  | ok b => exact .ok b
  | error e => exact .error rfl

theorem SameAnswer.mapError_eq {β : Type} {r r' : Except Failure β} (h : SameAnswer r r') :
    r.mapError Failure.siteless = r'.mapError Failure.siteless := by
  cases h with
  | ok b => rfl
  | error he => exact congrArg Except.error he

def Notice.siteless : Notice → Notice
  | .rollbackFailed k e => .rollbackFailed k e.siteless
  | .stepPanicked k i e => .stepPanicked k i e.siteless
  | .givingUp k e => .givingUp k e.siteless
  | .retrying k n wait e => .retrying k n wait e.siteless
  | n => n

def Event.siteless {ε : Type} : Event ε → Event ε
  | .notice n => .notice n.siteless
  | e => e

end TransactionAttempts
