import TransactionAttempts.Proofs.Parts

/-!
# Marks

A mark at the root of a failure says that retrying is pointless.  `asStop` sets a mark only
where there is none, but a failure can also be put together by hand, with any number of marks
on top of one another.

**Towers.**  Every failure is a tower of marks over a failure that has none at its root, and
in one way only.  `cause` goes down the whole tower, `asStop` looks at its top.

**What a mark does not change.**  What is the same for a failure with a mark and without it is
the same for the whole tower, so it does not matter how many marks are set or taken off.  The
text of a failure is of this kind, and so is the verdict of a search that fails on marks.

Main facts:

* `eq_tower_iff`: the tower that a failure is;
* `tower_eq`, `asStop_eq`, `cause_eq`: what one mark does not change, no number of them does;
* `marks_only_mark`: the algebra of marks.
-/

namespace TransactionAttempts

namespace Failure

section Towers

/-- The failure under a number of marks. -/
def tower (e : Failure) : Nat → Failure
  | 0 => e
  | n + 1 => .stop (e.tower n)

/-- How many marks there are at the root. -/
def height : Failure → Nat
  | .stop inner => inner.height + 1
  | _ => 0

@[simp] theorem cause_tower (e : Failure) (n : Nat) : (e.tower n).cause = e.cause := by
  induction n with
  | zero => rfl
  | succ n ih => exact ih

@[simp] theorem height_tower (e : Failure) (n : Nat) : (e.tower n).height = e.height + n := by
  induction n with
  | zero => rfl
  | succ n ih => exact congrArg (· + 1) ih

theorem height_eq_zero_iff {e : Failure} : e.height = 0 ↔ e.isStop = false := by
  cases e <;> simp [height, isStop]

theorem tower_height_cause : (e : Failure) → e.cause.tower e.height = e
  | .stop inner => congrArg stop (tower_height_cause inner)
  | .emptyDatabase | .beginFailed _ | .commitFailed _ | .rollbackFailed _ | .panic _ _ _
  | .context _ | .database _ | .other _ | .boxed _ | .multiple _ => rfl

/-- A failure is in one way only a tower of marks over one that has none at its root. -/
theorem eq_tower_iff {e f : Failure} {n : Nat} (hf : f.isStop = false) :
    e = f.tower n ↔ f = e.cause ∧ n = e.height := by
  constructor
  · rintro rfl
    rw [cause_tower, height_tower, cause_eq_self hf, height_eq_zero_iff.2 hf, Nat.zero_add]
    exact ⟨rfl, rfl⟩
  · rintro ⟨rfl, rfl⟩
    exact (tower_height_cause e).symm

/-- Marking a failure sets the only mark, or does nothing. -/
theorem asStop_eq_tower (e : Failure) : e.asStop = e.cause.tower (max 1 e.height) := by
  cases hs : e.isStop with
  | true =>
      cases e with
      | stop inner =>
          have hmax : max 1 (stop inner).height = (stop inner).height := by
            rw [height]
            omega
          rw [hmax, tower_height_cause]
          rfl
      | _ => cases hs
  | false =>
      rw [height_eq_zero_iff.2 hs, cause_eq_self hs]
      exact asStop_eq_stop hs

end Towers

section Invariance

variable {β : Type} {g : Failure → β}

theorem tower_eq (h : ∀ e, g (.stop e) = g e) (e : Failure) (n : Nat) : g (e.tower n) = g e := by
  induction n with
  | zero => rfl
  | succ n ih => exact (h _).trans ih

theorem cause_eq (h : ∀ e, g (.stop e) = g e) (e : Failure) : g e.cause = g e := by
  rw [← tower_eq h e.cause e.height, tower_height_cause]

theorem asStop_eq (h : ∀ e, g (.stop e) = g e) (e : Failure) : g e.asStop = g e := by
  rw [asStop_eq_tower, tower_eq h, cause_eq h]

end Invariance

/-- **The algebra of marks.**  A marked failure is marked, marking it again changes nothing, and
what is left when all marks are taken off has none; it is the failure itself if that had none.
Of all failures without a mark, a failure is a tower of marks over its cause only, and any tower
over it has the same cause.  Marks change neither the text of a failure nor what a search finds
in it that fails on marks; so a failure is a cancellation whether it is marked or not. -/
theorem marks_only_mark (e : Failure) :
    e.asStop.isStop = true ∧ e.asStop.asStop = e.asStop ∧
    e.cause.isStop = false ∧ e.cause.cause = e.cause ∧
    e.asStop.cause = e.cause ∧ (e.isStop = false → e.cause = e) ∧
    (∀ f : Failure, f.isStop = false → ((∃ n, e = f.tower n) ↔ f = e.cause)) ∧
    (∀ n, (e.tower n).cause = e.cause) ∧
    (e.asStop.message = e.message ∧ e.cause.message = e.message) ∧
    (∀ test : Failure → Bool, (∀ x, test (.stop x) = false) →
      e.asStop.contains test = e.contains test ∧ e.cause.contains test = e.contains test) ∧
    e.asStop.isCancellation = e.isCancellation ∧ e.cause.isCancellation = e.isCancellation := by
  have hcause := isStop_cause e
  refine ⟨isStop_asStop e, asStop_asStop e, hcause, cause_eq_self hcause, cause_asStop e,
    cause_eq_self, fun f hf => ⟨?_, ?_⟩, cause_tower e,
    ⟨asStop_eq message_stop e, cause_eq message_stop e⟩, fun test hstop => ?_, ?_, ?_⟩
  · rintro ⟨n, h⟩
    exact ((eq_tower_iff hf).1 h).1
  · intro h
    exact ⟨e.height, (eq_tower_iff hf).2 ⟨h, rfl⟩⟩
  · exact ⟨asStop_eq (contains_stop hstop) e, contains_cause hstop e⟩
  · exact asStop_eq (contains_stop fun _ => rfl) e
  · exact contains_cause (fun _ => rfl) e

/-- Three marks that were set by hand are all taken off, and the cancellation below them is
found before and after. -/
theorem marks_only_mark_three :
    (∀ x, isContext (.stop x) = false) ∧
    (Failure.rollbackFailed (.context .canceled)).isStop = false ∧
    (Failure.rollbackFailed (.context .canceled)).cause = .rollbackFailed (.context .canceled) ∧
    ((Failure.rollbackFailed (.context .canceled)).tower 3).cause =
      .rollbackFailed (.context .canceled) ∧
    ((Failure.rollbackFailed (.context .canceled)).tower 3).cause.contains isContext =
      ((Failure.rollbackFailed (.context .canceled)).tower 3).contains isContext := by
  obtain ⟨_, _, _, _, _, hself, _⟩ := marks_only_mark (.rollbackFailed (.context .canceled))
  obtain ⟨_, _, _, _, _, _, hcause, _, _, hcontains, _⟩ :=
    marks_only_mark ((Failure.rollbackFailed (.context .canceled)).tower 3)
  exact ⟨fun _ => rfl, rfl, hself rfl, ((hcause _ rfl).1 ⟨3, rfl⟩).symm,
    (hcontains isContext fun _ => rfl).2⟩

end Failure

end TransactionAttempts
