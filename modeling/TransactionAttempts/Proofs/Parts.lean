import TransactionAttempts.Failure.Walk

/-!
# The parts of a failure

A failure holds itself, what stands below a wrapper, and the members of a list.  What
was handed over as an error of an unknown type is not opened.

A search succeeds exactly if some part passes its test.  A test for causes fails on
marks and on lists; it finds the same in a failure whether it is marked or not, and in
a join what it finds on either side.

Main facts:

* `contains_iff`: a search succeeds exactly if there is a part to be found;
* `contains_cause`: marks at the root hide nothing;
* `contains_merge`: a join holds what its two sides hold, and nothing else;
* `isCancellation_iff`: a failure is a cancellation if an error of a context is a part of it.
-/

namespace TransactionAttempts

namespace Failure

/-- The failures directly below this one. -/
def children : Failure → List Failure
  | .beginFailed inner => [inner]
  | .commitFailed inner => [inner]
  | .rollbackFailed inner => [inner]
  | .stop inner => [inner]
  | .multiple es => es
  | _ => []

/-- The first failure is the second one or stands below it, at any depth. -/
inductive Part (x : Failure) : Failure → Prop
  | self : Part x x
  | child {y e : Failure} : y ∈ e.children → Part x y → Part x e

section Induction

theorem sizeOf_lt_of_mem_children {x e : Failure} (h : x ∈ e.children) :
    sizeOf x < sizeOf e := by
  cases e with
  | multiple es =>
      have hlt : sizeOf x < sizeOf es := List.sizeOf_lt_of_mem h
      rw [multiple.sizeOf_spec]
      omega
  | beginFailed _ | commitFailed _ | rollbackFailed _ | stop _ =>
      rw [List.mem_singleton.1 h]
      simp
  | _ => cases h

/-- What holds of a failure if it holds of all directly below it holds of every failure. -/
theorem children_induction {motive : Failure → Prop}
    (step : ∀ e : Failure, (∀ x ∈ e.children, motive x) → motive e) (e : Failure) : motive e :=
  step e fun x hx =>
    have := sizeOf_lt_of_mem_children hx
    children_induction step x
termination_by sizeOf e

end Induction

section Searching

variable {test : Failure → Bool}

theorem searchList_fst (es : List Failure) :
    (searchList test es).1 = es.any (contains test) := by
  induction es with
  | nil => rfl
  | cons e es ih =>
      simp only [searchList, List.any_cons, contains]
      split
      · rename_i h
        simp [h]
      · rename_i h
        simp only [h, Bool.false_or, Prod.map_fst, id]
        exact ih

/-- A search looks at the root, and then at all that is directly below it. -/
theorem contains_eq (e : Failure) :
    e.contains test = (test e || e.children.any (contains test)) := by
  cases ht : test e with
  | true =>
      unfold contains search
      simp [ht]
  | false =>
      have hlist := @searchList_fst test
      show (search test e).1 = _
      unfold search
      cases e <;> simp [ht, children, hlist, contains]

/-- A search succeeds exactly if some part passes the test. -/
theorem contains_iff (e : Failure) : e.contains test = true ↔ ∃ x, Part x e ∧ test x = true := by
  induction e using children_induction with
  | step e ih =>
      rw [contains_eq, Bool.or_eq_true, List.any_eq_true]
      constructor
      · rintro (he | ⟨y, hy, hc⟩)
        · exact ⟨e, .self, he⟩
        · obtain ⟨x, hx, ht⟩ := (ih y hy).1 hc
          exact ⟨x, .child hy hx, ht⟩
      · rintro ⟨x, hx, ht⟩
        cases hx with
        | self => exact Or.inl ht
        | child hy hx => exact Or.inr ⟨_, hy, (ih _ hy).2 ⟨x, hx, ht⟩⟩

theorem isCancellation_iff (e : Failure) :
    e.isCancellation = true ↔ ∃ c, Part (.context c) e := by
  rw [isCancellation, contains_iff]
  constructor
  · rintro ⟨x, hx, hc⟩
    cases x with
    | context c => exact ⟨c, hx⟩
    | _ => cases hc
  · rintro ⟨c, hc⟩
    exact ⟨_, hc, rfl⟩

end Searching

section Causes

variable {test : Failure → Bool}

theorem contains_stop (hstop : ∀ e, test (.stop e) = false) (e : Failure) :
    contains test (.stop e) = e.contains test := by
  rw [contains_eq, hstop]
  simp [children]

/-- Marks hide nothing from a test that fails on them. -/
theorem contains_cause (hstop : ∀ e, test (.stop e) = false) :
    (e : Failure) → e.cause.contains test = e.contains test
  | .stop inner => (contains_cause hstop inner).trans (contains_stop hstop inner).symm
  | .emptyDatabase | .beginFailed _ | .commitFailed _ | .rollbackFailed _ | .panic _ _ _
  | .context _ | .database _ | .other _ | .boxed _ | .multiple _ => rfl

/-- A failure holds what its members hold. -/
theorem contains_members (hmultiple : ∀ es, test (.multiple es) = false) (e : Failure) :
    e.contains test = e.members.any (contains test) := by
  cases e with
  | multiple es =>
      rw [contains_eq, hmultiple]
      rfl
  | _ => simp [members]

/-- A join holds what its two sides hold, and nothing else. -/
theorem contains_merge (hmultiple : ∀ es, test (.multiple es) = false) (e f : Failure) :
    (e.merge (some f)).contains test = (e.contains test || f.contains test) := by
  rw [contains_members hmultiple, members_merge, List.any_append,
    ← contains_members hmultiple, ← contains_members hmultiple]

end Causes

section Joins

/-- A join is never one of its sides. -/
theorem merge_ne_self (e f : Failure) (hf : f.members ≠ []) : e.merge (some f) ≠ e := by
  intro h
  have hlen := congrArg (List.length ∘ members) h
  have hpos := List.length_pos_iff.2 hf
  simp only [Function.comp, members_merge, List.length_append] at hlen
  omega

/-- What was joined with an error of a context is a cancellation. -/
theorem isCancellation_merge_context (e : Failure) (c : ContextError) :
    (e.merge (some (.context c))).isCancellation = true := by
  rw [isCancellation, contains_merge fun _ => rfl]
  exact Bool.or_eq_true_iff.2 (Or.inr rfl)

end Joins

end Failure

end TransactionAttempts
