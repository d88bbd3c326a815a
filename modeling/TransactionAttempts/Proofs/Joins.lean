import TransactionAttempts.Proofs.Parts

/-!
# Joining many failures

Failures that followed one another are joined pair by pair, in some order of the pairs.

**Bracketings.**  A `Bracketing` is a full binary tree whose leaves are the failures, from the
first to the last.  Each of its inner nodes is one join of two failures.

**Members.**  Lists are spliced in one level deep, on both sides of a join.  The members of a
bracketing are therefore those of its leaves, and the shape of the tree does not matter.

Main facts:

* `members_joined`: the members of a bracketing;
* `joined_eq_of_parts`: two bracketings of the same failures come to the same;
* `contains_joined`: what a search finds in a bracketing;
* `merge_concatenates`: joining is concatenation.
-/

namespace TransactionAttempts

namespace Failure

/-- An order in which failures that followed one another are joined. -/
inductive Bracketing where
  | one (e : Failure)
  | join (first later : Bracketing)

namespace Bracketing

/-- The failures, from the first to the last. -/
def parts : Bracketing → List Failure
  | one e => [e]
  | join first later => first.parts ++ later.parts

/-- How many members the failures have, all together. -/
def memberCount : Bracketing → Nat
  | one e => e.members.length
  | join first later => first.memberCount + later.memberCount

/-- What the failures come to. -/
def joined : Bracketing → Failure
  | one e => e
  | join first later => first.joined.merge (some later.joined)

theorem parts_ne_nil (b : Bracketing) : b.parts ≠ [] := by
  induction b with
  | one e => simp [parts]
  | join first later ihFirst _ => simp [parts, ihFirst]

/-- No member is lost, doubled or moved. -/
theorem members_joined (b : Bracketing) : b.joined.members = b.parts.flatMap members := by
  induction b with
  | one e => simp [joined, parts]
  | join first later ihFirst ihLater =>
      rw [joined, members_merge, ihFirst, ihLater, parts, List.flatMap_append]

theorem length_members_joined (b : Bracketing) : b.joined.members.length = b.memberCount := by
  induction b with
  | one e => simp [joined, memberCount]
  | join first later ihFirst ihLater =>
      rw [joined, members_merge, List.length_append, ihFirst, ihLater, memberCount]

/-- A join is a list, whatever it is made from. -/
theorem joined_join (first later : Bracketing) :
    (join first later).joined = .multiple ((first.parts ++ later.parts).flatMap members) := by
  rw [joined, merge_some, members_joined, members_joined, List.flatMap_append]

/-- There is one failure exactly if nothing is joined. -/
theorem length_parts_eq_one_iff (b : Bracketing) :
    b.parts.length = 1 ↔ b = one b.joined := by
  cases b with
  | one e => simp [parts, joined]
  | join first later =>
      have hfirst := List.length_pos_iff.2 first.parts_ne_nil
      have hlater := List.length_pos_iff.2 later.parts_ne_nil
      constructor
      · intro h
        rw [parts, List.length_append] at h
        omega
      · intro h
        cases h

/-- The shape of a bracketing does not matter. -/
theorem joined_eq_of_parts {b c : Bracketing} (h : b.parts = c.parts) : b.joined = c.joined := by
  cases b with
  | one e =>
      -- one failure has one bracketing only
      have hone : c.parts.length = 1 := by rw [← h, parts, List.length_singleton]
      rw [(length_parts_eq_one_iff c).1 hone] at h ⊢
      simpa [parts, joined] using h
  | join first later =>
      cases c with
      | one f =>
          have hone : (join first later).parts.length = 1 := by
            rw [h, parts, List.length_singleton]
          cases (length_parts_eq_one_iff _).1 hone
      | join first' later' =>
          rw [joined_join, joined_join]
          exact congrArg (fun es : List Failure => multiple (es.flatMap members)) h

/-- A search that fails on lists finds in a bracketing what it finds in one of its leaves. -/
theorem contains_joined {test : Failure → Bool} (hmultiple : ∀ es, test (.multiple es) = false)
    (b : Bracketing) : b.joined.contains test = b.parts.any (contains test) := by
  induction b with
  | one e => simp [joined, parts]
  | join first later ihFirst ihLater =>
      rw [joined, contains_merge hmultiple, ihFirst, ihLater, parts, List.any_append]

end Bracketing

theorem merge_assoc (e f g : Failure) :
    (e.merge (some f)).merge (some g) = e.merge (some (f.merge (some g))) := by
  simp only [merge_some, members, List.append_assoc]

/-- **Joining is concatenation.**  Without a later failure nothing changes.  With one, the
result is the list of the members of both, and it is not marked.  Joining is associative;
more than that, any bracketing of two or more failures comes to the list of all their
members, in order and each as often as before, so that its length is the sum of theirs.
A search that fails on lists succeeds in a join exactly if it succeeds in one of the
failures that were joined. -/
theorem merge_concatenates (e f g : Failure) :
    e.merge none = e ∧
    e.merge (some f) = .multiple (e.members ++ f.members) ∧
    (e.merge (some f)).isStop = false ∧
    (e.merge (some f)).merge (some g) = e.merge (some (f.merge (some g))) ∧
    (∀ b c : Bracketing, (b.join c).joined = .multiple ((b.parts ++ c.parts).flatMap members) ∧
      (b.join c).joined.members.length = (b.join c).memberCount) ∧
    (∀ b c : Bracketing, b.parts = c.parts → b.joined = c.joined) ∧
    ∀ test : Failure → Bool, (∀ es, test (.multiple es) = false) →
      ((e.merge (some f)).contains test = true ↔
        e.contains test = true ∨ f.contains test = true) ∧
      ∀ b : Bracketing, b.joined.contains test = true ↔ ∃ x ∈ b.parts, x.contains test = true := by
  refine ⟨merge_none e, merge_some e f, isStop_merge e f, merge_assoc e f g, fun b c => ⟨?_, ?_⟩,
    fun b c => Bracketing.joined_eq_of_parts, fun test hmultiple => ⟨?_, fun b => ?_⟩⟩
  · exact Bracketing.joined_join b c
  · exact Bracketing.length_members_joined (b.join c)
  · rw [contains_merge hmultiple, Bool.or_eq_true]
  · rw [Bracketing.contains_joined hmultiple, List.any_eq_true]

/-- An empty list leaves nothing behind.  A list below a mark and a list in a list stay as
they are, and a search goes into both. -/
theorem merge_concatenates_nested :
    (Failure.multiple []).merge
        (some (.multiple [.stop (.multiple [.other "a"]), .multiple [.context .canceled]])) =
      .multiple [.stop (.multiple [.other "a"]), .multiple [.context .canceled]] ∧
    ((Failure.multiple []).merge (some (.multiple
        [.stop (.multiple [.other "a"]), .multiple [.context .canceled]]))).contains isContext =
      true := by
  obtain ⟨_, hjoin, _, _, _, _, hsearch⟩ := merge_concatenates (.multiple [])
    (.multiple [.stop (.multiple [.other "a"]), .multiple [.context .canceled]]) .emptyDatabase
  exact ⟨hjoin, (hsearch isContext fun _ => rfl).1.2 (Or.inr (by decide))⟩

end Failure

end TransactionAttempts
