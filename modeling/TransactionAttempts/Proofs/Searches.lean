import Mathlib.Data.List.Basic
import TransactionAttempts.Proofs.Parts

/-!
# The order of a search

A failure has an outline, in which parents stand before what is below them and siblings
from left to right.  A search follows the outline and ends at the first hit.

**Nodes.**  `nodes` are the failures of the outline without their depths.  The nodes of a
failure are the failure itself and then, one after the other, the nodes of its children.

**Steps.**  A search of some siblings is a search of their nodes in one row: where it has a
hit in an earlier sibling it does not come to the later ones, and where it has none the
record of the earlier sibling is complete.

Main facts:

* `nodes_eq`: the nodes of a failure from those of its children;
* `mem_nodes_iff`: the nodes are the parts;
* `search_eq`: the verdict and the record of a search, read off the nodes;
* `search_in_order`: what a search answers, and on which failures it makes its test.
-/

namespace TransactionAttempts

namespace Failure

section Nodes

/-- The failure and all below it, parents first and siblings in order. -/
def nodes (e : Failure) : List Failure := e.outline.map Prod.snd

theorem outlineList_eq (depth : Nat) (es : List Failure) :
    outlineList depth es = es.flatMap (outlineFrom depth) := by
  induction es with
  | nil => rfl
  | cons e es ih => rw [outlineList, ih, List.flatMap_cons]

theorem outlineFrom_eq (depth : Nat) (e : Failure) :
    outlineFrom depth e = (depth, e) :: e.children.flatMap (outlineFrom (depth + 1)) := by
  cases e with
  | multiple es => rw [outlineFrom, outlineList_eq, children]
  | _ => simp [outlineFrom, children]

/-- If each of some failures has its nodes in its outline, so have they in one row. -/
theorem map_snd_flatMap {es : List Failure}
    (h : ∀ x ∈ es, ∀ depth, (outlineFrom depth x).map Prod.snd = x.nodes) (depth : Nat) :
    (es.flatMap (outlineFrom depth)).map Prod.snd = es.flatMap nodes := by
  rw [List.map_flatMap]
  exact List.flatMap_congr fun x hx => h x hx depth

/-- The failures of an outline do not depend on the depth that it begins at. -/
theorem map_snd_outlineFrom (e : Failure) :
    ∀ depth, (outlineFrom depth e).map Prod.snd = e.nodes := by
  induction e using children_induction with
  | step e ih =>
      intro depth
      rw [nodes, outline, outlineFrom_eq, outlineFrom_eq, List.map_cons, List.map_cons,
        map_snd_flatMap ih, map_snd_flatMap ih]

theorem nodes_eq (e : Failure) : e.nodes = e :: e.children.flatMap nodes := by
  rw [nodes, outline, outlineFrom_eq, List.map_cons,
    map_snd_flatMap fun x _ => map_snd_outlineFrom x]

/-- The nodes of a failure are its parts. -/
theorem mem_nodes_iff {x : Failure} (e : Failure) : x ∈ e.nodes ↔ Part x e := by
  induction e using children_induction with
  | step e ih =>
      rw [nodes_eq, List.mem_cons, List.mem_flatMap]
      constructor
      · rintro (rfl | ⟨y, hy, hx⟩)
        · exact .self
        · exact .child hy ((ih y hy).1 hx)
      · intro h
        cases h with
        | self => exact Or.inl rfl
        | child hy hx => exact Or.inr ⟨_, hy, (ih _ hy).2 hx⟩

end Nodes

section Search

variable {test : Failure → Bool}

/-- The failures up to the first that passes the test, with that one, or all if none does. -/
def upTo (test : Failure → Bool) (es : List Failure) : List Failure :=
  es.take (es.findIdx test + 1)

theorem upTo_cons (e : Failure) (es : List Failure) :
    upTo test (e :: es) = if test e then [e] else e :: upTo test es := by
  unfold upTo
  rw [List.findIdx_cons]
  cases test e <;> simp

/-- With a hit on the left the right side is not come to. -/
theorem upTo_append_of_any {es : List Failure} (h : es.any test = true) (fs : List Failure) :
    upTo test (es ++ fs) = upTo test es := by
  induction es with
  | nil => cases h
  | cons e es ih =>
      rw [List.cons_append, upTo_cons, upTo_cons]
      cases he : test e with
      | true => rfl
      | false =>
          rw [List.any_cons, he, Bool.false_or] at h
          simp [ih h]

/-- Without a hit on the left all of it is passed. -/
theorem upTo_append_of_not_any {es : List Failure} (h : es.any test = false)
    (fs : List Failure) : upTo test (es ++ fs) = es ++ upTo test fs := by
  induction es with
  | nil => rfl
  | cons e es ih =>
      rw [List.any_cons, Bool.or_eq_false_iff] at h
      rw [List.cons_append, upTo_cons, h.1, ih h.2]
      simp

theorem upTo_of_not_any {es : List Failure} (h : es.any test = false) : upTo test es = es := by
  have happend := upTo_append_of_not_any h []
  rw [List.append_nil] at happend
  rw [happend]
  exact List.append_nil es

/-- A search looks at the root first, and then at the children as at a list. -/
theorem search_children (e : Failure) :
    search test e =
      if test e then (true, [e]) else (searchList test e.children).map id (e :: ·) := by
  -- a list of one is searched like the one
  have hone : ∀ inner, searchList test [inner] = search test inner := by
    intro inner
    rw [searchList]
    rcases search test inner with ⟨_ | _, seen⟩ <;> simp [searchList]
  cases e with
  | beginFailed inner | commitFailed inner | rollbackFailed inner | stop inner =>
      rw [search, children, hone]
  | multiple es => rw [search, children]
  | _ => simp [search, children, searchList]

/-- If each of some failures is searched in the order of its nodes, so is their list. -/
theorem searchList_eq {es : List Failure}
    (h : ∀ x ∈ es, search test x = (x.nodes.any test, upTo test x.nodes)) :
    searchList test es = ((es.flatMap nodes).any test, upTo test (es.flatMap nodes)) := by
  induction es with
  | nil => rfl
  | cons e es ih =>
      have hrest := ih fun x hx => h x (List.mem_cons_of_mem e hx)
      rw [searchList, h e List.mem_cons_self, hrest, List.flatMap_cons, List.any_append]
      cases he : e.nodes.any test with
      | true =>
          rw [upTo_append_of_any he]
          rfl
      | false =>
          rw [upTo_append_of_not_any he, upTo_of_not_any he]
          rfl

/-- A search goes through the nodes and ends at the first hit. -/
theorem search_eq (e : Failure) : search test e = (e.nodes.any test, upTo test e.nodes) := by
  induction e using children_induction with
  | step e ih =>
      rw [search_children, searchList_eq ih, nodes_eq, List.any_cons, upTo_cons]
      cases test e <;> rfl

/-- **The order of a search.**  The nodes of a failure are the failure and then, in order,
the nodes of its children.  A search succeeds exactly if one of them passes the test.  It
makes the test on the nodes from the first on, on each once, up to the first that passes
and with that one; on all if none does.  A failure is a cancellation exactly if one of its
nodes is an error of a context. -/
theorem search_in_order (test : Failure → Bool) (e : Failure) :
    e.nodes = e :: e.children.flatMap nodes ∧
    (e.contains test = true ↔ ∃ x ∈ e.nodes, test x = true) ∧
    ((∀ x ∈ e.nodes, test x = false) → e.visited test = e.nodes) ∧
    (∀ before x after, e.nodes = before ++ x :: after → (∀ y ∈ before, test y = false) →
      test x = true → e.visited test = before ++ [x]) ∧
    (e.isCancellation = true ↔ ∃ c, .context c ∈ e.nodes) := by
  have hvisited : e.visited test = upTo test e.nodes := congrArg Prod.snd (search_eq e)
  refine ⟨nodes_eq e, ?_, fun hnone => ?_, fun before x after hsplit hbefore hx => ?_, ?_⟩
  · rw [contains, search_eq, List.any_eq_true]
  · have hany : e.nodes.any test = false := by simpa using hnone
    rw [hvisited, upTo_of_not_any hany]
  · have hany : before.any test = false := by simpa using hbefore
    rw [hvisited, hsplit, upTo_append_of_not_any hany, upTo_cons, hx]
    rfl
  · simp only [isCancellation_iff, mem_nodes_iff]

/-- A hit in the second member of a list ends the search before the third one. -/
theorem search_in_order_second :
    (Failure.multiple [.beginFailed (.other "a"), .stop (.context .canceled),
        .context .deadlineExceeded]).visited isContext =
      [.multiple [.beginFailed (.other "a"), .stop (.context .canceled),
          .context .deadlineExceeded], .beginFailed (.other "a"), .other "a",
        .stop (.context .canceled), .context .canceled] := by
  refine (search_in_order isContext _).2.2.2.1 [_, _, _, _] (.context .canceled)
    [.context .deadlineExceeded] rfl ?_ rfl
  simp [isContext]

end Search

end Failure

end TransactionAttempts
