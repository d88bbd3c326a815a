import TransactionAttempts.Proofs.Searches

/-!
# What a text tells

The text of a failure is put together from the texts of all that is in it.

**Places.**  `StandsAt t s k` says that the text `t` stands in the text `s` behind `k`
characters.  Texts may be empty, and they may hold what stands between the members of a list
or around them, so a text can stand in another one at several places.

**Lists.**  The text of a list begins with the number of its members.  The text of a member has
a place of its own, behind those of all earlier members.

Main facts:

* `message_multiple_eq`: what stands before and behind the text of a member;
* `standsIn_of_part`: the text of a failure shows all its parts;
* `message_hides_nothing`: what the texts of failures, of lists and of joins show.
-/

namespace TransactionAttempts

section Places

/-- A text stands in another one, behind a number of characters. -/
def StandsAt (t s : String) (k : Nat) : Prop :=
  ∃ before after, s = before ++ t ++ after ∧ before.length = k

/-- A text stands somewhere in another one. -/
def StandsIn (t s : String) : Prop := ∃ k, StandsAt t s k

theorem standsIn_append (before t after : String) : StandsIn t (before ++ t ++ after) :=
  ⟨before.length, before, after, rfl, rfl⟩

theorem standsIn_append_left (before t : String) : StandsIn t (before ++ t) := by
  simpa using standsIn_append before t ""

theorem StandsIn.refl (t : String) : StandsIn t t := by
  simpa using standsIn_append "" t ""

theorem StandsIn.trans {t u s : String} (h : StandsIn t u) (h' : StandsIn u s) :
    StandsIn t s := by
  obtain ⟨_, before, after, rfl, _⟩ := h
  obtain ⟨_, before', after', rfl, _⟩ := h'
  have heq : before' ++ (before ++ t ++ after) ++ after' =
      (before' ++ before) ++ t ++ (after ++ after') := by
    simp only [String.append_assoc]
  rw [heq]
  exact standsIn_append _ _ _

end Places

namespace Failure

section Lists

/-- How the text of a list begins that has so many members. -/
def heading (count : Nat) : String := toString count ++ " errors occurred: ["

/-- The texts of some members with what follows each, if another member follows. -/
def lead : List Failure → String
  | [] => ""
  | e :: es => e.message ++ "; " ++ lead es

/-- How many characters of the text of a list stand before the text of a member. -/
def place (es : List Failure) (i : Nat) : Nat := (heading es.length ++ lead (es.take i)).length

theorem lead_append (es fs : List Failure) : lead (es ++ fs) = lead es ++ lead fs := by
  induction es with
  | nil => simp [lead]
  | cons e es ih => simp only [List.cons_append, lead, ih, String.append_assoc]

theorem intercalate_eq (before : List Failure) (x : Failure) (after : List Failure) :
    ∃ rest, "; ".intercalate ((before ++ x :: after).map message) =
      lead before ++ x.message ++ rest := by
  induction before with
  | nil =>
      cases after with
      | nil => exact ⟨"", by simp [lead]⟩
      | cons f after =>
          refine ⟨"; " ++ "; ".intercalate ((f :: after).map message), ?_⟩
          simp [lead, String.append_assoc]
  | cons e before ih =>
      obtain ⟨rest, hrest⟩ := ih
      refine ⟨rest, ?_⟩
      have hne : (before ++ x :: after).map message ≠ [] := by simp
      rw [List.cons_append, List.map_cons, String.intercalate_cons_of_ne_nil hne, hrest, lead]
      simp only [String.append_assoc]

/-- What stands in the text of a list before the text of a member. -/
theorem message_multiple_eq (before : List Failure) (x : Failure) (after : List Failure) :
    ∃ rest, message (.multiple (before ++ x :: after)) =
      heading (before ++ x :: after).length ++ lead before ++ x.message ++ rest := by
  obtain ⟨rest, hrest⟩ := intercalate_eq before x after
  refine ⟨rest ++ "]", ?_⟩
  rw [message_multiple, hrest, heading]
  simp only [String.append_assoc]

variable {es : List Failure} {i : Nat} {x : Failure}

theorem eq_take_append_cons (h : es[i]? = some x) : es = es.take i ++ x :: es.drop (i + 1) := by
  obtain ⟨hi, rfl⟩ := List.getElem?_eq_some_iff.1 h
  rw [List.getElem_cons_drop, List.take_append_drop]

/-- The text of a member stands at its place. -/
theorem standsAt_place (h : es[i]? = some x) :
    StandsAt x.message (message (.multiple es)) (place es i) := by
  have hes := eq_take_append_cons h
  obtain ⟨rest, hrest⟩ := message_multiple_eq (es.take i) x (es.drop (i + 1))
  rw [← hes] at hrest
  exact ⟨_, rest, hrest, rfl⟩

theorem heading_le_place (es : List Failure) (i : Nat) :
    (heading es.length).length ≤ place es i := by
  rw [place, String.length_append]
  omega

/-- A later member has its place behind the text of an earlier one. -/
theorem place_add_le {j : Nat} (hij : i < j) (h : es[i]? = some x) :
    place es i + x.message.length ≤ place es j := by
  have htake : es.take j = es.take i ++ x :: (es.take j).drop (i + 1) := by
    have hx : (es.take j)[i]? = some x := by rw [List.getElem?_take_of_lt hij, h]
    have hmin : min i j = i := Nat.min_eq_left (Nat.le_of_lt hij)
    have heq := eq_take_append_cons hx
    rwa [List.take_take, hmin] at heq
  rw [place, place, htake, lead_append, lead]
  simp only [String.length_append]
  omega

end Lists

section Parts

/-- The text of a failure shows what stands directly below it. -/
theorem standsIn_of_mem_children {x e : Failure} (h : x ∈ e.children) :
    StandsIn x.message e.message := by
  cases e with
  | beginFailed inner | commitFailed inner | rollbackFailed inner =>
      rw [List.mem_singleton.1 h]
      simp only [message_beginFailed, message_commitFailed, message_rollbackFailed]
      exact standsIn_append_left _ _
  | stop inner =>
      rw [List.mem_singleton.1 h, message_stop]
      exact .refl _
  | multiple es =>
      obtain ⟨i, hi⟩ := List.mem_iff_getElem?.1 h
      exact ⟨_, standsAt_place hi⟩
  | _ => cases h

/-- The text of a failure shows all its parts. -/
theorem standsIn_of_part {x e : Failure} (h : Part x e) : StandsIn x.message e.message := by
  induction h with
  | self => exact .refl _
  | child hmem _ ih => exact ih.trans (standsIn_of_mem_children hmem)

/-- The text of a join shows the members of both sides. -/
theorem standsIn_merge {x e f : Failure} (h : x ∈ e.members ++ f.members) :
    StandsIn x.message (e.merge (some f)).message :=
  standsIn_of_mem_children (e := .multiple (e.members ++ f.members)) h

theorem mem_members_self {e : Failure} (h : ∀ es, e ≠ .multiple es) : e ∈ e.members := by
  cases e with
  | multiple es => exact absurd rfl (h es)
  | _ => exact List.mem_singleton_self _

end Parts

/-- **Texts hide nothing.**  A search without a hit visits all nodes of a failure, and the text
of each stands in the text of the failure.  The text of a list begins with the number of its
members; then come their texts, in order and at places that do not overlap.  So the text of a
join shows the texts of both sides, and of a side that is a list those of all its members. -/
theorem message_hides_nothing (e f : Failure) (es : List Failure) :
    e.visited (fun _ => false) = e.nodes ∧
    (∀ x ∈ e.nodes, StandsIn x.message e.message) ∧
    (∃ rest, message (.multiple es) = heading es.length ++ rest) ∧
    (∀ i x, es[i]? = some x → StandsAt x.message (message (.multiple es)) (place es i) ∧
      (heading es.length).length ≤ place es i) ∧
    (∀ i j x, i < j → es[i]? = some x → place es i + x.message.length ≤ place es j) ∧
    (∀ x ∈ e.members ++ f.members, StandsIn x.message (e.merge (some f)).message) ∧
    ((∀ es, e ≠ .multiple es) → StandsIn e.message (e.merge (some f)).message) ∧
    ((∀ es, f ≠ .multiple es) → StandsIn f.message (e.merge (some f)).message) := by
  refine ⟨?_, fun x hx => ?_, ?_, fun i x hx => ⟨standsAt_place hx, heading_le_place es i⟩,
    fun i j x hij hx => place_add_le hij hx, fun x hx => standsIn_merge hx, fun he => ?_,
    fun hf => ?_⟩
  · rw [visited, search_eq]
    exact upTo_of_not_any (by simp)
  · exact standsIn_of_part ((mem_nodes_iff e).1 hx)
  · refine ⟨"; ".intercalate (es.map message) ++ "]", ?_⟩
    rw [message_multiple, heading]
    simp only [String.append_assoc]
  · exact standsIn_merge (List.mem_append_left _ (mem_members_self he))
  · exact standsIn_merge (List.mem_append_right _ (mem_members_self hf))

/-- Members whose texts look like what stands between members or behind them.  Below a wrapper
they are shown all the same, and each has its place. -/
theorem message_hides_nothing_marks :
    StandsIn (Failure.other "]").message
      (commitFailed (.multiple [.other "; ", .stop (.other "]")])).message ∧
    StandsAt (stop (.other "]")).message (message (.multiple [.other "; ", .stop (.other "]")]))
      24 ∧
    StandsIn (Failure.other "; ").message
      ((Failure.other "; ").merge (some (.multiple [.other ""]))).message := by
  have hplace : place [.other "; ", .stop (.other "]")] 1 = 24 := by decide
  obtain ⟨_, hnodes, _⟩ :=
    message_hides_nothing (commitFailed (.multiple [.other "; ", .stop (.other "]")])) default []
  obtain ⟨_, _, _, hplaces, _, _, hjoin, _⟩ := message_hides_nothing (.other "; ")
    (.multiple [.other ""]) [.other "; ", .stop (.other "]")]
  refine ⟨hnodes _ ?_, hplace ▸ (hplaces 1 _ rfl).1, hjoin (by simp)⟩
  simp [nodes_eq, children]

end Failure

end TransactionAttempts
