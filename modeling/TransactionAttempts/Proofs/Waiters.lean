import TransactionAttempts.Proofs.Histories
import TransactionAttempts.Proofs.Wakeups

/-!
# When a wait for the end of a context is over

A task that waits for the end of a context sees it at the first position of the clock, from
its call on, at which the context is done.  When the clock jumps over a deadline and a
cancellation, they happen in their order at its new position, and so the task sees the
earlier one.

**The error.**  The task sees a cancellation that had happened before its call, or that
comes no later than the deadline.  It sees the deadline if that comes no later than every
cancellation.

Main facts:

* `Waits.foldl_visit`: what a waiting task sees at the positions of an action;
* `resolved_call`, `resolved_step`: one action keeps what is known of a wait;
* `wait_resolved`: waits in the background and in the foreground.
-/

namespace TransactionAttempts

namespace Handles

variable {acts : List HandleAction} {a : HandleAction} {i : ContextId} {u : Instant}

section Tasks

variable {s : Handles} {task : String} {error : ContextId → Option ContextError} {now : Instant}
  {l : List (String × ContextId)} {done : List (String × ContextError × Instant)}

theorem note_of_none {x : String × ContextId} (h : error x.2 = none) :
    note error now done x = done := by
  simp [note, h]

theorem note_of_some {x : String × ContextId} {e : ContextError} (h : error x.2 = some e) :
    note error now done x = enter x.1 (e, now) done := by
  simp [note, h]

theorem lookup_note_ne {x : String × ContextId} (h : task ≠ x.1) :
    (note error now done x).lookup task = done.lookup task := by
  cases he : error x.2 with
  | none => rw [note_of_none he]
  | some e => rw [note_of_some he, lookup_enter_ne h]

/-- A name keeps its record while none of its waits ends. -/
theorem lookup_foldl_note_of_none (h : ∀ j, (task, j) ∈ l → error j = none) :
    (l.foldl (note error now) done).lookup task = done.lookup task := by
  induction l generalizing done with
  | nil => rfl
  | cons x l ih =>
      rw [List.foldl_cons, ih fun j hj => h j (List.mem_cons_of_mem _ hj)]
      by_cases hx : task = x.1
      · rw [note_of_none (h x.2 (by simp [hx]))]
      · exact lookup_note_ne hx

/-- A name gets a record when its only wait ends. -/
theorem lookup_foldl_note_of_some {e : ContextError} (hi : (task, i) ∈ l)
    (honly : ∀ j, (task, j) ∈ l → j = i) (he : error i = some e) :
    (l.foldl (note error now) done).lookup task = some (e, now) := by
  induction l generalizing done with
  | nil => cases hi
  | cons x l ih =>
      have hrest : ∀ j, (task, j) ∈ l → j = i := fun j hj => honly j (List.mem_cons_of_mem _ hj)
      rw [List.foldl_cons]
      by_cases hmem : (task, i) ∈ l
      · exact ih hmem hrest
      · have hnone : ∀ j, (task, j) ∈ l → error j = none := fun j hj =>
          absurd (hrest j hj ▸ hj) hmem
        obtain rfl : (task, i) = x := (List.mem_cons.1 hi).resolve_right hmem
        rw [lookup_foldl_note_of_none hnone, note_of_some he, lookup_enter]

/-- No task of that name has been called. -/
structure Free (s : Handles) (task : String) : Prop where
  unlisted : ∀ j, (task, j) ∉ s.waiting
  unfinished : s.finished.lookup task = none

/-- A task waits for the end of a context. -/
structure Waits (s : Handles) (task : String) (i : ContextId) : Prop where
  listed : (task, i) ∈ s.waiting
  only : ∀ j, (task, j) ∈ s.waiting → j = i
  unfinished : s.finished.lookup task = none

/-- A task has seen the end of its context. -/
structure Has (s : Handles) (task : String) (e : ContextError) (t : Instant) : Prop where
  unlisted : ∀ j, (task, j) ∉ s.waiting
  finished : s.finished.lookup task = some (e, t)

variable {v : Instant × Instant} {vs : List (Instant × Instant)} {e : ContextError} {t : Instant}

theorem Free.visit (h : s.Free task) (v : Instant × Instant) : (s.visit v).Free task where
  unlisted j hj := h.unlisted j (List.mem_filter.1 hj).1
  unfinished := by
    rw [finished_visit, lookup_foldl_note_of_none fun j hj => absurd hj (h.unlisted j)]
    exact h.unfinished

theorem Has.visit (h : s.Has task e t) (v : Instant × Instant) : (s.visit v).Has task e t where
  unlisted j hj := h.unlisted j (List.mem_filter.1 hj).1
  finished := by
    rw [finished_visit, lookup_foldl_note_of_none fun j hj => absurd hj (h.unlisted j)]
    exact h.finished

theorem Waits.visit_of_none (h : s.Waits task i) (hv : s.foreseen i v.1 = none) :
    (s.visit v).Waits task i where
  listed := List.mem_filter.2 ⟨h.listed, Option.isNone_iff_eq_none.2 hv⟩
  only j hj := h.only j (List.mem_filter.1 hj).1
  unfinished := by
    rw [finished_visit, lookup_foldl_note_of_none fun j hj => h.only j hj ▸ hv]
    exact h.unfinished

theorem Waits.visit_of_some (h : s.Waits task i) (hv : s.foreseen i v.1 = some e) :
    (s.visit v).Has task e v.2 where
  unlisted j hj := by
    obtain ⟨hmem, hnone⟩ := List.mem_filter.1 hj
    obtain rfl := h.only j hmem
    exact absurd (hv.symm.trans (Option.isNone_iff_eq_none.1 hnone)) (by simp)
  finished := by
    rw [finished_visit]
    exact lookup_foldl_note_of_some h.listed h.only hv

theorem Free.foldl_visit (h : s.Free task) : (vs.foldl Handles.visit s).Free task := by
  induction vs generalizing s with
  | nil => exact h
  | cons v vs ih => exact ih (h.visit v)

theorem Has.foldl_visit (h : s.Has task e t) : (vs.foldl Handles.visit s).Has task e t := by
  induction vs generalizing s with
  | nil => exact h
  | cons v vs ih => exact ih (h.visit v)

/-- Along sorted positions, a waiting task sees the end of its context at the first one
that the end is due at. -/
theorem Waits.foldl_visit (h : s.Waits task i) (hvs : vs.Pairwise (·.1 ≤ ·.1)) :
    ((∀ v ∈ vs, s.foreseen i v.1 = none) ∧ (vs.foldl Handles.visit s).Waits task i) ∨
      ∃ v ∈ vs, ∃ e, s.foreseen i v.1 = some e ∧
        (∀ w ∈ vs, w.1 < v.1 → s.foreseen i w.1 = none) ∧
        (vs.foldl Handles.visit s).Has task e v.2 := by
  induction vs generalizing s with
  | nil => exact Or.inl ⟨by simp, h⟩
  | cons v vs ih =>
      obtain ⟨hle, hvs⟩ := List.pairwise_cons.1 hvs
      have hlater : ∀ w ∈ vs, (s.visit v).foreseen i w.1 = s.foreseen i w.1 := fun w hw =>
        foreseen_visit (hle w hw)
      cases hv : s.foreseen i v.1 with
      | some e =>
          refine Or.inr ⟨v, List.mem_cons_self, e, hv, fun w hw hlt => ?_,
            (h.visit_of_some hv).foldl_visit⟩
          rcases List.mem_cons.1 hw with rfl | hw
          · exact absurd hlt (Nat.lt_irrefl _)
          · exact absurd (hle w hw) (Nat.not_le_of_lt hlt)
      | none =>
          rcases ih (h.visit_of_none hv) hvs with ⟨hnone, hwaits⟩ | ⟨w, hw, e, he, hfirst, hhas⟩
          · refine Or.inl ⟨fun w hw => ?_, hwaits⟩
            rcases List.mem_cons.1 hw with rfl | hw
            · exact hv
            · exact (hlater w hw).symm.trans (hnone w hw)
          · refine Or.inr ⟨w, List.mem_cons_of_mem _ hw, e, (hlater w hw).symm.trans he,
              fun x hx hlt => ?_, hhas⟩
            rcases List.mem_cons.1 hx with rfl | hx
            · exact hv
            · exact (hlater x hx).symm.trans (hfirst x hx hlt)

theorem finished_deed (s : Handles) (a : HandleAction) : (s.deed a).finished = s.finished := by
  cases a with
  | clone handle source => cases hi : s.find? source <;> simp [deed, act, hi]
  | cancel handle => cases hi : s.find? handle <;> simp [deed, act, hi]
  | cancelAfter handle delay => cases hi : s.find? handle <;> simp [deed, act, hi]
  | watch handle task => cases hi : s.find? handle <;> simp [deed, act, hi]
  | _ => rfl

/-- Only a call makes a task wait. -/
theorem mem_waiting_deed {j : ContextId} (ha : ∀ handle, a ≠ .watch handle task) :
    (task, j) ∈ (s.deed a).waiting ↔ (task, j) ∈ s.waiting := by
  cases a with
  | clone handle source => cases hi : s.find? source <;> simp [deed, act, hi]
  | cancel handle => cases hi : s.find? handle <;> simp [deed, act, hi]
  | cancelAfter handle delay => cases hi : s.find? handle <;> simp [deed, act, hi]
  | watch handle name =>
      have hne : task ≠ name := fun h => ha handle (h ▸ rfl)
      cases hi : s.find? handle <;> simp [deed, act, hi, hne]
  | _ => rfl

theorem Free.deed (h : s.Free task) (ha : ∀ handle, a ≠ .watch handle task) :
    (s.deed a).Free task :=
  ⟨fun j hj => h.unlisted j ((mem_waiting_deed ha).1 hj), finished_deed s a ▸ h.unfinished⟩

theorem Has.deed (h : s.Has task e t) (ha : ∀ handle, a ≠ .watch handle task) :
    (s.deed a).Has task e t :=
  ⟨fun j hj => h.unlisted j ((mem_waiting_deed ha).1 hj), finished_deed s a ▸ h.finished⟩

theorem Waits.deed (h : s.Waits task i) (ha : ∀ handle, a ≠ .watch handle task) :
    (s.deed a).Waits task i :=
  ⟨(mem_waiting_deed ha).2 h.listed, fun j hj => h.only j ((mem_waiting_deed ha).1 hj),
    finished_deed s a ▸ h.unfinished⟩

theorem Free.watch {handle : String} (h : s.Free task) (hi : s.find? handle = some i) :
    (s.deed (.watch handle task)).Waits task i := by
  have hwaiting : (s.deed (.watch handle task)).waiting = s.waiting ++ [(task, i)] := by
    simp [Handles.deed, act, hi]
  refine ⟨?_, fun j hj => ?_, finished_deed s _ ▸ h.unfinished⟩
  · rw [hwaiting]
    exact List.mem_append_right _ (List.mem_singleton_self _)
  · rw [hwaiting] at hj
    rcases List.mem_append.1 hj with hj | hj
    · exact absurd hj (h.unlisted j)
    · cases List.mem_singleton.1 hj
      rfl

theorem Free.step (h : s.Free task) (ha : ∀ handle, a ≠ .watch handle task) :
    (s.step a).2.Free task := by
  rw [step_eq]
  exact (h.deed ha).foldl_visit

theorem Has.step (h : s.Has task e t) (ha : ∀ handle, a ≠ .watch handle task) :
    (s.step a).2.Has task e t := by
  rw [step_eq]
  exact (h.deed ha).foldl_visit

end Tasks

section Positions

/-- The positions of the clock while actions are carried out. -/
def positions (s : Handles) : List HandleAction → List Instant
  | [] => []
  | a :: rest => (s.visits a).map (·.2) ++ positions (s.step a).2 rest

theorem positions_snoc (s : Handles) (acts : List HandleAction) (a : HandleAction) :
    s.positions (acts ++ [a]) = s.positions acts ++ ((s.after acts).visits a).map (·.2) := by
  induction acts generalizing s with
  | nil => simp [positions, after]
  | cons b acts ih => simp [positions, after, ih (s.step b).2]

theorem after_append (s : Handles) (xs ys : List HandleAction) :
    s.after (xs ++ ys) = (s.after xs).after ys := List.foldl_append

/-- The positions of the clock from the end of a history on. -/
def onward (before more : List HandleAction) : List Instant :=
  clock before :: (empty.after before).positions more

theorem mem_onward_snoc {before more : List HandleAction} {p : Instant} :
    p ∈ onward before (more ++ [a]) ↔ p ∈ onward before more ∨
      ∃ v ∈ (empty.after (before ++ more)).visits a, v.2 = p := by
  simp only [onward, positions_snoc, List.mem_cons, List.mem_append, List.mem_map, after_append,
    or_assoc]

theorem mem_onward_singleton {before : List HandleAction} {p : Instant} :
    p ∈ onward before [a] ↔ p = clock before ∨ ∃ v ∈ (empty.after before).visits a, v.2 = p := by
  simp only [onward, positions, List.mem_cons, List.mem_append, List.mem_map, List.not_mem_nil,
    or_false]

theorem le_clock_of_mem_onward {before more : List HandleAction} {p : Instant}
    (h : p ∈ onward before more) : p ≤ clock (before ++ more) := by
  induction more using List.reverseRecOn with
  | nil =>
      obtain rfl : p = clock before := by simpa [onward, positions] using h
      simp
  | append_singleton more a ih =>
      rw [← List.append_assoc]
      rcases mem_onward_snoc.1 h with h | ⟨v, hv, rfl⟩
      · exact Nat.le_trans (ih h) (clock_le_snoc _ a)
      · rw [clock, after_snoc, now_step]
        exact ((itinerary_visits _ a).due v hv).2.2

end Positions

section Waits

variable {before more : List HandleAction} {deadline : Option Instant} {t : Instant}
  {e : ContextError} {task : String}

/-- With which error a wait ends that began after a part of the history. -/
inductive Ends (before acts : List HandleAction) (i : ContextId) (deadline : Option Instant)
    (t : Instant) : ContextError → Prop
  | canceled (c : Instant) : Cancels acts i c → c ≤ t →
      (Cancels before i c ∧ c ≤ clock before) ∨ (∀ d, deadline = some d → c ≤ d) →
      Ends before acts i deadline t .canceled
  | deadlineExceeded (d : Instant) : deadline = some d → d ≤ t →
      (∀ c, Cancels before i c → clock before < c) → (∀ c, Cancels acts i c → d ≤ c) →
      Ends before acts i deadline t .deadlineExceeded

/-- A wait that began after a part of the history is over since an instant. -/
structure Resolved (before more : List HandleAction) (i : ContextId) (deadline : Option Instant)
    (e : ContextError) (t : Instant) : Prop where
  reached : t ∈ onward before more
  done : ∃ e', Told (before ++ more) i deadline t (some e')
  /-- At all earlier positions of the clock the context was live. -/
  first : ∀ p ∈ onward before more, p < t → Told (before ++ more) i deadline p none
  ends : Ends before (before ++ more) i deadline t e

theorem Told.live_mono {p : Instant} (h : Told acts i deadline u none) (hp : p ≤ u) :
    Told acts i deadline p none := by
  cases h with
  | live hc hd =>
      exact .live (fun c h => Nat.lt_of_le_of_lt hp (hc c h))
        (fun d h => Nat.lt_of_le_of_lt hp (hd d h))

/-- A context that is done stays done, whatever follows. -/
theorem Told.done_mono (h : Told acts i deadline t (some e)) (more : List HandleAction)
    (htu : t ≤ u) : ∃ e', Told (acts ++ more) i deadline u (some e') := by
  by_cases hc : ∃ c, Cancels (acts ++ more) i c ∧ c ≤ u
  · obtain ⟨c, hc, hle⟩ := hc
    exact ⟨_, .canceled c hc hle⟩
  · have hnone : ∀ c, Cancels (acts ++ more) i c → u < c := fun c h =>
      Nat.lt_of_not_le fun hle => hc ⟨c, h, hle⟩
    cases h with
    | canceled c h hle =>
        exact absurd (Nat.le_trans hle htu) (Nat.not_le_of_lt (hnone c (h.append more)))
    | deadlineExceeded d _ hd hle =>
        exact ⟨_, .deadlineExceeded d hnone hd (Nat.le_trans hle htu)⟩

theorem Orders.movesClock {c : Instant} (h : Orders acts a i c) : a.movesClock = false := by
  cases h <;> rfl

theorem Resolved.snoc (h : Resolved before more i deadline e t) (a : HandleAction) :
    Resolved before (more ++ [a]) i deadline e t := by
  have hpast : t ≤ clock (before ++ more) := le_clock_of_mem_onward h.reached
  have hlater : ∀ c, Orders (before ++ more) a i c → t ≤ c := fun c hc =>
    Nat.le_trans hpast hc.clock_le
  refine ⟨mem_onward_snoc.2 (Or.inl h.reached), ?_, fun p hp hlt => ?_, ?_⟩
  · obtain ⟨e', he'⟩ := h.done
    rw [← List.append_assoc]
    exact he'.done_mono [a] (Nat.le_refl t)
  · rw [← List.append_assoc]
    rcases mem_onward_snoc.1 hp with hp | ⟨v, hv, rfl⟩
    · exact (h.first p hp hlt).snoc fun c hc => Nat.lt_of_lt_of_le hlt (hlater c hc)
    · obtain ⟨hnow, hle, _⟩ := (itinerary_visits _ a).due v hv
      exact absurd (Nat.le_trans hpast (Nat.le_trans hnow hle)) (Nat.not_le_of_lt hlt)
  · rw [← List.append_assoc]
    cases h.ends with
    | canceled c hc hle hcause => exact .canceled c (hc.append [a]) hle hcause
    | deadlineExceeded d hd hle hbefore hfirst =>
        refine .deadlineExceeded d hd hle hbefore fun c hc => ?_
        rcases Cancels.snoc_iff.1 hc with hc | hc
        · exact hfirst c hc
        · exact Nat.le_trans hle (hlater c hc)

/-- While a task waits, its context is live. -/
theorem live_of_waits (hi : i < (lineage acts).families)
    (h : (empty.after acts).Waits task i) :
    Told acts i ((empty.after acts).timeline.deadline i) (clock acts) none := by
  have hlive : (empty.after acts).timeline.error i = none :=
    (kept acts).quiet.waiting _ h.listed
  exact hlive ▸ told_error_now hi

/-- What is told of a family at the positions of an action. -/
theorem told_visit (hi : i < (lineage acts).families) (hu : clock acts ≤ u) :
    Told (acts ++ [a]) i ((empty.after acts).timeline.deadline i) u
      (((empty.after acts).deed a).foreseen i u) := by
  have h := told_deed (a := a) (kept acts) hi hu
  rwa [deadline_deed a ((follows_lineage acts).size.symm ▸ hi)] at h

/-- Where a deadline of a waiting task is passed over, the task sees it. -/
theorem foreseen_passed {d : Instant} {v : Instant × Instant}
    (hi : i < (lineage acts).families) (h : (empty.after acts).Waits task i)
    (hdeadline : (empty.after acts).timeline.deadline i = some d) (hd : clock acts < d)
    (hv : v ∈ (empty.after acts).visits a) (hdv : d < v.1) :
    ∃ w ∈ (empty.after acts).visits a, w.1 < v.1 ∧
      ((empty.after acts).deed a).foreseen i w.1 ≠ none := by
  obtain ⟨w, hw, rfl⟩ :=
    (itinerary_visits (empty.after acts) a).deadlines _ h.listed d hdeadline hd v hv hdv
  refine ⟨w, hw, hdv, fun hnone => ?_⟩
  have htold := told_visit (a := a) hi (Nat.le_of_lt hd)
  rw [hnone, hdeadline] at htold
  cases htold with
  | live _ hlive => exact absurd (hlive _ rfl) (Nat.lt_irrefl _)

/-- What a task sees at a position came before all else that ends its context. -/
theorem ends_visit {v : Instant × Instant} (hi : i < (lineage (before ++ more)).families)
    (h : (empty.after (before ++ more)).Waits task i)
    (hdeadline : (empty.after (before ++ more)).timeline.deadline i = deadline)
    (hv : v ∈ (empty.after (before ++ more)).visits a)
    (hfirst : ∀ w ∈ (empty.after (before ++ more)).visits a, w.1 < v.1 →
      ((empty.after (before ++ more)).deed a).foreseen i w.1 = none)
    (htold : Told (before ++ more ++ [a]) i deadline v.1 (some e)) :
    Ends before (before ++ more ++ [a]) i deadline v.2 e := by
  obtain ⟨hnow, hle, _⟩ := (itinerary_visits _ a).due v hv
  cases htold with
  | canceled c hc hcv =>
      refine .canceled c hc (Nat.le_trans hcv hle) (Or.inr fun d hd => ?_)
      by_contra hcd
      have hdv : d < v.1 := Nat.lt_of_lt_of_le (Nat.lt_of_not_le hcd) hcv
      have hclock : clock (before ++ more) < d := by
        cases live_of_waits hi h with
        | live _ hlive => exact hlive d (hdeadline.trans hd)
      obtain ⟨w, hw, hwv, hne⟩ := foreseen_passed hi h (hdeadline.trans hd) hclock hv hdv
      exact hne (hfirst w hw hwv)
  | deadlineExceeded d hnone hd hdv =>
      refine .deadlineExceeded d hd (Nat.le_trans hdv hle) (fun c hc => ?_) fun c hc => ?_
      · have hclock : clock before ≤ v.1 := Nat.le_trans (clock_le_append before more) hnow
        exact Nat.lt_of_le_of_lt hclock (hnone c (List.append_assoc .. ▸ hc.append (more ++ [a])))
      · exact Nat.le_trans hdv (Nat.le_of_lt (hnone c hc))

/-- At the positions of an action a wait goes on, or it ends at the first of them at which
the context is done. -/
theorem resolved_step (hi : i < (lineage (before ++ more)).families)
    (h : (empty.after (before ++ more)).Waits task i)
    (hdeadline : (empty.after (before ++ more)).timeline.deadline i = deadline)
    (ha : ∀ handle, a ≠ .watch handle task) :
    (empty.after (before ++ more ++ [a])).Waits task i ∨
      ∃ e t, (empty.after (before ++ more ++ [a])).Has task e t ∧
        Resolved before (more ++ [a]) i deadline e t := by
  have hroute := itinerary_visits (empty.after (before ++ more)) a
  have htold : ∀ u, clock (before ++ more) ≤ u → Told (before ++ more ++ [a]) i deadline u
      (((empty.after (before ++ more)).deed a).foreseen i u) := fun u hu =>
    hdeadline ▸ told_visit hi hu
  rw [after_snoc, step_eq]
  rcases (h.deed ha).foldl_visit hroute.sorted with ⟨_, hwaits⟩ | ⟨v, hv, e, he, hfirst, hhas⟩
  · exact Or.inl hwaits
  refine Or.inr ⟨e, v.2, hhas, ?_⟩
  obtain ⟨hnow, hle, hlast⟩ := hroute.due v hv
  have hseen : Told (before ++ more ++ [a]) i deadline v.1 (some e) := he ▸ htold v.1 hnow
  have hdone : ∃ e', Told (before ++ more ++ [a]) i deadline v.2 (some e') := by
    simpa using hseen.done_mono [] hle
  refine ⟨mem_onward_snoc.2 (Or.inr ⟨v, hv, rfl⟩), ?_, fun p hp hlt => ?_, ?_⟩
  · rwa [← List.append_assoc]
  · rw [← List.append_assoc]
    rcases mem_onward_snoc.1 hp with hp | ⟨w, hw, rfl⟩
    · have hpast := le_clock_of_mem_onward hp
      refine ((hdeadline ▸ live_of_waits hi h).live_mono hpast).snoc fun c hc => ?_
      -- an action that cancels takes no time, so it can cancel only after the position
      have hstay := arrival_of_instant (empty.after (before ++ more)) hc.movesClock
      exact Nat.lt_of_lt_of_le hlt
        (Nat.le_trans (Nat.le_trans hlast (Nat.le_of_eq hstay)) hc.clock_le)
    · rcases hroute.exact with hexact | hjump
      · have hwv : w.1 < v.1 := by
          rwa [hexact w hw, hexact v hv] at hlt
        rw [hexact w hw, ← hfirst w hw hwv]
        exact htold w.1 (hroute.due w hw).1
      · rw [hjump w hw, hjump v hv] at hlt
        exact absurd hlt (Nat.lt_irrefl _)
  · rw [← List.append_assoc]
    exact ends_visit hi h hdeadline hv hfirst hseen

/-- A wait for a context that is done at its call is over at once. -/
theorem resolved_call {handle : String} (horigin : (lineage before).origin handle = some i)
    (hfree : (empty.after before).Free task)
    (hdeadline : (empty.after before).timeline.deadline i = deadline) :
    (empty.after (before ++ [.watch handle task])).Waits task i ∨
      ∃ e t, (empty.after (before ++ [.watch handle task])).Has task e t ∧
        Resolved before [.watch handle task] i deadline e t := by
  have hi := lineage_known before handle i horigin
  have hname : (empty.after before).find? handle = some i :=
    ((follows_lineage before).names handle).trans horigin
  have hvisits :
      (empty.after before).visits (.watch handle task) = [(clock before, clock before)] := by
    rw [visits, arrival_of_instant _ rfl]
    rfl
  have hsame : ∀ c, Cancels (before ++ [.watch handle task]) i c ↔ Cancels before i c := fun c =>
    Cancels.snoc_iff.trans (or_iff_left fun hc => by cases hc)
  rw [after_snoc, step_eq, hvisits]
  rcases (hfree.watch hname).foldl_visit (List.pairwise_singleton _ (clock before, clock before))
    with ⟨_, hwaits⟩ | ⟨v, hv, e, he, _, hhas⟩
  · exact Or.inl hwaits
  obtain rfl := List.mem_singleton.1 hv
  refine Or.inr ⟨e, clock before, hhas, ?_⟩
  have hseen : Told (before ++ [.watch handle task]) i deadline (clock before) (some e) :=
    he ▸ hdeadline ▸ told_visit hi (Nat.le_refl _)
  refine ⟨List.mem_cons_self, ⟨e, hseen⟩, fun p hp hlt => ?_, ?_⟩
  · have hp : p = clock before := by simpa [onward, positions, hvisits] using hp
    exact absurd (hp ▸ hlt) (Nat.lt_irrefl _)
  · cases hseen with
    | canceled c hc hle => exact .canceled c hc hle (Or.inl ⟨(hsame c).1 hc, hle⟩)
    | deadlineExceeded d hnone hd hle =>
        exact .deadlineExceeded d hd hle (fun c hc => hnone c ((hsame c).2 hc))
          fun c hc => Nat.le_trans hle (Nat.le_of_lt (hnone c hc))

theorem free_of_not_called (h : ∀ handle, .watch handle task ∉ acts) :
    (empty.after acts).Free task := by
  induction acts using List.reverseRecOn with
  | nil => exact ⟨fun j hj => (nomatch hj), rfl⟩
  | append_singleton acts a ih =>
      rw [after_snoc]
      refine (ih fun handle hmem => h handle (List.mem_append_left _ hmem)).step
        fun handle ha => h handle ?_
      rw [ha]
      exact List.mem_append_right _ (List.mem_singleton_self _)

/-- From its call on, a task waits, or its wait is over. -/
theorem resolved_run {handle : String} (horigin : (lineage before).origin handle = some i)
    (hfree : (empty.after before).Free task)
    (hdeadline : (empty.after before).timeline.deadline i = deadline)
    (hmore : ∀ name, .watch name task ∉ more) :
    (empty.after (before ++ .watch handle task :: more)).Waits task i ∨
      ∃ e t, (empty.after (before ++ .watch handle task :: more)).Has task e t ∧
        Resolved before (.watch handle task :: more) i deadline e t := by
  induction more using List.reverseRecOn with
  | nil => exact resolved_call horigin hfree hdeadline
  | append_singleton more a ih =>
      have hi := lineage_known before handle i horigin
      have ha : ∀ name, a ≠ .watch name task := fun name ha =>
        hmore name (ha ▸ List.mem_append_right _ (List.mem_singleton_self _))
      rw [← List.cons_append, ← List.append_assoc]
      rcases ih fun name hmem => hmore name (List.mem_append_left _ hmem) with
        hwaits | ⟨e, t, hhas, hresolved⟩
      · have hlt : i < (lineage (before ++ .watch handle task :: more)).families := by
          obtain ⟨t, timeout, ht⟩ := (kept before).founded i hi
          exact Founded.lt_families (ht.append _)
        exact resolved_step hlt hwaits ((deadline_append hi _).trans hdeadline) ha
      · refine Or.inr ⟨e, t, ?_, hresolved.snoc a⟩
        rw [after_snoc]
        exact hhas.step ha

end Waits

section Foreground

variable {s : Handles} {ts : List Instant} {e : ContextError} {deadline : Option Instant}

theorem error_moveTo (s : Handles) (i : ContextId) (t : Instant) :
    (s.moveTo t).timeline.error i = (s.moveTo t).foreseen i (s.moveTo t).timeline.now :=
  (error_visit s i t).trans (foreseen_visit (v := (t, t)) (Nat.le_refl t)).symm

/-- The clock never goes back while the foreground waits. -/
theorem now_le_awaitAlong (hts : ts.Pairwise (· ≤ ·)) (hle : ∀ t ∈ ts, s.timeline.now ≤ t) :
    s.timeline.now ≤ (awaitAlong i ts s).2.timeline.now := by
  have hwalk := walk_initial i ts s
  rw [awaitAlong_eq_walk]
  exact (le_now_foldl_visit (hts.sublist hwalk.sublist)
    fun t ht => hle t (hwalk.subset ht)).1

/-- A wait in the foreground that comes to its limit has seen a live context all along. -/
theorem awaitAlong_none (h : (awaitAlong i ts s).1 = none) (hts : ts.Pairwise (· ≤ ·))
    (hnow : s.timeline.error i = s.foreseen i s.timeline.now) :
    walk i ts s = ts ∧ ∀ p ∈ s.timeline.now :: ts, s.foreseen i p = none := by
  induction ts generalizing s with
  | nil =>
      refine ⟨rfl, fun p hp => ?_⟩
      obtain rfl := List.mem_singleton.1 hp
      exact hnow.symm.trans h
  | cons t ts ih =>
      obtain ⟨hle, hts⟩ := List.pairwise_cons.1 hts
      cases he : s.timeline.error i with
      | some e => simp [awaitAlong, he] at h
      | none =>
          simp only [awaitAlong, he] at h
          obtain ⟨hwalk, hlive⟩ := ih h hts (error_moveTo s i t)
          refine ⟨by simp [walk, he, hwalk], fun p hp => ?_⟩
          rcases List.mem_cons.1 hp with rfl | hp
          · exact hnow.symm.trans he
          · have hlater : t ≤ p := by
              rcases List.mem_cons.1 hp with rfl | hp
              · exact Nat.le_refl _
              · exact hle p hp
            exact (foreseen_visit (v := (t, t)) hlater).symm.trans (hlive p hp)

/-- A wait in the foreground ends at the first position at which the context is done. -/
theorem awaitAlong_some (h : (awaitAlong i ts s).1 = some e) (hts : ts.Pairwise (· ≤ ·))
    (hle : ∀ t ∈ ts, s.timeline.now ≤ t)
    (hnow : s.timeline.error i = s.foreseen i s.timeline.now) :
    s.foreseen i (awaitAlong i ts s).2.timeline.now = some e ∧
      ∀ p ∈ s.timeline.now :: walk i ts s, p < (awaitAlong i ts s).2.timeline.now →
        s.foreseen i p = none := by
  induction ts generalizing s with
  | nil =>
      refine ⟨hnow.symm.trans h, fun p hp hlt => ?_⟩
      obtain rfl := List.mem_singleton.1 hp
      exact absurd hlt (Nat.lt_irrefl _)
  | cons t ts ih =>
      obtain ⟨hlater, hts⟩ := List.pairwise_cons.1 hts
      cases he : s.timeline.error i with
      | some e' =>
          simp only [awaitAlong, walk, he] at h ⊢
          refine ⟨hnow.symm.trans (he.trans h), fun p hp hlt => ?_⟩
          obtain rfl := List.mem_singleton.1 hp
          exact absurd hlt (Nat.lt_irrefl _)
      | none =>
          simp only [awaitAlong, walk, he] at h ⊢
          obtain ⟨hend, hfirst⟩ := ih h hts hlater (error_moveTo s i t)
          have hback : ∀ {p}, t ≤ p → (s.moveTo t).foreseen i p = s.foreseen i p :=
            fun hp => foreseen_visit (v := (t, t)) hp
          have hlast := now_le_awaitAlong (i := i) (s := s.moveTo t) hts hlater
          refine ⟨(hback hlast).symm.trans hend, fun p hp hlt => ?_⟩
          rcases List.mem_cons.1 hp with rfl | hp
          · exact hnow.symm.trans he
          · have htp : t ≤ p := by
              rcases List.mem_cons.1 hp with rfl | hp
              · exact Nat.le_refl _
              · exact hlater p ((walk_initial i ts _).subset hp)
            exact (hback htp).symm.trans (hfirst p hp hlt)

/-- Where a wait in the foreground would stop on its way to its limit. -/
def route (s : Handles) (i : ContextId) (limit : Duration) : List Instant :=
  s.stops (s.timeline.deadline i) (Instant.afterLimit s.timeline.now limit)

theorem act_awaitEnd {handle : String} (h : s.find? handle = some i) (limit : Duration) :
    s.act (.awaitEnd handle limit) =
      (some (awaitAlong i (s.route i limit) s).1, (awaitAlong i (s.route i limit) s).2) := by
  simp [act, h, route]

theorem arrival_awaitEnd {handle : String} (h : s.find? handle = some i) (limit : Duration) :
    s.arrival (.awaitEnd handle limit) =
      (((walk i (s.route i limit) s).map fun t => (t, t)).foldl visit s).timeline.now := by
  rw [arrival, act_awaitEnd h, awaitAlong_eq_walk]

theorem mem_visits_awaitEnd {handle : String} {v : Instant × Instant}
    (h : s.find? handle = some i) (limit : Duration) :
    v ∈ s.visits (.awaitEnd handle limit) ↔ (∃ t ∈ walk i (s.route i limit) s, (t, t) = v) ∨
      v = (s.arrival (.awaitEnd handle limit), s.arrival (.awaitEnd handle limit)) := by
  simp [visits, path, h, route]

/-- A wait in the foreground does not pass over the deadline of its context. -/
theorem mem_walk_of_deadline {handle : String} {limit : Duration} {d : Instant}
    (h : s.find? handle = some i) (hdeadline : s.timeline.deadline i = some d)
    (hnow : s.timeline.now < d) (hd : d < s.arrival (.awaitEnd handle limit)) :
    d ∈ walk i (s.route i limit) s := by
  have hwalk := walk_initial i (s.route i limit) s
  have hsorted := sorted_stops s (s.timeline.deadline i) (Instant.afterLimit s.timeline.now limit)
  have hend : s.arrival (.awaitEnd handle limit) ∈ walk i (s.route i limit) s := by
    rw [arrival_awaitEnd h] at hd ⊢
    refine (now_foldl_visit_mem _ s).resolve_left fun hstay => ?_
    exact absurd (hstay ▸ hd) (Nat.lt_asymm hnow)
  have hlast := Nat.lt_of_lt_of_le hd (le_of_mem_stops (hwalk.subset hend))
  exact mem_of_sorted_initial hsorted hwalk
    (mem_stops.2 (Or.inr ⟨⟨hnow, hlast⟩, Or.inr (Or.inr hdeadline)⟩)) hend hd

/-- At its limit, a wait in the foreground has gone along all stops. -/
theorem arrival_of_walk_eq {handle : String} {limit : Duration} (h : s.find? handle = some i)
    (hwalk : walk i (s.route i limit) s = s.route i limit) :
    s.arrival (.awaitEnd handle limit) = Instant.afterLimit s.timeline.now limit := by
  rw [arrival_awaitEnd h, hwalk, route, stops, List.map_append, List.foldl_append]
  rfl

theorem clock_awaitEnd (acts : List HandleAction) (handle : String) (limit : Duration) :
    clock (acts ++ [.awaitEnd handle limit]) =
      (empty.after acts).arrival (.awaitEnd handle limit) := by
  rw [clock, after_snoc, now_step]

/-- If the context was live where a wait in the foreground has been, then what ends it came
before all else that could. -/
theorem ends_foreground {handle : String} {limit : Duration}
    (hname : (empty.after acts).find? handle = some i)
    (hdeadline : (empty.after acts).timeline.deadline i = deadline)
    (hlive : ∀ p ∈ clock acts :: walk i ((empty.after acts).route i limit) (empty.after acts),
      p < clock (acts ++ [.awaitEnd handle limit]) → clock acts ≤ p →
        Told (acts ++ [.awaitEnd handle limit]) i deadline p none)
    (hseen : Told (acts ++ [.awaitEnd handle limit]) i deadline
      (clock (acts ++ [.awaitEnd handle limit])) (some e)) :
    Ends acts (acts ++ [.awaitEnd handle limit]) i deadline
      (clock (acts ++ [.awaitEnd handle limit])) e := by
  have hstart := clock_le_snoc acts (.awaitEnd handle limit)
  cases hseen with
  | deadlineExceeded d hnone hd hle =>
      refine .deadlineExceeded d hd hle (fun c hc => ?_) fun c hc => ?_
      · exact Nat.lt_of_le_of_lt hstart (hnone c (hc.append _))
      · exact Nat.le_trans hle (Nat.le_of_lt (hnone c hc))
  | canceled c hc hle =>
      refine .canceled c hc hle ?_
      have hsame : Cancels acts i c :=
        (Cancels.snoc_iff.1 hc).resolve_right fun h => by cases h
      rcases Nat.lt_or_ge (clock acts) c with hlater | hearly
      · -- an earlier deadline would be one of the stops, where the context was live
        refine Or.inr fun d hd => Nat.le_of_not_lt fun hdc => ?_
        have hdlast := Nat.lt_of_lt_of_le hdc hle
        have hclock : clock acts < d := by
          cases hlive _ List.mem_cons_self (Nat.lt_of_lt_of_le hlater hle) (Nat.le_refl _) with
          | live _ hnot => exact hnot d hd
        have hwalked := mem_walk_of_deadline hname (hdeadline.trans hd) hclock
          (clock_awaitEnd acts handle limit ▸ hdlast)
        cases hlive d (List.mem_cons_of_mem _ hwalked) hdlast (Nat.le_of_lt hclock) with
        | live _ hnot => exact absurd (hnot d hd) (Nat.lt_irrefl _)
      · exact Or.inl ⟨hsame, hearly⟩

/-- A wait in the foreground that answers with an error is over. -/
theorem resolved_foreground {handle : String} {limit : Duration}
    (horigin : (lineage acts).origin handle = some i)
    (hdeadline : (empty.after acts).timeline.deadline i = deadline)
    (he : (awaitAlong i ((empty.after acts).route i limit) (empty.after acts)).1 = some e) :
    Resolved acts [.awaitEnd handle limit] i deadline e
      (clock (acts ++ [.awaitEnd handle limit])) := by
  have hi := lineage_known acts handle i horigin
  have hname : (empty.after acts).find? handle = some i :=
    ((follows_lineage acts).names handle).trans horigin
  have harrival := clock_awaitEnd acts handle limit
  have htold : ∀ u, clock acts ≤ u → Told (acts ++ [.awaitEnd handle limit]) i deadline u
      ((empty.after acts).foreseen i u) := fun u hu => hdeadline ▸ told_visit hi hu
  obtain ⟨hend, hfirst⟩ := awaitAlong_some he (sorted_stops _ _ _)
    (fun t ht => now_le_of_mem_stops (Instant.le_afterLimit _ limit) ht)
    (kept acts).quiet.foreseen_now.symm
  have hthere :
      (awaitAlong i ((empty.after acts).route i limit) (empty.after acts)).2.timeline.now =
        clock (acts ++ [.awaitEnd handle limit]) := by
    rw [harrival, arrival, act_awaitEnd hname]
  rw [hthere] at hend hfirst
  have hseen := hend ▸ htold _ (clock_le_snoc acts (.awaitEnd handle limit))
  -- the positions before the last are those that the foreground has walked
  have hlive : ∀ p ∈ clock acts :: walk i ((empty.after acts).route i limit) (empty.after acts),
      p < clock (acts ++ [.awaitEnd handle limit]) → clock acts ≤ p →
        Told (acts ++ [.awaitEnd handle limit]) i deadline p none := fun p hp hlt hle =>
    hfirst p hp hlt ▸ htold p hle
  refine ⟨?_, ⟨e, hseen⟩, fun p hp hlt => ?_, ends_foreground hname hdeadline hlive hseen⟩
  · have hlast := (itinerary_visits (empty.after acts) (.awaitEnd handle limit)).ending
    exact mem_onward_singleton.2 (Or.inr ⟨_, hlast, harrival.symm⟩)
  · rcases mem_onward_singleton.1 hp with rfl | ⟨v, hv, rfl⟩
    · exact hlive _ List.mem_cons_self hlt (Nat.le_refl _)
    · obtain ⟨hnow, hle, _⟩ := (itinerary_visits _ _).due v hv
      rcases (mem_visits_awaitEnd hname limit).1 hv with ⟨t, ht, rfl⟩ | rfl
      · exact hlive t (List.mem_cons_of_mem _ ht) hlt hnow
      · exact absurd (harrival ▸ hlt) (Nat.lt_irrefl _)

/-- A wait in the foreground answers, with the error of its context or at its limit. -/
theorem foreground_resolved {handle : String} (limit : Duration)
    (horigin : (lineage acts).origin handle = some i)
    (hdeadline : (empty.after acts).timeline.deadline i = deadline) :
    (∃ e, ((empty.after acts).step (.awaitEnd handle limit)).1 = some (some e) ∧
      Resolved acts [.awaitEnd handle limit] i deadline e
        (clock (acts ++ [.awaitEnd handle limit]))) ∨
    (((empty.after acts).step (.awaitEnd handle limit)).1 = some none ∧
      clock (acts ++ [.awaitEnd handle limit]) = Instant.afterLimit (clock acts) limit ∧
      Told (acts ++ [.awaitEnd handle limit]) i deadline
        (clock (acts ++ [.awaitEnd handle limit])) none) := by
  have hi := lineage_known acts handle i horigin
  have hname : (empty.after acts).find? handle = some i :=
    ((follows_lineage acts).names handle).trans horigin
  have hanswer : ((empty.after acts).step (.awaitEnd handle limit)).1 =
      some (awaitAlong i ((empty.after acts).route i limit) (empty.after acts)).1 :=
    congrArg (·.1) (act_awaitEnd hname limit)
  cases he : (awaitAlong i ((empty.after acts).route i limit) (empty.after acts)).1 with
  | some e => exact Or.inl ⟨e, hanswer.trans (congrArg some he),
      resolved_foreground horigin hdeadline he⟩
  | none =>
      obtain ⟨hwalk, hlive⟩ := awaitAlong_none he (sorted_stops _ _ _)
        (kept acts).quiet.foreseen_now.symm
      have hlimit : clock (acts ++ [.awaitEnd handle limit]) =
          Instant.afterLimit (clock acts) limit :=
        (clock_awaitEnd acts handle limit).trans (arrival_of_walk_eq hname hwalk)
      have hstop : Instant.afterLimit (clock acts) limit ∈ (empty.after acts).route i limit :=
        mem_stops.2 (Or.inl rfl)
      refine Or.inr ⟨hanswer.trans (congrArg some he), hlimit, ?_⟩
      rw [hlimit, ← hlive _ (List.mem_cons_of_mem _ hstop), ← hdeadline]
      exact told_visit hi (Instant.le_afterLimit _ limit)

end Foreground

section Results

variable {before more : List HandleAction} {handle task : String} {deadline : Option Instant}
  {t : Instant} {e : ContextError}

/-- The first cancellation of the family does not fall on its deadline. -/
def Untied (acts : List HandleAction) (i : ContextId) (deadline : Option Instant) : Prop :=
  ∀ c, Cancels acts i c → (∀ x, Cancels acts i x → c ≤ x) → deadline ≠ some c

/-- By an instant, a cancellation has ended a wait that began after a part of the history: it
had happened at the call, or it came before the deadline. -/
def CanceledBy (before acts : List HandleAction) (i : ContextId) (deadline : Option Instant)
    (t : Instant) : Prop :=
  ∃ c, Cancels acts i c ∧ c ≤ t ∧
    ((Cancels before i c ∧ c ≤ clock before) ∨ ∀ d, deadline = some d → c < d)

theorem exists_first_cancel {c : Instant} (hc : Cancels acts i c) :
    ∃ x, Cancels acts i x ∧ x ≤ c ∧ ∀ y, Cancels acts i y → x ≤ y := by
  classical
  have hex : ∃ x, Cancels acts i x := ⟨c, hc⟩
  exact ⟨Nat.find hex, Nat.find_spec hex, Nat.find_min' hex hc, fun y hy => Nat.find_min' hex hy⟩

theorem Ends.canceled_iff (h : Ends before acts i deadline t e) (hties : Untied acts i deadline) :
    e = .canceled ↔ CanceledBy before acts i deadline t := by
  cases h with
  | canceled c hc hle hcause =>
      refine ⟨fun _ => ?_, fun _ => rfl⟩
      rcases hcause with hcause | hbefore
      · exact ⟨c, hc, hle, Or.inl hcause⟩
      · obtain ⟨x, hx, hxc, hfirst⟩ := exists_first_cancel hc
        refine ⟨x, hx, Nat.le_trans hxc hle, Or.inr fun d hd => ?_⟩
        refine Nat.lt_of_le_of_ne (Nat.le_trans hxc (hbefore d hd)) fun hxd => ?_
        exact hties x hx hfirst (hxd ▸ hd)
  | deadlineExceeded d hd _ hlate hfirst =>
      refine iff_of_false (fun he => nomatch he) ?_
      rintro ⟨c, hc, _, ⟨hbefore, hle⟩ | hearly⟩
      · exact absurd hle (Nat.not_le_of_lt (hlate c hbefore))
      · exact absurd (hfirst c hc) (Nat.not_le_of_lt (hearly d hd))

/-- A wait that is over was for a context that is done. -/
theorem Resolved.error_ne_none (h : Resolved before more i deadline e t)
    (hi : i < (lineage (before ++ more)).families)
    (hdeadline : (empty.after (before ++ more)).timeline.deadline i = deadline) :
    (empty.after (before ++ more)).timeline.error i ≠ none := by
  obtain ⟨e', he'⟩ := h.done
  obtain ⟨e'', he''⟩ := he'.done_mono [] (le_clock_of_mem_onward h.reached)
  rw [List.append_nil, ← hdeadline] at he''
  exact fun hlive => nomatch (hlive ▸ told_error_now hi).unique he''

theorem Has.after {s : Handles} (h : s.Has task e t) {rest : List HandleAction}
    (hrest : ∀ name, .watch name task ∉ rest) : (s.after rest).Has task e t := by
  induction rest generalizing s with
  | nil => exact h
  | cons a rest ih =>
      refine ih (h.step fun name ha => hrest name (ha ▸ List.mem_cons_self)) fun name hmem => ?_
      exact hrest name (List.mem_cons_of_mem _ hmem)

/-- **Waits for the end of a context.**  Let a task be called, after any history, to wait for
the context of some handle.  Whatever follows, its wait is over if and only if the context is
done.  It was over at the first position of the clock, from the call on, at which the context
was done, and it stays so.  If the first cancellation does not fall on the deadline, the
task has seen a cancellation if one had happened by then, and the deadline otherwise.

A wait in the foreground is over at the first such position up to its limit, or it comes to
the limit while the context is live.  And a wait is a loop of small steps, which comes to
rest at each position of the clock: parked while the context is live, and returned with the
context's error once it is done. -/
theorem wait_resolved (horigin : (lineage before).origin handle = some i)
    (hbefore : ∀ name, .watch name task ∉ before) (hmore : ∀ name, .watch name task ∉ more) :
    let acts := before ++ .watch handle task :: more
    let s := empty.after acts
    let deadline := s.timeline.deadline i
    (s.finished.lookup task = none ↔ s.timeline.error i = none) ∧
    (∀ e t, s.finished.lookup task = some (e, t) →
      Resolved before (.watch handle task :: more) i deadline e t ∧
      (Untied acts i deadline → (e = .canceled ↔ CanceledBy before acts i deadline t)) ∧
      ∀ rest, (∀ name, .watch name task ∉ rest) →
        (s.after rest).finished.lookup task = some (e, t)) ∧
    (∀ limit, let whole := before ++ [.awaitEnd handle limit]
      (∃ e, ((empty.after before).step (.awaitEnd handle limit)).1 = some (some e) ∧
        Resolved before [.awaitEnd handle limit] i deadline e (clock whole) ∧
        (Untied whole i deadline →
          (e = .canceled ↔ CanceledBy before whole i deadline (clock whole)))) ∨
      (((empty.after before).step (.awaitEnd handle limit)).1 = some none ∧
        clock whole = Instant.afterLimit (clock before) limit ∧
        Told whole i deadline (clock whole) none)) ∧
    ∀ now c waiters cancellers v,
      Wakeup.Reachable (Wakeup.initial now c waiters cancellers) v → v.Settles := by
  intro acts s deadline
  have hi := lineage_known before handle i horigin
  have hlt : i < (lineage acts).families := by
    obtain ⟨t, timeout, ht⟩ := (kept before).founded i hi
    exact Founded.lt_families (ht.append _)
  have hdeadline : (empty.after before).timeline.deadline i = deadline :=
    (deadline_append hi _).symm
  have hrun := resolved_run horigin (free_of_not_called hbefore) hdeadline hmore
  refine ⟨?_, fun e t hfinished => ?_, fun limit => ?_, fun _ _ _ _ _ hv =>
    Wakeup.settles_of_reachable hv⟩
  · rcases hrun with hwaits | ⟨e, t, hhas, hresolved⟩
    · have hlive : s.timeline.error i = none := (kept acts).quiet.waiting _ hwaits.listed
      exact iff_of_true hwaits.unfinished hlive
    · have hnone : s.finished.lookup task ≠ none := fun h => nomatch h.symm.trans hhas.finished
      exact iff_of_false hnone (hresolved.error_ne_none hlt rfl)
  · rcases hrun with hwaits | ⟨e', t', hhas, hresolved⟩
    · exact nomatch hwaits.unfinished.symm.trans hfinished
    · cases hfinished.symm.trans hhas.finished
      exact ⟨hresolved, hresolved.ends.canceled_iff, fun rest hrest => (hhas.after hrest).finished⟩
  · rcases foreground_resolved limit horigin hdeadline with ⟨e, he, hresolved⟩ | hlimit
    · exact Or.inl ⟨e, he, hresolved, hresolved.ends.canceled_iff⟩
    · exact Or.inr hlimit

/-- A task waits on a clone that is dropped before somebody cancels through its source. -/
theorem wait_resolved_clone :
    (empty.after [.create "a", .clone "b" "a", .watch "b" "w", .drop "b",
        .cancel "a"]).finished.lookup "w" = some (.canceled, 0) ∧
      Resolved [.create "a", .clone "b" "a"] [.watch "b" "w", .drop "b", .cancel "a"] 0 none
        .canceled 0 := by
  have hfinished : (empty.after [.create "a", .clone "b" "a", .watch "b" "w", .drop "b",
      .cancel "a"]).finished.lookup "w" = some (.canceled, 0) := by decide
  have horigin : (lineage [.create "a", .clone "b" "a"]).origin "b" = some 0 := by decide
  have hbefore : ∀ name, HandleAction.watch name "w" ∉ [.create "a", .clone "b" "a"] := by simp
  have hmore : ∀ name, HandleAction.watch name "w" ∉ [.drop "b", .cancel "a"] := by simp
  exact ⟨hfinished, ((wait_resolved horigin hbefore hmore).2.1 _ _ hfinished).1⟩

end Results

end Handles

end TransactionAttempts
