import TransactionAttempts.Timeline

/-!
# How a wait ends

A context that is done stays done, whatever happens to the timeline.  A wait for a
context with a limit always ends, and what is known at its beginning decides how:
by the deadline of the context and by the cancellations that others will make.

**At the limit.**  A deadline that falls on the limit of the wait counts.  A
cancellation by somebody else at that very instant may come before the wait ends or
after it, so `DoneBy` says nothing about it.

Main facts:

* `reachWithin_keeps`: what each move of the clock keeps, a wait keeps;
* `Done.step`, `Done.await`: a context that is done stays done;
* `await_limit`: how a wait with a limit ends.
-/

namespace TransactionAttempts

section Moves

namespace Timeline

theorem reachWithin_of_over {xs : List Wait} {w : Timeline} (h : w.anyOver xs = true) (n : Nat) :
    reachWithin xs n w = some w := by
  cases n <;> exact if_pos h

/-- What every move of the clock within some waits keeps holds when one of them is over. -/
theorem reachWithin_keeps {xs : List Wait} {P : Timeline → Prop}
    (hstep : ∀ {w u}, P w → ¬ w.anyOver xs = true → w.step? (w.firstTarget xs) = some u → P u)
    {n : Nat} {w v : Timeline} (h : reachWithin xs n w = some v) (hw : P w) :
    P v ∧ v.anyOver xs = true := by
  induction n generalizing w with
  | zero =>
      obtain ⟨hover, hwv⟩ := Option.ite_none_right_eq_some.1 h
      cases hwv
      exact ⟨hw, hover⟩
  | succ n ih =>
      by_cases hover : w.anyOver xs = true
      · rw [reachWithin_of_over hover] at h
        cases h
        exact ⟨hw, hover⟩
      · rw [reachWithin, if_neg hover] at h
        obtain ⟨u, hu, huv⟩ := Option.bind_eq_some_iff.1 h
        exact ih huv (hstep hw hover hu)

/-- A wait ends where the clock comes to when it is over. -/
theorem await_eq_some_iff {x : Wait} {w v : Timeline} {r : Option ContextError} :
    w.await x = some (r, v) ↔ w.reach [x] = some v ∧ x.verdict v = some r := by
  constructor
  · intro h
    obtain ⟨u, hu, huv⟩ := Option.bind_eq_some_iff.1 h
    obtain ⟨_, hr, hrv⟩ := Option.map_eq_some_iff.1 huv
    cases hrv
    exact ⟨hu, hr⟩
  · rintro ⟨hv, hr⟩
    exact Option.bind_eq_some_iff.2 ⟨v, hv, Option.map_eq_some_iff.2 ⟨r, hr, rfl⟩⟩

end Timeline

end Moves

section Permanence

theorem Context.error_mono {c : Context} {s t : Instant} (h : c.error s ≠ none) (hst : s ≤ t) :
    c.error t ≠ none := by
  unfold Context.error at h ⊢
  cases hc : c.cancelled with
  | true => simp
  | false =>
      cases hd : c.deadline with
      | none => simp [hc, hd] at h
      | some d =>
          have hds : d ≤ s := by simpa [hc, hd] using h
          simp [Nat.le_trans hds hst]

namespace Timeline

/-- The context is cancelled or past its deadline. -/
def Done (w : Timeline) (i : ContextId) : Prop := w.error i ≠ none

theorem done_iff {w : Timeline} {i : ContextId} :
    w.Done i ↔ ∃ c, w.contexts.get? i = some c ∧ c.error w.now ≠ none := by
  unfold Done Timeline.error Contexts.error
  cases w.contexts.get? i with
  | none => simp
  | some c => simp

/-- Nothing that keeps or cancels a context makes it live again as time goes on. -/
theorem Done.mono {w v : Timeline} {i : ContextId} (h : w.Done i) (hnow : w.now ≤ v.now)
    (hkeep : ∀ c, w.contexts.get? i = some c →
      v.contexts.get? i = some c ∨ v.contexts.get? i = some c.cancel) : v.Done i := by
  obtain ⟨c, hc, he⟩ := done_iff.1 h
  rcases hkeep c hc with hv | hv
  · exact done_iff.2 ⟨c, hv, Context.error_mono he hnow⟩
  · exact done_iff.2 ⟨c.cancel, hv, by simp⟩

theorem get?_cancel_keeps {cs : Contexts} {i : ContextId} {c : Context}
    (h : cs.get? i = some c) (j : ContextId) :
    (cs.cancel j).get? i = some c ∨ (cs.cancel j).get? i = some c.cancel := by
  rw [Contexts.get?_cancel, h]
  split
  · exact Or.inr rfl
  · exact Or.inl rfl

theorem Done.cancel {w : Timeline} {i : ContextId} (h : w.Done i) (j : ContextId) :
    (w.cancel j).Done i :=
  h.mono (Nat.le_refl _) fun _ hc => get?_cancel_keeps hc j

theorem get?_push_keeps {cs : Contexts} {i : ContextId} {d : Context}
    (h : cs.get? i = some d) (c : Context) : (cs.push c).get? i = some d := by
  obtain ⟨hlt, _⟩ := List.getElem?_eq_some_iff.1 h
  exact (List.getElem?_append_left hlt).trans h

theorem Done.create {w : Timeline} {i : ContextId} (h : w.Done i) (c : Context) :
    (w.create c).Done i :=
  h.mono (Nat.le_refl _) fun _ hd => Or.inl (get?_push_keeps hd c)

/-- A new context changes nothing about the error of another one. -/
theorem error_create {w : Timeline} {i : ContextId} {e : ContextError}
    (h : w.error i = some e) (c : Context) : (w.create c).error i = some e := by
  obtain ⟨d, hd, he⟩ := Option.bind_eq_some_iff.1 h
  exact Option.bind_eq_some_iff.2 ⟨d, get?_push_keeps hd c, he⟩

/-- The clock goes to the awaited instant if that comes before the next cancellation, and
carries the cancellation out otherwise. -/
theorem step_cons {now t : Instant} {cs : Contexts} {j : ContextId}
    {rest : List (Instant × ContextId)} {hl : ((t, j) :: rest).Pairwise (·.1 ≤ ·.1)}
    {wake : Option Instant} {u : Timeline}
    (hu : step? wake ⟨now, cs, (t, j) :: rest, hl⟩ = some u) :
    (∃ s, wake = some s ∧ s < t ∧ u = ⟨max now s, cs, (t, j) :: rest, hl⟩) ∨
      ((∀ s, wake = some s → t ≤ s) ∧ u = ⟨max now t, cs.cancel j, rest, hl.of_cons⟩) := by
  cases wake with
  | none =>
      cases hu
      exact Or.inr ⟨fun s hs => absurd hs.symm (Option.some_ne_none s), rfl⟩
  | some s =>
      by_cases hst : s < t
      · simp only [step?, if_pos hst] at hu
        cases hu
        exact Or.inl ⟨s, rfl, hst, rfl⟩
      · simp only [step?, if_neg hst] at hu
        cases hu
        exact Or.inr ⟨fun s' hs' => Option.some.inj hs' ▸ Nat.le_of_not_lt hst, rfl⟩

theorem Done.step {wake : Option Instant} {w v : Timeline} {i : ContextId} (h : w.Done i)
    (hv : w.step? wake = some v) : v.Done i := by
  have hnow := now_le_step hv
  obtain ⟨now, cs, _ | ⟨⟨t, j⟩, rest⟩, hs⟩ := w
  · obtain ⟨s, _, rfl⟩ := Option.map_eq_some_iff.1 hv
    exact h.mono hnow fun c hc => Or.inl hc
  · rcases step_cons hv with ⟨s, _, _, rfl⟩ | ⟨_, rfl⟩
    · exact h.mono hnow fun c hc => Or.inl hc
    · exact h.mono hnow fun c hc => get?_cancel_keeps hc j

theorem Done.reachWithin {xs : List Wait} {i : ContextId} {n : Nat} {w v : Timeline}
    (h : w.Done i) (hv : Timeline.reachWithin xs n w = some v) : v.Done i :=
  (reachWithin_keeps (P := fun u => u.Done i) (fun hd _ hu => hd.step hu) hv h).1

theorem Done.await {x : Wait} {i : ContextId} {w v : Timeline} {r : Option ContextError}
    (h : w.Done i) (hv : w.await x = some (r, v)) : v.Done i :=
  h.reachWithin (await_eq_some_iff.1 hv).1

end Timeline

end Permanence

section Limits

theorem Instant.earlier_eq_some {s t : Option Instant} {u : Instant}
    (h : Instant.earlier s t = some u) : s = some u ∨ t = some u := by
  cases s with
  | none => exact Or.inr h
  | some s =>
      cases t with
      | none => exact Or.inl h
      | some t =>
          cases h
          rcases Nat.le_total s t with hst | hts
          · exact Or.inl (congrArg some (Nat.min_eq_left hst).symm)
          · exact Or.inr (congrArg some (Nat.min_eq_right hts).symm)

namespace Timeline

/-- The context will be done at an instant at the latest: by a cancellation in the
past, by its deadline, or by a cancellation that somebody makes before. -/
def DoneBy (w : Timeline) (i : ContextId) (T : Instant) : Prop :=
  ∃ c, w.contexts.get? i = some c ∧
    (c.cancelled = true ∨ (∃ d, c.deadline = some d ∧ d ≤ T) ∨
      ∃ t, (t, i) ∈ w.agenda ∧ t < T ∧ w.now < T)

/-- Somebody cancels the context at the very instant. -/
def CancelledAt (w : Timeline) (i : ContextId) (T : Instant) : Prop := (T, i) ∈ w.agenda

/-- A wait for a context that ends at an instant at the latest. -/
def limited (i : ContextId) (T : Instant) : Wait := ⟨some i, some T⟩

theorem anyOver_limited {w : Timeline} {i : ContextId} {T : Instant} :
    w.anyOver [limited i T] = true ↔ w.Done i ∨ T ≤ w.now := by
  unfold Done
  cases he : w.error i with
  | none => simp [anyOver, limited, Wait.verdict, he]
  | some e => simp [anyOver, limited, Wait.verdict, he]

theorem Done.doneBy {w : Timeline} {i : ContextId} {T : Instant} (h : w.Done i)
    (hT : w.now ≤ T) : w.DoneBy i T := by
  obtain ⟨c, hc, he⟩ := done_iff.1 h
  unfold Context.error at he
  cases hcan : c.cancelled with
  | true => exact ⟨c, hc, Or.inl hcan⟩
  | false =>
      cases hd : c.deadline with
      | none => simp [hcan, hd] at he
      | some d =>
          have hdw : d ≤ w.now := by simpa [hcan, hd] using he
          exact ⟨c, hc, Or.inr (Or.inl ⟨d, hd, Nat.le_trans hdw hT⟩)⟩

/-- What is left to the clock when the limit has come. -/
theorem done_of_doneBy {w : Timeline} {i : ContextId} {T : Instant} (h : w.DoneBy i T)
    (hT : T ≤ w.now) : w.Done i := by
  obtain ⟨c, hc, hcan | ⟨d, hd, hdT⟩ | ⟨t, _, _, hlt⟩⟩ := h
  · exact done_iff.2 ⟨c, hc, by simp [Context.error, hcan]⟩
  · refine done_iff.2 ⟨c, hc, ?_⟩
    unfold Context.error
    split
    · simp
    · simp [hd, Nat.le_trans hdT hT]
  · exact absurd hlt (Nat.not_lt_of_le hT)

theorem deadline_eq_some {w : Timeline} {i : ContextId} {d : Instant}
    (h : w.deadline i = some d) : ∃ c, w.contexts.get? i = some c ∧ c.deadline = some d :=
  Option.bind_eq_some_iff.1 h

theorem firstTarget_singleton (w : Timeline) (x : Wait) : w.firstTarget [x] = x.target w := by
  unfold firstTarget
  cases h : x.target w <;> simp [h, Instant.earlier]

/-- When a wait would have ended by itself it is over. -/
theorem over_of_target {x : Wait} {w v : Timeline} {s : Instant}
    (hs : w.firstTarget [x] = some s) (hcs : v.contexts = w.contexts) (hnow : s ≤ v.now) :
    v.anyOver [x] = true := by
  rw [firstTarget_singleton] at hs
  rcases Instant.earlier_eq_some hs with hwake | hdeadline
  · cases he : x.context.bind v.error <;> simp [anyOver, Wait.verdict, he, hwake, hnow]
  · obtain ⟨i, hi, hd⟩ := Option.bind_eq_some_iff.1 hdeadline
    obtain ⟨c, hc, hcd⟩ := deadline_eq_some hd
    have hby : v.DoneBy i s := ⟨c, hcs ▸ hc, Or.inr (Or.inl ⟨s, hcd, Nat.le_refl s⟩)⟩
    obtain ⟨e, he⟩ := Option.ne_none_iff_exists'.1 (done_of_doneBy hby hnow)
    simp [anyOver, Wait.verdict, hi, he]

/-- A wait with a limit ends by itself at the limit or at the deadline of the context. -/
theorem firstTarget_limited (w : Timeline) (i : ContextId) (T : Instant) :
    ∃ s, w.firstTarget [limited i T] = some s ∧ s ≤ T ∧ (s = T ∨ w.deadline i = some s) := by
  simp only [firstTarget, List.foldr_cons, List.foldr_nil, Wait.target, limited,
    Option.bind_some]
  cases hd : w.deadline i with
  | none => exact ⟨T, rfl, Nat.le_refl T, Or.inl rfl⟩
  | some d =>
      refine ⟨min T d, rfl, Nat.min_le_left T d, ?_⟩
      rcases Nat.le_total T d with h | h
      · exact Or.inl (Nat.min_eq_left h)
      · exact Or.inr (congrArg some (Nat.min_eq_right h).symm)

/-- What a move of the clock within a wait with a limit keeps. -/
structure Closer (i : ContextId) (T : Instant) (w v : Timeline) : Prop where
  within : v.now ≤ T
  doneBy : w.DoneBy i T → v.DoneBy i T
  origin : v.DoneBy i T ∨ v.CancelledAt i T → w.DoneBy i T ∨ w.CancelledAt i T

/-- The clock goes to the end of the wait, before which nobody cancels anything. -/
theorem closer_target {now s : Instant} {cs : Contexts} {l : List (Instant × ContextId)}
    {hl : l.Pairwise (·.1 ≤ ·.1)} {i : ContextId} {T : Instant} (hT : now < T) (hs : s ≤ T)
    (hfirst : ∀ x ∈ l, s < x.1) : Closer i T ⟨now, cs, l, hl⟩ ⟨max now s, cs, l, hl⟩ := by
  refine ⟨Nat.max_le.2 ⟨Nat.le_of_lt hT, hs⟩, ?_, ?_⟩
  · rintro ⟨c, hc, hcan | hdl | ⟨t, ht, htT, _⟩⟩
    · exact ⟨c, hc, Or.inl hcan⟩
    · exact ⟨c, hc, Or.inr (Or.inl hdl)⟩
    · have hst : s < t := hfirst _ ht
      exact ⟨c, hc, Or.inr (Or.inr ⟨t, ht, htT, Nat.max_lt.2 ⟨hT, Nat.lt_trans hst htT⟩⟩)⟩
  · rintro (⟨c, hc, hcan | hdl | ⟨t, ht, htT, _⟩⟩ | hat)
    · exact Or.inl ⟨c, hc, Or.inl hcan⟩
    · exact Or.inl ⟨c, hc, Or.inr (Or.inl hdl)⟩
    · exact Or.inl ⟨c, hc, Or.inr (Or.inr ⟨t, ht, htT, hT⟩)⟩
    · exact Or.inr hat

/-- The clock goes to the next cancellation, which is carried out. -/
theorem closer_cancel {now t : Instant} {cs : Contexts} {j : ContextId}
    {rest : List (Instant × ContextId)} {hl : ((t, j) :: rest).Pairwise (·.1 ≤ ·.1)}
    {hr : rest.Pairwise (·.1 ≤ ·.1)} {i : ContextId} {T : Instant} (hT : now < T) (ht : t ≤ T) :
    Closer i T ⟨now, cs, (t, j) :: rest, hl⟩ ⟨max now t, cs.cancel j, rest, hr⟩ := by
  have hsorted : ∀ x ∈ rest, t ≤ x.1 := (List.pairwise_cons.1 hl).1
  refine ⟨Nat.max_le.2 ⟨Nat.le_of_lt hT, ht⟩, ?_, ?_⟩
  · rintro ⟨c, hc, h⟩
    rcases get?_cancel_keeps hc j with hk | hk
    · by_cases hji : j = i
      · refine ⟨c.cancel, ?_, Or.inl rfl⟩
        have hg := Contexts.get?_cancel cs j i
        rw [if_pos hji] at hg
        exact hg.trans (congrArg (Option.map Context.cancel) hc)
      · rcases h with hcan | hdl | ⟨s, hs, hsT, _⟩
        · exact ⟨c, hk, Or.inl hcan⟩
        · exact ⟨c, hk, Or.inr (Or.inl hdl)⟩
        · have hmem : (s, i) ∈ rest := by
            rcases List.mem_cons.1 hs with he | hmem
            · exact absurd (congrArg Prod.snd he).symm hji
            · exact hmem
          have hlt : max now t < T := Nat.max_lt.2 ⟨hT, Nat.lt_of_le_of_lt (hsorted _ hmem) hsT⟩
          exact ⟨c, hk, Or.inr (Or.inr ⟨s, hmem, hsT, hlt⟩)⟩
    · exact ⟨c.cancel, hk, Or.inl rfl⟩
  · rintro (⟨c, hc, h⟩ | hat)
    · have hg : (cs.cancel j).get? i = some c := hc
      rw [Contexts.get?_cancel] at hg
      split at hg
      · rename_i hji
        obtain ⟨b, hb, _⟩ := Option.map_eq_some_iff.1 hg
        have hmem : (t, i) ∈ (t, j) :: rest := hji ▸ List.mem_cons_self
        rcases Nat.lt_or_eq_of_le ht with hlt | rfl
        · exact Or.inl ⟨b, hb, Or.inr (Or.inr ⟨t, hmem, hlt, hT⟩)⟩
        · exact Or.inr hmem
      · rcases h with hcan | hdl | ⟨s, hs, hsT, _⟩
        · exact Or.inl ⟨c, hg, Or.inl hcan⟩
        · exact Or.inl ⟨c, hg, Or.inr (Or.inl hdl)⟩
        · exact Or.inl ⟨c, hg, Or.inr (Or.inr ⟨s, List.mem_cons_of_mem _ hs, hsT, hT⟩)⟩
    · exact Or.inr (List.mem_cons_of_mem _ hat)

/-- A wait with a limit that is not over comes closer to its end with each move. -/
theorem step_limited {w : Timeline} {i : ContextId} {T : Instant} (hT : w.now < T) :
    ∃ v, w.step? (w.firstTarget [limited i T]) = some v ∧ Closer i T w v ∧
      (v.agenda.length < w.agenda.length ∨ v.anyOver [limited i T] = true) := by
  obtain ⟨s, hs, hsT, _⟩ := firstTarget_limited w i T
  have hover : ∀ v : Timeline, v.contexts = w.contexts → v.now = max w.now s →
      v.anyOver [limited i T] = true :=
    fun v hcs hnow => over_of_target hs hcs (hnow ▸ Nat.le_max_right _ _)
  rw [hs]
  obtain ⟨now, cs, _ | ⟨⟨t, j⟩, rest⟩, hl⟩ := w
  · exact ⟨_, rfl, closer_target hT hsT (by simp), Or.inr (hover _ rfl rfl)⟩
  · by_cases hst : s < t
    · refine ⟨⟨max now s, cs, (t, j) :: rest, hl⟩, if_pos hst, closer_target hT hsT ?_,
        Or.inr (hover _ rfl rfl)⟩
      intro x hx
      rcases List.mem_cons.1 hx with rfl | hx
      · exact hst
      · exact Nat.lt_of_lt_of_le hst ((List.pairwise_cons.1 hl).1 x hx)
    · have ht : t ≤ T := Nat.le_trans (Nat.le_of_not_lt hst) hsT
      exact ⟨⟨max now t, cs.cancel j, rest, hl.of_cons⟩, if_neg hst, closer_cancel hT ht,
        Or.inl (Nat.lt_succ_self _)⟩

theorem reachWithin_limited {i : ContextId} {T : Instant} :
    ∀ (n : Nat) (w : Timeline), w.now ≤ T →
      (w.agenda.length < n ∨ w.anyOver [limited i T] = true) →
      ∃ v, reachWithin [limited i T] n w = some v ∧ v.anyOver [limited i T] = true ∧
        Closer i T w v := by
  intro n
  induction n with
  | zero =>
      intro w hT hn
      rcases hn with hn | ho
      · exact absurd hn (Nat.not_lt_zero _)
      · exact ⟨w, reachWithin_of_over ho 0, ho, hT, id, id⟩
  | succ n ih =>
      intro w hT hn
      by_cases ho : w.anyOver [limited i T] = true
      · exact ⟨w, reachWithin_of_over ho _, ho, hT, id, id⟩
      · have hlt : w.now < T := Nat.lt_of_not_le fun h => ho (anyOver_limited.2 (Or.inr h))
        obtain ⟨u, hu, hwu, hless⟩ := step_limited (i := i) hlt
        have hlen : w.agenda.length < n + 1 := hn.resolve_right ho
        have hnext : u.agenda.length < n ∨ u.anyOver [limited i T] = true := by
          rcases hless with h | h
          · exact Or.inl (by omega)
          · exact Or.inr h
        obtain ⟨v, hv, hvo, huv⟩ := ih u hwu.within hnext
        refine ⟨v, ?_, hvo, huv.within, huv.doneBy ∘ hwu.doneBy, hwu.origin ∘ huv.origin⟩
        simp only [reachWithin, ho, hu]
        exact hv

/-- A wait with a limit ends within it.  It answers with an error if the context will be
done by then, and only if somebody cancels it at the limit otherwise. -/
theorem await_limit {w : Timeline} {i : ContextId} {T : Instant} (hT : w.now ≤ T) :
    ∃ r v, w.await (limited i T) = some (r, v) ∧ r = v.error i ∧ v.now ≤ T ∧
      (w.DoneBy i T → r ≠ none) ∧ (r ≠ none → w.DoneBy i T ∨ w.CancelledAt i T) ∧
      (r = none → v.now = T) := by
  obtain ⟨v, hv, ho, hc⟩ :=
    reachWithin_limited (i := i) (w.agenda.length + 1) w hT (Or.inl (Nat.lt_succ_self _))
  have hverdict : (limited i T).verdict v = some (v.error i) := by
    cases he : v.error i with
    | some e => simp [Wait.verdict, limited, he]
    | none =>
        have hnow : T ≤ v.now := (anyOver_limited.1 ho).resolve_left (by simp [Done, he])
        simp [Wait.verdict, limited, he, hnow]
  refine ⟨v.error i, v, ?_, rfl, hc.within, ?_, ?_, ?_⟩
  · simp only [await, reach, hv, Option.bind_some, hverdict, Option.map_some]
  · intro h he
    rcases anyOver_limited.1 ho with hd | hnow
    · exact hd he
    · exact done_of_doneBy (hc.doneBy h) hnow he
  · exact fun he => hc.origin (Or.inl (Done.doneBy he hc.within))
  · intro he
    have hnow : T ≤ v.now := (anyOver_limited.1 ho).resolve_left fun hd => hd he
    exact Nat.le_antisymm hc.within hnow

end Timeline

end Limits

end TransactionAttempts
