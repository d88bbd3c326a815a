import Mathlib.Data.List.Sort
import TransactionAttempts.Context.Handles

/-!
# How an action passes

An action first does its deed, which takes no time.  Then the clock goes from position
to position, and at each of them what is due by some instant happens.  When the foreground
sleeps or waits, position and instant are the same.  When the clock jumps, the position
is where it jumped to.

**Foreseeing.**  A state of the handles foresees the error of a context at any later
instant, as it would be if nobody acted any more.  What happens at the positions of the
clock changes nothing about that.

Main facts:

* `step_eq`: an action is its deed and what happens at the positions of the clock;
* `foreseen_foldl_visit`, `foreseen_step`: what is foreseen comes true;
* `Itinerary`, `itinerary_visits`: which positions those are;
* `settle_of_quiet`: where nothing is due, nothing happens.
-/

namespace TransactionAttempts

section Limits

theorem Instant.le_afterSleep (now : Instant) (d : Duration) : now ≤ Instant.afterSleep now d :=
  Nat.le_add_right ..

theorem Instant.le_afterLimit (now : Instant) (d : Duration) : now ≤ Instant.afterLimit now d := by
  unfold Instant.afterLimit Instant.after?
  split
  · exact Nat.le_add_right ..
  · exact Instant.le_afterSleep now d

end Limits

/-- The actions that take time. -/
def HandleAction.movesClock : HandleAction → Bool
  | .advance _ => true
  | .sleep _ => true
  | .awaitEnd _ _ => true
  | _ => false

namespace Handles

variable {s : Handles} {i : ContextId} {u : Instant}

section Firing

/-- A cancellation of the context is due by an instant. -/
def fires (due : Instant) (agenda : List (Instant × ContextId)) (i : ContextId) : Bool :=
  agenda.any fun x => x.1 ≤ due && x.2 == i

theorem fires_iff {due : Instant} {agenda : List (Instant × ContextId)} :
    fires due agenda i = true ↔ ∃ t, (t, i) ∈ agenda ∧ t ≤ due := by
  simp [fires]

theorem get?_fire (due : Instant) (agenda : List (Instant × ContextId)) (cs : Contexts) :
    (fire due agenda cs).get? i =
      (cs.get? i).map fun c => ⟨c.cancelled || fires due agenda i, c.deadline⟩ := by
  induction agenda generalizing cs with
  | nil => simp [fire, fires]
  | cons x rest ih =>
      obtain ⟨t, j⟩ := x
      simp only [fire, ih]
      by_cases ht : t ≤ due
      · by_cases hj : j = i
        · simp [ht, hj, fires, Contexts.get?_cancel, Function.comp_def, Context.cancel]
        · have hne : (j == i) = false := by simpa using hj
          simp [ht, hj, hne, fires, Contexts.get?_cancel]
      · simp [ht, fires]

theorem size_fire (due : Instant) (agenda : List (Instant × ContextId)) (cs : Contexts) :
    (fire due agenda cs).size = cs.size := by
  induction agenda generalizing cs with
  | nil => rfl
  | cons x rest ih =>
      obtain ⟨t, j⟩ := x
      rw [fire, ih]
      split
      · exact List.length_modify ..
      · rfl

/-- What is due by an earlier instant may happen first. -/
theorem fires_filter {due : Instant} (h : due ≤ u) (agenda : List (Instant × ContextId)) :
    (fires due agenda i || fires u (agenda.filter (due < ·.1)) i) = fires u agenda i := by
  rw [Bool.eq_iff_iff, Bool.or_eq_true]
  simp only [fires_iff, List.mem_filter, decide_eq_true_eq]
  constructor
  · rintro (⟨t, ht, hle⟩ | ⟨t, ⟨ht, -⟩, hle⟩)
    · exact ⟨t, ht, Nat.le_trans hle h⟩
    · exact ⟨t, ht, hle⟩
  · rintro ⟨t, ht, hle⟩
    rcases Nat.lt_or_ge due t with hlt | hge
    · exact Or.inr ⟨t, ⟨ht, hlt⟩, hle⟩
    · exact Or.inl ⟨t, ht, hge⟩

/-- The error that a context will have at an instant if nobody acts any more. -/
def foreseen (s : Handles) (i : ContextId) (u : Instant) : Option ContextError :=
  (fire u s.timeline.agenda s.timeline.contexts).error u i

theorem foreseen_eq (s : Handles) (i : ContextId) (u : Instant) :
    s.foreseen i u = (s.timeline.contexts.get? i).bind fun c =>
      Context.error ⟨c.cancelled || fires u s.timeline.agenda i, c.deadline⟩ u := by
  simp [foreseen, Contexts.error, get?_fire, Option.bind_map]

end Firing

section Visiting

/-- The clock goes to a position, and what is due by an instant happens there. -/
def visit (s : Handles) (v : Instant × Instant) : Handles :=
  { s with timeline := { s.timeline with now := v.2 } }.settle v.1

theorem get?_visit (s : Handles) (v : Instant × Instant) :
    (s.visit v).timeline.contexts.get? i = (s.timeline.contexts.get? i).map fun c =>
      ⟨c.cancelled || fires v.1 s.timeline.agenda i, c.deadline⟩ :=
  get?_fire _ _ _

theorem deadline_visit (s : Handles) (v : Instant × Instant) :
    (s.visit v).timeline.deadline i = s.timeline.deadline i := by
  simp [Timeline.deadline, Contexts.deadline, get?_visit, Option.bind_map]

/-- What happens by an instant is part of what is foreseen for a later one. -/
theorem foreseen_visit {v : Instant × Instant} (h : v.1 ≤ u) :
    (s.visit v).foreseen i u = s.foreseen i u := by
  have hfires : (s.visit v).timeline.agenda = s.timeline.agenda.filter (v.1 < ·.1) := rfl
  rw [foreseen_eq, foreseen_eq, get?_visit, hfires, Option.bind_map]
  simp only [Function.comp_def, Bool.or_assoc, fires_filter h]

/-- The error of a context at a position that is due itself. -/
theorem error_visit (s : Handles) (i : ContextId) (t : Instant) :
    (s.visit (t, t)).timeline.error i = s.foreseen i t := rfl

theorem named_foldl_visit (s : Handles) (vs : List (Instant × Instant)) :
    (vs.foldl visit s).named = s.named := by
  induction vs generalizing s with
  | nil => rfl
  | cons v vs ih => exact ih (s.visit v)

theorem deadline_foldl_visit (s : Handles) (vs : List (Instant × Instant)) :
    (vs.foldl visit s).timeline.deadline i = s.timeline.deadline i := by
  induction vs generalizing s with
  | nil => rfl
  | cons v vs ih => exact (ih (s.visit v)).trans (deadline_visit s v)

theorem size_foldl_visit (s : Handles) (vs : List (Instant × Instant)) :
    (vs.foldl visit s).timeline.contexts.size = s.timeline.contexts.size := by
  induction vs generalizing s with
  | nil => rfl
  | cons v vs ih => exact (ih (s.visit v)).trans (size_fire ..)

theorem agenda_foldl_visit_subset (s : Handles) (vs : List (Instant × Instant)) :
    (vs.foldl visit s).timeline.agenda ⊆ s.timeline.agenda := by
  induction vs generalizing s with
  | nil => exact List.Subset.refl _
  | cons v vs ih => exact List.Subset.trans (ih (s.visit v)) (List.filter_subset_self _)

theorem foreseen_foldl_visit {vs : List (Instant × Instant)} (h : ∀ v ∈ vs, v.1 ≤ u) :
    (vs.foldl visit s).foreseen i u = s.foreseen i u := by
  induction vs generalizing s with
  | nil => rfl
  | cons v vs ih =>
      rw [List.foldl_cons, ih fun w hw => h w (List.mem_cons_of_mem _ hw)]
      exact foreseen_visit (h v List.mem_cons_self)

/-- Along sorted positions the clock never goes back. -/
theorem le_now_foldl_visit {ts : List Instant} (hts : ts.Pairwise (· ≤ ·))
    (hnow : ∀ t ∈ ts, s.timeline.now ≤ t) :
    s.timeline.now ≤ ((ts.map fun t => (t, t)).foldl visit s).timeline.now ∧
      ∀ t ∈ ts, t ≤ ((ts.map fun t => (t, t)).foldl visit s).timeline.now := by
  induction ts generalizing s with
  | nil => simp
  | cons t ts ih =>
      obtain ⟨ht, hts⟩ := List.pairwise_cons.1 hts
      obtain ⟨hle, hrest⟩ := ih (s := s.visit (t, t)) hts ht
      refine ⟨Nat.le_trans (hnow t List.mem_cons_self) hle, fun x hx => ?_⟩
      rcases List.mem_cons.1 hx with rfl | hx
      · exact hle
      · exact hrest x hx

theorem now_foldl_visit_mem (ts : List Instant) (s : Handles) :
    ((ts.map fun t => (t, t)).foldl visit s).timeline.now = s.timeline.now ∨
      ((ts.map fun t => (t, t)).foldl visit s).timeline.now ∈ ts := by
  induction ts generalizing s with
  | nil => exact Or.inl rfl
  | cons t ts ih =>
      rcases ih (s.visit (t, t)) with h | h
      · exact Or.inr (List.mem_cons.2 (Or.inl h))
      · exact Or.inr (List.mem_cons_of_mem _ h)

end Visiting

section Stepping

/-- What an action does at once. -/
def deed (s : Handles) : HandleAction → Handles
  | .advance _ => s
  | .sleep _ => s
  | .awaitEnd _ _ => s
  | a => (s.act a).2

/-- The positions that a wait in the foreground goes to. -/
def walk (i : ContextId) : List Instant → Handles → List Instant
  | [], _ => []
  | t :: rest, s =>
      match s.timeline.error i with
      | some _ => []
      | none => t :: walk i rest (s.moveTo t)

theorem awaitAlong_eq_walk (i : ContextId) (ts : List Instant) (s : Handles) :
    (awaitAlong i ts s).2 = ((walk i ts s).map fun t => (t, t)).foldl visit s := by
  induction ts generalizing s with
  | nil => rfl
  | cons t rest ih =>
      cases he : s.timeline.error i with
      | some e => simp [awaitAlong, walk, he]
      | none =>
          simp only [awaitAlong, walk, he, List.map_cons, List.foldl_cons]
          exact ih (s.moveTo t)

theorem walk_initial (i : ContextId) (ts : List Instant) (s : Handles) : walk i ts s <+: ts := by
  induction ts generalizing s with
  | nil => exact List.prefix_rfl
  | cons t rest ih =>
      cases he : s.timeline.error i with
      | some e => simp [walk, he]
      | none => simpa [walk, he] using ih (s.moveTo t)

/-- Where the clock goes while an action lasts, and what is due there. -/
def path (s : Handles) : HandleAction → List (Instant × Instant)
  | .advance d =>
      let last := s.timeline.now + d.nanos
      (s.stops none last).map (·, last)
  | .sleep d => (s.stops none (Instant.afterSleep s.timeline.now d)).map fun t => (t, t)
  | .awaitEnd handle limit =>
      match s.find? handle with
      | some i =>
          let last := Instant.afterLimit s.timeline.now limit
          (walk i (s.stops (s.timeline.deadline i) last) s).map fun t => (t, t)
      | none => []
  | _ => []

/-- The position of the clock after an action. -/
def arrival (s : Handles) (a : HandleAction) : Instant := (s.act a).2.timeline.now

/-- The positions of the clock from the beginning of an action to the next, and what is
due there. -/
def visits (s : Handles) (a : HandleAction) : List (Instant × Instant) :=
  s.path a ++ [(s.arrival a, s.arrival a)]

theorem foldl_settle (ts : List Instant) (s : Handles) :
    ts.foldl settle s = (ts.map (·, s.timeline.now)).foldl visit s := by
  induction ts generalizing s with
  | nil => rfl
  | cons t ts ih => exact ih (s.settle t)

/-- Where the clock stood before it goes to a position does not matter. -/
theorem foldl_visit_of_ne_nil {vs : List (Instant × Instant)} (h : vs ≠ []) (s : Handles)
    (t : Instant) :
    vs.foldl visit { s with timeline := { s.timeline with now := t } } = vs.foldl visit s := by
  cases vs with
  | nil => exact absurd rfl h
  | cons v vs => rfl

theorem act_eq (s : Handles) (a : HandleAction) :
    (s.act a).2 = (s.path a).foldl visit (s.deed a) := by
  cases a with
  | advance d =>
      refine (foldl_settle _ _).trans (foldl_visit_of_ne_nil ?_ s _)
      simp [stops]
  | sleep d =>
      show (s.stops none _).foldl moveTo s = _
      rw [path, List.foldl_map]
      rfl
  | awaitEnd handle limit =>
      cases hi : s.find? handle with
      | some i => simpa [act, path, deed, hi] using awaitAlong_eq_walk i _ s
      | none => simp [act, path, deed, hi]
  | _ => rfl

/-- An action is its deed and what happens at the positions of the clock. -/
theorem step_eq (s : Handles) (a : HandleAction) :
    (s.step a).2 = (s.visits a).foldl visit (s.deed a) := by
  rw [visits, List.foldl_append, ← act_eq]
  rfl

end Stepping

section Positions

/-- The positions of the clock during an action, and what is due there. -/
structure Itinerary (s : Handles) (vs : List (Instant × Instant)) (last : Instant) : Prop where
  /-- What becomes due happens in order. -/
  sorted : vs.Pairwise (·.1 ≤ ·.1)
  /-- It happens when it is due or later. -/
  due : ∀ v ∈ vs, s.timeline.now ≤ v.1 ∧ v.1 ≤ v.2 ∧ v.2 ≤ last
  /-- The clock goes to the very instants, or it jumps over all of them. -/
  exact : (∀ v ∈ vs, v.2 = v.1) ∨ ∀ v ∈ vs, v.2 = last
  ending : (last, last) ∈ vs
  /-- No deadline of a waiting task is passed over. -/
  deadlines : ∀ x ∈ s.waiting, ∀ d, s.timeline.deadline x.2 = some d → s.timeline.now < d →
    ∀ v ∈ vs, d < v.1 → ∃ w ∈ vs, w.1 = d

theorem mem_stops {extra : Option Instant} {last t : Instant} :
    t ∈ s.stops extra last ↔ t = last ∨ (s.timeline.now < t ∧ t < last) ∧
      ((∃ x ∈ s.timeline.agenda, x.1 = t) ∨
        (∃ x ∈ s.waiting, s.timeline.deadline x.2 = some t) ∨ extra = some t) := by
  simp only [stops, List.mem_append, List.mem_mergeSort, List.mem_filter, List.mem_map,
    List.mem_filterMap, Option.mem_toList, List.mem_singleton, decide_eq_true_eq, or_assoc]
  rw [or_comm, and_comm]

theorem sorted_stops (s : Handles) (extra : Option Instant) (last : Instant) :
    (s.stops extra last).Pairwise (· ≤ ·) := by
  refine List.pairwise_append.2 ⟨?_, List.pairwise_singleton .., ?_⟩
  · exact List.pairwise_mergeSort' (· ≤ ·) _
  · intro t ht x hx
    obtain rfl := List.mem_singleton.1 hx
    have hlt : t < x := by
      simp only [List.mem_mergeSort, List.mem_filter, decide_eq_true_eq] at ht
      exact ht.2.2
    exact Nat.le_of_lt hlt

theorem now_le_of_mem_stops {extra : Option Instant} {last t : Instant}
    (hlast : s.timeline.now ≤ last) (ht : t ∈ s.stops extra last) : s.timeline.now ≤ t := by
  rcases mem_stops.1 ht with rfl | ⟨⟨hlt, _⟩, _⟩
  · exact hlast
  · exact Nat.le_of_lt hlt

theorem le_of_mem_stops {extra : Option Instant} {last t : Instant}
    (ht : t ∈ s.stops extra last) : t ≤ last := by
  rcases mem_stops.1 ht with rfl | ⟨⟨_, hlt⟩, _⟩
  · exact Nat.le_refl _
  · exact Nat.le_of_lt hlt

/-- What comes before an item of a sorted list stands in every beginning with that item. -/
theorem mem_of_sorted_initial {ts us : List Instant} (hts : ts.Pairwise (· ≤ ·)) (h : us <+: ts)
    {d t : Instant} (hd : d ∈ ts) (ht : t ∈ us) (hlt : d < t) : d ∈ us := by
  obtain ⟨vs, rfl⟩ := h
  rcases List.mem_append.1 hd with hd | hd
  · exact hd
  · exact absurd ((List.pairwise_append.1 hts).2.2 t ht d hd) (Nat.not_le_of_lt hlt)

/-- The clock stays where it is. -/
theorem itinerary_instant (s : Handles) :
    Itinerary s [(s.timeline.now, s.timeline.now)] s.timeline.now where
  sorted := List.pairwise_singleton ..
  due v hv := by
    obtain rfl := List.mem_singleton.1 hv
    exact ⟨Nat.le_refl _, Nat.le_refl _, Nat.le_refl _⟩
  exact := Or.inl fun v hv => by rw [List.mem_singleton.1 hv]
  ending := List.mem_singleton_self _
  deadlines x _ d _ hd v hv hlt := by
    obtain rfl := List.mem_singleton.1 hv
    exact absurd hd (Nat.lt_asymm hlt)

/-- The clock jumps. -/
theorem itinerary_jump {last : Instant} (h : s.timeline.now ≤ last) :
    Itinerary s ((s.stops none last).map (·, last) ++ [(last, last)]) last where
  sorted := by
    refine List.pairwise_append.2 ⟨List.pairwise_map.2 (sorted_stops s none last),
      List.pairwise_singleton .., fun v hv w hw => ?_⟩
    obtain ⟨t, ht, rfl⟩ := List.mem_map.1 hv
    obtain rfl := List.mem_singleton.1 hw
    exact le_of_mem_stops ht
  due v hv := by
    rcases List.mem_append.1 hv with hv | hv
    · obtain ⟨t, ht, rfl⟩ := List.mem_map.1 hv
      exact ⟨now_le_of_mem_stops h ht, le_of_mem_stops ht, Nat.le_refl _⟩
    · obtain rfl := List.mem_singleton.1 hv
      exact ⟨h, Nat.le_refl _, Nat.le_refl _⟩
  exact := Or.inr fun v hv => by
    rcases List.mem_append.1 hv with hv | hv
    · obtain ⟨t, _, rfl⟩ := List.mem_map.1 hv
      rfl
    · rw [List.mem_singleton.1 hv]
  ending := List.mem_append_right _ (List.mem_singleton_self _)
  deadlines x hx d hd hnow v hv hlt := by
    have hlast : d < last := by
      rcases List.mem_append.1 hv with hv | hv
      · obtain ⟨t, ht, rfl⟩ := List.mem_map.1 hv
        exact Nat.lt_of_lt_of_le hlt (le_of_mem_stops ht)
      · obtain rfl := List.mem_singleton.1 hv
        exact hlt
    have hmem : d ∈ s.stops none last :=
      mem_stops.2 (Or.inr ⟨⟨hnow, hlast⟩, Or.inr (Or.inl ⟨x, hx, hd⟩)⟩)
    exact ⟨(d, last), List.mem_append_left _ (List.mem_map_of_mem hmem), rfl⟩

/-- The clock goes along a beginning of the stops. -/
theorem itinerary_walk {extra : Option Instant} {last : Instant} {ts : List Instant}
    (hlast : s.timeline.now ≤ last) (hts : ts <+: s.stops extra last) :
    let there := ((ts.map fun t => (t, t)).foldl visit s).timeline.now
    Itinerary s (ts.map (fun t => (t, t)) ++ [(there, there)]) there := by
  have hsorted : ts.Pairwise (· ≤ ·) := (sorted_stops s extra last).sublist hts.sublist
  have hnow : ∀ t ∈ ts, s.timeline.now ≤ t := fun t ht =>
    now_le_of_mem_stops hlast (hts.subset ht)
  obtain ⟨hle, hmax⟩ := le_now_foldl_visit hsorted hnow
  intro there
  have hcases : ∀ {v}, v ∈ ts.map (fun t => (t, t)) ++ [(there, there)] →
      (∃ t ∈ ts, v = (t, t)) ∨ v = (there, there) := fun {v} hv => by
    rcases List.mem_append.1 hv with hv | hv
    · obtain ⟨t, ht, rfl⟩ := List.mem_map.1 hv
      exact Or.inl ⟨t, ht, rfl⟩
    · exact Or.inr (List.mem_singleton.1 hv)
  refine ⟨?_, fun v hv => ?_, Or.inl fun v hv => ?_, ?_, fun x hx d hd hlt v hv hdv => ?_⟩
  · refine List.pairwise_append.2 ⟨List.pairwise_map.2 hsorted,
      List.pairwise_singleton .., fun v hv w hw => ?_⟩
    obtain ⟨t, ht, rfl⟩ := List.mem_map.1 hv
    obtain rfl := List.mem_singleton.1 hw
    exact hmax t ht
  · rcases hcases hv with ⟨t, ht, rfl⟩ | rfl
    · exact ⟨hnow t ht, Nat.le_refl _, hmax t ht⟩
    · exact ⟨hle, Nat.le_refl _, Nat.le_refl _⟩
  · rcases hcases hv with ⟨t, _, rfl⟩ | rfl
    · rfl
    · rfl
  · exact List.mem_append_right _ (List.mem_singleton_self _)
  · -- the clock ends where it has gone, unless it has not moved
    have hv : ∃ t ∈ ts, d < t := by
      rcases hcases hv with ⟨t, ht, rfl⟩ | rfl
      · exact ⟨t, ht, hdv⟩
      · rcases now_foldl_visit_mem ts s with hstay | hmem
        · exact absurd hlt (Nat.not_lt_of_le (Nat.le_of_lt (hstay ▸ hdv)))
        · exact ⟨_, hmem, hdv⟩
    obtain ⟨t, ht, hdt⟩ := hv
    have hstop : d ∈ s.stops extra last :=
      mem_stops.2 (Or.inr ⟨⟨hlt, Nat.lt_of_lt_of_le hdt (le_of_mem_stops (hts.subset ht))⟩,
        Or.inr (Or.inl ⟨x, hx, hd⟩)⟩)
    have hmem : d ∈ ts := mem_of_sorted_initial (sorted_stops s extra last) hts hstop ht hdt
    exact ⟨(d, d), List.mem_append_left _ (List.mem_map_of_mem hmem), rfl⟩

theorem now_foldl_settle (ts : List Instant) (s : Handles) :
    (ts.foldl settle s).timeline.now = s.timeline.now := by
  induction ts generalizing s with
  | nil => rfl
  | cons t ts ih => exact ih (s.settle t)

theorem arrival_of_instant (s : Handles) {a : HandleAction} (h : a.movesClock = false) :
    s.arrival a = s.timeline.now := by
  cases a with
  | clone handle source => cases hi : s.find? source <;> simp [arrival, act, hi]
  | cancel handle => cases hi : s.find? handle <;> simp [arrival, act, hi, Timeline.cancel]
  | cancelAfter handle delay =>
      cases hi : s.find? handle <;> simp [arrival, act, hi, Timeline.schedule]
  | watch handle task => cases hi : s.find? handle <;> simp [arrival, act, hi]
  | advance => cases h
  | sleep => cases h
  | awaitEnd => cases h
  | _ => rfl

/-- Where the clock goes during an action. -/
theorem itinerary_visits (s : Handles) (a : HandleAction) :
    Itinerary s (s.visits a) (s.arrival a) := by
  cases a with
  | advance d =>
      have harrival : s.arrival (.advance d) = s.timeline.now + d.nanos := now_foldl_settle _ _
      rw [visits, harrival]
      exact itinerary_jump (Nat.le_add_right ..)
  | sleep d =>
      have harrival : s.arrival (.sleep d) = ((s.path (.sleep d)).foldl visit s).timeline.now :=
        congrArg (·.timeline.now) (act_eq s (.sleep d))
      rw [visits, harrival]
      exact itinerary_walk (Instant.le_afterSleep _ d) List.prefix_rfl
  | awaitEnd handle limit =>
      have harrival : s.arrival (.awaitEnd handle limit) =
          ((s.path (.awaitEnd handle limit)).foldl visit s).timeline.now :=
        congrArg (·.timeline.now) (act_eq s (.awaitEnd handle limit))
      rw [visits, harrival]
      cases hi : s.find? handle with
      | some i =>
          simp only [path, hi]
          exact itinerary_walk (Instant.le_afterLimit _ limit) (walk_initial i _ s)
      | none =>
          simp only [path, hi]
          exact itinerary_instant s
  | _ =>
      rw [visits, arrival_of_instant _ rfl]
      exact itinerary_instant s

theorem now_le_arrival (s : Handles) (a : HandleAction) : s.timeline.now ≤ s.arrival a := by
  obtain ⟨hle, _⟩ := (itinerary_visits s a).due _ (itinerary_visits s a).ending
  exact hle

end Positions

section Outcomes

theorem now_step (s : Handles) (a : HandleAction) :
    (s.step a).2.timeline.now = s.arrival a := rfl

theorem named_step (s : Handles) (a : HandleAction) : (s.step a).2.named = (s.deed a).named := by
  rw [step_eq, named_foldl_visit]

theorem deadline_step (s : Handles) (a : HandleAction) :
    (s.step a).2.timeline.deadline i = (s.deed a).timeline.deadline i := by
  rw [step_eq, deadline_foldl_visit]

theorem size_step (s : Handles) (a : HandleAction) :
    (s.step a).2.timeline.contexts.size = (s.deed a).timeline.contexts.size := by
  rw [step_eq, size_foldl_visit]

theorem agenda_step_subset (s : Handles) (a : HandleAction) :
    (s.step a).2.timeline.agenda ⊆ (s.deed a).timeline.agenda := by
  rw [step_eq]
  exact agenda_foldl_visit_subset ..

/-- What is foreseen after an action's deed comes true. -/
theorem foreseen_step {a : HandleAction} (h : s.arrival a ≤ u) :
    (s.step a).2.foreseen i u = (s.deed a).foreseen i u := by
  rw [step_eq]
  refine foreseen_foldl_visit fun v hv => ?_
  obtain ⟨_, hle, hlast⟩ := (itinerary_visits s a).due v hv
  exact Nat.le_trans (Nat.le_trans hle hlast) h

/-- Nothing is due. -/
structure Quiet (s : Handles) : Prop where
  agenda : ∀ x ∈ s.timeline.agenda, s.timeline.now < x.1
  waiting : ∀ x ∈ s.waiting, s.timeline.error x.2 = none

theorem quiet_empty : empty.Quiet := ⟨by simp [empty, Timeline.start], by simp [empty]⟩

theorem quiet_step (s : Handles) (a : HandleAction) : (s.step a).2.Quiet where
  agenda _ hx := of_decide_eq_true (List.mem_filter.1 hx).2
  waiting _ hx := Option.isNone_iff_eq_none.1 (List.mem_filter.1 hx).2

theorem Quiet.fires (h : s.Quiet) : fires s.timeline.now s.timeline.agenda i = false := by
  rw [Bool.eq_false_iff]
  intro hfires
  obtain ⟨t, ht, hle⟩ := fires_iff.1 hfires
  exact absurd hle (Nat.not_le_of_lt (h.agenda _ ht))

/-- Where nothing is due, the present is what is foreseen for it. -/
theorem Quiet.foreseen_now (h : s.Quiet) :
    s.foreseen i s.timeline.now = s.timeline.error i := by
  simp [foreseen_eq, h.fires, Timeline.error, Contexts.error]

theorem fire_of_lt {due : Instant} {agenda : List (Instant × ContextId)}
    (h : ∀ x ∈ agenda, due < x.1) (cs : Contexts) : fire due agenda cs = cs := by
  induction agenda with
  | nil => rfl
  | cons x rest ih =>
      obtain ⟨hx, hrest⟩ := List.forall_mem_cons.1 h
      simpa [fire, Nat.not_le_of_lt hx] using ih hrest

/-- A waiting task sees the end of its context, if it has come. -/
def note (error : ContextId → Option ContextError) (now : Instant)
    (done : List (String × ContextError × Instant)) (x : String × ContextId) :
    List (String × ContextError × Instant) :=
  match error x.2 with
  | some e => enter x.1 (e, now) done
  | none => done

theorem finished_visit (s : Handles) (v : Instant × Instant) :
    (s.visit v).finished = s.waiting.foldl (note (s.foreseen · v.1) v.2) s.finished := rfl

theorem foldl_note_of_none {error : ContextId → Option ContextError}
    {l : List (String × ContextId)} (h : ∀ x ∈ l, error x.2 = none) (now : Instant)
    (done : List (String × ContextError × Instant)) : l.foldl (note error now) done = done := by
  induction l with
  | nil => rfl
  | cons x l ih =>
      obtain ⟨hx, hl⟩ := List.forall_mem_cons.1 h
      simpa [note, hx] using ih hl

/-- Where nothing is due, nothing happens. -/
theorem settle_of_quiet (h : s.Quiet) : s.settle s.timeline.now = s := by
  have hfire := fire_of_lt h.agenda s.timeline.contexts
  have hagenda : s.timeline.agenda.filter (s.timeline.now < ·.1) = s.timeline.agenda :=
    List.filter_eq_self.2 fun x hx => decide_eq_true (h.agenda x hx)
  have hwaiting : s.waiting.filter
      (fun x => (s.timeline.contexts.error s.timeline.now x.2).isNone) = s.waiting :=
    List.filter_eq_self.2 fun x hx => Option.isNone_iff_eq_none.2 (h.waiting x hx)
  have hfinished : s.waiting.foldl (note (s.timeline.contexts.error s.timeline.now)
      s.timeline.now) s.finished = s.finished :=
    foldl_note_of_none h.waiting _ _
  obtain ⟨⟨now, cs, agenda, hsorted⟩, named, waiting, finished⟩ := s
  simp only [settle] at *
  simp only [hfire, hagenda, hwaiting, Handles.mk.injEq, true_and]
  exact hfinished

end Outcomes

end Handles

end TransactionAttempts
