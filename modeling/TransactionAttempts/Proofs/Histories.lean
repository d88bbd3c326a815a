import TransactionAttempts.Proofs.Families

/-!
# What a history tells about contexts

The state of the handles agrees with their history (`Kept`): what the history tells of a
family at an instant is what the state foresees for it.  One action keeps the agreement,
since it changes what is told and what is foreseen in the same way, and whatever happens at
the positions of the clock has been foreseen.

Main facts:

* `follows_step`, `follows_lineage`: names and families are those of the lineage;
* `kept_step`, `kept`: one action keeps the agreement, and so all histories lead to it;
* `context_history`: deadline and error of every handle, and how they change.
-/

namespace TransactionAttempts

namespace Handles

variable {acts : List HandleAction} {a : HandleAction} {i : ContextId} {u : Instant}

section Deeds

variable {s : Handles}

/-- A list of pairs with a name entered has its value there. -/
theorem lookup_enter_eq {β : Type} (name : String) (b : β) (l : List (String × β)) (x : String) :
    (enter name b l).lookup x = Function.update (fun y => l.lookup y) name (some b) x := by
  by_cases h : x = name
  · subst h
    simp [lookup_enter]
  · simp [lookup_enter_ne h, h]

theorem lookup_filter_ne {β : Type} (name : String) (l : List (String × β)) (x : String) :
    (l.filter (·.1 ≠ name)).lookup x = Function.update (fun y => l.lookup y) name none x := by
  induction l with
  | nil => by_cases h : x = name <;> simp [h]
  | cons y l ih =>
      obtain ⟨k, v⟩ := y
      by_cases hx : x = name
      · subst hx
        by_cases hk : k = x
        · simpa [hk] using ih
        · have hne : (x == k) = false := by simpa using Ne.symm hk
          simpa [hk, List.lookup_cons, hne] using ih
      · by_cases hk : k = name
        · subst hk
          have hne : (x == k) = false := by simpa using hx
          simpa [hx, List.lookup_cons, hne] using ih
        · cases hxk : x == k with
          | true => simp [hk, hx, List.lookup_cons, hxk]
          | false => simpa [hk, hx, List.lookup_cons, hxk] using ih

theorem get?_create_of_lt {c : Context} (handle : String) (h : i < s.timeline.contexts.size) :
    (s.create handle c).timeline.contexts.get? i = s.timeline.contexts.get? i :=
  List.getElem?_append_left h

theorem get?_create_size (s : Handles) (handle : String) (c : Context) :
    (s.create handle c).timeline.contexts.get? s.timeline.contexts.size = some c :=
  Contexts.get?_push_size ..

theorem foreseen_create_of_lt {c : Context} (handle : String)
    (h : i < s.timeline.contexts.size) : (s.create handle c).foreseen i u = s.foreseen i u := by
  rw [foreseen_eq, foreseen_eq, get?_create_of_lt handle h]
  rfl

/-- A new context is foreseen as it is, as nobody can have cancelled it. -/
theorem foreseen_create_size (handle : String) (c : Context)
    (h : ∀ x ∈ s.timeline.agenda, x.2 < s.timeline.contexts.size) :
    (s.create handle c).foreseen s.timeline.contexts.size u = c.error u := by
  have hfires : fires u s.timeline.agenda s.timeline.contexts.size = false := by
    rw [Bool.eq_false_iff]
    intro hfires
    obtain ⟨t, ht, _⟩ := fires_iff.1 hfires
    exact absurd (h _ ht) (Nat.lt_irrefl _)
  have hagenda : (s.create handle c).timeline.agenda = s.timeline.agenda := rfl
  simp only [foreseen_eq, get?_create_size, hagenda, hfires, Bool.or_false, Option.bind_some]

theorem foreseen_cancel {handle : String} {j : ContextId} (h : s.find? handle = some j)
    (hi : i < s.timeline.contexts.size) :
    (s.deed (.cancel handle)).foreseen i u =
      if j = i then some .canceled else s.foreseen i u := by
  have hget : (s.deed (.cancel handle)).timeline.contexts.get? i =
      if j = i then (s.timeline.contexts.get? i).map Context.cancel
      else s.timeline.contexts.get? i := by
    simp only [deed, act, h]
    exact Contexts.get?_cancel ..
  have hagenda : (s.deed (.cancel handle)).timeline.agenda = s.timeline.agenda := by
    simp only [deed, act, h]
    rfl
  rw [foreseen_eq, foreseen_eq, hget, hagenda]
  split
  · obtain ⟨c, hc⟩ : ∃ c, s.timeline.contexts.get? i = some c := ⟨_, List.getElem?_eq_getElem hi⟩
    simp [hc, Context.cancel, Context.error]
  · rfl

theorem mem_schedule {w : Timeline} {t : Instant} {x : Instant × ContextId} :
    x ∈ (w.schedule t i).agenda ↔ x = (t, i) ∨ x ∈ w.agenda := by
  have hsplit : x ∈ w.agenda ↔
      x ∈ w.agenda.takeWhile (·.1 ≤ t) ∨ x ∈ w.agenda.dropWhile (·.1 ≤ t) := by
    rw [← List.mem_append, List.takeWhile_append_dropWhile]
  rw [hsplit, or_left_comm]
  simp only [Timeline.schedule, List.mem_append, List.mem_cons]

theorem foreseen_cancelAfter {handle : String} {delay : Duration} {j : ContextId}
    (h : s.find? handle = some j) (hi : i < s.timeline.contexts.size) :
    (s.deed (.cancelAfter handle delay)).foreseen i u =
      if j = i ∧ Instant.afterSleep s.timeline.now delay ≤ u then some .canceled
      else s.foreseen i u := by
  have htimeline : (s.deed (.cancelAfter handle delay)).timeline =
      s.timeline.schedule (Instant.afterSleep s.timeline.now delay) j := by
    simp only [deed, act, h]
  have hfires : fires u (s.deed (.cancelAfter handle delay)).timeline.agenda i = true ↔
      (j = i ∧ Instant.afterSleep s.timeline.now delay ≤ u) ∨
        fires u s.timeline.agenda i = true := by
    rw [htimeline]
    simp only [fires_iff, mem_schedule, Prod.mk.injEq, or_and_right, exists_or]
    refine or_congr ⟨?_, ?_⟩ Iff.rfl
    · rintro ⟨t, ⟨rfl, rfl⟩, hle⟩
      exact ⟨rfl, hle⟩
    · rintro ⟨rfl, hle⟩
      exact ⟨_, ⟨rfl, rfl⟩, hle⟩
  have hget : (s.deed (.cancelAfter handle delay)).timeline.contexts.get? i =
      s.timeline.contexts.get? i := by
    rw [htimeline]
    rfl
  obtain ⟨c, hc⟩ : ∃ c, s.timeline.contexts.get? i = some c := ⟨_, List.getElem?_eq_getElem hi⟩
  rw [foreseen_eq, foreseen_eq, hget, hc, Option.bind_some, Option.bind_some]
  split
  · next hdue => simp [hfires.2 (Or.inl hdue), Context.error]
  · next hdue =>
      have hsame : fires u (s.deed (.cancelAfter handle delay)).timeline.agenda i =
          fires u s.timeline.agenda i := by
        rw [Bool.eq_iff_iff, hfires, or_iff_right hdue]
      rw [hsame]

end Deeds

section Names

variable {s : Handles} {l : Lineage}

/-- The handles have the names and the families that a lineage says. -/
structure Follows (s : Handles) (l : Lineage) : Prop where
  names : ∀ handle, s.find? handle = l.origin handle
  keys : (s.named.map (·.1)).Nodup
  size : s.timeline.contexts.size = l.families
  known : l.Known
  agenda : ∀ x ∈ s.timeline.agenda, x.2 < l.families

theorem nodup_enter {β : Type} (name : String) (b : β) {m : List (String × β)}
    (h : (m.map (·.1)).Nodup) : ((enter name b m).map (·.1)).Nodup := by
  rw [enter, List.map_append, List.nodup_append]
  refine ⟨h.sublist (List.filter_sublist.map _), by simp, fun x hx y hy => ?_⟩
  obtain ⟨z, hz, rfl⟩ := List.mem_map.1 hx
  obtain rfl : y = name := by simpa using hy
  exact of_decide_eq_true (List.mem_filter.1 hz).2

theorem follows_empty : Follows empty ⟨0, fun _ => none⟩ where
  names _ := rfl
  keys := List.nodup_nil
  size := rfl
  known _ _ h := nomatch h
  agenda _ h := nomatch h

theorem follows_create (h : Follows s l) (handle : String) (c : Context) :
    Follows (s.create handle c)
      ⟨l.families + 1, Function.update l.origin handle (some l.families)⟩ where
  names x := by
    have hfun : (fun y => s.named.lookup y) = l.origin := funext h.names
    rw [← hfun, ← h.size]
    exact lookup_enter_eq ..
  keys := nodup_enter _ _ h.keys
  size := by
    rw [← h.size]
    exact List.length_append
  known := h.known.update (Nat.le_succ _) handle fun j hj => by
    cases hj
    exact Nat.lt_succ_self _
  agenda x hx := Nat.lt_succ_of_lt (h.agenda x hx)

theorem follows_deed (h : Follows s l) (a : HandleAction) : Follows (s.deed a) (l.next a) := by
  cases a with
  | create handle => exact follows_create h handle _
  | withTimeout handle timeout => exact follows_create h handle _
  | clone handle source =>
      have hsource := h.names source
      have hknown := h.known.next (.clone handle source)
      cases hi : l.origin source with
      | none =>
          rw [hi] at hsource
          simpa [deed, act, hsource, Lineage.next, hi] using h
      | some i =>
          rw [hi] at hsource
          simp only [Lineage.next, hi] at hknown ⊢
          simp only [deed, act, hsource]
          have hfun : (fun y => s.named.lookup y) = l.origin := funext h.names
          exact ⟨fun x => (lookup_enter_eq ..).trans (hfun ▸ rfl), nodup_enter _ _ h.keys,
            h.size, hknown, h.agenda⟩
  | drop handle =>
      have hfun : (fun y => s.named.lookup y) = l.origin := funext h.names
      exact ⟨fun x => (lookup_filter_ne ..).trans (hfun ▸ rfl),
        h.keys.sublist (List.filter_sublist.map _), h.size, h.known.next (.drop handle), h.agenda⟩
  | cancel handle =>
      cases hi : s.find? handle with
      | none => simpa [deed, act, hi, Lineage.next] using h
      | some i =>
          simp only [deed, act, hi]
          exact ⟨h.names, h.keys, (List.length_modify ..).trans h.size, h.known, h.agenda⟩
  | cancelAfter handle delay =>
      cases hi : s.find? handle with
      | none => simpa [deed, act, hi, Lineage.next] using h
      | some i =>
          simp only [deed, act, hi]
          refine ⟨h.names, h.keys, h.size, h.known, fun x hx => ?_⟩
          rcases mem_schedule.1 hx with rfl | hx
          · exact h.known handle i ((h.names handle).symm.trans hi)
          · exact h.agenda x hx
  | watch handle task =>
      cases hi : s.find? handle with
      | none => simpa [deed, act, hi, Lineage.next] using h
      | some i =>
          simp only [deed, act, hi]
          exact ⟨h.names, h.keys, h.size, h.known, h.agenda⟩
  | _ => exact h

theorem follows_step (h : Follows s l) (a : HandleAction) : Follows (s.step a).2 (l.next a) where
  names x := by
    rw [find?, named_step]
    exact (follows_deed h a).names x
  keys := by
    rw [named_step]
    exact (follows_deed h a).keys
  size := (size_step s a).trans (follows_deed h a).size
  known := (follows_deed h a).known
  agenda x hx := (follows_deed h a).agenda x (agenda_step_subset s a hx)

theorem follows_lineage (acts : List HandleAction) : Follows (empty.after acts) (lineage acts) := by
  induction acts using List.reverseRecOn with
  | nil => exact follows_empty
  | append_singleton acts a ih =>
      rw [after_snoc, lineage_snoc]
      exact follows_step ih a

end Names

section Agreement

/-- What an action does at once to a family, if it does not cancel it. -/
theorem foreseen_deed (ha : ∀ c, ¬ Orders acts a i c) (hi : i < (lineage acts).families) :
    ((empty.after acts).deed a).foreseen i u = (empty.after acts).foreseen i u := by
  have h := follows_lineage acts
  rw [← h.size] at hi
  cases a with
  | create handle => exact foreseen_create_of_lt handle hi
  | withTimeout handle timeout => exact foreseen_create_of_lt handle hi
  | clone handle source =>
      cases hj : (empty.after acts).find? source <;> simp [deed, act, hj, foreseen]
  | watch handle task =>
      cases hj : (empty.after acts).find? handle <;> simp [deed, act, hj, foreseen]
  | cancel handle =>
      cases hj : (empty.after acts).find? handle with
      | none => simp [deed, act, hj]
      | some j =>
          rw [foreseen_cancel hj hi, if_neg]
          rintro rfl
          exact ha _ (.cancel handle j ((h.names handle).symm.trans hj))
  | cancelAfter handle delay =>
      cases hj : (empty.after acts).find? handle with
      | none => simp [deed, act, hj]
      | some j =>
          rw [foreseen_cancelAfter hj hi, if_neg]
          rintro ⟨rfl, _⟩
          exact ha _ (.cancelAfter handle delay j ((h.names handle).symm.trans hj))
  | _ => rfl

theorem deadline_deed {s : Handles} (a : HandleAction) (hi : i < s.timeline.contexts.size) :
    (s.deed a).timeline.deadline i = s.timeline.deadline i := by
  cases a with
  | create handle => exact congrArg (·.bind (·.deadline)) (get?_create_of_lt handle hi)
  | withTimeout handle timeout => exact congrArg (·.bind (·.deadline)) (get?_create_of_lt handle hi)
  | clone handle source => cases hj : s.find? source <;> simp [deed, act, hj]
  | watch handle task => cases hj : s.find? handle <;> simp [deed, act, hj]
  | cancel handle =>
      cases hj : s.find? handle with
      | none => simp [deed, act, hj]
      | some j =>
          simp only [deed, act, hj, Timeline.deadline, Timeline.cancel, Contexts.deadline,
            Contexts.get?_cancel]
          split
          · rw [Option.bind_map]
            rfl
          · rfl
  | cancelAfter handle delay =>
      cases hj : s.find? handle <;>
        simp [deed, act, hj, Timeline.deadline, Timeline.schedule]
  | _ => rfl

/-- The state of the handles agrees with their history. -/
structure Kept (acts : List HandleAction) : Prop where
  quiet : (empty.after acts).Quiet
  founded : ∀ i < (lineage acts).families, ∃ t timeout, Founded acts i t timeout
  deadlines : ∀ i t timeout, Founded acts i t timeout →
    (empty.after acts).timeline.deadline i = timeout.bind (Instant.after? t)
  /-- What is told of a family is foreseen. -/
  told : ∀ i < (lineage acts).families, ∀ u, clock acts ≤ u →
    Told acts i ((empty.after acts).timeline.deadline i) u ((empty.after acts).foreseen i u)

/-- What is told of a family is foreseen after a deed. -/
theorem told_deed (h : Kept acts) (hi : i < (lineage acts).families) (hu : clock acts ≤ u) :
    Told (acts ++ [a]) i (((empty.after acts).deed a).timeline.deadline i) u
      (((empty.after acts).deed a).foreseen i u) := by
  have hf := follows_lineage acts
  have hsize : i < (empty.after acts).timeline.contexts.size := hf.size.symm ▸ hi
  rw [deadline_deed a hsize]
  by_cases ha : ∃ c, Orders acts a i c
  · obtain ⟨c, hc⟩ := ha
    have hnew : Cancels (acts ++ [a]) i c := Cancels.snoc_iff.2 (Or.inr hc)
    cases hc with
    | cancel handle _ hj =>
        rw [foreseen_cancel ((hf.names handle).trans hj) hsize, if_pos rfl]
        exact .canceled _ hnew hu
    | cancelAfter handle delay _ hj =>
        rw [foreseen_cancelAfter ((hf.names handle).trans hj) hsize]
        split
        · next hdue => exact .canceled _ hnew hdue.2
        · next hdue =>
            refine (h.told i hi u hu).snoc fun c hc => ?_
            cases hc with
            | cancelAfter => exact Nat.lt_of_not_le fun hle => hdue ⟨rfl, hle⟩
  · have ha : ∀ c, ¬ Orders acts a i c := not_exists.1 ha
    rw [foreseen_deed ha hi]
    exact (h.told i hi u hu).snoc fun c hc => absurd hc (ha c)

/-- A new family has a new context. -/
theorem Founds.deed {timeout : Option Duration} (h : Founds acts a i timeout) :
    i = (lineage acts).families ∧ (lineage (acts ++ [a])).families = i + 1 ∧
      ∃ handle, (empty.after acts).deed a =
        (empty.after acts).create handle ⟨false, timeout.bind (Instant.after? (clock acts))⟩ := by
  rw [lineage_snoc]
  cases h with
  | create handle => exact ⟨rfl, rfl, handle, rfl⟩
  | withTimeout handle timeout => exact ⟨rfl, rfl, handle, rfl⟩

theorem Founds.not_orders {timeout : Option Duration} (h : Founds acts a i timeout)
    (j : ContextId) (c : Instant) : ¬ Orders acts a j c := by
  intro hc
  cases h <;> cases hc

/-- What is told of a family that nobody cancels. -/
theorem told_error {deadline : Option Instant} (h : ∀ c, ¬ Cancels acts i c) :
    Told acts i deadline u (Context.error ⟨false, deadline⟩ u) := by
  have hnone : ∀ c, Cancels acts i c → u < c := fun c hc => absurd hc (h c)
  cases deadline with
  | none => exact .live hnone (fun d hd => nomatch hd)
  | some d =>
      by_cases hd : d ≤ u
      · have htold : Told acts i (some d) u (some .deadlineExceeded) :=
          .deadlineExceeded d hnone rfl hd
        simpa [Context.error, hd] using htold
      · have htold : Told acts i (some d) u none := .live hnone fun d' hd' => by
          cases hd'
          exact Nat.lt_of_not_le hd
        simpa [Context.error, hd] using htold

/-- What is told of a new family is foreseen. -/
theorem told_founded {timeout : Option Duration} (h : Founds acts a i timeout) :
    ((empty.after acts).deed a).timeline.deadline i = timeout.bind (Instant.after? (clock acts)) ∧
      Told (acts ++ [a]) i (timeout.bind (Instant.after? (clock acts))) u
        (((empty.after acts).deed a).foreseen i u) := by
  have hf := follows_lineage acts
  obtain ⟨hi, _, handle, hdeed⟩ := h.deed
  rw [← hf.size] at hi
  have hagenda : ∀ x ∈ (empty.after acts).timeline.agenda,
      x.2 < (empty.after acts).timeline.contexts.size := fun x hx => hf.size ▸ hf.agenda x hx
  have hnew : ∀ c, ¬ Cancels (acts ++ [a]) i c := fun c hc => by
    rcases Cancels.snoc_iff.1 hc with hc | hc
    · exact absurd hc.lt_families (hf.size ▸ hi ▸ Nat.lt_irrefl _)
    · exact h.not_orders i c hc
  subst hi
  rw [hdeed]
  refine ⟨?_, ?_⟩
  · rw [Timeline.deadline, Contexts.deadline, get?_create_size]
    rfl
  · rw [foreseen_create_size handle _ hagenda]
    exact told_error hnew

theorem Founds.families_of_ne (h : (lineage (acts ++ [a])).families ≠ (lineage acts).families) :
    ∃ timeout, Founds acts a (lineage acts).families timeout := by
  rw [lineage_snoc] at h
  cases a with
  | create handle => exact ⟨_, .create handle⟩
  | withTimeout handle timeout => exact ⟨_, .withTimeout handle timeout⟩
  | clone handle source =>
      exact absurd (by cases hi : (lineage acts).origin source <;> simp [Lineage.next, hi]) h
  | _ => exact absurd rfl h

/-- A family after an action is an old one, or the one that the action has founded. -/
theorem lt_families_snoc (h : i < (lineage (acts ++ [a])).families) :
    i < (lineage acts).families ∨ ∃ timeout, Founds acts a i timeout := by
  by_cases hsame : (lineage (acts ++ [a])).families = (lineage acts).families
  · exact Or.inl (hsame ▸ h)
  · obtain ⟨timeout, hfounds⟩ := Founds.families_of_ne hsame
    obtain ⟨_, hnext, _⟩ := hfounds.deed
    rw [hnext] at h
    rcases Nat.lt_succ_iff_lt_or_eq.1 h with h | rfl
    · exact Or.inl h
    · exact Or.inr ⟨timeout, hfounds⟩

/-- One action keeps the agreement of state and history. -/
theorem kept_step (h : Kept acts) (a : HandleAction) : Kept (acts ++ [a]) where
  quiet := by
    rw [after_snoc]
    exact quiet_step _ a
  founded i hi := by
    rcases lt_families_snoc hi with hi | ⟨timeout, hfounds⟩
    · obtain ⟨t, timeout, ht⟩ := h.founded i hi
      exact ⟨t, timeout, ht.append [a]⟩
    · exact ⟨clock acts, timeout, Founded.snoc_iff.2 (Or.inr ⟨rfl, hfounds⟩)⟩
  deadlines i t timeout ht := by
    rw [after_snoc, deadline_step]
    rcases Founded.snoc_iff.1 ht with ht | ⟨rfl, hfounds⟩
    · rw [deadline_deed a ((follows_lineage acts).size.symm ▸ ht.lt_families)]
      exact h.deadlines i t timeout ht
    · exact (told_founded (u := 0) hfounds).1
  told i hi u hu := by
    have harrival : (empty.after acts).arrival a ≤ u := by
      simpa [clock, after_snoc, now_step] using hu
    rw [after_snoc, deadline_step, foreseen_step harrival]
    rcases lt_families_snoc hi with hi | ⟨timeout, hfounds⟩
    · exact told_deed h hi (Nat.le_trans (now_le_arrival _ a) harrival)
    · obtain ⟨hdeadline, htold⟩ := told_founded (u := u) hfounds
      rw [hdeadline]
      exact htold

/-- The state agrees with its history. -/
theorem kept (acts : List HandleAction) : Kept acts := by
  induction acts using List.reverseRecOn with
  | nil =>
      exact ⟨quiet_empty, fun i hi => absurd hi (Nat.not_lt_zero i),
        fun i t timeout ht => absurd ht not_happens_nil, fun i hi => absurd hi (Nat.not_lt_zero i)⟩
  | append_singleton acts a ih => exact kept_step ih a

end Agreement

section Results

/-- A list of names with values has each value under its name, if no name occurs twice. -/
theorem mem_iff_lookup {β : Type} {l : List (String × β)} (h : (l.map (·.1)).Nodup)
    {name : String} {b : β} : (name, b) ∈ l ↔ l.lookup name = some b := by
  induction l with
  | nil => simp
  | cons x l ih =>
      obtain ⟨k, v⟩ := x
      obtain ⟨hk, hl⟩ := List.nodup_cons.1 h
      by_cases hname : name = k
      · subst hname
        have hnot : (name, b) ∉ l := fun hmem => hk (List.mem_map.2 ⟨_, hmem, rfl⟩)
        simp [hnot, eq_comm]
      · have hne : (name == k) = false := by simpa using hname
        simp [List.lookup_cons, hne, hname, ih hl]

theorem mem_view {s : Handles} {l : Lineage} (h : Follows s l) {handle : String} {done : Bool}
    {e : Option ContextError} {d : Option Instant} :
    (handle, done, e, d) ∈ s.view ↔
      ∃ i, l.origin handle = some i ∧ e = s.timeline.error i ∧ d = s.timeline.deadline i ∧
        done = e.isSome := by
  simp only [view, List.mem_map, Prod.exists, Prod.mk.injEq, ← h.names handle]
  constructor
  · rintro ⟨name, i, hmem, rfl, rfl, rfl, rfl⟩
    exact ⟨i, (mem_iff_lookup h.keys).1 hmem, rfl, rfl, rfl⟩
  · rintro ⟨i, hi, rfl, rfl, rfl⟩
    exact ⟨handle, i, (mem_iff_lookup h.keys).2 hi, rfl, rfl, rfl, rfl⟩

/-- The present error of a family is what its history tells. -/
theorem told_error_now (hi : i < (lineage acts).families) :
    Told acts i ((empty.after acts).timeline.deadline i) (clock acts)
      ((empty.after acts).timeline.error i) := by
  have h := kept acts
  have htold := h.told i hi (clock acts) (Nat.le_refl _)
  rwa [clock, h.quiet.foreseen_now] at htold

/-- What takes no time and cancels nothing of a family changes nothing about it. -/
theorem error_snoc (hi : i < (lineage acts).families) (hclock : a.movesClock = false)
    (ha : ∀ c, ¬ Orders acts a i c) :
    (empty.after (acts ++ [a])).timeline.error i = (empty.after acts).timeline.error i := by
  have harrival := arrival_of_instant (empty.after acts) hclock
  have hnow : (empty.after (acts ++ [a])).timeline.now = (empty.after acts).timeline.now := by
    rw [after_snoc, now_step, harrival]
  rw [← (kept (acts ++ [a])).quiet.foreseen_now, ← (kept acts).quiet.foreseen_now, hnow,
    after_snoc, foreseen_step (Nat.le_of_eq harrival), foreseen_deed ha hi]

theorem deadline_snoc (hi : i < (lineage acts).families) :
    (empty.after (acts ++ [a])).timeline.deadline i = (empty.after acts).timeline.deadline i := by
  rw [after_snoc, deadline_step, deadline_deed a ((follows_lineage acts).size.symm ▸ hi)]

theorem deadline_append (hi : i < (lineage acts).families) (more : List HandleAction) :
    (empty.after (acts ++ more)).timeline.deadline i = (empty.after acts).timeline.deadline i := by
  obtain ⟨t, timeout, ht⟩ := (kept acts).founded i hi
  rw [(kept acts).deadlines i t timeout ht, (kept _).deadlines i t timeout (ht.append more)]

/-- A dropped name takes nothing with it. -/
theorem after_drop (acts : List HandleAction) (handle : String) :
    empty.after (acts ++ [.drop handle]) =
      { empty.after acts with named := (empty.after acts).named.filter (·.1 ≠ handle) } := by
  have hquiet := (kept acts).quiet
  rw [after_snoc]
  exact settle_of_quiet (s := { empty.after acts with
    named := (empty.after acts).named.filter (·.1 ≠ handle) }) ⟨hquiet.agenda, hquiet.waiting⟩

/-- **Contexts along a history.**  After every history, the handles are those that the
history has left.  The family of each was founded once; its deadline is the end of its
timeout, if it has one that ends at an instant, and its error is the one that the history
tells.  An action that takes no time and cancels nothing of a family changes nothing about
it, a drop changes nothing but the name, and whatever follows, a family keeps its deadline
and only moves forward from live to a passed deadline and to a cancellation. -/
theorem context_history (acts : List HandleAction) :
    (∀ handle done e d, (handle, done, e, d) ∈ (empty.after acts).view ↔
      ∃ i, (lineage acts).origin handle = some i ∧ e = (empty.after acts).timeline.error i ∧
        d = (empty.after acts).timeline.deadline i ∧ done = e.isSome) ∧
    (∀ handle i, (lineage acts).origin handle = some i →
      ∃ t timeout, Founded acts i t timeout ∧
        (∀ t' timeout', Founded acts i t' timeout' → t' = t ∧ timeout' = timeout) ∧
        (empty.after acts).timeline.deadline i = timeout.bind (Instant.after? t) ∧
        Told acts i (timeout.bind (Instant.after? t)) (clock acts)
          ((empty.after acts).timeline.error i)) ∧
    (∀ a, ∀ i < (lineage acts).families, a.movesClock = false → (∀ c, ¬ Orders acts a i c) →
      (empty.after (acts ++ [a])).timeline.error i = (empty.after acts).timeline.error i ∧
      (empty.after (acts ++ [a])).timeline.deadline i =
        (empty.after acts).timeline.deadline i) ∧
    (∀ handle, empty.after (acts ++ [.drop handle]) =
      { empty.after acts with named := (empty.after acts).named.filter (·.1 ≠ handle) }) ∧
    ∀ more, ∀ i < (lineage acts).families,
      (empty.after (acts ++ more)).timeline.deadline i =
        (empty.after acts).timeline.deadline i ∧
      stage ((empty.after acts).timeline.error i) ≤
        stage ((empty.after (acts ++ more)).timeline.error i) := by
  refine ⟨fun _ _ _ _ => mem_view (follows_lineage acts), fun handle i hi => ?_,
    fun a i hi hclock ha => ⟨error_snoc hi hclock ha, deadline_snoc hi⟩,
    after_drop acts, fun more i hi => ⟨deadline_append hi more, ?_⟩⟩
  · have hlt := lineage_known acts handle i hi
    obtain ⟨t, timeout, ht⟩ := (kept acts).founded i hlt
    have hdeadline := (kept acts).deadlines i t timeout ht
    exact ⟨t, timeout, ht, fun _ _ ht' => ht'.unique ht, hdeadline,
      hdeadline ▸ told_error_now hlt⟩
  · have hlt : i < (lineage (acts ++ more)).families := by
      obtain ⟨t, timeout, ht⟩ := (kept acts).founded i hi
      exact Founded.lt_families (ht.append more)
    have htold := told_error_now hlt
    rw [deadline_append hi more] at htold
    exact (told_error_now hi).stage_le htold (clock_le_append acts more)

end Results

end Handles

end TransactionAttempts
