import TransactionAttempts.Guarded
import TransactionAttempts.Proofs.Schedule

/-!
# Calls that race against a context

A guarded call is compared with the same call that nothing guards.

**Alone.**  The call alone works and waits until it completes, or for ever.  When the context
is done is known from the timeline: at its deadline, or when somebody cancels it.

**The race.**  As long as the context is live, the guarded call does what it does alone.  At the
first instant at which the context is done it is given up, unless it has completed before.  If
both come at the same instant, either may come first.

Main facts:

* `await_of_live`: a wait that its context did not end took the same course as without one;
* `doneTimes_eq_empty`: a wait never ends only if its context is never done;
* `ending_of_exec`: what the race of a call against a live context comes to;
* `guarded_decided`: who wins, and what is left of the call.
-/

namespace TransactionAttempts

section Waits

namespace Timeline

variable {w u v : Timeline} {i : ContextId} {T : Instant}

theorem anyOver_sleep : w.anyOver [⟨none, some T⟩] = true ↔ T ≤ w.now := by
  simp [anyOver, Wait.verdict]

/-- A move of the clock that leaves the context live goes where it goes without one. -/
theorem step_of_live (hu : w.step? (w.firstTarget [limited i T]) = some u)
    (hlive : u.error i = none) : w.step? (some T) = some u := by
  obtain ⟨s, hs, hsT, rfl | hd⟩ := firstTarget_limited w i T
  · rwa [hs] at hu
  · -- the clock has not come to the deadline
    have hearly : ∀ now, u.contexts = w.contexts → u.now = max now s → False := by
      intro now hcs hnow
      obtain ⟨c, hc, hcd⟩ := deadline_eq_some hd
      have hby : u.DoneBy i s := ⟨c, hcs ▸ hc, Or.inr (Or.inl ⟨s, hcd, Nat.le_refl s⟩)⟩
      exact done_of_doneBy hby (hnow ▸ Nat.le_max_right _ _) hlive
    rw [hs] at hu
    obtain ⟨now, cs, _ | ⟨⟨t, j⟩, rest⟩, hl⟩ := w
    · cases hu
      exact (hearly now rfl rfl).elim
    · rcases step_cons hu with ⟨s', hs', _, rfl⟩ | ⟨hts, rfl⟩
      · cases hs'
        exact (hearly now rfl rfl).elim
      · have htT : ¬ T < t := Nat.not_lt_of_le (Nat.le_trans (hts s rfl) hsT)
        exact if_neg htT

theorem sleep_over (hover : w.anyOver [limited i T] = true) (hlive : w.error i = none) :
    w.anyOver [⟨none, some T⟩] = true :=
  anyOver_sleep.2 ((anyOver_limited.1 hover).resolve_left fun hdone => hdone hlive)

theorem reachWithin_of_live {n : Nat} (h : reachWithin [limited i T] n w = some v)
    (hlive : v.error i = none) : reachWithin [⟨none, some T⟩] n w = some v := by
  induction n generalizing w with
  | zero =>
      obtain ⟨hover, hwv⟩ := Option.ite_none_right_eq_some.1 h
      cases hwv
      exact reachWithin_of_over (sleep_over hover hlive) 0
  | succ n ih =>
      by_cases hover : w.anyOver [limited i T] = true
      · rw [reachWithin_of_over hover] at h
        cases h
        exact reachWithin_of_over (sleep_over hover hlive) _
      · rw [reachWithin, if_neg hover] at h
        obtain ⟨u, hu, huv⟩ := Option.bind_eq_some_iff.1 h
        have hnot : ¬ w.anyOver [⟨none, some T⟩] = true := fun hT =>
          hover (anyOver_limited.2 (Or.inr (anyOver_sleep.1 hT)))
        have hulive : u.error i = none := Decidable.not_not.1 fun hdone =>
          Done.reachWithin hdone huv hlive
        rw [reachWithin, if_neg hnot]
        exact Option.bind_eq_some_iff.2 ⟨u, step_of_live hu hulive, ih huv⟩

/-- A wait that its context did not end took the same course as without one. -/
theorem await_of_live {wake : Option Instant} (h : w.await ⟨some i, wake⟩ = some (none, v)) :
    w.await ⟨none, wake⟩ = some (none, v) := by
  have hlive := error_of_await rfl h
  obtain ⟨hv, hr⟩ := await_eq_some_iff.1 h
  cases wake with
  | none => simp [Wait.verdict, hlive] at hr
  | some T =>
      have hnow : T ≤ v.now := by simpa [Wait.verdict, hlive] using hr
      exact await_eq_some_iff.2 ⟨reachWithin_of_live hv hlive, by simp [Wait.verdict, hnow]⟩

/-- Without a context a wait lasts until its instant. -/
theorem le_of_await_sleep {wake : Option Instant} {r : Option ContextError}
    (h : w.await ⟨none, wake⟩ = some (r, v)) : ∃ T, wake = some T ∧ T ≤ v.now := by
  have hr := (await_eq_some_iff.1 h).2
  cases wake with
  | none => simp [Wait.verdict] at hr
  | some T =>
      have hrT : T ≤ v.now ∧ none = r := by simpa [Wait.verdict] using hr
      exact ⟨T, rfl, hrT.1⟩

theorem await_never : w.await ⟨none, none⟩ = none := by
  cases h : w.await ⟨none, none⟩ with
  | none => rfl
  | some a =>
      obtain ⟨T, hT, _⟩ := le_of_await_sleep h
      exact nomatch hT

/-- With a context a wait lasts no longer than without one. -/
theorem await_le_sleep {wake : Option Instant} {r r' : Option ContextError}
    (hwake : ∀ T, wake = some T → w.now ≤ T) (h : w.await ⟨some i, wake⟩ = some (r, u))
    (h' : w.await ⟨none, wake⟩ = some (r', v)) : u.now ≤ v.now := by
  obtain ⟨T, rfl, hT⟩ := le_of_await_sleep h'
  obtain ⟨_, u', hu', _, hle, _⟩ := @await_limit w i T (hwake T rfl)
  cases h.symm.trans hu'
  exact Nat.le_trans hle hT

/-- Each move of the clock carries out a cancellation or ends the wait. -/
theorem shorter_or_over {x : Wait} (hu : w.step? (w.firstTarget [x]) = some u) :
    u.agenda.length < w.agenda.length ∨ u.anyOver [x] = true := by
  have hover : ∀ s, w.firstTarget [x] = some s → u.contexts = w.contexts → s ≤ u.now →
      u.anyOver [x] = true := fun s => over_of_target
  generalize w.firstTarget [x] = wake at hu hover
  obtain ⟨now, cs, _ | ⟨⟨t, j⟩, rest⟩, hl⟩ := w
  · obtain ⟨s, hs, rfl⟩ := Option.map_eq_some_iff.1 hu
    exact Or.inr (hover s hs rfl (Nat.le_max_right _ _))
  · rcases step_cons hu with ⟨s, hs, _, rfl⟩ | ⟨_, rfl⟩
    · exact Or.inr (hover s hs rfl (Nat.le_max_right _ _))
    · exact Or.inl (Nat.lt_succ_self _)

theorem step_eq_none {wake : Option Instant} (h : w.step? wake = none) :
    w.agenda = [] ∧ wake = none := by
  obtain ⟨now, cs, _ | ⟨⟨t, j⟩, rest⟩, hl⟩ := w
  · exact ⟨rfl, Option.map_eq_none_iff.1 h⟩
  · simp only [step?] at h
    split at h
    · split at h <;> cases h
    · cases h

theorem anyOver_singleton (w : Timeline) (x : Wait) :
    w.anyOver [x] = (x.verdict w).isSome := Bool.or_false _

/-- The clock comes to the end of a wait for a context that will be done. -/
theorem reachWithin_ne_none {x : Wait} (hx : x.context = some i) {n : Nat}
    (hn : w.agenda.length < n) {t : Instant} (ht : t ∈ w.doneTimes i) :
    reachWithin [x] n w ≠ none := by
  induction n generalizing w with
  | zero => exact absurd hn (Nat.not_lt_zero _)
  | succ n ih =>
      by_cases hover : w.anyOver [x] = true
      · rw [reachWithin_of_over hover]
        exact Option.some_ne_none w
      · have hlive := live_of_not_over hx hover
        simp only [reachWithin, if_neg hover]
        cases hu : w.step? (w.firstTarget [x]) with
        | none =>
            obtain ⟨hagenda, hwake⟩ := step_eq_none hu
            have hdeadline : ∀ d, w.deadline i = some d → t + 1 ≤ d := fun d hd => by
              obtain ⟨s, hs, _⟩ := firstTarget_le_deadline hx hd
              exact absurd (hs.symm.trans hwake) (Option.some_ne_none s)
            have hnobody : ∀ y ∈ w.agenda, t + 1 ≤ y.1 := by simp [hagenda]
            exact absurd (le_of_doneAt hlive hdeadline hnobody ht.2) (Nat.not_succ_le_self t)
        | some u =>
            rw [Option.bind_some]
            rcases shorter_or_over hu with hlt | hover
            · exact ih (by omega) (doneTimes_step hx hlive hu ▸ ht)
            · rw [reachWithin_of_over hover]
              exact Option.some_ne_none u

/-- A wait never ends only if it has no instant and its context is never done. -/
theorem doneTimes_eq_empty {wake : Option Instant} (hwake : ∀ T, wake = some T → w.now ≤ T)
    (h : w.await ⟨some i, wake⟩ = none) : wake = none ∧ w.doneTimes i = ∅ := by
  cases wake with
  | some T =>
      obtain ⟨r, v, hv, _⟩ := @await_limit w i T (hwake T rfl)
      exact nomatch h.symm.trans hv
  | none =>
      refine ⟨rfl, Set.eq_empty_iff_forall_notMem.2 fun t ht => ?_⟩
      obtain ⟨v, hv⟩ := Option.ne_none_iff_exists'.1
        (reachWithin_ne_none (x := ⟨some i, none⟩) rfl (Nat.lt_succ_self w.agenda.length) ht)
      have hover := (reachWithin_keeps (P := fun _ => True) (fun _ _ _ => trivial) hv trivial).2
      obtain ⟨r, hr⟩ := Option.isSome_iff_exists.1 ((anyOver_singleton v _).symm.trans hover)
      exact nomatch h.symm.trans (await_eq_some_iff.2 ⟨hv, hr⟩)

end Timeline

end Waits

namespace DriverCall

variable {σ ε α : Type} {length : Duration → Nat} {ctx : ContextId}

section Races

/-- The call that nothing guards. -/
def alone : DriverCall σ α → Async σ ε (Except DriverError α)
  | .complete r => .ret r
  | .update f next => .perform (.update f) fun s => (next s).alone
  | .wait time next => .await none time fun _ => next.alone

/-- On its way to completion the call has come to a wait, in which only time has passed since. -/
def GivenUp (length : Duration → Nat) (call : DriverCall σ α) (w v : World σ ε) : Prop :=
  ∃ l time next u,
    call.alone.Reaches (.timed length) w l (.await none time next) u ∧
      v = { u with timeline := v.timeline }

/-- What the race of a call against a context that is live at the start can come to. -/
inductive Ending (length : Duration → Nat) (ctx : ContextId) (call : DriverCall σ α)
    (w : World σ ε) : Outcome (Except Failure α) → World σ ε → Prop
  | completed {l : Story σ ε} {r : Except DriverError α} {v : World σ ε} :
      call.alone.Exec (.timed length) w l (.returned r) v →
      (∀ t ∈ w.timeline.doneTimes ctx, v.now ≤ t) →
      Ending length ctx call w (.returned (r.mapError .database)) v
  | abandoned {c : ContextError} {v : World σ ε} :
      call.GivenUp length w v →
      (∀ l r u, call.alone.Exec (.timed length) w l (.returned r) u → v.now ≤ u.now) →
      IsLeast (w.timeline.doneTimes ctx) v.now → v.timeline.error ctx = some c →
      Ending length ctx call w (.returned (.error (.context c))) v
  | hung {l : Story σ ε} {v : World σ ε} :
      call.alone.Exec (.timed length) w l .stalled v → w.timeline.doneTimes ctx = ∅ →
      Ending length ctx call w .stalled v

theorem Ending.update {f : σ → σ} {next : σ → DriverCall σ α} {w v : World σ ε}
    {o : Outcome (Except Failure α)}
    (h : Ending length ctx (next w.state) { w with state := f w.state } o v) :
    Ending length ctx (.update f next) w o v := by
  cases h with
  | completed hx hle => exact .completed (.perform hx) hle
  | abandoned hup hle hleast hc =>
      obtain ⟨l, time, next', u, hreach, hv⟩ := hup
      refine .abandoned ⟨_, time, next', u, .perform hreach, hv⟩ (fun l₁ r u₁ hx => ?_) hleast hc
      obtain ⟨_, rfl, hx'⟩ := Async.exec_perform hx
      exact hle _ r u₁ hx'
  | hung hx hempty => exact .hung (.perform hx) hempty

theorem Ending.wait {time : Option Duration} {next : DriverCall σ α} {w v : World σ ε}
    {t : Timeline} {o : Outcome (Except Failure α)}
    (ht : w.timeline.await (Wait.lasting length w.now (some ctx) time) = some (none, t))
    (h : Ending length ctx next { w with timeline := t } o v) :
    Ending length ctx (.wait time next) w o v := by
  have hsleep : w.timeline.await (Wait.lasting length w.now none time) = some (none, t) :=
    Timeline.await_of_live ht
  have htimes : t.doneTimes ctx = w.timeline.doneTimes ctx := Timeline.doneTimes_await rfl ht
  cases h with
  | completed hx hle => exact .completed (.await ⟨t, hsleep, rfl⟩ hx) (htimes ▸ hle)
  | abandoned hup hle hleast hc =>
      obtain ⟨l, time', next', u, hreach, hv⟩ := hup
      refine .abandoned ⟨l, time', next', u, .await ⟨t, hsleep, rfl⟩ hreach, hv⟩
        (fun l₁ r u₁ hx => ?_) (htimes ▸ hleast) hc
      rcases Async.exec_await hx with ⟨a, u₂, ⟨t', ht', rfl⟩, hx'⟩ | ⟨_, _, hr, _⟩
      · cases hsleep.symm.trans ht'
        exact hle l₁ r u₁ hx'
      · cases hr
  | hung hx hempty => exact .hung (.await ⟨t, hsleep, rfl⟩ hx) (htimes ▸ hempty)

/-- Every race against a live context ends so. -/
theorem ending_of_exec {call : DriverCall σ α} {w v : World σ ε} {l : Story σ ε}
    {o : Outcome (Except Failure α)} (hlive : w.timeline.error ctx = none)
    (h : (call.race ctx).Exec (.timed length) w l o v) : Ending length ctx call w o v := by
  induction call generalizing w l with
  | complete r =>
      obtain ⟨rfl, rfl, rfl⟩ := Async.exec_ret h
      exact .completed (.ret r v) fun t ht => ht.1
  | update f next ih =>
      obtain ⟨l', rfl, h'⟩ := Async.exec_perform h
      exact .update (ih w.state hlive h')
  | wait time next ih =>
      have hwake : ∀ T, (time.map fun d => w.now + length d) = some T → w.now ≤ T := by
        intro T hT
        obtain ⟨d, _, rfl⟩ := Option.map_eq_some_iff.1 hT
        exact Nat.le_add_right _ _
      rcases Async.exec_await h with ⟨a, u, ⟨t, ht, rfl⟩, h'⟩ | ⟨hl, rfl, rfl, rfl⟩
      · cases a with
        | none => exact .wait ht (ih (Timeline.error_of_await rfl ht) h')
        | some c =>
            obtain ⟨rfl, rfl, rfl⟩ := Async.exec_ret h'
            refine .abandoned ⟨[], time, _, w, .here _ w, rfl⟩ (fun l r u hx => ?_)
              (Timeline.isLeast_doneTimes rfl ht) (Timeline.error_of_await rfl ht)
            rcases Async.exec_await hx with ⟨a, u', ⟨t', ht', rfl⟩, hx'⟩ | ⟨_, _, hr, _⟩
            · have htt' : t.now ≤ t'.now := Timeline.await_le_sleep hwake ht ht'
              exact Nat.le_trans htt' hx'.now_le
            · cases hr
      · obtain ⟨htime, hempty⟩ := Timeline.doneTimes_eq_empty hwake hl
        have hstall : v.timeline.await (Wait.lasting length v.now none time) = none := by
          rw [Wait.lasting, htime]
          exact Timeline.await_never
        exact .hung (.stall hstall) hempty

/-- A context that is done at the start keeps the call from being made. -/
theorem exec_guarded {E : Surroundings σ ε} {call : DriverCall σ α} {w v : World σ ε}
    {l : Story σ ε} {o : Outcome (Except Failure α)} (h : (call.guarded ctx).Exec E w l o v) :
    (∃ c, w.timeline.error ctx = some c ∧ o = .returned (.error (.context c)) ∧ v = w) ∨
      (w.timeline.error ctx = none ∧ (call.race ctx).Exec E w l o v) := by
  rcases Async.exec_errorOf h with ⟨c, hc, h₁⟩ | ⟨hlive, h₁⟩
  · obtain ⟨rfl, rfl, rfl⟩ := Async.exec_ret h₁
    exact Or.inl ⟨c, hc, rfl, rfl⟩
  · exact Or.inr ⟨hlive, h₁⟩

theorem exec_guarded_prevented {E : Surroundings σ ε} {call : DriverCall σ α} {w v : World σ ε}
    {l : Story σ ε} {o : Outcome (Except Failure α)} {c : ContextError}
    (hc : w.timeline.error ctx = some c) (h : (call.guarded ctx).Exec E w l o v) :
    o = .returned (.error (.context c)) ∧ v = w := by
  rcases exec_guarded h with ⟨c', hc', rfl, rfl⟩ | ⟨hlive, _⟩
  · cases hc.symm.trans hc'
    exact ⟨rfl, rfl⟩
  · exact nomatch hc.symm.trans hlive

end Races

section Decisions

/-- How a guarded call that begins in the first world ends: with which outcome, and in which
world.

* `prevented`, `preferred`: a context that is done at the start keeps the call from being made,
  and its cancellation is told in preference to its deadline;
* `completed`: a call that completes before the context is done has the result that it has
  alone, in which an error is one of the database, and leaves the same world;
* `abandoned`: one that does not is given up at the first instant at which the context is done;
* `tied`: at the same instant it is the one or the other;
* `hung`: if neither ever happens, the call does not return;
* `within`, `honest`: the call is over when the context is done, and with an error of the context
  only if that is done. -/
structure Decided (length : Duration → Nat) (ctx : ContextId) (call : DriverCall σ α)
    (w : World σ ε) (o : Outcome (Except Failure α)) (v : World σ ε) : Prop where
  prevented : ∀ c, w.timeline.error ctx = some c →
    o = .returned (.error (.context c)) ∧ v = w
  preferred : ∀ x, w.timeline.contexts.get? ctx = some x → x.cancelled = true →
    o = .returned (.error (.context .canceled)) ∧ v = w
  completed : ∀ l r u, w.timeline.error ctx = none →
    call.alone.Exec (.timed length) w l (.returned r) u →
    (∀ t ∈ w.timeline.doneTimes ctx, u.now < t) →
    o = .returned (r.mapError .database) ∧ v = u
  abandoned : ∀ t, w.timeline.error ctx = none → IsLeast (w.timeline.doneTimes ctx) t →
    (∀ l r u, call.alone.Exec (.timed length) w l (.returned r) u → t < u.now) →
    (∃ c, o = .returned (.error (.context c))) ∧ v.now = t ∧ call.GivenUp length w v
  tied : ∀ l r u, w.timeline.error ctx = none →
    call.alone.Exec (.timed length) w l (.returned r) u →
    IsLeast (w.timeline.doneTimes ctx) u.now →
    (o = .returned (r.mapError .database) ∧ v = u) ∨
      ((∃ c, o = .returned (.error (.context c))) ∧ v.now = u.now ∧ call.GivenUp length w v)
  hung : w.timeline.error ctx = none → w.timeline.doneTimes ctx = ∅ →
    (∀ l r u, ¬ call.alone.Exec (.timed length) w l (.returned r) u) → o = .stalled
  within : w.timeline.error ctx = none → ∀ t ∈ w.timeline.doneTimes ctx, v.now ≤ t
  honest : ∀ c, o = .returned (.error (.context c)) → v.timeline.error ctx = some c

variable {call : DriverCall σ α} {w v : World σ ε} {o : Outcome (Except Failure α)}

theorem error_of_cancelled {t : Timeline} {x : Context} (hx : t.contexts.get? ctx = some x)
    (hc : x.cancelled = true) : t.error ctx = some .canceled := by
  rw [Timeline.error, Contexts.error, hx, Option.bind_some, Context.error, if_pos hc]

theorem decided_of_prevented {c : ContextError} (hc : w.timeline.error ctx = some c) :
    call.Decided length ctx w (.returned (.error (.context c))) w := by
  have hdone : w.timeline.error ctx ≠ none := by simp [hc]
  refine ⟨fun c' hc' => ?_, fun x hx hcan => ?_, fun _ _ _ h => absurd h hdone,
    fun _ h => absurd h hdone, fun _ _ _ h => absurd h hdone, fun h => absurd h hdone,
    fun h => absurd h hdone, fun c' hc' => ?_⟩
  · cases hc.symm.trans hc'
    exact ⟨rfl, rfl⟩
  · cases hc.symm.trans (error_of_cancelled hx hcan)
    exact ⟨rfl, rfl⟩
  · cases hc'
    exact hc

/-- The end of a race is what the rules say. -/
theorem Ending.decided (hlive : w.timeline.error ctx = none) (h : Ending length ctx call w o v) :
    call.Decided length ctx w o v := by
  have hstart : ∀ {P : Prop} {c}, w.timeline.error ctx = some c → P := fun hc =>
    nomatch hlive.symm.trans hc
  cases h with
  | @completed l r v hx hle =>
      have hunique : ∀ {l' r' u}, call.alone.Exec (.timed length) w l' (.returned r') u →
          (.returned (r.mapError .database) : Outcome (Except Failure α)) =
            .returned (r'.mapError .database) ∧ v = u := by
        intro l' r' u hx'
        obtain ⟨_, hr, hu⟩ := hx.timed_unique hx'
        cases hr
        exact ⟨rfl, hu⟩
      refine ⟨fun c => hstart, fun x hx hcan => hstart (error_of_cancelled hx hcan),
        fun l' r' u _ hx' _ => hunique hx', fun t _ ht hlate => ?late,
        fun l' r' u _ hx' _ => Or.inl (hunique hx'),
        fun _ _ hnever => absurd hx (hnever _ _ _), fun _ => hle, fun c hc => ?told⟩
      case late => exact absurd (hle t ht.1) (Nat.not_le_of_lt (hlate l r v hx))
      case told => cases r <;> cases hc
  | @abandoned c v hup hlate hleast hc =>
      refine ⟨fun c => hstart, fun x hx hcan => hstart (error_of_cancelled hx hcan),
        fun l r u _ hx hearly => ?early, fun t _ ht _ => ⟨⟨c, rfl⟩, hleast.unique ht, hup⟩,
        fun l r u _ _ ht => Or.inr ⟨⟨c, rfl⟩, hleast.unique ht, hup⟩,
        fun _ hempty => ?never, fun _ t ht => hleast.2 ht, fun c' hc' => ?told⟩
      case early => exact absurd (hlate l r u hx) (Nat.not_le_of_lt (hearly v.now hleast.1))
      case never => exact absurd hleast.1 (Set.eq_empty_iff_forall_notMem.1 hempty v.now)
      case told =>
        cases hc'
        exact hc
  | @hung l v hx hempty =>
      have hnone := Set.eq_empty_iff_forall_notMem.1 hempty
      refine ⟨fun c => hstart, fun x hx hcan => hstart (error_of_cancelled hx hcan),
        fun l' r u _ hx' _ => ?stuck, fun t _ ht => absurd ht.1 (hnone t),
        fun l' r u _ _ ht => absurd ht.1 (hnone u.now), fun _ _ _ => rfl,
        fun _ t ht => absurd ht (hnone t), nofun⟩
      case stuck => exact nomatch (hx.timed_unique hx').2.1

/-- A guarded call ends as the rules say. -/
theorem decided_of_exec {l : Story σ ε} (h : (call.guarded ctx).Exec (.timed length) w l o v) :
    call.Decided length ctx w o v := by
  rcases exec_guarded h with ⟨c, hc, rfl, rfl⟩ | ⟨hlive, hrace⟩
  · exact decided_of_prevented hc
  · exact (ending_of_exec hlive hrace).decided hlive

end Decisions

end DriverCall

section Drivers

variable {σ ε τ : Type} {length : Duration → Nat} {ctx : ContextId}

/-- The world after the call that was to end a transaction; if it failed, the transaction is
dropped. -/
def Driver.dropped (d : Driver σ τ) (tx : τ) (o : Outcome Result) (u : World σ ε) : World σ ε :=
  match o with
  | .returned (.error _) => { u with state := d.drop tx u.state }
  | _ => u

theorem Driver.exec_endBy {E : Surroundings σ ε} {d : Driver σ τ} {tx : τ}
    {call : DriverCall σ Unit} {w v : World σ ε} {l : Story σ ε} {o : Outcome Result}
    (h : (d.endBy tx call ctx).Exec E w l o v) :
    ∃ l' u, (call.guarded ctx).Exec E w l' o u ∧ v = d.dropped tx o u := by
  rcases Async.exec_bind h with ⟨r, u, l₁, l₂, hcall, h₁, rfl⟩ | ⟨o', hcall, ho⟩
  · cases r with
    | ok _ =>
        obtain ⟨rfl, rfl, rfl⟩ := Async.exec_ret h₁
        exact ⟨l₁, v, hcall, rfl⟩
    | error e =>
        obtain ⟨l₃, rfl, h₂⟩ := Async.exec_perform h₁
        obtain ⟨rfl, rfl, rfl⟩ := Async.exec_ret h₂
        exact ⟨l₁, u, hcall, rfl⟩
  · cases ho with
    | unwound p => exact ⟨l, v, hcall, rfl⟩
    | stalled => exact ⟨l, v, hcall, rfl⟩

/-- On a context that is done a begin does nothing. -/
theorem Driver.begin_prevented {w : World σ ε} {c : ContextError} (d : Driver σ τ)
    (hc : w.timeline.error ctx = some c) :
    (d.pool.begin ctx).run w = (.returned (.error (.context c)), w) := by
  obtain ⟨ho, hv⟩ := DriverCall.exec_guarded_prevented hc (Async.exec_run (d.pool.begin ctx) w)
  exact Prod.ext ho hv

/-- On a context that is done the call that was to end a transaction only drops it. -/
theorem Driver.endBy_prevented {w : World σ ε} {c : ContextError} (d : Driver σ τ) (tx : τ)
    (call : DriverCall σ Unit) (hc : w.timeline.error ctx = some c) :
    (d.endBy tx call ctx).run w =
      (.returned (.error (.context c)), { w with state := d.drop tx w.state }) := by
  obtain ⟨_, u, hcall, hv⟩ := Driver.exec_endBy (Async.exec_run (d.endBy tx call ctx) w)
  obtain ⟨ho, rfl⟩ := DriverCall.exec_guarded_prevented hc hcall
  rw [ho] at hv
  exact Prod.ext ho hv

end Drivers

namespace DriverCall

variable {σ ε α τ : Type}

/-- **Who wins the race.**  On every clock a guarded call has an execution, and each ends as the
rules say: a context that is done at the start keeps the call from being made; then the first of
the completion of the call and the end of the context decides, and at the same instant either
may.  The begins, commits and rollbacks of a driver are such calls.  On a context that is done
they do nothing through the driver; a transaction that was to be ended is dropped. -/
theorem guarded_decided (length : Duration → Nat) (ctx : ContextId) (w : World σ ε)
    (call : DriverCall σ α) (d : Driver σ τ) (tx : τ) :
    (∃ l o v, (call.guarded ctx).Exec (.timed length) w l o v) ∧
    (∀ l o v, (call.guarded ctx).Exec (.timed length) w l o v →
      call.Decided length ctx w o v) ∧
    (∀ l o v, (d.pool.begin ctx).Exec (.timed length) w l o v →
      d.begin.Decided length ctx w o v) ∧
    (∀ l o v, (d.pool.commit tx ctx).Exec (.timed length) w l o v →
      ∃ u, (d.commit tx).Decided length ctx w o u ∧ v = d.dropped tx o u) ∧
    (∀ l o v, (d.pool.rollback tx ctx).Exec (.timed length) w l o v →
      ∃ u, (d.rollback tx).Decided length ctx w o u ∧ v = d.dropped tx o u) ∧
    (∀ c, w.timeline.error ctx = some c →
      (d.pool.begin ctx).run w = (.returned (.error (.context c)), w) ∧
      (d.pool.commit tx ctx).run w =
        (.returned (.error (.context c)), { w with state := d.drop tx w.state }) ∧
      (d.pool.rollback tx ctx).run w =
        (.returned (.error (.context c)), { w with state := d.drop tx w.state })) := by
  refine ⟨Async.exists_exec_timed length _ w, fun _ _ _ h => decided_of_exec h,
    fun _ _ _ h => decided_of_exec h, fun _ _ _ h => ?_, fun _ _ _ h => ?_,
    fun c hc => ⟨d.begin_prevented hc, d.endBy_prevented tx _ hc, d.endBy_prevented tx _ hc⟩⟩
  · obtain ⟨_, u, hcall, hv⟩ := Driver.exec_endBy h
    exact ⟨u, decided_of_exec hcall, hv⟩
  · obtain ⟨_, u, hcall, hv⟩ := Driver.exec_endBy h
    exact ⟨u, decided_of_exec hcall, hv⟩

section Instance

/-- A call that counts in the middle of its waits. -/
def counting (rest : Duration) : DriverCall Nat Unit :=
  .wait (some (Duration.clamp 3)) (.update (· + 1) fun _ => .wait (some rest) (.complete (.ok ())))

/-- A driver whose calls count; a transaction that is dropped counts ten. -/
def counter : Driver Nat Unit :=
  ⟨counting Duration.zero, fun _ => counting Duration.zero, fun _ => never, fun _ n => n + 10⟩

/-- A world with a context that is done after five nanoseconds and one that is cancelled. -/
def hurried : World Nat Empty :=
  { World.initial (fun _ => 0) 0 with
    timeline := (Timeline.start.create (Context.withTimeout 0 (Duration.clamp 5))).create
      Context.unbounded.cancel }

theorem isLeast_doneTimes_hurried : IsLeast (hurried.timeline.doneTimes 0) 5 := by
  refine ⟨⟨Nat.zero_le 5, _, rfl, Or.inr (Or.inl ⟨5, rfl, Nat.le_refl 5⟩)⟩, fun t ht => ?_⟩
  refine Timeline.le_of_doneAt rfl (fun d hd => ?_) (fun x hx => absurd hx List.not_mem_nil) ht.2
  have hd5 : some 5 = some d := hd
  exact Nat.le_of_eq (Option.some.inj hd5)

/-- A call of four nanoseconds completes; one of seven has counted when it is given up.  On the
context that is cancelled a commit does not count. -/
theorem guarded_decided_hurried :
    hurried.timeline.error 0 = none ∧ IsLeast (hurried.timeline.doneTimes 0) 5 ∧
    (∃ l u, (counting (Duration.clamp 1)).alone.Exec (.timed Duration.slept) hurried l
      (.returned (.ok ())) u ∧ (∀ t ∈ hurried.timeline.doneTimes 0, u.now < t) ∧
      ((counting (Duration.clamp 1)).guarded 0).run hurried = (.returned (.ok ()), u) ∧
      u.state = 1) ∧
    (∀ l r u, (counting (Duration.clamp 4)).alone.Exec (.timed Duration.slept) hurried l
      (.returned r) u → 5 < u.now) ∧
    (∃ c v, ((counting (Duration.clamp 4)).guarded 0).run hurried =
      (.returned (.error (.context c)), v) ∧ v.now = 5 ∧ v.state = 1) ∧
    hurried.timeline.error 1 = some .canceled ∧
    ∃ v, (counter.pool.commit () 1).run hurried = (.returned (.error (.context .canceled)), v) ∧
      v.state = 10 := by
  have hlive : hurried.timeline.error 0 = none := rfl
  have hquick : (counting (Duration.clamp 1)).alone.Exec (.timed Duration.slept) hurried []
      (.returned (.ok ())) ((counting (Duration.clamp 1)).alone.run hurried).2 :=
    Async.exec_run (counting (Duration.clamp 1)).alone hurried
  have hearly : ∀ t ∈ hurried.timeline.doneTimes 0,
      ((counting (Duration.clamp 1)).alone.run hurried).2.now < t :=
    fun t ht => isLeast_doneTimes_hurried.2 ht
  have hslow : (counting (Duration.clamp 4)).alone.Exec (.timed Duration.slept) hurried []
      (.returned (.ok ())) ((counting (Duration.clamp 4)).alone.run hurried).2 :=
    Async.exec_run (counting (Duration.clamp 4)).alone hurried
  have hlate : ∀ l r u, (counting (Duration.clamp 4)).alone.Exec (.timed Duration.slept) hurried l
      (.returned r) u → 5 < u.now := by
    intro l r u hu
    obtain ⟨_, _, rfl⟩ := hslow.timed_unique hu
    decide
  obtain ⟨_, hwon, _⟩ :=
    guarded_decided Duration.slept 0 hurried (counting (Duration.clamp 1)) counter ()
  obtain ⟨_, hlost, _⟩ :=
    guarded_decided Duration.slept 0 hurried (counting (Duration.clamp 4)) counter ()
  obtain ⟨ho, hv⟩ := (hwon _ _ _ (Async.exec_run _ hurried)).completed _ _ _ hlive hquick hearly
  obtain ⟨⟨c, hc⟩, hnow, _⟩ :=
    (hlost _ _ _ (Async.exec_run _ hurried)).abandoned 5 hlive isLeast_doneTimes_hurried hlate
  obtain ⟨_, _, _, _, _, hdone⟩ := guarded_decided Duration.slept 1 hurried
    (counting Duration.zero) counter ()
  exact ⟨hlive, isLeast_doneTimes_hurried, ⟨_, _, hquick, hearly, Prod.ext ho hv, rfl⟩, hlate,
    ⟨c, _, Prod.ext hc rfl, hnow, rfl⟩, rfl, _, (hdone .canceled rfl).2.1, rfl⟩

end Instance

end DriverCall

end TransactionAttempts
