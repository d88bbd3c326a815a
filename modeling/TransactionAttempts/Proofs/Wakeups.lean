import Mathlib.Logic.Basic
import Mathlib.Logic.Relation
import Mathlib.Tactic.ByContra
import TransactionAttempts.Context.Wakeup
import TransactionAttempts.Proofs.Waiting

/-!
# No wake-up is lost

Waiters and cancellers of one context take their steps in any order, and the clock moves
whenever it likes.  What makes this safe is the order of the steps of each: a waiter
prepares its signal before it looks at the context, and a canceller marks the context
before it sends signals.

**Unaware waiters.**  A waiter is unaware if it has seen a live context and no signal has
come since it prepared one.  Only such a waiter can sleep too long.  If the context is
cancelled while a waiter is unaware, then some canceller has yet to send its signals, and
none has done so before (`Sound`).

**Turns.**  While the context is done, each turn of a waiter brings it closer to its
return.

Main facts:

* `sound_step`, `sound_reachable`: soundness is kept by one step, and by all;
* `no_lost_wakeup`: what waiters return, and that none sleeps through a cancellation;
* `at_rest`, `exists_at_rest`, `settles_of_reachable`: where the waiters stand when nothing
  but the clock can move.
-/

namespace TransactionAttempts

section Turns

namespace Waiter

variable {c : Context} {now : Instant} {x y : Waiter}

/-- It has seen a live context, and no signal has come since it prepared one. -/
def Unaware (x : Waiter) : Prop := x = .checked false ∨ x = .parked false

theorem not_unaware_signal (x : Waiter) : ¬ x.signal.Unaware := by
  cases x <;> simp [signal, Unaware]

/-- A waiter becomes unaware only by a look at a live context. -/
theorem Turn.unaware (h : Turn c now x y) (hy : y.Unaware) : x.Unaware ∨ c.error now = none := by
  cases h with
  | check b he => exact Or.inr he
  | park b =>
      rcases hy with hy | hy
      · cases hy
      · cases hy
        exact Or.inl (Or.inl rfl)
  | _ => simp [Unaware] at hy

/-- A waiter returns only on a context that is done, with its error. -/
theorem Turn.returned {e : ContextError} (h : Turn c now x (.returned e)) :
    c.error now = some e := by
  cases h with
  | finish b _ he => exact he

/-- How many turns a waiter takes at most until it returns, while the context is done. -/
def turnsLeft : Waiter → Nat
  | idle => 6
  | checked _ => 5
  | parked _ => 4
  | starting => 3
  | prepared _ => 2
  | registered _ => 1
  | returned _ => 0

theorem Turn.turnsLeft_lt (h : Turn c now x y) (hdone : c.error now ≠ none) :
    y.turnsLeft < x.turnsLeft := by
  cases h with
  | check b he => exact absurd he hdone
  | _ => simp [turnsLeft]

/-- How many turns a waiter takes at most until it parks, while the context is live. -/
def turnsToPark : Waiter → Nat
  | prepared true => 8
  | registered true => 7
  | checked true => 6
  | parked true => 5
  | starting => 4
  | prepared false => 3
  | registered false => 2
  | checked false => 1
  | _ => 0

theorem Turn.turnsToPark_lt (h : Turn c now x y) (hlive : c.error now = none)
    (hx : x ≠ .idle) : y.turnsToPark < x.turnsToPark := by
  cases h with
  | call => exact absurd rfl hx
  | finish b e he => exact nomatch hlive.symm.trans he
  | expire b t hd ht => exact absurd hlive (by simp [Context.error, hd, ht]; split <;> simp)
  | register b => cases b <;> decide
  | check b _ => cases b <;> decide
  | park b => cases b <;> decide
  | prepare => decide
  | wake => decide

end Waiter

end Turns

namespace Wakeup

variable {v w : Wakeup}

section Soundness

/-- What stands in a list after one entry has been replaced. -/
theorem getElem?_of_set {α : Type} {l : List α} {i j : Nat} {x z : α}
    (h : (l.set i x)[j]? = some z) : (j = i ∧ z = x) ∨ l[j]? = some z := by
  by_cases hij : i = j
  · subst hij
    rw [List.getElem?_set_self'] at h
    obtain ⟨_, _, rfl⟩ := Option.map_eq_some_iff.1 h
    exact Or.inl ⟨rfl, rfl⟩
  · rw [List.getElem?_set_ne hij] at h
    exact Or.inr h

/-- What holds of all waiters and cancellers at any time. -/
structure Sound (w : Wakeup) : Prop where
  /-- Whoever has begun to cancel has marked the context. -/
  marked : ∀ (j : Nat) x, w.cancellers[j]? = some x → x ≠ .starting → w.context.cancelled = true
  /-- While a waiter is unaware of a mark, some canceller has yet to send its signals. -/
  pending : ∀ (i : Nat) (x : Waiter), w.waiters[i]? = some x → x.Unaware →
    w.context.cancelled = true → ∃ j : Nat, w.cancellers[j]? = some .marked
  /-- Once a canceller has sent its signals, no waiter is unaware. -/
  aware : ∀ (i : Nat) (x : Waiter), w.waiters[i]? = some x → x.Unaware →
    ∀ j : Nat, w.cancellers[j]? ≠ some .finished
  /-- Waiters have returned on a context that is done. -/
  done : ∀ (i : Nat) e, w.waiters[i]? = some (.returned e) → w.context.error w.now ≠ none

theorem sound_initial (now : Instant) (c : Context) (waiters cancellers : Nat) :
    (initial now c waiters cancellers).Sound where
  marked j x hj hx := absurd (List.eq_of_mem_replicate (List.mem_of_getElem? hj)) hx
  pending i x hi hx := by
    rw [List.eq_of_mem_replicate (List.mem_of_getElem? hi)] at hx
    simp [Waiter.Unaware] at hx
  aware i x hi hx := by
    rw [List.eq_of_mem_replicate (List.mem_of_getElem? hi)] at hx
    simp [Waiter.Unaware] at hx
  done i e hi := nomatch List.eq_of_mem_replicate (List.mem_of_getElem? hi)

theorem not_cancelled_of_live {c : Context} {now : Instant} (h : c.error now = none) :
    c.cancelled ≠ true := by
  intro hc
  simp [Context.error, hc] at h

theorem sound_turn {i : Nat} {x y : Waiter} (hw : w.Sound) (hx : w.waiters[i]? = some x)
    (hturn : Waiter.Turn w.context w.now x y) : (w.setWaiter i y).Sound where
  marked := hw.marked
  pending j z hj hz hc := by
    rcases getElem?_of_set hj with ⟨rfl, rfl⟩ | hj
    · rcases hturn.unaware hz with hx' | hlive
      · exact hw.pending j x hx hx' hc
      · exact absurd hc (not_cancelled_of_live hlive)
    · exact hw.pending j z hj hz hc
  aware j z hj hz k hk := by
    rcases getElem?_of_set hj with ⟨rfl, rfl⟩ | hj
    · rcases hturn.unaware hz with hx' | hlive
      · exact hw.aware j x hx hx' k hk
      · exact not_cancelled_of_live hlive (hw.marked k _ hk (by simp))
    · exact hw.aware j z hj hz k hk
  done j e hj := by
    rcases getElem?_of_set hj with ⟨rfl, rfl⟩ | hj
    · exact fun hlive => nomatch hlive.symm.trans hturn.returned
    · exact hw.done j e hj

theorem sound_mark {i : Nat} (hw : w.Sound) (hi : w.cancellers[i]? = some .starting) :
    Sound { w.setCanceller i .marked with context := w.context.cancel } where
  marked _ _ _ _ := rfl
  pending j z hj hz _ := by
    obtain ⟨hlt, _⟩ := List.getElem?_eq_some_iff.1 hi
    exact ⟨i, List.getElem?_set_self hlt⟩
  aware j z hj hz k hk := by
    rcases getElem?_of_set hk with ⟨_, hk⟩ | hk
    · cases hk
    · exact hw.aware j z hj hz k hk
  done j e hj := by simp

theorem sound_notify {i : Nat} (hw : w.Sound) (hi : w.cancellers[i]? = some .marked) :
    Sound { w.setCanceller i .finished with waiters := w.waiters.map Waiter.signal } where
  marked j x hj hx := by
    rcases getElem?_of_set hj with ⟨rfl, _⟩ | hj
    · exact hw.marked j _ hi (by simp)
    · exact hw.marked j x hj hx
  -- a signal leaves nobody unaware
  pending j z hj hz := by
    obtain ⟨x, _, rfl⟩ := Option.map_eq_some_iff.1 (List.getElem?_map ▸ hj)
    exact absurd hz x.not_unaware_signal
  aware j z hj hz := by
    obtain ⟨x, _, rfl⟩ := Option.map_eq_some_iff.1 (List.getElem?_map ▸ hj)
    exact absurd hz x.not_unaware_signal
  done j e hj := by
    obtain ⟨x, hx, he⟩ := Option.map_eq_some_iff.1 (List.getElem?_map ▸ hj)
    cases x with
    | returned e' => exact hw.done j e' hx
    | _ => cases he

/-- One step keeps soundness. -/
theorem sound_step (hv : v.Sound) (h : Step v w) : w.Sound := by
  cases h with
  | turn i x y hx hturn => exact sound_turn hv hx hturn
  | mark i hi => exact sound_mark hv hi
  | notify i hi => exact sound_notify hv hi
  | tick t ht =>
      exact ⟨hv.marked, hv.pending, hv.aware, fun i e hi => Context.error_mono (hv.done i e hi) ht⟩

theorem sound_reachable {start : Wakeup} (hstart : start.Sound) (h : Reachable start w) :
    w.Sound := by
  induction h with
  | start => exact hstart
  | step _ hstep ih => exact sound_step ih hstep

end Soundness

section Returns

/-- Who has returned after a step had done so before, or returns with the error that the
context had when the step was taken. -/
theorem returned_step {i : Nat} {e : ContextError} (h : Step v w)
    (hw : w.waiters[i]? = some (.returned e)) :
    v.waiters[i]? = some (.returned e) ∨ v.context.error v.now = some e := by
  cases h with
  | turn j x y hx hturn =>
      rcases getElem?_of_set hw with ⟨_, rfl⟩ | hw
      · exact Or.inr hturn.returned
      · exact Or.inl hw
  | mark j hj => exact Or.inl hw
  | notify j hj =>
      obtain ⟨x, hx, he⟩ := Option.map_eq_some_iff.1 (List.getElem?_map ▸ hw)
      cases x with
      | returned e' =>
          cases he
          exact Or.inl hx
      | _ => cases he
  | tick t ht => exact Or.inl hw

/-- A waiter that is called, has not returned and cannot take a turn is parked without a
signal. -/
theorem exists_turn {c : Context} {now : Instant} {x : Waiter} (hidle : x ≠ .idle)
    (hreturned : ∀ e, x ≠ .returned e) (hparked : x ≠ .parked false) :
    ∃ y, Waiter.Turn c now x y := by
  cases x with
  | idle => exact absurd rfl hidle
  | starting => exact ⟨_, .prepare⟩
  | prepared b => exact ⟨_, .register b⟩
  | registered b =>
      cases he : c.error now with
      | some e => exact ⟨_, .finish b e he⟩
      | none => exact ⟨_, .check b he⟩
  | checked b => exact ⟨_, .park b⟩
  | parked b =>
      cases b with
      | true => exact ⟨_, .wake⟩
      | false => exact absurd rfl hparked
  | returned e => exact absurd rfl (hreturned e)

/-- **No wake-up is lost.**  However waiters, cancellers and the clock take turns, a waiter
returns only while the context is done, and with the error that it has then.  Once some
cancellation is complete, a waiter that is parked has been signalled.  So every waiter that
has been called and has not returned can take a turn, and each turn brings it closer to its
return. -/
theorem no_lost_wakeup {now : Instant} {c : Context} {waiters cancellers : Nat}
    (hv : Reachable (initial now c waiters cancellers) v) :
    (∀ w (i : Nat) e, Step v w → w.waiters[i]? = some (.returned e) →
      v.waiters[i]? = some (.returned e) ∨ v.context.error v.now = some e) ∧
    (∀ (i : Nat) e, v.waiters[i]? = some (.returned e) → v.context.error v.now ≠ none) ∧
    ((∃ j : Nat, v.cancellers[j]? = some .finished) →
      (∀ (i : Nat) b, v.waiters[i]? = some (.parked b) → b = true) ∧
      ∀ (i : Nat) x, v.waiters[i]? = some x → x ≠ .idle → (∀ e, x ≠ .returned e) →
        (∃ y, Waiter.Turn v.context v.now x y) ∧
          ∀ y, Waiter.Turn v.context v.now x y → y.turnsLeft < x.turnsLeft) := by
  have hsound := sound_reachable (sound_initial now c waiters cancellers) hv
  refine ⟨fun w i e h hi => returned_step h hi, hsound.done, ?_⟩
  rintro ⟨j, hj⟩
  have haware : ∀ i : Nat, v.waiters[i]? ≠ some (.parked false) := fun i hi =>
    hsound.aware i _ hi (Or.inr rfl) j hj
  have hcancelled : v.context.cancelled = true := hsound.marked j _ hj (by simp)
  have hdone : v.context.error v.now ≠ none := fun hlive => not_cancelled_of_live hlive hcancelled
  refine ⟨fun i b hi => ?_, fun i x hi hidle hreturned => ⟨?_, fun y hy => hy.turnsLeft_lt hdone⟩⟩
  · cases b with
    | true => rfl
    | false => exact absurd hi (haware i)
  · exact exists_turn hidle hreturned fun hx => haware i (hx ▸ hi)

/-- A context is cancelled after its waiter has seen it live and before the waiter parks. -/
theorem no_lost_wakeup_late_park :
    Reachable (initial 0 Context.unbounded 1 1) ⟨0, ⟨true, none⟩, [.parked true], [.finished]⟩ ∧
      ∃ y, Waiter.Turn ⟨true, none⟩ 0 (.parked true) y := by
  have called : Reachable (initial 0 Context.unbounded 1 1)
      ⟨0, Context.unbounded, [.starting], [.starting]⟩ :=
    .step .start (.turn _ 0 .idle _ rfl .call)
  have prepared : Reachable (initial 0 Context.unbounded 1 1)
      ⟨0, Context.unbounded, [.prepared false], [.starting]⟩ :=
    .step called (.turn _ 0 .starting _ rfl .prepare)
  have registered : Reachable (initial 0 Context.unbounded 1 1)
      ⟨0, Context.unbounded, [.registered false], [.starting]⟩ :=
    .step prepared (.turn _ 0 (.prepared false) _ rfl (.register false))
  have checked : Reachable (initial 0 Context.unbounded 1 1)
      ⟨0, Context.unbounded, [.checked false], [.starting]⟩ :=
    .step registered (.turn _ 0 (.registered false) _ rfl (.check false rfl))
  have marked : Reachable (initial 0 Context.unbounded 1 1)
      ⟨0, ⟨true, none⟩, [.checked false], [.marked]⟩ :=
    .step checked (.mark _ 0 rfl)
  have notified : Reachable (initial 0 Context.unbounded 1 1)
      ⟨0, ⟨true, none⟩, [.checked true], [.finished]⟩ :=
    .step marked (.notify _ 0 rfl)
  have parked : Reachable (initial 0 Context.unbounded 1 1)
      ⟨0, ⟨true, none⟩, [.parked true], [.finished]⟩ :=
    .step notified (.turn _ 0 (.checked true) _ rfl (.park true))
  refine ⟨parked, ?_⟩
  obtain ⟨_, hturns⟩ := (no_lost_wakeup parked).2.2 ⟨0, rfl⟩
  exact (hturns 0 _ rfl (by simp) (by simp)).1

end Returns

section Rest

/-- A step that needs no time and nobody who begins something: a turn of a waiter that has
been called, or the signals of a canceller that has marked the context. -/
inductive Inner : Wakeup → Wakeup → Prop
  | turn (w : Wakeup) (i : Nat) (x y : Waiter) :
      w.waiters[i]? = some x → x ≠ .idle → Waiter.Turn w.context w.now x y →
      Inner w (w.setWaiter i y)
  | notify (w : Wakeup) (i : Nat) :
      w.cancellers[i]? = some .marked →
      Inner w { w.setCanceller i .finished with waiters := w.waiters.map Waiter.signal }

/-- Nothing happens until the clock moves or somebody begins something. -/
def AtRest (w : Wakeup) : Prop := ∀ v, ¬ Inner w v

theorem Inner.step (h : Inner v w) : Step v w := by
  cases h with
  | turn i x y hx _ hturn => exact .turn _ i x y hx hturn
  | notify i hi => exact .notify _ i hi

theorem Inner.frame (h : Inner v w) : w.now = v.now ∧ w.context = v.context := by
  cases h <;> exact ⟨rfl, rfl⟩

/-- How many turns a waiter takes at most until it returns or parks. -/
def effort (c : Context) (now : Instant) (x : Waiter) : Nat :=
  if c.error now = none then x.turnsToPark else x.turnsLeft

theorem effort_lt {c : Context} {now : Instant} {x y : Waiter} (h : Waiter.Turn c now x y)
    (hx : x ≠ .idle) : effort c now y < effort c now x := by
  unfold effort
  split
  · next hlive => exact h.turnsToPark_lt hlive hx
  · next hdone => exact h.turnsLeft_lt hdone

/-- What is left to do for some waiters together. -/
def efforts (c : Context) (now : Instant) : List Waiter → Nat
  | [] => 0
  | x :: rest => effort c now x + efforts c now rest

theorem efforts_set_lt {c : Context} {now : Instant} {x y : Waiter}
    (h : effort c now y < effort c now x) :
    ∀ {l : List Waiter} {i : Nat}, l[i]? = some x → efforts c now (l.set i y) < efforts c now l
  | z :: l, 0, hx => by
      cases hx
      exact Nat.add_lt_add_right h _
  | z :: l, i + 1, hx => by
      have htail : l[i]? = some x := by simpa using hx
      exact Nat.add_lt_add_left (efforts_set_lt h htail) _

/-- What is left to do before rest: signals to send, and then turns to take. -/
def rank (w : Wakeup) : Nat × Nat :=
  (w.cancellers.count .marked, efforts w.context w.now w.waiters)

/-- Each inner step brings rest closer. -/
theorem Inner.rank_lt (h : Inner v w) : Prod.Lex (· < ·) (· < ·) w.rank v.rank := by
  cases h with
  | turn i x y hx hidle hturn =>
      exact .right _ (efforts_set_lt (effort_lt hturn hidle) hx)
  | notify i hi =>
      obtain ⟨hlt, hmarked⟩ := List.getElem?_eq_some_iff.1 hi
      refine .left _ _ ?_
      have hpos : 0 < v.cancellers.count .marked :=
        List.count_pos_iff.2 (List.mem_of_getElem? hi)
      have : (v.cancellers.set i .finished).count .marked = v.cancellers.count .marked - 1 := by
        simp [List.count_set, hlt, hmarked]
      show (v.cancellers.set i .finished).count .marked < _
      omega

/-- Inner steps come to an end. -/
theorem exists_at_rest (v : Wakeup) : ∃ w, Relation.ReflTransGen Inner v w ∧ w.AtRest := by
  by_cases hrest : v.AtRest
  · exact ⟨v, .refl, hrest⟩
  · obtain ⟨u, hu⟩ := not_forall_not.1 hrest
    obtain ⟨w, huw, hw⟩ := exists_at_rest u
    exact ⟨w, .head hu huw, hw⟩
termination_by v.rank
decreasing_by exact hu.rank_lt

/-- Inner steps keep the clock and the context, and whoever returns meanwhile does so with
the context's error. -/
theorem inner_run (h : Relation.ReflTransGen Inner v w) :
    w.now = v.now ∧ w.context = v.context ∧ (v.Sound → w.Sound) ∧
      ∀ (i : Nat) e, w.waiters[i]? = some (.returned e) →
        v.waiters[i]? = some (.returned e) ∨ v.context.error v.now = some e := by
  induction h with
  | refl => exact ⟨rfl, rfl, id, fun i e hi => Or.inl hi⟩
  | @tail u w _ hstep ih =>
      obtain ⟨hnow, hcontext, hsound, hreturned⟩ := ih
      refine ⟨hstep.frame.1.trans hnow, hstep.frame.2.trans hcontext,
        fun hv => sound_step (hsound hv) hstep.step, fun i e hi => ?_⟩
      rcases returned_step hstep.step hi with hu | he
      · exact hreturned i e hu
      · exact Or.inr (by rwa [hnow, hcontext] at he)

/-- At rest, every waiter that has been called is parked while the context is live, and has
returned once it is done. -/
theorem at_rest {i : Nat} {x : Waiter} (hw : w.Sound) (hrest : w.AtRest)
    (hx : w.waiters[i]? = some x) (hidle : x ≠ .idle) :
    (w.context.error w.now = none ∧ x = .parked false) ∨
      (w.context.error w.now ≠ none ∧ ∃ e, x = .returned e) := by
  by_cases hreturned : ∃ e, x = .returned e
  · obtain ⟨e, rfl⟩ := hreturned
    exact Or.inr ⟨hw.done i e hx, e, rfl⟩
  · have hturn : ∀ y, ¬ Waiter.Turn w.context w.now x y := fun y hy =>
      hrest _ (.turn w i x y hx hidle hy)
    have hparked : x = .parked false := by
      by_contra hparked
      obtain ⟨y, hy⟩ : ∃ y, Waiter.Turn w.context w.now x y :=
        exists_turn hidle (fun e he => hreturned ⟨e, he⟩) hparked
      exact hturn y hy
    subst hparked
    -- a sleeper is woken by the deadline, and by a canceller that has marked the context
    have hcancelled : w.context.cancelled ≠ true := fun hc => by
      obtain ⟨j, hj⟩ := hw.pending i _ hx (Or.inr rfl) hc
      exact hrest _ (.notify w j hj)
    have hdeadline : ∀ t, w.context.deadline = some t → ¬ t ≤ w.now := fun t ht hle =>
      hturn _ (.expire false t ht hle)
    refine Or.inl ⟨?_, rfl⟩
    cases hd : w.context.deadline with
    | none => simp [Context.error, hcancelled, hd]
    | some t => simpa [Context.error, hcancelled, hd] using hdeadline t hd

/-- Inner steps come to rest and need no time.  Then every waiter that has been called is
parked if the context is live, and has returned with its error if it is done. -/
structure Settles (v : Wakeup) : Prop where
  rests : ∃ w, Relation.ReflTransGen Inner v w ∧ w.AtRest
  rested : ∀ w, Relation.ReflTransGen Inner v w → w.AtRest →
    w.now = v.now ∧ w.context = v.context ∧
      ∀ (i : Nat) x, w.waiters[i]? = some x → x ≠ .idle →
        (v.context.error v.now = none ∧ x = .parked false) ∨
          ∃ e, x = .returned e ∧
            (v.waiters[i]? = some (.returned e) ∨ v.context.error v.now = some e)

theorem settles_of_reachable {now : Instant} {c : Context} {waiters cancellers : Nat}
    (hv : Reachable (initial now c waiters cancellers) v) : v.Settles where
  rests := exists_at_rest v
  rested w hvw hrest := by
    obtain ⟨hnow, hcontext, hsound, hreturned⟩ := inner_run hvw
    have hw := hsound (sound_reachable (sound_initial now c waiters cancellers) hv)
    refine ⟨hnow, hcontext, fun i x hx hidle => ?_⟩
    rcases at_rest hw hrest hx hidle with ⟨hlive, rfl⟩ | ⟨_, e, rfl⟩
    · exact Or.inl ⟨by rwa [hnow, hcontext] at hlive, rfl⟩
    · exact Or.inr ⟨e, rfl, hreturned i e hx⟩

end Rest

end Wakeup

end TransactionAttempts
