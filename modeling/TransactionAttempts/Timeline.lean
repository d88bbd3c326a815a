import TransactionAttempts.Context.Basic

/-!
# The course of time

The clock stands still while work proceeds and moves only when all work waits.
It then goes to the next instant at which something happens: a cancellation
that somebody else makes, or the instant for which the work waits.

**Rules.**

* `Timeline.step?` is one move of the clock.  A cancellation due no later than
  the awaited instant comes first.
* `Timeline.reach` moves the clock to the end of the first of several waits, and
  `Timeline.await` to that of one.  A context that is done ends a
  wait in preference to a limit that is reached at the same instant.

Main facts:

* `now_le_step`: the clock never goes back;
* `await_of_verdict`: a wait that is over takes no time.
-/

namespace TransactionAttempts

/-- The clock, all contexts, and the cancellations that others will make, in
order of time. -/
structure Timeline where
  now : Instant
  contexts : Contexts
  agenda : List (Instant × ContextId)
  sorted : agenda.Pairwise (·.1 ≤ ·.1)

namespace Timeline

def start : Timeline := ⟨0, Contexts.empty, [], .nil⟩

/-- Why a context is done now, or nothing while it is live. -/
def error (w : Timeline) (i : ContextId) : Option ContextError := w.contexts.error w.now i

def deadline (w : Timeline) (i : ContextId) : Option Instant := w.contexts.deadline i

/-- The timeline with a further context, which gets the number `w.contexts.size`. -/
def create (w : Timeline) (c : Context) : Timeline := { w with contexts := w.contexts.push c }

def cancel (w : Timeline) (i : ContextId) : Timeline := { w with contexts := w.contexts.cancel i }

theorem le_of_mem_dropWhile {t : Instant} {l : List (Instant × ContextId)}
    (hl : l.Pairwise (·.1 ≤ ·.1)) : ∀ x ∈ l.dropWhile (·.1 ≤ t), t ≤ x.1 := by
  induction l with
  | nil => simp
  | cons y rest ih =>
      obtain ⟨hy, hr⟩ := List.pairwise_cons.1 hl
      intro x hx
      by_cases hyt : y.1 ≤ t
      · rw [List.dropWhile_cons_of_pos (by simpa using hyt)] at hx
        exact ih hr x hx
      · have hty : t ≤ y.1 := Nat.le_of_lt (Nat.lt_of_not_le hyt)
        rw [List.dropWhile_cons_of_neg (by simpa using hyt)] at hx
        rcases List.mem_cons.1 hx with rfl | hx
        · exact hty
        · exact Nat.le_trans hty (hy x hx)

/-- Enters a cancellation behind all that are due no later. -/
def schedule (w : Timeline) (t : Instant) (i : ContextId) : Timeline :=
  { w with
    agenda := w.agenda.takeWhile (·.1 ≤ t) ++ (t, i) :: w.agenda.dropWhile (·.1 ≤ t)
    sorted := by
      have hdrop := le_of_mem_dropWhile (t := t) w.sorted
      have htake : ∀ x ∈ w.agenda.takeWhile (·.1 ≤ t), x.1 ≤ t := fun x hx =>
        of_decide_eq_true (List.all_eq_true.1 List.all_takeWhile x hx)
      refine List.pairwise_append.2 ⟨w.sorted.sublist (List.takeWhile_sublist _), ?_, ?_⟩
      · exact List.pairwise_cons.2 ⟨hdrop, w.sorted.sublist (List.dropWhile_sublist _)⟩
      · intro x hx y hy
        rcases List.mem_cons.1 hy with rfl | hy
        · exact htake x hx
        · exact Nat.le_trans (htake x hx) (hdrop y hy) }

/-- One move of the clock, towards an instant for which somebody waits. -/
def step? (wake : Option Instant) : Timeline → Option Timeline
  | ⟨now, cs, [], h⟩ => wake.map fun t => ⟨max now t, cs, [], h⟩
  | ⟨now, cs, (t, i) :: rest, h⟩ =>
      match wake with
      | some s =>
          if s < t then some ⟨max now s, cs, (t, i) :: rest, h⟩
          else some ⟨max now t, cs.cancel i, rest, h.of_cons⟩
      | none => some ⟨max now t, cs.cancel i, rest, h.of_cons⟩

theorem now_le_step {wake : Option Instant} {w v : Timeline} (h : w.step? wake = some v) :
    w.now ≤ v.now := by
  obtain ⟨now, cs, _ | ⟨⟨t, i⟩, rest⟩, hs⟩ := w
  · obtain ⟨t, _, rfl⟩ := Option.map_eq_some_iff.1 h
    exact Nat.le_max_left now t
  · simp only [step?] at h
    split at h
    · split at h <;> cases h <;> exact Nat.le_max_left _ _
    · cases h
      exact Nat.le_max_left _ _

end Timeline

/-- The earlier of two instants, where a missing one never comes. -/
def Instant.earlier : Option Instant → Option Instant → Option Instant
  | some s, some t => some (min s t)
  | some s, none => some s
  | none, t => t

/-- A wait for the end of a context or for an instant, whichever comes first. -/
structure Wait where
  context : Option ContextId
  wake : Option Instant

namespace Wait

/-- How the wait ended: with the error of its context or at its instant.
Nothing while it lasts. -/
def verdict (x : Wait) (w : Timeline) : Option (Option ContextError) :=
  match x.context.bind w.error with
  | some e => some (some e)
  | none => if x.wake.any (· ≤ w.now) then some none else none

/-- When the wait ends by itself, if nobody cancels its context. -/
def target (x : Wait) (w : Timeline) : Option Instant :=
  Instant.earlier x.wake (x.context.bind w.deadline)

end Wait

namespace Timeline

/-- Some wait of the list is over. -/
def anyOver (xs : List Wait) (w : Timeline) : Bool := xs.any fun x => (x.verdict w).isSome

/-- When the first of several waits ends by itself. -/
def firstTarget (xs : List Wait) (w : Timeline) : Option Instant :=
  xs.foldr (fun x t => Instant.earlier (x.target w) t) none

/-- Moves the clock until some wait is over, in at most the given number of moves. -/
def reachWithin (xs : List Wait) : Nat → Timeline → Option Timeline
  | 0, w => if w.anyOver xs then some w else none
  | n + 1, w =>
      if w.anyOver xs then some w
      else (w.step? (w.firstTarget xs)).bind (reachWithin xs n)

/-- Moves the clock until some wait is over.  Each move carries out one
cancellation or reaches the instant at which a wait ends by itself, so their
number is bounded.  Nothing if no wait ever ends. -/
def reach (xs : List Wait) (w : Timeline) : Option Timeline :=
  reachWithin xs (w.agenda.length + 1) w

/-- Moves the clock until the wait is over, and says how it ended. -/
def await (x : Wait) (w : Timeline) : Option (Option ContextError × Timeline) :=
  (w.reach [x]).bind fun v => (x.verdict v).map (·, v)

theorem reach_of_anyOver {xs : List Wait} {w : Timeline} (h : w.anyOver xs = true) :
    w.reach xs = some w := by
  simp [reach, reachWithin, h]

theorem await_of_verdict {x : Wait} {w : Timeline} {r : Option ContextError}
    (h : x.verdict w = some r) : w.await x = some (r, w) := by
  simp [await, reach_of_anyOver, anyOver, h]

end Timeline

end TransactionAttempts
