import TransactionAttempts.Timeline

/-!
# Handles to contexts

Contexts are reached through named handles.  A handle may be cloned, and all
handles cloned from one another share a context; a dropped handle takes nothing
with it.  Tasks in the background wait for the end of a context or cancel one
later.

**Rules.**

* What is due happens in order of time: cancellations, and waiting tasks whose
  context has ended.
* While the foreground sleeps, the clock goes from one such instant to the next,
  and what happens carries that instant.
* A sleep is cut at the longest there is; a limit on a wait is not, nor is a jump.
* When the clock jumps, all that became due meanwhile happens at its new position.

Main facts:

* `lookup_enter`, `lookup_enter_ne`: a name that is entered again has the new value,
  and other names keep theirs.
-/

namespace TransactionAttempts

/-- Something done to handles or to the clock. -/
inductive HandleAction where
  | create (handle : String)
  | withTimeout (handle : String) (timeout : Duration)
  | clone (handle : String) (source : String)
  | drop (handle : String)
  | cancel (handle : String)
  /-- A task in the background cancels after some time. -/
  | cancelAfter (handle : String) (delay : Duration)
  /-- The clock jumps. -/
  | advance (d : Duration)
  /-- The foreground sleeps. -/
  | sleep (d : Duration)
  /-- The foreground waits for the end of a context, for a limited time. -/
  | awaitEnd (handle : String) (limit : Duration)
  /-- A named task in the background waits for the end of a context. -/
  | watch (handle : String) (task : String)

/-- Named handles, and the tasks in the background. -/
structure Handles where
  timeline : Timeline
  named : List (String × ContextId)
  waiting : List (String × ContextId)
  /-- Tasks that have seen the end of their context: the error and the instant. -/
  finished : List (String × ContextError × Instant)

namespace Handles

def empty : Handles := ⟨Timeline.start, [], [], []⟩

/-- Enters a value under a name, in place of one that it had. -/
def enter {β : Type} (name : String) (b : β) (l : List (String × β)) : List (String × β) :=
  l.filter (·.1 ≠ name) ++ [(name, b)]

theorem lookup_enter {β : Type} (name : String) (b : β) (l : List (String × β)) :
    (enter name b l).lookup name = some b := by
  induction l with
  | nil => simp [enter]
  | cons x l ih =>
      obtain ⟨k, v⟩ := x
      by_cases h : k = name
      · simpa [enter, h] using ih
      · have hk : (name == k) = false := by simpa using Ne.symm h
        simpa [enter, h, List.lookup_cons, hk] using ih

theorem lookup_enter_ne {β : Type} {name other : String} (h : other ≠ name) (b : β)
    (l : List (String × β)) : (enter name b l).lookup other = l.lookup other := by
  have ho : (other == name) = false := by simpa using h
  induction l with
  | nil => simp [enter, List.lookup_cons, ho]
  | cons x l ih =>
      obtain ⟨k, v⟩ := x
      by_cases hk : k = name
      · simpa [enter, hk, List.lookup_cons, ho] using ih
      · cases hx : other == k with
        | true => simp [enter, hk, List.lookup_cons, hx]
        | false => simpa [enter, hk, List.lookup_cons, hx] using ih

def find? (s : Handles) (handle : String) : Option ContextId := s.named.lookup handle

/-- A new context under a name. -/
def create (s : Handles) (handle : String) (c : Context) : Handles :=
  { s with
    timeline := s.timeline.create c
    named := enter handle s.timeline.contexts.size s.named }

section Settling

/-- Carries out the cancellations that are due by an instant. -/
def fire (due : Instant) : List (Instant × ContextId) → Contexts → Contexts
  | [], cs => cs
  | (t, i) :: rest, cs => fire due rest (if t ≤ due then cs.cancel i else cs)

/-- What is due by an instant happens, at the present position of the clock. -/
def settle (s : Handles) (due : Instant) : Handles :=
  let cs := fire due s.timeline.agenda s.timeline.contexts
  { s with
    timeline :=
      { s.timeline with
        contexts := cs
        agenda := s.timeline.agenda.filter (due < ·.1)
        sorted := s.timeline.sorted.filter _ }
    waiting := s.waiting.filter fun x => (cs.error due x.2).isNone
    finished := s.waiting.foldl (fun done x =>
      match cs.error due x.2 with
      | some e => enter x.1 (e, s.timeline.now) done
      | none => done) s.finished }

/-- The instants up to a given one at which something becomes due, in order, and
that instant itself. -/
def stops (s : Handles) (extra : Option Instant) (last : Instant) : List Instant :=
  let deadlines := s.waiting.filterMap fun x => s.timeline.deadline x.2
  let due := s.timeline.agenda.map (·.1) ++ deadlines ++ extra.toList
  (due.filter fun t => s.timeline.now < t ∧ t < last).mergeSort (· ≤ ·) ++ [last]

/-- Moves the clock to an instant, at which what is due then happens. -/
def moveTo (s : Handles) (t : Instant) : Handles :=
  { s with timeline := { s.timeline with now := t } }.settle t

/-- Sleeps until an instant. -/
def sleepUntil (s : Handles) (t : Instant) : Handles := (s.stops none t).foldl moveTo s

/-- Sets the clock to an instant; then what became due happens in order. -/
def jumpTo (s : Handles) (t : Instant) : Handles :=
  (s.stops none t).foldl settle { s with timeline := { s.timeline with now := t } }

/-- Goes along the given instants until the context is done. -/
def awaitAlong (i : ContextId) : List Instant → Handles → Option ContextError × Handles
  | [], s => (s.timeline.error i, s)
  | t :: rest, s =>
      match s.timeline.error i with
      | some e => (some e, s)
      | none => awaitAlong i rest (s.moveTo t)

end Settling

/-- Carries out an action.  Waiting in the foreground answers with the error of
the context, or with nothing at the limit. -/
def act (s : Handles) : HandleAction → Option (Option ContextError) × Handles
  | .create handle => (none, s.create handle Context.unbounded)
  | .withTimeout handle timeout =>
      (none, s.create handle (Context.withTimeout s.timeline.now timeout))
  | .clone handle source =>
      match s.find? source with
      | some i => (none, { s with named := enter handle i s.named })
      | none => (none, s)
  | .drop handle => (none, { s with named := s.named.filter (·.1 ≠ handle) })
  | .cancel handle =>
      match s.find? handle with
      | some i => (none, { s with timeline := s.timeline.cancel i })
      | none => (none, s)
  | .cancelAfter handle delay =>
      match s.find? handle with
      | some i =>
          let due := Instant.afterSleep s.timeline.now delay
          (none, { s with timeline := s.timeline.schedule due i })
      | none => (none, s)
  | .advance d => (none, s.jumpTo (s.timeline.now + d.nanos))
  | .sleep d => (none, s.sleepUntil (Instant.afterSleep s.timeline.now d))
  | .awaitEnd handle limit =>
      match s.find? handle with
      | some i =>
          let last := Instant.afterLimit s.timeline.now limit
          let (e, t) := awaitAlong i (s.stops (s.timeline.deadline i) last) s
          (some e, t)
      | none => (some none, s)
  | .watch handle task =>
      match s.find? handle with
      | some i => (none, { s with waiting := s.waiting ++ [(task, i)] })
      | none => (none, s)

/-- Carries out an action and lets the background do what is due. -/
def step (s : Handles) (a : HandleAction) : Option (Option ContextError) × Handles :=
  let (answer, t) := s.act a
  (answer, t.settle t.timeline.now)

/-- The answers to a sequence of actions, each with the state that it leaves. -/
def history (s : Handles) : List HandleAction → List (Option (Option ContextError) × Handles)
  | [] => []
  | a :: rest => s.step a :: history (s.step a).2 rest

/-- What the handles tell: whether the context is done, why, and its deadline. -/
def view (s : Handles) : List (String × Bool × Option ContextError × Option Instant) :=
  s.named.map fun (handle, i) =>
    (handle, (s.timeline.error i).isSome, s.timeline.error i, s.timeline.deadline i)

end Handles

end TransactionAttempts
