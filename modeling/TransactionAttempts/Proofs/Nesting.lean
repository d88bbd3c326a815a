import TransactionAttempts.Async.Joint
import TransactionAttempts.Proofs.Captures
import TransactionAttempts.Proofs.Heredity
import TransactionAttempts.Proofs.Records

/-!
# Captured polls

While a captured program is polled a capture is in progress.  The poll can end in three ways:
the program waits, returns, or panics.

**Capturing.**  `capturing` enters a capture when a poll begins and leaves it when the poll
ends, in whichever way.  The panic goes on, through as many captured polls as there are; a
captured program is one that runs capturing and whose panic is then caught.

**Tidy programs.**  A tidy program enters and leaves captures by `capturing` alone.  Besides
the usual ways to put programs together it may poll other tidy programs inside its own polls,
as it likes: once or again and again, several of them in turn, and it may drop what is left of
them.  So the steps of an executor may run other executors, and wait for them or block on them.

**Threads.**  A thread polls tidy programs one after the other, each in a world of which the
thread knows the captures only.  What is left of a tidy program after a poll is tidy again, so
programs may be polled further by any thread.

Main facts:

* `captured_eq`: a captured program is a capturing one that is caught;
* `Tidy.nested`: a tidy program leaves every capture that it enters before it waits or ends;
* `Nested.closing`: the moves of a poll;
* `Executor.tidy_run`: the runs of executors are tidy;
* `captures_nest`: what tidy programs do to the captures of a thread.
-/

namespace TransactionAttempts

open Capture

variable {σ ε τ α β : Type}

/-- The operation neither enters nor leaves a capture. -/
def Op.Plain : Op σ ε → Prop
  | .enterCapture => False
  | .leaveCapture => False
  | _ => True

namespace Async

section Capturing

/-- The rest of a program inside a capture that has been entered. -/
def capturingRest : Async σ ε α → Async σ ε α
  | .ret a => .perform .leaveCapture fun _ => .ret a
  | .unwind p => .perform .leaveCapture fun _ => .unwind p
  | .perform o next => .perform o fun a => (next a).capturingRest
  | .await c limit next =>
      .perform .leaveCapture fun _ =>
        .await c limit fun r => .perform .enterCapture fun _ => (next r).capturingRest

/-- Runs a program so that a capture is in progress during its polls. -/
def capturing (x : Async σ ε α) : Async σ ε α := .perform .enterCapture fun _ => x.capturingRest

/-- A captured program runs capturing, and its panic is caught behind the capture. -/
theorem captured_eq (x : Async σ ε α) : x.captured = x.capturing.caught := by
  refine congrArg (Async.perform .enterCapture) (funext fun _ => ?_)
  induction x with
  | ret a => rfl
  | unwind p => rfl
  | perform o next ih => exact congrArg (Async.perform o) (funext ih)
  | await c limit next ih =>
      refine congrArg (Async.perform .leaveCapture) (funext fun _ => ?_)
      refine congrArg (Async.await c limit) (funext fun r => ?_)
      exact congrArg (Async.perform .enterCapture) (funext fun _ => ih r)

end Capturing

section Polling

/-- The program can come to this wait without another one before it. -/
inductive Stops : Async σ ε α → Option ContextId → Option Duration →
    (Option ContextError → Async σ ε α) → Prop
  | here (c : Option ContextId) (limit : Option Duration)
      (next : Option ContextError → Async σ ε α) : Stops (.await c limit next) c limit next
  | perform {o : Op σ ε} {next : o.Answer → Async σ ε α} {c : Option ContextId}
      {limit : Option Duration} {k : Option ContextError → Async σ ε α} (a : o.Answer) :
      Stops (next a) c limit k → Stops (.perform o next) c limit k

/-- Polls a program up to its first wait, inside a poll of one's own.  What is left of it can
be polled on or dropped. -/
def polled : Async σ ε α → (α → Async σ ε β) →
    (Option ContextId → Option Duration → (Option ContextError → Async σ ε α) → Async σ ε β) →
    Async σ ε β
  | .ret a, done, _ => done a
  | .unwind p, _, _ => .unwind p
  | .perform o next, done, pending => .perform o fun a => (next a).polled done pending
  | .await c limit next, _, pending => pending c limit next

/-- Polls a program until it ends, inside a poll of one's own, and does something else instead
of each of its waits. -/
def blocked (wait : Option ContextId → Option Duration → Async σ ε (Option ContextError)) :
    Async σ ε α → Async σ ε α
  | .ret a => .ret a
  | .unwind p => .unwind p
  | .perform o next => .perform o fun a => (next a).blocked wait
  | .await c limit next => (wait c limit).bind fun r => (next r).blocked wait

theorem blocked_eq (wait : Option ContextId → Option Duration → Async σ ε (Option ContextError))
    (x : Async σ ε α) :
    x.blocked wait =
      x.polled .ret fun c limit next => (wait c limit).bind fun r => (next r).blocked wait := by
  induction x with
  | ret a => rfl
  | unwind p => rfl
  | perform o next ih => exact congrArg (Async.perform o) (funext ih)
  | await c limit next ih => rfl

end Polling

section Tidiness

/-- Programs that enter and leave captures by `capturing` alone. -/
inductive Tidy : {α : Type} → Async σ ε α → Prop
  | ret {α : Type} (a : α) : Tidy (.ret a)
  | unwind {α : Type} (p : Payload) : Tidy (.unwind p : Async σ ε α)
  | perform {α : Type} {o : Op σ ε} {next : o.Answer → Async σ ε α} :
      o.Plain → (∀ a, Tidy (next a)) → Tidy (.perform o next)
  | await {α : Type} {c : Option ContextId} {limit : Option Duration}
      {next : Option ContextError → Async σ ε α} :
      (∀ r, Tidy (next r)) → Tidy (.await c limit next)
  | bind {α β : Type} {x : Async σ ε α} {f : α → Async σ ε β} :
      Tidy x → (∀ a, Tidy (f a)) → Tidy (x.bind f)
  | caught {α : Type} {x : Async σ ε α} : Tidy x → Tidy x.caught
  | capturing {α : Type} {x : Async σ ε α} : Tidy x → Tidy x.capturing
  /-- What is left of a tidy program at a wait. -/
  | rest {α : Type} {x : Async σ ε α} {c : Option ContextId} {limit : Option Duration}
      {next : Option ContextError → Async σ ε α} (r : Option ContextError) :
      Tidy x → Stops x c limit next → Tidy (next r)
  /-- A tidy program is polled inside a poll of another one. -/
  | polled {α β : Type} {x : Async σ ε α} {done : α → Async σ ε β}
      {pending : Option ContextId → Option Duration → (Option ContextError → Async σ ε α) →
        Async σ ε β} :
      Tidy x → (∀ a, Tidy (done a)) →
      (∀ c limit next, Stops x c limit next → Tidy (pending c limit next)) →
      Tidy (x.polled done pending)

theorem Tidy.request {o : Op σ ε} (h : o.Plain) : (request o).Tidy := .perform h fun a => .ret a

theorem Tidy.panic (p : Payload) (site : PanicSite) : (panic p site : Async σ ε α).Tidy :=
  .perform (o := .hook site) trivial fun _ => .unwind p

theorem Tidy.captured {x : Async σ ε α} (h : x.Tidy) : x.captured.Tidy :=
  captured_eq x ▸ h.capturing.caught

/-- What is left of a tidy program when a poll ends at a wait. -/
theorem Tidy.parked {x : Async σ ε α} {w : World σ ε} {wait : Wait}
    {next : Option ContextError → Async σ ε α} (h : x.Tidy)
    (hp : (x.poll w).1 = .parked wait next) (r : Option ContextError) : (next r).Tidy := by
  have hrest : ∀ c limit k, Stops x c limit k → ∀ r, (k r).Tidy :=
    fun _ _ _ hs r => h.rest r hs
  -- the parts of a tidy program need not be tidy, but what they leave at their waits is
  clear h
  induction x generalizing w with
  | ret a => cases hp
  | unwind p => cases hp
  | perform o next ih => exact ih _ hp fun c limit k hs => hrest c limit k (.perform _ hs)
  | await c limit k ih =>
      have hk := hrest c limit k (.here _ _ _)
      rw [poll] at hp
      split at hp
      · exact ih _ hp fun c limit k' hs r => (hk _).rest r hs
      · cases hp
        exact hk r

/-- A tidy program may block on another one, and do anything tidy in the meantime. -/
theorem Tidy.blocked
    {wait : Option ContextId → Option Duration → Async σ ε (Option ContextError)}
    (hwait : ∀ c limit, (wait c limit).Tidy) {x : Async σ ε α} (h : x.Tidy) :
    (x.blocked wait).Tidy := by
  have hpolled : ∀ {y : Async σ ε α}, y.Tidy →
      (∀ c limit k, Stops y c limit k → ∀ r, (k r).Tidy → ((k r).blocked wait).Tidy) →
      (y.blocked wait).Tidy := by
    intro y hy hk
    rw [blocked_eq]
    exact hy.polled .ret fun c limit k hs =>
      (hwait c limit).bind fun r => hk c limit k hs r (hy.rest r hs)
  refine hpolled h ?_
  clear h
  induction x with
  | ret a => exact nofun
  | unwind p => exact nofun
  | perform o next ih =>
      intro c limit k hs
      cases hs with
      | perform a hs => exact ih a c limit k hs
  | await c limit next ih =>
      intro c' limit' k hs r hr
      cases hs with
      | here => exact hpolled hr (ih r)

end Tidiness

section Nests

/-- On every path the program leaves `n` captures that are in progress at first and all those
that it enters, and it waits or ends in none of them. -/
inductive Nested : Nat → Async σ ε α → Prop
  | ret (a : α) : Nested 0 (.ret a)
  | unwind (p : Payload) : Nested 0 (.unwind p)
  | enter {n : Nat} {next : Unit → Async σ ε α} :
      Nested (n + 1) (next ()) → Nested n (.perform .enterCapture next)
  | leave {n : Nat} {next : Unit → Async σ ε α} :
      Nested n (next ()) → Nested (n + 1) (.perform .leaveCapture next)
  | perform {n : Nat} {o : Op σ ε} {next : o.Answer → Async σ ε α} :
      o.Plain → (∀ a, Nested n (next a)) → Nested n (.perform o next)
  | await {c : Option ContextId} {limit : Option Duration}
      {next : Option ContextError → Async σ ε α} :
      (∀ r, Nested 0 (next r)) → Nested 0 (.await c limit next)

theorem Nested.bind {n : Nat} {x : Async σ ε α} {f : α → Async σ ε β} (h : Nested n x)
    (hf : ∀ a, Nested 0 (f a)) : Nested n (x.bind f) := by
  induction h with
  | ret a => exact hf a
  | unwind p => exact .unwind p
  | enter _ ih => exact .enter ih
  | leave _ ih => exact .leave ih
  | perform ho _ ih => exact .perform ho ih
  | await _ ih => exact .await ih

theorem Nested.caught {n : Nat} {x : Async σ ε α} (h : Nested n x) : Nested n x.caught := by
  induction h with
  | ret a => exact .ret _
  | unwind p => exact .ret _
  | enter _ ih => exact .enter ih
  | leave _ ih => exact .leave ih
  | perform ho _ ih => exact .perform ho ih
  | await _ ih => exact .await ih

theorem Nested.capturingRest {n : Nat} {x : Async σ ε α} (h : Nested n x) :
    Nested (n + 1) x.capturingRest := by
  induction h with
  | ret a => exact .leave (.ret a)
  | unwind p => exact .leave (.unwind p)
  | enter _ ih => exact .enter ih
  | leave _ ih => exact .leave ih
  | perform ho _ ih => exact .perform ho ih
  | await _ ih => exact .leave (.await fun r => .enter (ih r))

theorem Nested.rest {n : Nat} {x : Async σ ε α} (h : Nested n x) {c : Option ContextId}
    {limit : Option Duration} {k : Option ContextError → Async σ ε α}
    (hs : Stops x c limit k) (r : Option ContextError) : Nested 0 (k r) := by
  induction h with
  | ret a => cases hs
  | unwind p => cases hs
  | enter _ ih =>
      cases hs with
      | perform _ hs => exact ih hs
  | leave _ ih =>
      cases hs with
      | perform _ hs => exact ih hs
  | perform _ _ ih =>
      cases hs with
      | perform a hs => exact ih a hs
  | await h _ =>
      cases hs with
      | here => exact h r

theorem Nested.polled {n : Nat} {x : Async σ ε α} (h : Nested n x) {done : α → Async σ ε β}
    {pending : Option ContextId → Option Duration → (Option ContextError → Async σ ε α) →
      Async σ ε β}
    (hdone : ∀ a, Nested 0 (done a))
    (hpending : ∀ c limit k, Stops x c limit k → Nested 0 (pending c limit k)) :
    Nested n (x.polled done pending) := by
  induction h with
  | ret a => exact hdone a
  | unwind p => exact .unwind p
  | enter _ ih => exact .enter (ih fun c limit k hs => hpending c limit k (.perform () hs))
  | leave _ ih => exact .leave (ih fun c limit k hs => hpending c limit k (.perform () hs))
  | perform ho _ ih =>
      exact .perform ho fun a => ih a fun c limit k hs => hpending c limit k (.perform a hs)
  | await _ _ => exact hpending _ _ _ (.here _ _ _)

/-- A tidy program leaves every capture that it enters, before it waits or ends. -/
theorem Tidy.nested {x : Async σ ε α} (h : x.Tidy) : Nested 0 x := by
  induction h with
  | ret a => exact .ret a
  | unwind p => exact .unwind p
  | perform ho _ ih => exact .perform ho ih
  | await _ ih => exact .await ih
  | bind _ _ ih ihf => exact ih.bind ihf
  | caught _ ih => exact ih.caught
  | capturing _ ih => exact .enter ih.capturingRest
  | rest r _ hs ih => exact ih.rest hs r
  | polled _ _ _ ih ihdone ihpending => exact ih.polled ihdone ihpending

end Nests

end Async

section Moves

/-- What an operation does to the captures. -/
def Op.moves (w : World σ ε) : Op σ ε → List Move
  | .enterCapture => [.entered]
  | .leaveCapture => [.left]
  | .hook site => [.raised site]
  | .takeRecord => [.recovered w.capture.record]
  | _ => []

theorem Op.capture_apply (o : Op σ ε) (w : World σ ε) :
    (o.apply w).2.capture = w.capture.after (o.moves w) := by
  cases o <;> rfl

theorem Op.answered_moves (o : Op σ ε) (w : World σ ε) : Answered w.capture (o.moves w) := by
  cases o with
  | takeRecord =>
      refine ⟨fun r hr => ?_, trivial⟩
      cases hr
      rfl
  | _ => simp [moves, Answered]

theorem Op.Plain.closing {o : Op σ ε} (h : o.Plain) {n : Nat} {l : List Move}
    (hl : Closing n l) (w : World σ ε) : Closing n (o.moves w ++ l) := by
  cases o with
  | enterCapture => cases h
  | leaveCapture => cases h
  | hook site => exact .raised site hl
  | takeRecord => exact .recovered _ hl
  | _ => exact hl

namespace Async

/-- What a poll does to the captures. -/
def moves : Async σ ε α → World σ ε → List Move
  | .ret _, _ => []
  | .unwind _, _ => []
  | .perform o next, w => o.moves w ++ (next (o.apply w).1).moves (o.apply w).2
  | .await c limit next, w =>
      match (Wait.since w.now c limit).verdict w.timeline with
      | some r => (next r).moves w
      | none => []

theorem capture_poll (x : Async σ ε α) (w : World σ ε) :
    (x.poll w).2.capture = w.capture.after (x.moves w) := by
  induction x generalizing w with
  | ret a => rfl
  | unwind p => rfl
  | perform o next ih =>
      rw [moves, after_append, ← o.capture_apply w]
      exact ih _ _
  | await c limit next ih =>
      cases hr : (Wait.since w.now c limit).verdict w.timeline with
      | some r =>
          simp only [poll, moves, hr]
          exact ih r w
      | none =>
          simp only [poll, moves, hr]
          rfl

theorem answered_moves (x : Async σ ε α) (w : World σ ε) : Answered w.capture (x.moves w) := by
  induction x generalizing w with
  | ret a => trivial
  | unwind p => trivial
  | perform o next ih =>
      rw [moves, answered_append, ← o.capture_apply w]
      exact ⟨o.answered_moves w, ih _ _⟩
  | await c limit next ih =>
      simp only [moves]
      split
      · exact ih _ w
      · trivial

/-- A poll ends all captured polls that it begins. -/
theorem Nested.closing {n : Nat} {x : Async σ ε α} (h : Nested n x) (w : World σ ε) :
    Closing n (x.moves w) := by
  induction h generalizing w with
  | ret a => exact .nil
  | unwind p => exact .nil
  | enter _ ih => exact .entered (ih _)
  | leave _ ih => exact .left (ih _)
  | perform ho _ ih => exact ho.closing (ih _ _) w
  | await _ ih =>
      simp only [moves]
      split
      · exact ih _ w
      · exact .nil

end Async

end Moves

section Executors

open Async

/-- Tidiness holds of what the library does by itself, and of sequences. -/
theorem heritable_tidy : Heritable fun _ (x : Async σ ε _) => x.Tidy where
  ret := .ret
  bind := .bind
  request ho := .request (by cases ho <;> trivial)
  wait _ _ := .await fun r => .ret r

/-- All programs of the pool are tidy. -/
abbrev Pool.Tidy (pool : Pool σ ε τ) : Prop := pool.Each fun _ x => x.Tidy

/-- The guard of a tidy step captures it and recovers its panic. -/
theorem Pool.tidy_runStep (k : UInt32) (i : Nat) {body : Async σ ε Result} (h : body.Tidy) :
    (runStep k i body).Tidy := by
  refine h.captured.bind fun r => ?_
  cases r with
  | ok r => exact .ret r
  | error p =>
      exact (Tidy.request (o := .takeRecord) trivial).bind fun site =>
        (Tidy.request (o := .emit (.notice (.stepPanicked k i (p.failure site)))) trivial).bind
          fun _ => .ret _

/-- On a tidy pool and with tidy steps the run of an executor is tidy. -/
theorem Executor.tidy_run (x : Executor σ ε τ) (ctx : ContextId) {steps : List (Step σ ε τ)}
    (hpool : ∀ pool, x.pool = some pool → pool.Tidy)
    (hsteps : ∀ step ∈ steps, ∀ tx, (step tx).Tidy) : (x.run ctx steps).Tidy :=
  Executor.inherits heritable_tidy x ctx hpool fun step hs k tx i =>
    Pool.tidy_runStep k i (hsteps step hs tx)

end Executors

section Threads

/-- The moves of a thread from its start on, and the captures after them.  The thread polls
tidy programs, of whatever kind and in whatever worlds. -/
inductive Thread : List Move → Capture → Prop
  | start : Thread [] .idle
  | poll {σ ε α : Type} {l : List Move} {x : Async σ ε α} (w : World σ ε) :
      Thread l w.capture → x.Tidy → Thread (l ++ x.moves w) (x.poll w).2.capture

theorem Thread.closing {l : List Move} {c : Capture} (h : Thread l c) :
    c = Capture.idle.after l ∧ Closing 0 l ∧ Answered .idle l := by
  induction h with
  | start => exact ⟨rfl, .nil, trivial⟩
  | @poll σ ε α l x w _ hx ih =>
      obtain ⟨hcapture, hclosing, hanswered⟩ := ih
      refine ⟨?_, hclosing.append (hx.nested.closing w), ?_⟩
      · rw [after_append, ← hcapture, x.capture_poll]
      · rw [answered_append, ← hcapture]
        exact ⟨hanswered, x.answered_moves w⟩

/-- **Captures nest.**  Each poll of a tidy program leaves the depth as it was, whether it comes
to a wait, a value or a panic; captured programs are tidy, what is left of a tidy program is
tidy, and so are the runs of executors, whose steps may run other executors in their polls.  In
all that a thread does by polling tidy programs, nested in whatever way, the depth is the
number of captured polls in progress, the hook stores what is raised inside one of them, and a
recovery takes out the site of the latest such panic since the recovery before. -/
theorem captures_nest :
    (∀ {σ ε α : Type} (x : Async σ ε α) (w : World σ ε), x.Tidy →
      (x.poll w).2.capture.depth = w.capture.depth ∧
        (∀ wait next, (x.poll w).1 = .parked wait next → ∀ r, (next r).Tidy) ∧
        x.capturing.Tidy ∧ x.captured = x.capturing.caught ∧ x.captured.Tidy) ∧
    (∀ {σ ε τ : Type} (x : Executor σ ε τ) (ctx : ContextId) (steps : List (Step σ ε τ)),
      (∀ pool, x.pool = some pool → pool.Tidy) → (∀ step ∈ steps, ∀ tx, (step tx).Tidy) →
      (x.run ctx steps).Tidy) ∧
    ∀ l c, Thread l c → c = Capture.idle.after l ∧ c.depth = 0 ∧ Accounted l := by
  refine ⟨fun x w h => ⟨?_, fun _ _ hp r => h.parked hp r, h.capturing, x.captured_eq, h.captured⟩,
    fun x ctx _ hpool hsteps => x.tidy_run ctx hpool hsteps, fun l c h => ?_⟩
  · rw [x.capture_poll]
    exact (h.nested.closing w).depth_after _
  · obtain ⟨rfl, hclosing, hanswered⟩ := h.closing
    exact ⟨rfl, hclosing.depth_after _, accounted hclosing hanswered⟩

/-- A step that goes to sleep and then panics. -/
def Step.bursting (site : PanicSite) : Step Unit Unit Unit := fun _ => do
  Async.sleep .zero
  Async.panic (.text "burst") site

/-- A step that runs another executor and blocks on it. -/
def Step.blocking (steps : List (Step Unit Unit Unit)) : Step Unit Unit Unit := fun _ =>
  ((Executor.ofPool Pool.agreeing).run 0 steps).blocked fun _ _ => .ret none

/-- The step of an executor blocks on another executor, whose own step sleeps and panics inside
two captures.  Later the thread panics outside all captures, which leaves nothing to recover. -/
theorem captures_nest_blocking :
    Accounted [.entered, .entered, .left, .entered, .raised ⟨"inner.rs", "frames"⟩, .left,
      .recovered (some ⟨"inner.rs", "frames"⟩), .left, .raised ⟨"outer.rs", "frames"⟩,
      .recovered none] := by
  obtain ⟨-, hruns, hthreads⟩ := captures_nest
  have hpool : ∀ pool, (Executor.ofPool Pool.agreeing).pool = some pool → pool.Tidy := by
    rintro _ ⟨⟩
    exact ⟨fun _ => .ret _, fun _ _ => .ret _, fun _ _ => .ret _⟩
  have hbursting : ∀ tx, (Step.bursting ⟨"inner.rs", "frames"⟩ tx).Tidy := fun _ =>
    .bind (.await fun _ => .ret _) fun _ => .panic _ _
  have hblocking : ∀ tx, (Step.blocking [Step.bursting ⟨"inner.rs", "frames"⟩] tx).Tidy := fun _ =>
    (hruns _ 0 _ hpool (List.forall_mem_singleton.2 hbursting)).blocked fun _ _ => .ret _
  have hlate : (Async.panic (.text "late") ⟨"outer.rs", "frames"⟩ : Async Unit Unit Unit).Tidy :=
    .panic _ _
  have hrun : Thread _ _ := .poll World.calm .start
    (hruns _ 0 _ hpool (List.forall_mem_singleton.2 hblocking))
  have hpanic : Thread _ _ := .poll World.calm hrun hlate
  have hrecovery : Thread _ _ := .poll World.calm hpanic (.request (o := .takeRecord) trivial)
  exact (hthreads _ _ hrecovery).2.2

end Threads

end TransactionAttempts
