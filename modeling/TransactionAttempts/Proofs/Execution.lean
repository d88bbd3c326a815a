import TransactionAttempts.Async.World
import TransactionAttempts.Proofs.Waiting

/-!
# Executions

A run follows one course of time.  An execution is more general: while a program
waits, its surroundings do what they like, and what they may do is a parameter.
An execution also tells its story: the events that the program leaves, each with
the world in which it is left.

**Surroundings.**  `ends c limit w r v` says that a wait that begins in `w` may end
with the answer `r` in `v`, and `lasts c limit w` that it may never end.  A wait
for a context that ends without an error leaves the context live, and no wait makes
a context live again.  In the surroundings `clock` only time passes.

**Captures.**  A captured program is a bracketed one that is caught: it leaves the
capture around each of its waits.

Main facts:

* `exec_bind`: an execution of a sequence is one of its first part, followed by one
  of the second unless the first does not return;
* `Exec.done`: a context that is done at the start is done throughout;
* `exec_run`, `eq_run_of_exec`: with the clock alone, the executions are the runs;
* `Reaches.exec`: what is reached on the way is continued by any execution from there.
-/

namespace TransactionAttempts

/-- What the surroundings of a program may do while it waits. -/
structure Surroundings (σ ε : Type) where
  ends : Option ContextId → Option Duration → World σ ε → Option ContextError → World σ ε → Prop
  lasts : Option ContextId → Option Duration → World σ ε → Prop
  live : ∀ {c limit w v}, ends (some c) limit w none v → v.timeline.error c = none
  stays : ∀ {c limit w r v}, ends c limit w r v → ∀ i, w.timeline.Done i → v.timeline.Done i

/-- The events of an execution, each with the world in which it was left. -/
abbrev Story (σ ε : Type) := List (World σ ε × Event ε)

/-- What an operation adds to the story. -/
def Op.story {σ ε : Type} (w : World σ ε) : Op σ ε → Story σ ε
  | .emit e => [(w, e)]
  | _ => []

namespace Outcome

variable {α β : Type}

/-- The outcome with its value replaced. -/
def map (f : α → β) : Outcome α → Outcome β
  | .returned a => .returned (f a)
  | .unwound p => .unwound p
  | .stalled => .stalled

/-- Neither of two outcomes is a return, and they are the same. -/
inductive Broken : Outcome α → Outcome β → Prop
  | unwound (p : Payload) : Broken (.unwound p) (.unwound p)
  | stalled : Broken .stalled .stalled

/-- The outcome is not a return. -/
def Unreturned (o : Outcome α) : Prop := ∀ a, o ≠ .returned a

theorem Broken.left {o : Outcome α} {o' : Outcome β} (h : o.Broken o') : o.Unreturned := by
  cases h <;> exact fun a ha => nomatch ha

theorem Broken.right {o : Outcome α} {o' : Outcome β} (h : o.Broken o') : o'.Unreturned := by
  cases h <;> exact fun a ha => nomatch ha

end Outcome

namespace Async

variable {σ ε α β : Type} {E : Surroundings σ ε}

/-- The program, started in the first world, ends with the outcome in the last
one and tells the story. -/
inductive Exec (E : Surroundings σ ε) :
    Async σ ε α → World σ ε → Story σ ε → Outcome α → World σ ε → Prop
  | ret (a : α) (w : World σ ε) : Exec E (.ret a) w [] (.returned a) w
  | unwind (p : Payload) (w : World σ ε) : Exec E (.unwind p) w [] (.unwound p) w
  | perform {o : Op σ ε} {next : o.Answer → Async σ ε α} {w v : World σ ε} {l : Story σ ε}
      {r : Outcome α} :
      Exec E (next (o.apply w).1) (o.apply w).2 l r v →
      Exec E (.perform o next) w (o.story w ++ l) r v
  | await {c : Option ContextId} {limit : Option Duration}
      {next : Option ContextError → Async σ ε α} {w u v : World σ ε} {a : Option ContextError}
      {l : Story σ ε} {r : Outcome α} :
      E.ends c limit w a u → Exec E (next a) u l r v → Exec E (.await c limit next) w l r v
  | stall {c : Option ContextId} {limit : Option Duration}
      {next : Option ContextError → Async σ ε α} {w : World σ ε} :
      E.lasts c limit w → Exec E (.await c limit next) w [] .stalled w

section Inversion

theorem exec_ret {a : α} {w v : World σ ε} {l : Story σ ε} {o : Outcome α}
    (h : (ret a : Async σ ε α).Exec E w l o v) : l = [] ∧ o = .returned a ∧ v = w := by
  cases h
  exact ⟨rfl, rfl, rfl⟩

theorem exec_perform {o : Op σ ε} {next : o.Answer → Async σ ε α} {w v : World σ ε}
    {l : Story σ ε} {r : Outcome α} (h : (perform o next).Exec E w l r v) :
    ∃ l', l = o.story w ++ l' ∧ (next (o.apply w).1).Exec E (o.apply w).2 l' r v := by
  cases h with
  | perform h => exact ⟨_, rfl, h⟩

theorem exec_await {c : Option ContextId} {limit : Option Duration}
    {next : Option ContextError → Async σ ε α} {w v : World σ ε} {l : Story σ ε} {r : Outcome α}
    (h : (await c limit next).Exec E w l r v) :
    (∃ a u, E.ends c limit w a u ∧ (next a).Exec E u l r v) ∨
      (E.lasts c limit w ∧ l = [] ∧ r = .stalled ∧ v = w) := by
  cases h with
  | await he h => exact Or.inl ⟨_, _, he, h⟩
  | stall hl => exact Or.inr ⟨hl, rfl, rfl, rfl⟩

/-- The first part of a sequence ends the execution unless it returns. -/
theorem exec_bind {x : Async σ ε α} {f : α → Async σ ε β} {w v : World σ ε} {l : Story σ ε}
    {o : Outcome β} (h : (x.bind f).Exec E w l o v) :
    (∃ a u l₁ l₂, x.Exec E w l₁ (.returned a) u ∧ (f a).Exec E u l₂ o v ∧ l = l₁ ++ l₂) ∨
      ∃ o' : Outcome α, x.Exec E w l o' v ∧ o'.Broken o := by
  induction x generalizing w l with
  | ret a => exact Or.inl ⟨a, w, [], l, .ret a w, h, rfl⟩
  | unwind p =>
      cases h
      exact Or.inr ⟨_, .unwind p _, .unwound p⟩
  | perform q next ih =>
      obtain ⟨l', rfl, h'⟩ := exec_perform h
      rcases ih _ h' with ⟨a, u, l₁, l₂, hx, hf, rfl⟩ | ⟨o', hx, ho⟩
      · exact Or.inl ⟨a, u, _, l₂, .perform hx, hf, (List.append_assoc _ _ _).symm⟩
      · exact Or.inr ⟨o', .perform hx, ho⟩
  | await c limit next ih =>
      rcases exec_await h with ⟨a, u, he, h'⟩ | ⟨hl, rfl, rfl, rfl⟩
      · rcases ih _ h' with ⟨b, u', l₁, l₂, hx, hf, rfl⟩ | ⟨o', hx, ho⟩
        · exact Or.inl ⟨b, u', l₁, l₂, .await he hx, hf, rfl⟩
        · exact Or.inr ⟨o', .await he hx, ho⟩
      · exact Or.inr ⟨_, .stall hl, .stalled⟩

/-- A sequence that begins with one operation. -/
theorem exec_request_bind {q : Op σ ε} {f : q.Answer → Async σ ε β} {w v : World σ ε}
    {l : Story σ ε} {o : Outcome β} (h : ((request q).bind f).Exec E w l o v) :
    ∃ l', l = q.story w ++ l' ∧ (f (q.apply w).1).Exec E (q.apply w).2 l' o v :=
  exec_perform h

/-- A sequence that begins with a look at a context, which is done or live. -/
theorem exec_errorOf {c : ContextId} {f : Option ContextError → Async σ ε β} {w v : World σ ε}
    {l : Story σ ε} {o : Outcome β} (h : ((errorOf c).bind f).Exec E w l o v) :
    (∃ e, w.timeline.error c = some e ∧ (f (some e)).Exec E w l o v) ∨
      (w.timeline.error c = none ∧ (f none).Exec E w l o v) := by
  obtain ⟨_, rfl, hanswer⟩ := exec_request_bind h
  replace hanswer : (f (w.timeline.error c)).Exec E w l o v := hanswer
  cases he : w.timeline.error c with
  | some e => exact Or.inl ⟨e, rfl, he ▸ hanswer⟩
  | none => exact Or.inr ⟨rfl, he ▸ hanswer⟩

/-- A sequence whose second part only computes a value. -/
theorem exec_map {x : Async σ ε α} {g : α → β} {w v : World σ ε} {l : Story σ ε}
    {o : Outcome β} (h : (x.bind fun a => .ret (g a)).Exec E w l o v) :
    ∃ o', x.Exec E w l o' v ∧ o = o'.map g := by
  rcases exec_bind h with ⟨a, u, l₁, l₂, hx, hg, rfl⟩ | ⟨o', hx, ho⟩
  · obtain ⟨rfl, rfl, rfl⟩ := exec_ret hg
    rw [List.append_nil]
    exact ⟨.returned a, hx, rfl⟩
  · refine ⟨o', hx, ?_⟩
    cases ho <;> rfl

theorem exec_caught {x : Async σ ε α} {w v : World σ ε} {l : Story σ ε}
    {o : Outcome (Except Payload α)} (h : x.caught.Exec E w l o v) :
    ∃ o', x.Exec E w l o' v ∧ o = o'.caught := by
  induction x generalizing w l with
  | ret a =>
      cases h
      exact ⟨.returned a, .ret a _, rfl⟩
  | unwind p =>
      cases h
      exact ⟨.unwound p, .unwind p _, rfl⟩
  | perform q next ih =>
      obtain ⟨l', rfl, h'⟩ := exec_perform h
      obtain ⟨o', hx, ho⟩ := ih _ h'
      exact ⟨o', .perform hx, ho⟩
  | await c limit next ih =>
      rcases exec_await h with ⟨a, u, he, h'⟩ | ⟨hl, rfl, rfl, rfl⟩
      · obtain ⟨o', hx, ho⟩ := ih _ h'
        exact ⟨o', .await he hx, ho⟩
      · exact ⟨_, .stall hl, rfl⟩

end Inversion

section Composition

/-- A program that returns, followed by another one. -/
theorem Exec.bind {x : Async σ ε α} {f : α → Async σ ε β} {w u v : World σ ε}
    {l l' : Story σ ε} {a : α} {o : Outcome β} (hx : x.Exec E w l (.returned a) u)
    (hf : (f a).Exec E u l' o v) : (x.bind f).Exec E w (l ++ l') o v := by
  induction x generalizing w l with
  | ret b =>
      cases hx
      exact hf
  | unwind p => cases hx
  | perform q next ih =>
      obtain ⟨l₁, rfl, h₁⟩ := exec_perform hx
      rw [List.append_assoc]
      exact .perform (ih _ h₁)
  | await c limit next ih =>
      rcases exec_await hx with ⟨r, u', he, h₁⟩ | ⟨_, _, hr, _⟩
      · exact .await he (ih r h₁)
      · cases hr

/-- A program that does not return is not followed. -/
theorem Exec.bind_broken {x : Async σ ε α} (f : α → Async σ ε β) {w v : World σ ε}
    {l : Story σ ε} {o : Outcome α} {o' : Outcome β} (hx : x.Exec E w l o v)
    (ho : o.Broken o') : (x.bind f).Exec E w l o' v := by
  induction hx with
  | ret a w => cases ho
  | unwind p w =>
      cases ho
      exact .unwind p w
  | perform _ ih => exact .perform (ih ho)
  | await he _ ih => exact .await he (ih ho)
  | stall hl =>
      cases ho
      exact .stall hl

theorem Exec.caught {x : Async σ ε α} {w v : World σ ε} {l : Story σ ε} {o : Outcome α}
    (hx : x.Exec E w l o v) : x.caught.Exec E w l o.caught v := by
  induction hx with
  | ret a w => exact .ret _ w
  | unwind p w => exact .ret _ w
  | perform _ ih => exact .perform ih
  | await he _ ih => exact .await he ih
  | stall hl => exact .stall hl

end Composition

section Permanence

/-- No operation makes a context live again. -/
theorem done_apply {i : ContextId} (o : Op σ ε) {w : World σ ε} (h : w.timeline.Done i) :
    (o.apply w).2.timeline.Done i := by
  cases o with
  | cancel c => exact h.cancel c
  | create timeout => exact h.create _
  | _ => exact h

/-- A context that is done when an execution begins is done at every event of it, and
when it ends. -/
theorem Exec.done {i : ContextId} {x : Async σ ε α} {w v : World σ ε} {l : Story σ ε}
    {o : Outcome α} (h : x.Exec E w l o v) (hw : w.timeline.Done i) :
    (∀ y ∈ l, y.1.timeline.Done i) ∧ v.timeline.Done i := by
  induction h with
  | ret a w => exact ⟨by simp, hw⟩
  | unwind p w => exact ⟨by simp, hw⟩
  | @perform q next w v l r _ ih =>
      obtain ⟨hl, hv⟩ := ih (done_apply q hw)
      refine ⟨fun y hy => ?_, hv⟩
      rcases List.mem_append.1 hy with hq | hl'
      · cases q with
        | emit e => exact List.mem_singleton.1 hq ▸ hw
        | _ => cases hq
      · exact hl y hl'
  | await he _ ih => exact ih (E.stays he i hw)
  | stall _ => exact ⟨by simp, hw⟩

end Permanence

section Brackets

/-- The program, which leaves the capture around each of its waits. -/
def bracketed : Async σ ε α → Async σ ε α
  | .ret a => .ret a
  | .unwind p => .unwind p
  | .perform o next => .perform o fun a => (next a).bracketed
  | .await c limit next =>
      .perform .leaveCapture fun _ =>
        .await c limit fun r => .perform .enterCapture fun _ => (next r).bracketed

theorem bracketed_bind (x : Async σ ε α) (f : α → Async σ ε β) :
    (x.bind f).bracketed = x.bracketed.bind fun a => (f a).bracketed := by
  induction x with
  | ret a => rfl
  | unwind p => rfl
  | perform o next ih => exact congrArg (Async.perform o) (funext ih)
  | await c limit next ih =>
      refine congrArg (Async.perform .leaveCapture) (funext fun _ => ?_)
      refine congrArg (Async.await c limit) (funext fun r => ?_)
      exact congrArg (Async.perform .enterCapture) (funext fun _ => ih r)

theorem bracketed_caught (x : Async σ ε α) : x.caught.bracketed = x.bracketed.caught := by
  induction x with
  | ret a => rfl
  | unwind p => rfl
  | perform o next ih => exact congrArg (Async.perform o) (funext ih)
  | await c limit next ih =>
      refine congrArg (Async.perform .leaveCapture) (funext fun _ => ?_)
      refine congrArg (Async.await c limit) (funext fun r => ?_)
      exact congrArg (Async.perform .enterCapture) (funext fun _ => ih r)

/-- The rest of a captured program is bracketed, caught, and then leaves the capture. -/
theorem capturedRest_eq (x : Async σ ε α) :
    x.capturedRest = x.bracketed.caught.bind fun r => .perform .leaveCapture fun _ => .ret r := by
  induction x with
  | ret a => rfl
  | unwind p => rfl
  | perform o next ih => exact congrArg (Async.perform o) (funext ih)
  | await c limit next ih =>
      refine congrArg (Async.perform .leaveCapture) (funext fun _ => ?_)
      refine congrArg (Async.await c limit) (funext fun r => ?_)
      exact congrArg (Async.perform .enterCapture) (funext fun _ => ih r)

/-- A captured program runs bracketed.  Its panic becomes a value, and the capture is
left at the end. -/
theorem exec_captured {x : Async σ ε α} {w v : World σ ε} {l : Story σ ε}
    {o : Outcome (Except Payload α)} (h : x.captured.Exec E w l o v) :
    ∃ o' u, x.bracketed.Exec E { w with capture := w.capture.enter } l o' u ∧ o = o'.caught ∧
      (o = .stalled ∧ v = u ∨ o ≠ .stalled ∧ v = { u with capture := u.capture.leave }) := by
  obtain ⟨l', rfl, h'⟩ := exec_perform h
  rw [capturedRest_eq] at h'
  rcases exec_bind h' with ⟨r, u, l₁, l₂, hx, hl, rfl⟩ | ⟨o', hx, ho⟩
  · obtain ⟨o', hb, hr⟩ := exec_caught hx
    obtain ⟨l₃, rfl, hret⟩ := exec_perform hl
    obtain ⟨rfl, rfl, rfl⟩ := exec_ret hret
    refine ⟨o', u, ?_, hr, Or.inr ⟨by simp, rfl⟩⟩
    rw [List.append_nil]
    exact hb
  · obtain ⟨o'', hb, rfl⟩ := exec_caught hx
    cases o'' with
    | returned a => cases ho
    | unwound p => cases ho
    | stalled =>
        cases ho
        exact ⟨.stalled, v, hb, rfl, Or.inl ⟨rfl, rfl⟩⟩

end Brackets

end Async

section Clock

variable {σ ε α : Type}

/-- A wait for a context that is over tells of its error. -/
theorem Wait.error_of_verdict {x : Wait} {c : ContextId} (hx : x.context = some c)
    {w : Timeline} {r : Option ContextError} (h : x.verdict w = some r) : w.error c = r := by
  unfold verdict at h
  rw [hx] at h
  split at h
  · rename_i he
    exact he.trans (Option.some.inj h)
  · rename_i he
    split at h
    · exact he.trans (Option.some.inj h)
    · cases h

theorem Timeline.error_of_await {x : Wait} {c : ContextId} (hx : x.context = some c)
    {w t : Timeline} {r : Option ContextError} (h : w.await x = some (r, t)) : t.error c = r :=
  Wait.error_of_verdict hx (await_eq_some_iff.1 h).2

/-- Surroundings in which only time passes. -/
def Surroundings.clock : Surroundings σ ε where
  ends c limit w r v :=
    ∃ t, w.timeline.await (Wait.since w.now c limit) = some (r, t) ∧ v = { w with timeline := t }
  lasts c limit w := w.timeline.await (Wait.since w.now c limit) = none
  live := by
    rintro c limit w _ ⟨t, ht, rfl⟩
    exact Timeline.error_of_await rfl ht
  stays := by
    rintro c limit w r _ ⟨t, ht, rfl⟩ i hi
    exact hi.await ht

/-- When only time passes, a wait with a limit ends. -/
theorem Surroundings.not_lasts_clock {c : ContextId} {d : Duration} {w : World σ ε} :
    ¬ Surroundings.clock.lasts (some c) (some d) w := by
  intro h
  have hawait : w.timeline.await (Timeline.limited c (Instant.afterSleep w.now d)) = none := h
  obtain ⟨a, t, ha, _⟩ :=
    @Timeline.await_limit w.timeline c (Instant.afterSleep w.now d) (Nat.le_add_right _ _)
  cases hawait.symm.trans ha

namespace Async

/-- The story of a run. -/
def story : Async σ ε α → World σ ε → Story σ ε
  | .ret _, _ => []
  | .unwind _, _ => []
  | .perform o next, w => o.story w ++ (next (o.apply w).1).story (o.apply w).2
  | .await c limit next, w =>
      match w.timeline.await (Wait.since w.now c limit) with
      | some (r, t) => (next r).story { w with timeline := t }
      | none => []

/-- A run is an execution. -/
theorem exec_run (x : Async σ ε α) (w : World σ ε) :
    x.Exec .clock w (x.story w) (x.run w).1 (x.run w).2 := by
  induction x generalizing w with
  | ret a => exact .ret a w
  | unwind p => exact .unwind p w
  | perform o next ih => exact .perform (ih _ _)
  | await c limit next ih =>
      cases ht : w.timeline.await (Wait.since w.now c limit) with
      | none =>
          simp only [run, story, ht]
          exact .stall ht
      | some p =>
          obtain ⟨r, t⟩ := p
          simp only [run, story, ht]
          exact .await ⟨t, ht, rfl⟩ (ih r _)

/-- With the clock alone, nothing but the run is an execution. -/
theorem eq_run_of_exec {x : Async σ ε α} {w v : World σ ε} {l : Story σ ε} {o : Outcome α}
    (h : x.Exec .clock w l o v) : l = x.story w ∧ x.run w = (o, v) := by
  induction h with
  | ret a w => exact ⟨rfl, rfl⟩
  | unwind p w => exact ⟨rfl, rfl⟩
  | perform _ ih =>
      obtain ⟨rfl, hr⟩ := ih
      exact ⟨rfl, hr⟩
  | @await c limit next w u v a l r he _ ih =>
      obtain ⟨t, ht, rfl⟩ := he
      obtain ⟨rfl, hr⟩ := ih
      simp only [story, run, ht]
      exact ⟨trivial, hr⟩
  | @stall c limit next w hl =>
      have ht : w.timeline.await (Wait.since w.now c limit) = none := hl
      simp only [story, run, ht]
      exact ⟨trivial, trivial⟩

end Async

end Clock

namespace Async

variable {σ ε α : Type} {E : Surroundings σ ε}

/-- Started in the first world, the first program comes to where the second one
remains to be executed in the second world, and has told the story so far. -/
inductive Reaches (E : Surroundings σ ε) :
    Async σ ε α → World σ ε → Story σ ε → Async σ ε α → World σ ε → Prop
  | here (x : Async σ ε α) (w : World σ ε) : Reaches E x w [] x w
  | perform {o : Op σ ε} {next : o.Answer → Async σ ε α} {w v : World σ ε} {l : Story σ ε}
      {y : Async σ ε α} :
      Reaches E (next (o.apply w).1) (o.apply w).2 l y v →
      Reaches E (.perform o next) w (o.story w ++ l) y v
  | await {c : Option ContextId} {limit : Option Duration}
      {next : Option ContextError → Async σ ε α} {w u v : World σ ε} {a : Option ContextError}
      {l : Story σ ε} {y : Async σ ε α} :
      E.ends c limit w a u → Reaches E (next a) u l y v → Reaches E (.await c limit next) w l y v

theorem reaches_ret {a : α} {w v : World σ ε} {l : Story σ ε} {y : Async σ ε α}
    (h : Reaches E (.ret a) w l y v) : l = [] ∧ y = .ret a ∧ v = w := by
  cases h
  exact ⟨rfl, rfl, rfl⟩

/-- An operation remains to be executed, or the program comes to something after it. -/
theorem reaches_perform {o : Op σ ε} {next : o.Answer → Async σ ε α} {w v : World σ ε}
    {l : Story σ ε} {y : Async σ ε α} (h : Reaches E (.perform o next) w l y v) :
    (l = [] ∧ y = .perform o next ∧ v = w) ∨
      ∃ l', l = o.story w ++ l' ∧ Reaches E (next (o.apply w).1) (o.apply w).2 l' y v := by
  cases h with
  | here => exact Or.inl ⟨rfl, rfl, rfl⟩
  | perform h => exact Or.inr ⟨_, rfl, h⟩

theorem Reaches.trans {x y z : Async σ ε α} {w u v : World σ ε} {l l' : Story σ ε}
    (h : Reaches E x w l y u) (h' : Reaches E y u l' z v) : Reaches E x w (l ++ l') z v := by
  induction h with
  | here x w => exact h'
  | perform _ ih =>
      rw [List.append_assoc]
      exact .perform (ih h')
  | await ha _ ih => exact .await ha (ih h')

theorem Reaches.exec {x y : Async σ ε α} {w u v : World σ ε} {l l' : Story σ ε} {o : Outcome α}
    (h : Reaches E x w l y u) (he : y.Exec E u l' o v) : x.Exec E w (l ++ l') o v := by
  induction h with
  | here x w => exact he
  | perform _ ih =>
      rw [List.append_assoc]
      exact .perform (ih he)
  | await ha _ ih => exact .await ha (ih he)

end Async

end TransactionAttempts
