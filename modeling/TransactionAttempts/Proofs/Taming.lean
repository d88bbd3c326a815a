import TransactionAttempts.Proofs.Calls
import TransactionAttempts.Proofs.Sites

/-!
# Tamed programs

A tamed program does what another one does, but where that one panics it may return the
failure that the panic would have become.

**Strictness.**  What the hook leaves behind when a panic is raised is a part of the world, and
programs can tell by it whether a panic was raised.  There are two ways to deal with that.

* A strict comparison keeps the captures of both worlds equal.  A tamed program still runs the
  hook, and it takes out the record before it returns.
* A loose comparison knows nothing about the captures.  A tamed program may leave out the hook
  and simply return.  In turn a record that is taken out must not matter: whatever it is, the
  program goes on alike, up to the sites in its failures.

**Sights.**  What is seen of an event is its instant and all that belongs to it, without sites.
A panic of a step is seen as the failure that it becomes, and the notice of it is not seen.

Main facts:

* `blind_clock`: the course of time depends neither on the captures nor on the events so far;
* `tamed_refl`: in a strict comparison every program is tamed by itself;
* `Tamed.exec_within`: every execution is matched by one of the tamed program.
-/

namespace TransactionAttempts

variable {σ ε τ α β : Type} {strict : Bool}

section Nearness

/-- The worlds agree in everything but their traces and, unless they are compared strictly,
their captures. -/
structure World.Near (strict : Bool) (w w' : World σ ε) : Prop where
  timeline : w.timeline = w'.timeline
  capture : strict = true → w.capture = w'.capture
  source : w.source = w'.source
  draws : w.draws = w'.draws
  state : w.state = w'.state

/-- The world without the record of a panic. -/
def World.taken (w : World σ ε) : World σ ε := { w with capture := w.capture.take }

variable {w w' : World σ ε}

theorem World.Near.refl (strict : Bool) (w : World σ ε) : w.Near strict w :=
  ⟨rfl, fun _ => rfl, rfl, rfl, rfl⟩

/-- Near worlds stay so if their captures change in the same way. -/
theorem World.Near.recapture (h : w.Near strict w') (f : Capture → Capture) :
    ({ w with capture := f w.capture } : World σ ε).Near strict
      { w' with capture := f w'.capture } :=
  ⟨h.timeline, fun hs => congrArg f (h.capture hs), h.source, h.draws, h.state⟩

/-- In a loose comparison the captures may change at will. -/
theorem World.Near.loosely (h : w.Near false w') (c : Capture) :
    ({ w with capture := c } : World σ ε).Near false w' :=
  ⟨h.timeline, fun hs => (nomatch hs), h.source, h.draws, h.state⟩

/-- Operations answer alike in near worlds, and leave near worlds behind. -/
theorem Op.near_apply {q : Op σ ε} (hq : strict = true ∨ q ≠ .takeRecord)
    (h : w.Near strict w') :
    (q.apply w).1 = (q.apply w').1 ∧ (q.apply w).2.Near strict (q.apply w').2 := by
  obtain ⟨tl, cp, src, dr, st, tr⟩ := w
  obtain ⟨tl', cp', src', dr', st', tr'⟩ := w'
  obtain ⟨ht, hc, hs, hd, hst⟩ := h
  cases ht
  cases hs
  cases hd
  cases hst
  cases q with
  | enterCapture => exact ⟨rfl, rfl, fun hs => congrArg Capture.enter (hc hs), rfl, rfl, rfl⟩
  | leaveCapture => exact ⟨rfl, rfl, fun hs => congrArg Capture.leave (hc hs), rfl, rfl, rfl⟩
  | hook site => exact ⟨rfl, rfl, fun hs => congrArg (·.hook site) (hc hs), rfl, rfl, rfl⟩
  | takeRecord =>
      have hcp : cp = cp' := hc (hq.resolve_right fun hne => hne rfl)
      exact ⟨congrArg Capture.record hcp, rfl, fun _ => congrArg Capture.take hcp, rfl, rfl, rfl⟩
  | _ => exact ⟨rfl, rfl, hc, rfl, rfl, rfl⟩

/-- The outcomes are the same up to a relation between what is returned. -/
inductive Outcome.Near (Q : α → β → Prop) : Outcome α → Outcome β → Prop
  | returned {a : α} {b : β} : Q a b → Near Q (.returned a) (.returned b)
  | unwound (p : Payload) : Near Q (.unwound p) (.unwound p)
  | stalled : Near Q .stalled .stalled

/-- Surroundings in which a wait can go the same way in near worlds. -/
structure Surroundings.Blind (E : Surroundings σ ε) (strict : Bool) : Prop where
  ends : ∀ {c limit w w' r v}, w.Near strict w' → E.ends c limit w r v →
    ∃ v', E.ends c limit w' r v' ∧ v.Near strict v'
  lasts : ∀ {c limit w w'}, w.Near strict w' → E.lasts c limit w → E.lasts c limit w'

/-- The course of time depends neither on the captures nor on the events so far. -/
theorem blind_clock (strict : Bool) : (Surroundings.clock : Surroundings σ ε).Blind strict where
  ends := by
    rintro c limit w w' r _ hw ⟨t, ht, rfl⟩
    have hnow : w.now = w'.now := congrArg Timeline.now hw.timeline
    rw [hw.timeline, hnow] at ht
    exact ⟨_, ⟨t, ht, rfl⟩, rfl, hw.capture, hw.source, hw.draws, hw.state⟩
  lasts := by
    intro c limit w w' hw hl
    have hnow : w.now = w'.now := congrArg Timeline.now hw.timeline
    show w'.timeline.await (Wait.since w'.now c limit) = none
    rw [← hw.timeline, ← hnow]
    exact hl

end Nearness

section Sights

/-- What is seen of an answer.  A panic of a step is seen as the failure that it becomes. -/
def Call.seen : (c : Call τ) → c.Reply → c.Reply
  | .begin _, r => r.mapError Failure.siteless
  | .step _ _, .ok r => .ok (r.mapError Failure.siteless)
  | .step _ _, .error p => .ok (.error (.panic p.message none ""))
  | .commit _ _, r => r.mapError Failure.siteless
  | .rollback _ _, r => r.mapError Failure.siteless

/-- What is seen of an event of a recorded run.  The notice of a panic of a step is not seen. -/
def Event.seen? : Event (Recorded ε τ) → Option (Event (Recorded ε τ))
  | .notice (.stepPanicked _ _ _) => none
  | .notice n => some (.notice n.siteless)
  | .consulted k base => some (.consulted k base)
  | .mark (.called c) => some (.mark (.called c))
  | .mark (.answered c r) => some (.mark (.answered c (c.seen r)))
  | .mark (.within c e) => some (.mark (.within c e.siteless))

theorem Event.seen_answered {c : Call τ} {r r' : c.Reply} (h : c.seen r = c.seen r') :
    (Event.mark (.answered c r) : Event (Recorded ε τ)).seen? =
      (Event.mark (.answered c r')).seen? :=
  congrArg (fun r => some (Event.mark (Watched.answered c r))) h

/-- What is seen of an event in its world: the course of time, the state, and the event. -/
structure Sight (σ ε τ : Type) where
  timeline : Timeline
  state : σ
  event : Event (Recorded ε τ)

/-- What is seen of a story. -/
def Story.sights (l : Story σ (Recorded ε τ)) : List (Sight σ ε τ) :=
  l.filterMap fun y => y.2.seen?.map fun e => ⟨y.1.timeline, y.1.state, e⟩

theorem Story.sights_append (l l' : Story σ (Recorded ε τ)) :
    Story.sights (l ++ l') = Story.sights l ++ Story.sights l' :=
  List.filterMap_append

variable {w w' : World σ (Recorded ε τ)}

/-- Events that look the same are seen alike in near worlds. -/
theorem sights_emit {e e' : Event (Recorded ε τ)} (he : e.seen? = e'.seen?)
    (h : w.Near strict w') : Story.sights [(w, e)] = Story.sights [(w', e')] := by
  simp only [Story.sights, List.filterMap_cons, List.filterMap_nil, he, h.timeline, h.state]

theorem sights_story (q : Op σ (Recorded ε τ)) (h : w.Near strict w') :
    Story.sights (q.story w) = Story.sights (q.story w') := by
  cases q with
  | emit e => exact sights_emit rfl h
  | _ => rfl

end Sights

/-- The answers that may be given instead of a panic: its failure, with any site. -/
def Payload.Becomes (p : Payload) (r : Result) : Prop :=
  ∃ location stack, r = .error (.panic p.message location stack)

namespace Async

section Taming

/-- The second program does what the first one does, but where that panics it may return
an answer that is allowed for the panic. -/
inductive Tamed (strict : Bool) (allowed : Payload → Except Failure β → Prop) :
    Async σ ε (Except Failure β) → Async σ ε (Except Failure β) → Prop
  | ret {r r' : Except Failure β} : SameAnswer r r' → Tamed strict allowed (.ret r) (.ret r')
  | unwind (p : Payload) : Tamed strict allowed (.unwind p) (.unwind p)
  | emit {e e' : Event ε} {next next' : Unit → Async σ ε (Except Failure β)} :
      e.siteless = e'.siteless → Tamed strict allowed (next ()) (next' ()) →
      Tamed strict allowed (.perform (.emit e) next) (.perform (.emit e') next')
  | perform {o : Op σ ε} {next next' : o.Answer → Async σ ε (Except Failure β)} :
      strict = true ∨ o ≠ .takeRecord → (∀ a, Tamed strict allowed (next a) (next' a)) →
      Tamed strict allowed (.perform o next) (.perform o next')
  | await {c : Option ContextId} {limit : Option Duration}
      {next next' : Option ContextError → Async σ ε (Except Failure β)} :
      (∀ r, Tamed strict allowed (next r) (next' r)) →
      Tamed strict allowed (.await c limit next) (.await c limit next')
  /-- In a loose comparison, whatever is taken out does not matter. -/
  | takeRecord {next next' : Option PanicSite → Async σ ε (Except Failure β)} :
      strict = false → (∀ a a', Tamed strict allowed (next a) (next' a')) →
      Tamed strict allowed (.perform .takeRecord next) (.perform .takeRecord next')
  /-- In a loose comparison the hook may be left out. -/
  | unhooked {site : PanicSite} {next : Unit → Async σ ε (Except Failure β)}
      {y : Async σ ε (Except Failure β)} :
      strict = false → Tamed strict allowed (next ()) y →
      Tamed strict allowed (.perform (.hook site) next) y
  /-- In a loose comparison the panic is simply replaced. -/
  | returned {p : Payload} {r : Except Failure β} :
      strict = false → allowed p r → Tamed strict allowed (.unwind p) (.ret r)
  /-- The record of the panic is taken out, as it would have been later. -/
  | recovered {p : Payload} {r : Option PanicSite → Except Failure β} :
      (∀ site, allowed p (r site)) →
      Tamed strict allowed (.unwind p) (.perform .takeRecord fun site => .ret (r site))

variable {allowed : Payload → Except Failure β → Prop} {x y : Async σ ε (Except Failure β)}

/-- In a strict comparison every program is its own tamed version. -/
theorem tamed_refl (allowed : Payload → Except Failure β → Prop)
    (x : Async σ ε (Except Failure β)) : Tamed true allowed x x := by
  induction x with
  | ret r => exact .ret (.refl r)
  | unwind p => exact .unwind p
  | perform o next ih => exact .perform (Or.inl rfl) ih
  | await c limit next ih => exact .await ih

/-- A panic, and the failure returned in its place without running the hook. -/
example (site : PanicSite) :
    Tamed false Payload.Becomes (.panic (.text "boom") site : Async σ ε Result)
      (.ret (.error (.panic "boom" none ""))) :=
  .unhooked rfl (.returned rfl ⟨none, "", rfl⟩)

/-- A tamed program is so inside a capture. -/
theorem Tamed.bracketed (h : Tamed strict allowed x y) :
    Tamed strict allowed x.bracketed y.bracketed := by
  induction h with
  | ret hr => exact .ret hr
  | unwind p => exact .unwind p
  | emit he _ ih => exact .emit he ih
  | perform ho _ ih => exact .perform ho ih
  | await _ ih =>
      exact .perform (Or.inr nofun) fun _ => .await fun r => .perform (Or.inr nofun) fun _ => ih r
  | takeRecord hs _ ih => exact .takeRecord hs ih
  | unhooked hs _ ih => exact .unhooked hs ih
  | returned hs hr => exact .returned hs hr
  | recovered hr => exact .recovered hr

end Taming

section Executions

/-- How an execution of a program and one of its tamed version end. -/
inductive Settled (strict : Bool) (allowed : Payload → Except Failure β → Prop) :
    Outcome (Except Failure β) → World σ ε → Outcome (Except Failure β) → World σ ε → Prop
  | near {o o' : Outcome (Except Failure β)} {v v' : World σ ε} :
      o.Near SameAnswer o' → v.Near strict v' → Settled strict allowed o v o' v'
  /-- One has panicked, and the other has returned without the record of the panic. -/
  | tamed {p : Payload} {r : Except Failure β} {v v' : World σ ε} :
      allowed p r → v.taken.Near strict v' →
      Settled strict allowed (.unwound p) v (.returned r) v'

variable {allowed : Payload → Except Failure β → Prop} {x y : Async σ ε (Except Failure β)}
  {E : Surroundings σ (Recorded ε τ)}

theorem within_ne_takeRecord (c : Call τ) {o : Op σ ε} (h : o ≠ .takeRecord) :
    (o.within c : (q : Op σ (Recorded ε τ)) × (q.Answer → o.Answer)).1 ≠ .takeRecord := by
  cases o with
  | takeRecord => exact absurd rfl h
  | _ => nofun

/-- Every execution is matched by one of the tamed program, of which the same is seen. -/
theorem Tamed.exec_within (h : Tamed strict allowed x y) (hE : E.Blind strict) (c : Call τ)
    {w w' v : World σ (Recorded ε τ)} {l : Story σ (Recorded ε τ)}
    {o : Outcome (Except Failure β)} (hw : w.Near strict w')
    (hx : (x.within c).Exec E w l o v) :
    ∃ l' o' v', (y.within c).Exec E w' l' o' v' ∧ l.sights = l'.sights ∧
      Settled strict allowed o v o' v' := by
  induction h generalizing w w' l with
  | ret hr =>
      obtain ⟨rfl, rfl, rfl⟩ := exec_ret hx
      exact ⟨_, _, _, .ret _ _, rfl, .near (.returned hr) hw⟩
  | unwind p =>
      cases hx
      exact ⟨_, _, _, .unwind p _, rfl, .near (.unwound p) hw⟩
  | @emit e e' _ _ he _ ih =>
      obtain ⟨l₁, rfl, h₁⟩ := exec_perform hx
      have hnear : (w.log (.mark (.within c e))).Near strict (w'.log (.mark (.within c e'))) :=
        ⟨hw.timeline, hw.capture, hw.source, hw.draws, hw.state⟩
      have hseen : (Event.mark (Watched.within c e) : Event (Recorded ε τ)).seen? =
          (Event.mark (Watched.within c e')).seen? :=
        congrArg (fun e => some (Event.mark (Watched.within c e))) he
      obtain ⟨l', o', v', hy, hl, hend⟩ := ih hnear h₁
      refine ⟨_, o', v', .perform hy, ?_, hend⟩
      rw [Story.sights_append, Story.sights_append, hl]
      exact congrArg (· ++ l'.sights) (sights_emit hseen hw)
  | @perform q next next' hq _ ih =>
      obtain ⟨l₁, rfl, h₁⟩ := exec_perform hx
      obtain ⟨ha, hnear⟩ := Op.near_apply (hq.imp_right (within_ne_takeRecord c)) hw
      rw [ha] at h₁
      obtain ⟨l', o', v', hy, hl, hend⟩ := ih _ hnear h₁
      refine ⟨_, o', v', .perform hy, ?_, hend⟩
      rw [Story.sights_append, Story.sights_append, hl, sights_story _ hw]
  | await _ ih =>
      rcases exec_await hx with ⟨a, u, he, h₁⟩ | ⟨hlast, rfl, rfl, rfl⟩
      · obtain ⟨u', he', hu⟩ := hE.ends hw he
        obtain ⟨l', o', v', hy, hl, hend⟩ := ih a hu h₁
        exact ⟨l', o', v', .await he' hy, hl, hend⟩
      · exact ⟨_, _, _, .stall (hE.lasts hw hlast), rfl, .near .stalled hw⟩
  | takeRecord hs _ ih =>
      subst hs
      obtain ⟨l₁, rfl, h₁⟩ := exec_perform hx
      obtain ⟨l', o', v', hy, hl, hend⟩ :=
        ih _ w'.capture.record (hw.recapture Capture.take) h₁
      exact ⟨l', o', v', .perform hy, hl, hend⟩
  | unhooked hs _ ih =>
      subst hs
      obtain ⟨l₁, rfl, h₁⟩ := exec_perform hx
      exact ih (hw.loosely _) h₁
  | @returned p r hs hr =>
      subst hs
      cases hx
      exact ⟨_, _, _, .ret r _, rfl, .tamed hr (hw.loosely _)⟩
  | recovered hr =>
      cases hx
      exact ⟨_, _, _, .perform (.ret _ _), rfl, .tamed (hr _) (hw.recapture Capture.take)⟩

end Executions

end Async

end TransactionAttempts
