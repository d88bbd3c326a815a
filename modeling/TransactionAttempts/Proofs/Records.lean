import TransactionAttempts.Proofs.Attempts
import TransactionAttempts.Proofs.Heredity

/-!
# Whose site a failure tells

A panic of a step becomes a failure that tells a site.  That site is what the record holds,
and the record is left by the latest panic whose hook has run inside a capture.  Nothing ties
it to the panic that is being recovered.

**Sighting.**  A sighted program tells in addition when the hook has run, when the record has
been taken out, and when a panic leaves the program.  It does what it does unsighted.

**Records.**  `Story.latest` reads off a story what the record holds after it.

**A stale record.**  A panic that is raised and swallowed inside a step leaves a record behind
that nobody takes out.  If the next panic is one that does not run the hook, its failure tells
the site of the swallowed one.

Main facts:

* `latest_eq_some_iff`: the record holds the site of the latest panic in a capture since the
  last recovery;
* `tracks_sighted`: the record is what the story says;
* `failure_tells_latest`: the site that is told of a panic;
* `stale_site_told`: the site of a panic that was swallowed by an earlier step.
-/

namespace TransactionAttempts

variable {σ ε τ α β : Type}

/-- What a sighted program tells. -/
inductive Sighted (ε : Type) where
  /-- The hook has run. -/
  | raised (site : PanicSite)
  /-- The record has been taken out. -/
  | recovered
  /-- A panic leaves the program. -/
  | unwound (p : Payload)
  /-- What the program itself leaves. -/
  | inside (e : Event ε)

section Sighting

/-- An operation of a sighted program, and what its answer is for the program itself. -/
def Op.sighted : (o : Op σ ε) → (q : Op σ (Sighted ε)) × (q.Answer → o.Answer)
  | .update f => ⟨.update f, id⟩
  | .emit e => ⟨.emit (.mark (.inside e)), id⟩
  | .error d => ⟨.error d, id⟩
  | .deadline d => ⟨.deadline d, id⟩
  | .cancel d => ⟨.cancel d, id⟩
  | .cancelLater d t => ⟨.cancelLater d t, id⟩
  | .create timeout => ⟨.create timeout, id⟩
  | .draw bound => ⟨.draw bound, id⟩
  | .enterCapture => ⟨.enterCapture, id⟩
  | .leaveCapture => ⟨.leaveCapture, id⟩
  | .hook site => ⟨.hook site, id⟩
  | .takeRecord => ⟨.takeRecord, id⟩

/-- The operation has been carried out, which is told if it concerns the record. -/
def Op.tell (x : Async σ (Sighted ε) α) : Op σ ε → Async σ (Sighted ε) α
  | .hook site => .perform (.emit (.mark (.raised site))) fun _ => x
  | .takeRecord => .perform (.emit (.mark .recovered)) fun _ => x
  | _ => x

namespace Async

/-- The program, which tells of its panics. -/
def sighted : Async σ ε α → Async σ (Sighted ε) α
  | .ret a => .ret a
  | .unwind p => .perform (.emit (.mark (.unwound p))) fun _ => .unwind p
  | .perform o next => .perform o.sighted.1 fun a => o.tell (next (o.sighted.2 a)).sighted
  | .await c limit next => .await c limit fun r => (next r).sighted

theorem bracketed_tell (o : Op σ ε) (x : Async σ (Sighted ε) α) :
    (o.tell x).bracketed = o.tell x.bracketed := by
  cases o <;> rfl

theorem bracketed_sighted (x : Async σ ε α) : x.sighted.bracketed = x.bracketed.sighted := by
  induction x with
  | ret a => rfl
  | unwind p => rfl
  | perform o next ih =>
      refine congrArg (Async.perform o.sighted.1) (funext fun a => ?_)
      rw [bracketed_tell, ih]
  | await c limit next ih =>
      refine congrArg (Async.perform .leaveCapture) (funext fun _ => ?_)
      refine congrArg (Async.await c limit) (funext fun r => ?_)
      exact congrArg (Async.perform .enterCapture) (funext fun _ => ih r)

end Async

/-- The pool, whose calls tell of their panics. -/
def Pool.sighted (pool : Pool σ ε τ) : Pool σ (Sighted ε) τ where
  begin ctx := (pool.begin ctx).sighted
  commit tx ctx := (pool.commit tx ctx).sighted
  rollback tx ctx := (pool.rollback tx ctx).sighted

/-- The step, which tells of its panics. -/
def Step.sighted (step : Step σ ε τ) : Step σ (Sighted ε) τ := fun tx => (step tx).sighted

namespace Executor

/-- The executor over the sighted pool. -/
def sighted (x : Executor σ ε τ) : Executor σ (Sighted ε) τ :=
  ⟨x.pool.map Pool.sighted, x.retry, x.gracePeriod⟩

/-- The run of the executor, which tells of all panics. -/
def sightedRun (x : Executor σ ε τ) (ctx : ContextId) (steps : List (Step σ ε τ)) :
    Async σ (Sighted ε) Result :=
  x.sighted.run ctx (steps.map Step.sighted)

end Executor

end Sighting

section Agreement

open Async

theorem Op.alike_sighted (q : Op σ ε) : q.Alike q.sighted.1 q.sighted.2 := by
  rintro ⟨tl, cp, src, dr, st, tr⟩ ⟨tl', cp', src', dr', st', tr'⟩ ⟨ht, hc, hs, hd, hst⟩
  cases ht
  cases hc
  cases hs
  cases hd
  cases hst
  cases q <;> exact ⟨rfl, rfl, rfl, rfl, rfl, rfl⟩

theorem Op.alike_tell {x : Async σ ε α} {y : Async σ (Sighted ε) α} (h : Async.Alike x y)
    (o : Op σ ε) : Async.Alike x (o.tell y) := by
  cases o with
  | hook site => exact .extra h
  | takeRecord => exact .extra h
  | _ => exact h

/-- A sighted program does what it does unsighted. -/
theorem Async.alike_sighted (x : Async σ ε α) : Async.Alike x x.sighted := by
  induction x with
  | ret a => exact .ret a
  | unwind p => exact .extra (.unwind p)
  | perform o next ih => exact .perform _ o.alike_sighted fun a => Op.alike_tell (ih _) o
  | await c limit next ih => exact .await ih

theorem Pool.alike_sighted (pool : Pool σ ε τ) : pool.Alike pool.sighted where
  begin ctx := (pool.begin ctx).alike_sighted
  commit tx ctx := (pool.commit tx ctx).alike_sighted
  rollback tx ctx := (pool.rollback tx ctx).alike_sighted

theorem stepsAlike_sighted (steps : List (Step σ ε τ)) :
    Pool.StepsAlike steps (steps.map Step.sighted) :=
  List.forall₂_map_right_iff.2 (List.forall₂_same.2 fun step _ tx => (step tx).alike_sighted)

/-- The sighted run comes to the same outcome and the same world. -/
theorem Executor.run_sighted (x : Executor σ ε τ) (ctx : ContextId) (steps : List (Step σ ε τ))
    (w : World σ ε) :
    ((x.run ctx steps).run w).1 = ((x.sightedRun ctx steps).run w.untraced).1 ∧
      ((x.run ctx steps).run w).2.Agree ((x.sightedRun ctx steps).run w.untraced).2 := by
  obtain ⟨pool, retry, grace⟩ := x
  cases pool with
  | none => exact (Alike.ret _).run w.agree_untraced_right
  | some pool =>
      exact (Executor.alike_run pool.alike_sighted retry grace ctx
        (stepsAlike_sighted steps)).run w.agree_untraced_right

end Agreement

section Latest

/-- The event changes the record: a panic was raised inside a capture, or a panic has been
recovered. -/
def touches : World σ (Sighted ε) × Event (Sighted ε) → Bool
  | (u, .mark (.raised _)) => 0 < u.capture.depth
  | (_, .mark .recovered) => true
  | (_, .notice (.stepPanicked _ _ _)) => true
  | _ => false

/-- What the record holds after an event. -/
def recordAfter (r : Option PanicSite) :
    World σ (Sighted ε) × Event (Sighted ε) → Option PanicSite
  | (u, .mark (.raised site)) => if 0 < u.capture.depth then some site else r
  | (_, .mark .recovered) => none
  | (_, .notice (.stepPanicked _ _ _)) => none
  | _ => r

/-- What the record holds after a story, if at first it holds the given site. -/
def Story.latest (r : Option PanicSite) (l : Story σ (Sighted ε)) : Option PanicSite :=
  l.foldl recordAfter r

theorem latest_append (r : Option PanicSite) (l l' : Story σ (Sighted ε)) :
    Story.latest r (l ++ l') = Story.latest (Story.latest r l) l' :=
  List.foldl_append

/-- An event leaves a site in the record if it raises a panic there inside a capture, or if
the site was there and the event does not change the record. -/
theorem recordAfter_eq_some_iff {r : Option PanicSite} {site : PanicSite}
    {y : World σ (Sighted ε) × Event (Sighted ε)} :
    recordAfter r y = some site ↔
      (∃ u, y = (u, .mark (.raised site)) ∧ 0 < u.capture.depth) ∨
        r = some site ∧ touches y = false := by
  obtain ⟨u, e⟩ := y
  cases e with
  | notice n => cases n <;> simp [recordAfter, touches]
  | consulted attempt base => simp [recordAfter, touches]
  | mark m =>
      cases m with
      | raised site' =>
          by_cases hdepth : 0 < u.capture.depth
          · simp only [recordAfter, touches, hdepth]
            constructor
            · intro h
              cases h
              exact Or.inl ⟨u, rfl, hdepth⟩
            · rintro (⟨_, h, _⟩ | ⟨_, h⟩)
              · cases h
                rfl
              · cases h
          · simp only [recordAfter, touches, hdepth]
            constructor
            · exact fun h => Or.inr ⟨h, rfl⟩
            · rintro (⟨_, h, hpos⟩ | ⟨h, _⟩)
              · cases h
                exact absurd hpos hdepth
              · exact h
      | recovered => simp [recordAfter, touches]
      | unwound p => simp [recordAfter, touches]
      | inside e => simp [recordAfter, touches]

/-- The record holds a site exactly if the latest panic in a capture, with no recovery since
then, was raised there, or if it held the site at first and nothing has changed it. -/
theorem latest_eq_some_iff {r : Option PanicSite} {site : PanicSite}
    {l : Story σ (Sighted ε)} :
    Story.latest r l = some site ↔
      (∃ before u rest, l = before ++ (u, .mark (.raised site)) :: rest ∧ 0 < u.capture.depth ∧
        ∀ y ∈ rest, touches y = false) ∨
      r = some site ∧ ∀ y ∈ l, touches y = false := by
  induction l generalizing r with
  | nil => simp [Story.latest]
  | cons y l ih =>
      have hcons : Story.latest r (y :: l) = Story.latest (recordAfter r y) l := rfl
      rw [hcons, ih, recordAfter_eq_some_iff, List.forall_mem_cons]
      constructor
      · rintro (⟨before, u, rest, rfl, hu, hrest⟩ | ⟨⟨u, rfl, hu⟩ | ⟨hr, hy⟩, hl⟩)
        · exact Or.inl ⟨y :: before, u, rest, rfl, hu, hrest⟩
        · exact Or.inl ⟨[], u, l, rfl, hu, hl⟩
        · exact Or.inr ⟨hr, hy, hl⟩
      · rintro (⟨before, u, rest, hsplit, hu, hrest⟩ | ⟨hr, hy, hl⟩)
        · cases before with
          | nil =>
              cases hsplit
              exact Or.inr ⟨Or.inl ⟨u, rfl, hu⟩, hrest⟩
          | cons _ before =>
              cases hsplit
              exact Or.inl ⟨before, u, rest, rfl, hu, hrest⟩
        · exact Or.inr ⟨Or.inr ⟨hr, hy⟩, hl⟩

/-- Events that do not touch the record leave it as it is. -/
theorem latest_untouched {r : Option PanicSite} {l : Story σ (Sighted ε)}
    (h : ∀ y ∈ l, touches y = false) : Story.latest r l = r := by
  refine Option.ext fun site => ?_
  rw [latest_eq_some_iff]
  constructor
  · rintro (⟨before, u, rest, rfl, hu, _⟩ | ⟨hr, _⟩)
    · have hraised := h (u, .mark (.raised site)) (by simp)
      exact absurd hu (of_decide_eq_false hraised)
    · exact hr
  · exact fun hr => Or.inr ⟨hr, h⟩

end Latest

section Tracking

/-- Surroundings that leave the captures alone while a program waits. -/
def Surroundings.Quiet (E : Surroundings σ ε) : Prop :=
  ∀ c limit w r v, E.ends c limit w r v → v.capture = w.capture

/-- The course of time leaves the captures alone. -/
theorem quiet_clock : (Surroundings.clock : Surroundings σ ε).Quiet := by
  rintro c limit w r _ ⟨t, _, rfl⟩
  rfl

variable {E : Surroundings σ (Sighted ε)} {w u v : World σ (Sighted ε)}
  {l l' : Story σ (Sighted ε)}

/-- The record is what the story says, and so is the site of every panic of a step that is
told of: it is what the record held when the panic left the step. -/
structure Tracks (w : World σ (Sighted ε)) (l : Story σ (Sighted ε)) (v : World σ (Sighted ε)) :
    Prop where
  record : v.capture.record = Story.latest w.capture.record l
  panics : ∀ before u k i e after, l = before ++ (u, .notice (.stepPanicked k i e)) :: after →
    ∃ p s b, before = b ++ [(s, .mark (.unwound p))] ∧
      e = p.failure (Story.latest w.capture.record b)

theorem Tracks.nil (h : v.capture.record = w.capture.record) :
    Tracks w ([] : Story σ (Sighted ε)) v where
  record := h
  panics before _ _ _ _ _ hsplit := by cases before <;> cases hsplit

theorem Tracks.of_record (h : Tracks u l v) (hw : u.capture.record = w.capture.record) :
    Tracks w l v := by
  obtain ⟨hrecord, hpanics⟩ := h
  rw [hw] at hrecord hpanics
  exact ⟨hrecord, hpanics⟩

/-- An event that does not tell of the panic of a step. -/
theorem Tracks.single {s : World σ (Sighted ε)} {e : Event (Sighted ε)}
    (he : ∀ k i f, e ≠ .notice (.stepPanicked k i f))
    (h : v.capture.record = recordAfter w.capture.record (s, e)) : Tracks w [(s, e)] v where
  record := h
  panics before u k i f after hsplit := by
    cases before with
    | nil =>
        cases hsplit
        exact absurd rfl (he k i f)
    | cons _ before => cases before <;> cases hsplit

theorem Tracks.append (h : Tracks w l u) (h' : Tracks u l' v) : Tracks w (l ++ l') v where
  record := by rw [latest_append, ← h.record, h'.record]
  panics before s k i e after hsplit := by
    have hsecond : ∀ b, before = l ++ b → l' = b ++ (s, .notice (.stepPanicked k i e)) :: after →
        ∃ p t b, before = b ++ [(t, .mark (.unwound p))] ∧
          e = p.failure (Story.latest w.capture.record b) := by
      rintro b rfl hl'
      obtain ⟨p, t, b', rfl, he⟩ := h'.panics _ _ _ _ _ _ hl'
      refine ⟨p, t, l ++ b', (List.append_assoc _ _ _).symm, ?_⟩
      rw [latest_append, ← h.record]
      exact he
    rcases List.append_eq_append_iff.1 hsplit with ⟨b, hb, hl'⟩ | ⟨b, hl, hrest⟩
    · exact hsecond b hb hl'
    · cases b with
      | nil =>
          rw [List.append_nil] at hl
          exact hsecond [] (hl.symm.trans (List.append_nil l).symm) hrest.symm
      | cons y b =>
          cases hrest
          exact h.panics _ _ _ _ _ _ hl

/-- Every execution of the program tracks the record. -/
def Async.Tracking (E : Surroundings σ (Sighted ε)) (x : Async σ (Sighted ε) α) : Prop :=
  ∀ w l o v, x.Exec E w l o v → Tracks w l v

theorem tracking_ret (a : α) : Async.Tracking E (.ret a : Async σ (Sighted ε) α) := by
  intro w l o v h
  obtain ⟨rfl, rfl, rfl⟩ := Async.exec_ret h
  exact .nil rfl

theorem Async.Tracking.bind {x : Async σ (Sighted ε) α} {f : α → Async σ (Sighted ε) β}
    (hx : x.Tracking E) (hf : ∀ a, (f a).Tracking E) : (x.bind f).Tracking E := by
  intro w l o v h
  rcases Async.exec_bind h with ⟨a, u, l₁, l₂, h₁, h₂, rfl⟩ | ⟨o', h₁, _⟩
  · exact (hx _ _ _ _ h₁).append (hf a _ _ _ _ h₂)
  · exact hx _ _ _ _ h₁

/-- An operation that does not concern the record, and leaves no event. -/
theorem tracking_request {q : Op σ (Sighted ε)}
    (hq : ∀ w, q.story w = [] ∧ (q.apply w).2.capture.record = w.capture.record) :
    (Async.request q).Tracking E := by
  intro w l o v h
  obtain ⟨l', rfl, h'⟩ := Async.exec_perform h
  obtain ⟨rfl, rfl, rfl⟩ := Async.exec_ret h'
  rw [(hq w).1]
  exact .nil (hq w).2

/-- An event that does not touch the record. -/
theorem tracking_emit {e : Event (Sighted ε)} (he : ∀ k i f, e ≠ .notice (.stepPanicked k i f))
    (hr : ∀ (r : Option PanicSite) (w : World σ (Sighted ε)), recordAfter r (w, e) = r) :
    (Async.request (.emit e) : Async σ (Sighted ε) Unit).Tracking E := by
  intro w l o v h
  obtain ⟨l', rfl, h'⟩ := Async.exec_perform h
  obtain ⟨rfl, rfl, rfl⟩ := Async.exec_ret h'
  exact .single he (hr _ _).symm

theorem tracking_await (hE : E.Quiet) {c : Option ContextId} {limit : Option Duration}
    {next : Option ContextError → Async σ (Sighted ε) α} (h : ∀ r, (next r).Tracking E) :
    (Async.await c limit next).Tracking E := by
  intro w l o v hx
  rcases Async.exec_await hx with ⟨r, u, he, hr⟩ | ⟨_, rfl, _, rfl⟩
  · exact (h r _ _ _ _ hr).of_record (congrArg Capture.record (hE _ _ _ _ _ he))
  · exact .nil rfl

end Tracking

section Programs

variable {E : Surroundings σ (Sighted ε)} {w v : World σ (Sighted ε)} {l : Story σ (Sighted ε)}

/-- Nothing that is left inside a sighted program is told by the library about a step. -/
theorem mark_ne_panicked (m : Sighted ε) :
    ∀ k i f, (Event.mark m : Event (Sighted ε)) ≠ .notice (.stepPanicked k i f) := nofun

/-- One operation of a sighted program and what is told of it. -/
theorem exec_perform_sighted {q : Op σ ε} {next : q.Answer → Async σ ε α} {o : Outcome α}
    (h : (Async.perform q next).sighted.Exec E w l o v) :
    ∃ l₁ l₂ u a, l = l₁ ++ l₂ ∧ Tracks w l₁ u ∧ (next a).sighted.Exec E u l₂ o v := by
  obtain ⟨l', rfl, h'⟩ := Async.exec_perform h
  cases q with
  | emit e =>
      refine ⟨[(w, .mark (.inside e))], _, _, _, rfl, ?_, h'⟩
      exact .single (mark_ne_panicked _) rfl
  | hook site =>
      obtain ⟨l'', rfl, h''⟩ := Async.exec_perform h'
      refine ⟨[(_, .mark (.raised site))], _, _, _, rfl, .single (mark_ne_panicked _) ?_, h''⟩
      by_cases hdepth : 0 < w.capture.depth <;>
        simp [recordAfter, Op.sighted, Op.apply, World.log, Capture.hook, hdepth]
  | takeRecord =>
      obtain ⟨l'', rfl, h''⟩ := Async.exec_perform h'
      exact ⟨[(_, .mark .recovered)], _, _, _, rfl, .single (mark_ne_panicked _) rfl, h''⟩
  | _ =>
      refine ⟨[], _, _, _, rfl, ?_, h'⟩
      exact .nil rfl

/-- A sighted program tracks the record, and the last thing that is told of it is the panic
that leaves it, if there is one. -/
theorem tracks_sighted (hE : E.Quiet) {x : Async σ ε α} {o : Outcome α}
    (h : x.sighted.Exec E w l o v) :
    Tracks w l v ∧ ∀ p, o = .unwound p → ∃ b s, l = b ++ [(s, .mark (.unwound p))] := by
  induction x generalizing w l with
  | ret a =>
      obtain ⟨rfl, rfl, rfl⟩ := Async.exec_ret h
      exact ⟨.nil rfl, nofun⟩
  | unwind p =>
      obtain ⟨l', rfl, h'⟩ := Async.exec_perform h
      cases h'
      refine ⟨.single (mark_ne_panicked _) rfl, fun p' hp => ?_⟩
      cases hp
      exact ⟨[], w, rfl⟩
  | perform q next ih =>
      obtain ⟨l₁, l₂, u, a, rfl, h₁, h₂⟩ := exec_perform_sighted h
      obtain ⟨htracks, hlast⟩ := ih a h₂
      refine ⟨h₁.append htracks, fun p hp => ?_⟩
      obtain ⟨b, s, rfl⟩ := hlast p hp
      exact ⟨l₁ ++ b, s, (List.append_assoc _ _ _).symm⟩
  | await c limit next ih =>
      rcases Async.exec_await h with ⟨r, u, he, hr⟩ | ⟨_, rfl, rfl, rfl⟩
      · obtain ⟨htracks, hlast⟩ := ih r hr
        exact ⟨htracks.of_record (congrArg Capture.record (hE _ _ _ _ _ he)), hlast⟩
      · exact ⟨.nil rfl, nofun⟩

theorem tracking_sighted (hE : E.Quiet) (x : Async σ ε α) : x.sighted.Tracking E :=
  fun _ _ _ _ h => (tracks_sighted hE h).1

/-- Tracking holds of what the library does by itself, and of sequences. -/
theorem heritable_tracking (hE : E.Quiet) :
    Async.Heritable fun _ (x : Async σ (Sighted ε) _) => x.Tracking E where
  ret := tracking_ret
  bind := Async.Tracking.bind
  request ho := by
    cases ho with
    | @notice n hn =>
        refine tracking_emit (fun k i f he => ?_) fun r w => ?_
        · cases he
          exact hn k i f rfl
        · cases n with
          | stepPanicked k i f => exact absurd rfl (hn k i f)
          | _ => rfl
    | consulted attempt base => exact tracking_emit (by nofun) fun _ _ => rfl
    | error c => exact tracking_request fun _ => ⟨rfl, rfl⟩
    | create timeout => exact tracking_request fun _ => ⟨rfl, rfl⟩
    | draw bound => exact tracking_request fun _ => ⟨rfl, rfl⟩
  wait _ _ := tracking_await hE tracking_ret

end Programs

section Attempts

variable {E : Surroundings σ (Sighted ε)} {k : UInt32}

/-- A panic of a step is told of right after it has left the step, with the site that the
record then holds, and the record is empty afterwards. -/
theorem tracking_runStep (hE : E.Quiet) (i : Nat) (body : Async σ ε Result) :
    (Pool.runStep k i body.sighted).Tracking E := by
  intro w l o v h
  have hran := Pool.exec_runStep h
  cases hran with
  | returned hb =>
      rw [Async.bracketed_sighted] at hb
      obtain ⟨hrecord, hpanics⟩ := (tracks_sighted hE hb).1
      exact ⟨hrecord, hpanics⟩
  | stalled hb =>
      rw [Async.bracketed_sighted] at hb
      obtain ⟨hrecord, hpanics⟩ := (tracks_sighted hE hb).1
      exact ⟨hrecord, hpanics⟩
  | @panicked u l p e hb he =>
      rw [Async.bracketed_sighted] at hb
      obtain ⟨⟨hrecord, hpanics⟩, hlast⟩ := tracks_sighted hE hb
      obtain ⟨b, s, rfl⟩ := hlast p rfl
      refine ⟨?_, fun before u' k' i' e' after hsplit => ?_⟩
      · rw [latest_append]
        rfl
      · rcases List.eq_nil_or_concat after with rfl | ⟨after, z, rfl⟩
        · -- the notice is the last thing that is told
          obtain ⟨rfl, hnotice⟩ := List.append_inj' hsplit rfl
          cases hnotice
          rw [latest_append] at hrecord
          exact ⟨p, s, b, rfl, he.symm.trans (congrArg p.failure hrecord)⟩
        · have hconcat : before ++ (u', .notice (.stepPanicked k' i' e')) :: (after ++ [z]) =
              (before ++ (u', .notice (.stepPanicked k' i' e')) :: after) ++ [z] := by simp
          rw [List.concat_eq_append, hconcat] at hsplit
          exact hpanics _ _ _ _ _ _ (List.append_inj' hsplit rfl).1

end Attempts

section Runs

variable {E : Surroundings σ (Sighted ε)} {ctx : ContextId}

/-- Every run tracks the record. -/
theorem tracking_sightedRun (hE : E.Quiet) (x : Executor σ ε τ) (steps : List (Step σ ε τ)) :
    (x.sightedRun ctx steps).Tracking E := by
  refine Executor.inherits (heritable_tracking hE) x.sighted ctx (fun pool hpool => ?_)
    fun step hstep k tx i => ?_
  · obtain ⟨pool', _, rfl⟩ := Option.map_eq_some_iff.1 hpool
    exact ⟨fun _ => tracking_sighted hE _, fun _ _ => tracking_sighted hE _,
      fun _ _ => tracking_sighted hE _⟩
  · obtain ⟨step', _, rfl⟩ := List.mem_map.1 hstep
    exact tracking_runStep hE i (step' tx)

/-- **A panic tells the site that the record holds.**  In every run, a panic of a step is told
of right after it has left the step, and its failure tells the site of the latest panic that
was raised inside a capture since the last recovery.  That is its own site if its own hook was
the last to run.  There is none if the record has been empty and no panic has been raised in a
capture since. -/
theorem failure_tells_latest (x : Executor σ ε τ) (ctx : ContextId)
    (steps : List (Step σ ε τ)) :
    (∀ (E : Surroundings σ (Sighted ε)), E.Quiet → ∀ w l o v,
      (x.sightedRun ctx steps).Exec E w l o v → ∀ before u k i e after,
        l = before ++ (u, .notice (.stepPanicked k i e)) :: after →
        ∃ p s b, before = b ++ [(s, .mark (.unwound p))] ∧
          e = p.failure (Story.latest w.capture.record b) ∧
          (∀ b' s' site, b = b' ++ [(s', .mark (.raised site))] → 0 < s'.capture.depth →
            e = p.failure (some site)) ∧
          (∀ b₁ b₂, b = b₁ ++ b₂ → Story.latest w.capture.record b₁ = none →
            (∀ y ∈ b₂, touches y = false) → e = p.failure none)) ∧
    (Surroundings.clock : Surroundings σ (Sighted ε)).Quiet := by
  refine ⟨fun E hE w l o v h before u k i e after hsplit => ?_, quiet_clock⟩
  obtain ⟨p, s, b, hbefore, he⟩ :=
    (tracking_sightedRun hE x steps _ _ _ _ h).panics _ _ _ _ _ _ hsplit
  refine ⟨p, s, b, hbefore, he, fun b' s' site hb hdepth => ?_, fun b₁ b₂ hb hnone hb₂ => ?_⟩
  · have hlatest : Story.latest w.capture.record b = some site :=
      latest_eq_some_iff.2 (Or.inl ⟨b', s', [], hb, hdepth, by simp⟩)
    rw [he, hlatest]
  · have hlatest : Story.latest w.capture.record b = none := by
      rw [hb, latest_append, hnone, latest_untouched hb₂]
    rw [he, hlatest]

/-- A step in which a panic is raised and swallowed. -/
def Step.swallowing (site : PanicSite) : Step Unit Unit Unit := fun _ => do
  let _ ← (Async.panic (.text "early") site : Async Unit Unit Unit).caught
  return .ok ()

/-- A step that goes on with a panic of somebody else, which does not run the hook. -/
def Step.resuming : Step Unit Unit Unit := fun _ => .unwind (.text "late")

/-- A world with one live context, in which no panic has been raised. -/
def World.calm : World Unit Unit :=
  { World.initial (fun _ => 0) () with timeline := Timeline.start.create Context.unbounded }

/-- The failure of the second step tells the site of the panic that the first step has
swallowed, although the hook has not run for its own one. -/
theorem stale_site_told :
    (((Executor.ofPool Pool.agreeing).run 0
        [Step.swallowing ⟨"first.rs", "frames of the first"⟩, Step.resuming]).run World.calm).1 =
      .returned (.error (.panic "late" (some "first.rs") "frames of the first")) := by
  rfl

end Runs

end TransactionAttempts
