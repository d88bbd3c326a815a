import TransactionAttempts.Proofs.Execution

/-!
# Watching a program

A program makes calls to other programs, and an observer is told of each: when the
call begins, and when and how it is answered.  What the called program itself
records is kept apart from what the caller records.

**Reports.**  The report of a story lists the calls and the answers together with
what the library says about its own work.  At the beginning of each call it also
shows the error of one context, that of the caller.

**Agreement.**  Watching changes nothing.  A program is like another one if it does
the same and may leave further events; like programs come to the same outcome in
worlds that agree in everything but their traces.

Main facts:

* `exec_watch`: the execution of a watched call;
* `Alike.bind`, `Alike.captured`, `alike_watch`: likeness is kept by all that
  programs are made from;
* `Alike.run`: like programs run alike.
-/

namespace TransactionAttempts

/-- A call of some kind is begun or answered, or the called program leaves an event. -/
inductive Watched (ε γ : Type) (ρ : γ → Type) where
  | called (c : γ)
  | answered (c : γ) (r : ρ c)
  | within (c : γ) (e : Event ε)

variable {σ ε ε' α β γ : Type} {ρ : γ → Type}

section Watch

/-- An operation inside a call, and what its answer is for the called program. -/
def Op.within (c : γ) : (o : Op σ ε) → (q : Op σ (Watched ε γ ρ)) × (q.Answer → o.Answer)
  | .update f => ⟨.update f, id⟩
  | .emit e => ⟨.emit (.mark (.within c e)), id⟩
  | .error d => ⟨.error d, id⟩
  | .deadline d => ⟨.deadline d, id⟩
  | .cancel d => ⟨.cancel d, id⟩
  | .cancelLater d t => ⟨.cancelLater d t, id⟩
  | .create timeout => ⟨.create timeout, id⟩
  | .draw bound => ⟨.draw bound, id⟩
  | .enterCapture => ⟨.enterCapture, id⟩
  | .leaveCapture => ⟨.leaveCapture, id⟩
  | .hook site => ⟨.hook site, id⟩
  | .takeRecord => ⟨.takeRecord, id⟩

namespace Async

/-- The program inside a call. -/
def within (c : γ) : Async σ ε α → Async σ (Watched ε γ ρ) α
  | .ret a => .ret a
  | .unwind p => .unwind p
  | .perform o next => .perform (o.within c).1 fun a => (next ((o.within c).2 a)).within c
  | .await d limit next => .await d limit fun r => (next r).within c

/-- The program as a call of which an observer is told. -/
def watch (c : γ) (x : Async σ ε (ρ c)) : Async σ (Watched ε γ ρ) (ρ c) := do
  mark (.called c)
  let r ← x.within c
  mark (.answered c r)
  return r

theorem caught_within (c : γ) (x : Async σ ε α) :
    (x.within c : Async σ (Watched ε γ ρ) α).caught = x.caught.within c := by
  induction x with
  | ret a => rfl
  | unwind p => rfl
  | perform o next ih => exact congrArg (Async.perform _) (funext fun a => ih _)
  | await d limit next ih => exact congrArg (Async.await d limit) (funext fun r => ih r)

theorem bracketed_within (c : γ) (x : Async σ ε α) :
    (x.within c : Async σ (Watched ε γ ρ) α).bracketed = x.bracketed.within c := by
  induction x with
  | ret a => rfl
  | unwind p => rfl
  | perform o next ih => exact congrArg (Async.perform _) (funext fun a => ih _)
  | await d limit next ih =>
      refine congrArg (Async.perform .leaveCapture) (funext fun _ => ?_)
      refine congrArg (Async.await d limit) (funext fun r => ?_)
      exact congrArg (Async.perform .enterCapture) (funext fun _ => ih r)

/-- A watched call inside a capture is the watched call of what runs in the capture. -/
theorem bracketed_watch (c : γ) (x : Async σ ε (ρ c)) :
    (watch c x : Async σ (Watched ε γ ρ) (ρ c)).bracketed = watch c x.bracketed := by
  refine congrArg (Async.perform (.emit (.mark (Watched.called c)))) (funext fun _ => ?_)
  refine (bracketed_bind (x.within c) _).trans ?_
  rw [bracketed_within]
  rfl

end Async

end Watch

section Reports

/-- What a report shows: calls with the error of the caller's context, answers, and
what the library says about its own work. -/
inductive Item (γ : Type) (ρ : γ → Type) where
  | called (c : γ) (error : Option ContextError)
  | answered (c : γ) (r : ρ c)
  | notice (n : Notice)
  | consulted (attempt : UInt32) (base : Duration)

namespace Item

/-- What an event shows, unless it was left inside a call. -/
def of? (ctx : ContextId) : World σ (Watched ε γ ρ) × Event (Watched ε γ ρ) → Option (Item γ ρ)
  | (w, .mark (.called c)) => some (.called c (w.timeline.error ctx))
  | (_, .mark (.answered c r)) => some (.answered c r)
  | (_, .mark (.within _ _)) => none
  | (_, .notice n) => some (.notice n)
  | (_, .consulted attempt base) => some (.consulted attempt base)

/-- The beginning of a call, or an answer. -/
def isCall : Item γ ρ → Bool
  | .called _ _ => true
  | .answered _ _ => true
  | _ => false

end Item

/-- The report of a story, in which the context of the caller is the given one. -/
def Story.report (ctx : ContextId) (l : Story σ (Watched ε γ ρ)) : List (Item γ ρ) :=
  l.filterMap (Item.of? ctx)

/-- The calls of a story. -/
def Story.calls (ctx : ContextId) (l : Story σ (Watched ε γ ρ)) : List (Item γ ρ) :=
  (l.report ctx).filter Item.isCall

theorem Story.report_append (ctx : ContextId) (l l' : Story σ (Watched ε γ ρ)) :
    Story.report ctx (l ++ l') = l.report ctx ++ l'.report ctx :=
  List.filterMap_append

variable {E : Surroundings σ (Watched ε γ ρ)}

/-- A program inside a call leaves events inside that call only. -/
theorem Async.exec_within {c : γ} {x : Async σ ε α} {w v : World σ (Watched ε γ ρ)}
    {l : Story σ (Watched ε γ ρ)} {o : Outcome α} (h : (x.within c).Exec E w l o v) :
    ∀ y ∈ l, ∃ e, y.2 = .mark (.within c e) := by
  induction x generalizing w l with
  | ret a =>
      cases h
      simp
  | unwind p =>
      cases h
      simp
  | perform q next ih =>
      obtain ⟨l', rfl, h'⟩ := exec_perform h
      intro y hy
      rcases List.mem_append.1 hy with hq | hl
      · cases q with
        | emit e =>
            rw [List.mem_singleton.1 hq]
            exact ⟨e, rfl⟩
        | _ => cases hq
      · exact ih _ h' y hl
  | await d limit next ih =>
      rcases exec_await h with ⟨a, u, _, h'⟩ | ⟨_, rfl, _, _⟩
      · exact ih a h'
      · simp

theorem Async.report_within {c : γ} {x : Async σ ε α} {w v : World σ (Watched ε γ ρ)}
    {l : Story σ (Watched ε γ ρ)} {o : Outcome α} (h : (x.within c).Exec E w l o v)
    (ctx : ContextId) : l.report ctx = [] := by
  refine List.filterMap_eq_nil_iff.2 fun y hy => ?_
  obtain ⟨e, he⟩ := exec_within h y hy
  obtain ⟨u, _⟩ := y
  cases he
  rfl

/-- A watched call is announced, then carried out, and its answer is told unless it does
not come. -/
theorem Async.exec_watch {c : γ} {x : Async σ ε (ρ c)} {w v : World σ (Watched ε γ ρ)}
    {l : Story σ (Watched ε γ ρ)} {o : Outcome (ρ c)} (h : (watch c x).Exec E w l o v) :
    (∃ r u l', (x.within c).Exec E (w.log (.mark (.called c))) l' (.returned r) u ∧
        o = .returned r ∧ v = u.log (.mark (.answered c r)) ∧
        l = (w, .mark (.called c)) :: (l' ++ [(u, .mark (.answered c r))])) ∨
      ∃ l', (x.within c).Exec E (w.log (.mark (.called c))) l' o v ∧ o.Broken o ∧
        l = (w, .mark (.called c)) :: l' := by
  obtain ⟨l₀, rfl, h₁⟩ := exec_request_bind h
  rcases exec_bind h₁ with ⟨r, u, l₁, l₂, hx, hr, rfl⟩ | ⟨o', hx, ho⟩
  · obtain ⟨l₃, rfl, h₂⟩ := exec_request_bind hr
    obtain ⟨rfl, rfl, rfl⟩ := exec_ret h₂
    exact Or.inl ⟨r, u, l₁, hx, rfl, rfl, rfl⟩
  · cases ho with
    | unwound p => exact Or.inr ⟨l₀, hx, .unwound p, rfl⟩
    | stalled => exact Or.inr ⟨l₀, hx, .stalled, rfl⟩

/-- What is reported of a watched call. -/
theorem Async.report_watch {c : γ} {x : Async σ ε (ρ c)} {w v : World σ (Watched ε γ ρ)}
    {l : Story σ (Watched ε γ ρ)} {o : Outcome (ρ c)} (h : (watch c x).Exec E w l o v)
    (ctx : ContextId) :
    (∃ r, o = .returned r ∧
        l.report ctx = [.called c (w.timeline.error ctx), .answered c r]) ∨
      (o.Unreturned ∧ l.report ctx = [.called c (w.timeline.error ctx)]) := by
  have happend := @Story.report_append σ ε γ ρ ctx
  rcases exec_watch h with ⟨r, u, l', hx, rfl, rfl, rfl⟩ | ⟨l', hx, ho, rfl⟩
  · refine Or.inl ⟨r, rfl, ?_⟩
    rw [← List.singleton_append, happend, happend, report_within hx]
    rfl
  · refine Or.inr ⟨ho.left, ?_⟩
    rw [← List.singleton_append, happend, report_within hx]
    rfl

/-- A call that has returned is reported with its answer. -/
theorem Async.report_returned {c : γ} {x : Async σ ε (ρ c)} {w v : World σ (Watched ε γ ρ)}
    {l : Story σ (Watched ε γ ρ)} {r : ρ c} (h : (watch c x).Exec E w l (.returned r) v)
    (ctx : ContextId) : l.report ctx = [.called c (w.timeline.error ctx), .answered c r] := by
  rcases report_watch h ctx with ⟨r', hr, hl⟩ | ⟨ho, _⟩
  · cases hr
    exact hl
  · exact absurd rfl (ho r)

/-- A call that has not returned is reported alone. -/
theorem Async.report_unreturned {c : γ} {x : Async σ ε (ρ c)} {w v : World σ (Watched ε γ ρ)}
    {l : Story σ (Watched ε γ ρ)} {o : Outcome (ρ c)} (h : (watch c x).Exec E w l o v)
    (ho : o.Unreturned) (ctx : ContextId) : l.report ctx = [.called c (w.timeline.error ctx)] := by
  rcases report_watch h ctx with ⟨r, hr, _⟩ | ⟨_, hl⟩
  · exact absurd hr (ho r)
  · exact hl

end Reports

section Agreement

/-- The worlds agree in everything but their traces. -/
structure World.Agree (w : World σ ε) (w' : World σ ε') : Prop where
  timeline : w.timeline = w'.timeline
  capture : w.capture = w'.capture
  source : w.source = w'.source
  draws : w.draws = w'.draws
  state : w.state = w'.state

theorem World.Agree.symm {w : World σ ε} {w' : World σ ε'} (h : w.Agree w') : w'.Agree w :=
  ⟨h.timeline.symm, h.capture.symm, h.source.symm, h.draws.symm, h.state.symm⟩

theorem World.Agree.trans {ε'' : Type} {w : World σ ε} {w' : World σ ε'} {w'' : World σ ε''}
    (h : w.Agree w') (h' : w'.Agree w'') : w.Agree w'' :=
  ⟨h.timeline.trans h'.timeline, h.capture.trans h'.capture, h.source.trans h'.source,
    h.draws.trans h'.draws, h.state.trans h'.state⟩

/-- The same world without its trace. -/
def World.untraced (w : World σ ε) : World σ ε' :=
  ⟨w.timeline, w.capture, w.source, w.draws, w.state, []⟩

theorem World.agree_untraced (w : World σ ε) : (w.untraced : World σ ε').Agree w :=
  ⟨rfl, rfl, rfl, rfl, rfl⟩

theorem World.agree_untraced_right (w : World σ ε) : w.Agree (w.untraced : World σ ε') :=
  ⟨rfl, rfl, rfl, rfl, rfl⟩

/-- An operation answers like another one, up to a translation, and does the same. -/
def Op.Alike (q : Op σ ε) (q' : Op σ ε') (t : q'.Answer → q.Answer) : Prop :=
  ∀ (w : World σ ε) (w' : World σ ε'), w.Agree w' →
    t (q'.apply w').1 = (q.apply w).1 ∧ (q.apply w).2.Agree (q'.apply w').2

theorem Op.alike_within (c : γ) (q : Op σ ε) :
    q.Alike (q.within c : (q' : Op σ (Watched ε γ ρ)) × (q'.Answer → q.Answer)).1
      (q.within c).2 := by
  rintro ⟨tl, cp, src, dr, st, tr⟩ ⟨tl', cp', src', dr', st', tr'⟩ ⟨ht, hc, hs, hd, hst⟩
  cases ht
  cases hc
  cases hs
  cases hd
  cases hst
  cases q <;> exact ⟨rfl, rfl, rfl, rfl, rfl, rfl⟩

namespace Async

/-- The second program does what the first one does, and may leave further events. -/
inductive Alike : Async σ ε α → Async σ ε' α → Prop
  | ret (a : α) : Alike (.ret a) (.ret a)
  | unwind (p : Payload) : Alike (.unwind p) (.unwind p)
  | perform {q : Op σ ε} {q' : Op σ ε'} (t : q'.Answer → q.Answer)
      {next : q.Answer → Async σ ε α} {next' : q'.Answer → Async σ ε' α} :
      q.Alike q' t → (∀ a, Alike (next (t a)) (next' a)) →
      Alike (.perform q next) (.perform q' next')
  | extra {x : Async σ ε α} {e : Event ε'} {next' : Unit → Async σ ε' α} :
      Alike x (next' ()) → Alike x (.perform (.emit e) next')
  | await {c : Option ContextId} {limit : Option Duration}
      {next : Option ContextError → Async σ ε α} {next' : Option ContextError → Async σ ε' α} :
      (∀ r, Alike (next r) (next' r)) → Alike (.await c limit next) (.await c limit next')

/-- Like programs run alike. -/
theorem Alike.run {x : Async σ ε α} {y : Async σ ε' α} (h : Alike x y) :
    ∀ {w : World σ ε} {w' : World σ ε'}, w.Agree w' →
      (x.run w).1 = (y.run w').1 ∧ (x.run w).2.Agree (y.run w').2 := by
  induction h with
  | ret a => exact fun hw => ⟨rfl, hw⟩
  | unwind p => exact fun hw => ⟨rfl, hw⟩
  | @perform q q' t next next' hq _ ih =>
      intro w w' hw
      obtain ⟨ha, hagree⟩ := hq w w' hw
      have := ih (q'.apply w').1 hagree
      rw [ha] at this
      exact this
  | extra _ ih =>
      intro w w' hw
      exact ih ⟨hw.timeline, hw.capture, hw.source, hw.draws, hw.state⟩
  | @await c limit next next' _ ih =>
      intro w w' hw
      have hnow : w.now = w'.now := congrArg Timeline.now hw.timeline
      simp only [Async.run, hw.timeline, hnow]
      cases w'.timeline.await (Wait.since w'.now c limit) with
      | none => exact ⟨rfl, hw⟩
      | some p => exact ih p.1 ⟨rfl, hw.capture, hw.source, hw.draws, hw.state⟩

section Congruence

theorem Alike.bind {x : Async σ ε α} {y : Async σ ε' α} (h : Alike x y)
    {f : α → Async σ ε β} {g : α → Async σ ε' β} (hf : ∀ a, Alike (f a) (g a)) :
    Alike (x.bind f) (y.bind g) := by
  induction h with
  | ret a => exact hf a
  | unwind p => exact .unwind p
  | perform t hq _ ih => exact .perform t hq ih
  | extra _ ih => exact .extra ih
  | await _ ih => exact .await ih

/-- Programs that begin with the same change of the capture are alike if the rest is. -/
theorem Alike.enterCapture {x : Async σ ε α} {y : Async σ ε' α} (h : Alike x y) :
    Alike (.perform .enterCapture fun _ => x) (.perform .enterCapture fun _ => y) := by
  refine @Alike.perform σ ε ε' α .enterCapture .enterCapture (fun _ => ()) _ _ ?_ fun _ => h
  intro w w' hw
  exact ⟨rfl, hw.timeline, congrArg Capture.enter hw.capture, hw.source, hw.draws, hw.state⟩

theorem Alike.leaveCapture {x : Async σ ε α} {y : Async σ ε' α} (h : Alike x y) :
    Alike (.perform .leaveCapture fun _ => x) (.perform .leaveCapture fun _ => y) := by
  refine @Alike.perform σ ε ε' α .leaveCapture .leaveCapture (fun _ => ()) _ _ ?_ fun _ => h
  intro w w' hw
  exact ⟨rfl, hw.timeline, congrArg Capture.leave hw.capture, hw.source, hw.draws, hw.state⟩

theorem Alike.capturedRest {x : Async σ ε α} {y : Async σ ε' α} (h : Alike x y) :
    Alike x.capturedRest y.capturedRest := by
  induction h with
  | ret a => exact .leaveCapture (.ret _)
  | unwind p => exact .leaveCapture (.ret _)
  | perform t hq _ ih => exact .perform t hq ih
  | extra _ ih => exact .extra ih
  | await _ ih => exact .leaveCapture (.await fun r => .enterCapture (ih r))

theorem Alike.captured {x : Async σ ε α} {y : Async σ ε' α} (h : Alike x y) :
    Alike x.captured y.captured :=
  .enterCapture h.capturedRest

theorem alike_within (c : γ) (x : Async σ ε α) :
    Alike x (x.within c : Async σ (Watched ε γ ρ) α) := by
  induction x with
  | ret a => exact .ret a
  | unwind p => exact .unwind p
  | perform q next ih => exact .perform _ (q.alike_within c) fun a => ih _
  | await d limit next ih => exact .await ih

/-- A watched program does what it does unwatched. -/
theorem alike_watch (c : γ) (x : Async σ ε (ρ c)) :
    Alike x (watch c x : Async σ (Watched ε γ ρ) (ρ c)) := by
  have hx : Alike (x.bind .ret) (watch c x : Async σ (Watched ε γ ρ) (ρ c)) :=
    .extra ((alike_within c x).bind fun r => .extra (.ret r))
  rwa [bind_ret] at hx

end Congruence

section Requests

theorem alike_emit (e : Event ε) (e' : Event ε') :
    @Alike σ ε ε' Unit (request (.emit e)) (request (.emit e')) := by
  refine @Alike.perform σ ε ε' Unit (.emit e) (.emit e') id _ _ ?_ fun _ => .ret ()
  intro w w' hw
  exact ⟨rfl, hw.timeline, hw.capture, hw.source, hw.draws, hw.state⟩

theorem alike_errorOf (c : ContextId) :
    Alike (errorOf c : Async σ ε (Option ContextError)) (errorOf c : Async σ ε' _) := by
  refine @Alike.perform σ ε ε' _ (.error c) (.error c) id _ _ ?_ fun _ => .ret _
  intro w w' hw
  exact ⟨congrArg (Timeline.error · c) hw.timeline.symm, hw⟩

theorem alike_create (timeout : Option Duration) :
    Alike (create timeout : Async σ ε ContextId) (create timeout : Async σ ε' _) := by
  refine @Alike.perform σ ε ε' _ (.create timeout) (.create timeout) id _ _ ?_ fun _ => .ret _
  rintro ⟨tl, cp, src, dr, st, tr⟩ ⟨tl', cp', src', dr', st', tr'⟩ ⟨ht, hc, hs, hd, hst⟩
  cases ht
  exact ⟨rfl, rfl, hc, hs, hd, hst⟩

theorem alike_draw (bound : Nat) :
    @Alike σ ε ε' Nat (request (.draw bound)) (request (.draw bound)) := by
  refine @Alike.perform σ ε ε' _ (.draw bound) (.draw bound) id _ _ ?_ fun _ => .ret _
  rintro ⟨tl, cp, src, dr, st, tr⟩ ⟨tl', cp', src', dr', st', tr'⟩ ⟨ht, hc, hs, hd, hst⟩
  cases hs
  cases hd
  exact ⟨rfl, ht, hc, rfl, rfl, hst⟩

theorem alike_takeRecord :
    @Alike σ ε ε' (Option PanicSite) (request .takeRecord) (request .takeRecord) := by
  refine @Alike.perform σ ε ε' _ .takeRecord .takeRecord id _ _ ?_ fun _ => .ret _
  rintro ⟨tl, cp, src, dr, st, tr⟩ ⟨tl', cp', src', dr', st', tr'⟩ ⟨ht, hc, hs, hd, hst⟩
  cases hc
  exact ⟨rfl, ht, rfl, hs, hd, hst⟩

theorem alike_awaitEnd (c : ContextId) (limit : Option Duration) :
    Alike (awaitEnd c limit : Async σ ε (Option ContextError)) (awaitEnd c limit : Async σ ε' _) :=
  .await fun r => .ret r

end Requests

end Async

end Agreement

end TransactionAttempts
