import TransactionAttempts.Proofs.Retrying

/-!
# The rounds of a retried operation

A retried operation goes through rounds: it is called, it is answered with an outcome,
and a wait may follow.  Of four reasons to end a run the first two look at the outcome
and the third at the number of the round; they count at once, in this order.  The fourth
is the end of the context, which counts until the end of the wait.

**Signs.**  The calls are numbered and watched.  A run shows its calls, the answers with
the world in which they come, and the consultations of the delay method.

**At the limit.**  A deadline that falls on the end of a wait ends the run.  A
cancellation by somebody else at that very instant may or may not.

Main facts:

* `run_numbered`: the numbered run comes to the same outcome and the same world;
* `signs_course`: what a course shows;
* `run_rounds`: the rounds of every run, and its result.
-/

namespace TransactionAttempts

namespace RetryPolicy

variable {σ ε κ : Type}

section Numbering

/-- The events of a numbered run. -/
abbrev Numbered (ε : Type) := Watched ε Nat fun _ => Result

/-- The operation, whose calls are numbered from 1 and watched. -/
def numbered (f : κ → κ × Async σ ε Result) (s : Nat × κ) :
    (Nat × κ) × Async σ (Numbered ε) Result :=
  ((s.1 + 1, (f s.2).1),
    @Async.watch σ ε Nat (fun _ => Result) (s.1 + 1) (f s.2).2)

/-- The run of the numbered operation. -/
def runNumbered (p : RetryPolicy) (ctx : ContextId) (f : κ → κ × Async σ ε Result) (m : κ) :
    Async σ (Numbered ε) Result :=
  p.run ctx (numbered f) (0, m)

theorem alike_numbered (p : RetryPolicy) (ctx : ContextId) (f : κ → κ × Async σ ε Result)
    (m : κ) : Async.Alike (p.run ctx f m) (p.runNumbered ctx f m) := by
  refine alike_run (R := fun m s => s.2 = m) p ctx ?_ rfl
  rintro _ ⟨n, m⟩ rfl
  exact ⟨rfl, @Async.alike_watch σ ε Nat (fun _ => Result) (n + 1) (f m).2⟩

/-- The numbered run comes to the same outcome and the same world. -/
theorem run_numbered (p : RetryPolicy) (ctx : ContextId) (f : κ → κ × Async σ ε Result)
    (m : κ) (w : World σ ε) :
    ((p.run ctx f m).run w).1 = ((p.runNumbered ctx f m).run w.untraced).1 ∧
      ((p.run ctx f m).run w).2.Agree ((p.runNumbered ctx f m).run w.untraced).2 :=
  (p.alike_numbered ctx f m).run w.agree_untraced_right

end Numbering

section Signs

/-- The outcome of a call and the world in which it came. -/
structure Round (σ ε : Type) where
  outcome : Result
  finish : World σ (Numbered ε)

/-- What a run of the scheduler shows of itself. -/
inductive Sign (σ ε : Type) where
  | called (number : Nat)
  | answered (number : Nat) (round : Round σ ε)
  | consulted (attempt : UInt32) (base : Duration)

/-- What an event shows. -/
def sign? : World σ (Numbered ε) × Event (Numbered ε) → Option (Sign σ ε)
  | (_, .mark (.called k)) => some (.called k)
  | (w, .mark (.answered k r)) => some (.answered k ⟨r, w⟩)
  | (_, .consulted attempt base) => some (.consulted attempt base)
  | _ => none

/-- What a story shows. -/
def signs (l : Story σ (Numbered ε)) : List (Sign σ ε) := l.filterMap sign?

/-- The signs of the run of an operation. -/
def signsOf (p : RetryPolicy) (ctx : ContextId) (f : κ → κ × Async σ ε Result) (m : κ)
    (w : World σ ε) : List (Sign σ ε) :=
  signs ((p.runNumbered ctx f m).story w.untraced)

theorem signs_append (l l' : Story σ (Numbered ε)) : signs (l ++ l') = signs l ++ signs l' :=
  List.filterMap_append

/-- The signs of rounds from a given number on, each of which is followed by a wait. -/
def roundSigns (p : RetryPolicy) : Nat → List (Round σ ε) → List (Sign σ ε)
  | _, [] => []
  | k, r :: rest =>
      [.called k, .answered k r, .consulted (UInt32.ofNat k) p.delay] ++
        roundSigns p (k + 1) rest

theorem signs_watch {E : Surroundings σ (Numbered ε)} {f : κ → κ × Async σ ε Result} {n : Nat}
    {m : κ} {w v : World σ (Numbered ε)} {l : Story σ (Numbered ε)} {o : Outcome Result}
    (h : (numbered f (n, m)).2.Exec E w l o v) :
    (∃ r : Round σ ε, o = .returned r.outcome ∧
        v = r.finish.log (.mark (.answered (n + 1) r.outcome)) ∧
        signs l = [.called (n + 1), .answered (n + 1) r]) ∨
      (o.Unreturned ∧ signs l = [.called (n + 1)]) := by
  have hwithin : ∀ l' : Story σ (Numbered ε),
      (∀ y ∈ l', ∃ e, y.2 = .mark (.within (n + 1) e)) → signs l' = [] := by
    intro l' hl'
    refine List.filterMap_eq_nil_iff.2 fun y hy => ?_
    obtain ⟨e, he⟩ := hl' y hy
    obtain ⟨u, _⟩ := y
    cases he
    rfl
  have h' : (@Async.watch σ ε Nat (fun _ => Result) (n + 1) (f m).2).Exec E w l o v := h
  rcases Async.exec_watch h' with ⟨r, u, l', hx, rfl, rfl, rfl⟩ | ⟨l', hx, ho, rfl⟩
  · refine Or.inl ⟨⟨r, u⟩, rfl, rfl, ?_⟩
    rw [← List.singleton_append, signs_append, signs_append, hwithin l' (Async.exec_within hx)]
    rfl
  · refine Or.inr ⟨ho.left, ?_⟩
    rw [← List.singleton_append, signs_append, hwithin l' (Async.exec_within hx)]
    rfl

end Signs

section Ending

/-- The outcome of a call ends the run at once: it is a success, or final, or that of the
last call. -/
def Decided (p : RetryPolicy) (k : Nat) (outcome : Result) : Prop :=
  outcome = .ok () ∨ (∃ e, outcome = .error e ∧ e.isStop = true) ∨ k = p.maxAttempts.toNat

/-- When the wait after a round ends. -/
def waitEnd (p : RetryPolicy) (k : Nat) (r : Round σ ε) : Instant :=
  Instant.afterSleep r.finish.now (p.waitIn (UInt32.ofNat k) r.finish)

/-- The context will be done when the wait after a round ends. -/
def Overtaken (p : RetryPolicy) (ctx : ContextId) (k : Nat) (r : Round σ ε) : Prop :=
  r.finish.timeline.DoneBy ctx (p.waitEnd k r)

/-- Somebody cancels the context at the very instant at which the wait after a round ends. -/
def Tied (p : RetryPolicy) (ctx : ContextId) (k : Nat) (r : Round σ ε) : Prop :=
  r.finish.timeline.CancelledAt ctx (p.waitEnd k r)

/-- The run ends with a round. -/
def Ends (p : RetryPolicy) (ctx : ContextId) (k : Nat) (r : Round σ ε) : Prop :=
  p.Decided k r.outcome ∨ p.Overtaken ctx k r

/-- How a run ends after some rounds, numbered from `n` on, each of which was followed by
a wait and by another call.  The call may not come back; its outcome may decide the run;
or the context ends the wait. -/
inductive Concluded (p : RetryPolicy) (ctx : ContextId) (n : Nat) (before : List (Round σ ε)) :
    List (Sign σ ε) → Outcome Result → Timeline → Prop
  | unanswered {o : Outcome Result} {v : Timeline} :
      o.Unreturned →
      Concluded p ctx n before (roundSigns p n before ++ [.called (n + before.length)]) o v
  | decided (r : Round σ ε) {v : Timeline} :
      p.Decided (n + before.length) r.outcome →
      Concluded p ctx n before
        (roundSigns p n before ++
          [.called (n + before.length), .answered (n + before.length) r])
        (.returned r.outcome) v
  | overtaken (r : Round σ ε) {e : Failure} {c : ContextError} {v : Timeline} :
      r.outcome = .error e → ¬ p.Decided (n + before.length) r.outcome →
      p.Overtaken ctx (n + before.length) r ∨ p.Tied ctx (n + before.length) r →
      v.error ctx = some c →
      Concluded p ctx n before
        (roundSigns p n before ++
          [.called (n + before.length), .answered (n + before.length) r,
            .consulted (UInt32.ofNat (n + before.length)) p.delay])
        (.returned (.error (e.merge (some (.context c))))) v

/-- One more round in front. -/
theorem Concluded.cons {p : RetryPolicy} {ctx : ContextId} {n : Nat} {r : Round σ ε}
    {before : List (Round σ ε)} {l : List (Sign σ ε)} {o : Outcome Result} {v : Timeline}
    (h : Concluded p ctx (n + 1) before l o v) :
    Concluded p ctx n (r :: before)
      ([.called n, .answered n r, .consulted (UInt32.ofNat n) p.delay] ++ l) o v := by
  have hn : n + 1 + before.length = n + (r :: before).length := by
    rw [List.length_cons]
    omega
  have hsigns : ∀ l' : List (Sign σ ε),
      [.called n, .answered n r, .consulted (UInt32.ofNat n) p.delay] ++
        (roundSigns p (n + 1) before ++ l') = roundSigns p n (r :: before) ++ l' := fun _ => rfl
  cases h with
  | unanswered ho =>
      rw [hsigns, hn]
      exact .unanswered ho
  | decided r' hd =>
      rw [hn] at hd
      rw [hsigns, hn]
      exact .decided r' hd
  | overtaken r' he hd hover hc =>
      rw [hn] at hd hover
      rw [hsigns, hn]
      exact .overtaken r' he hd hover hc

/-- How a wait of the scheduler ends when only time passes. -/
theorem ends_wait {p : RetryPolicy} {ctx : ContextId} {k : Nat} {r : Round σ ε} {e : Failure}
    {a : Option ContextError} {u v : World σ (Numbered ε)}
    (hu : u = r.finish.log (.mark (.answered k r.outcome)))
    (h : Surroundings.clock.ends (some ctx) (some (p.waitIn (UInt32.ofNat k) u))
      (p.waiting (UInt32.ofNat k) e u) a v) :
    a = v.timeline.error ctx ∧ (p.Overtaken ctx k r → a ≠ none) ∧
      (a ≠ none → p.Overtaken ctx k r ∨ p.Tied ctx k r) := by
  subst hu
  obtain ⟨t, ht, rfl⟩ := h
  have hawait : r.finish.timeline.await (Timeline.limited ctx (p.waitEnd k r)) = some (a, t) := ht
  obtain ⟨a', t', ha, hat, _, hover, hdone, _⟩ :=
    @Timeline.await_limit r.finish.timeline ctx (p.waitEnd k r) (Nat.le_add_right _ _)
  cases hawait.symm.trans ha
  exact ⟨hat, hover, hdone⟩

/-- An error that does not decide the run. -/
theorem not_decided {p : RetryPolicy} {k : Nat} {e : Failure} (hs : e.isStop = false)
    (hk : k < p.maxAttempts.toNat) : ¬ p.Decided k (.error e) := by
  rintro (h | ⟨e', he, hs'⟩ | h)
  · cases h
  · cases he
    rw [hs] at hs'
    cases hs'
  · omega

/-- The rounds of a course. -/
theorem signs_course {p : RetryPolicy} {ctx : ContextId} {f : κ → κ × Async σ ε Result}
    {left : Nat} {k : UInt32} {s : Nat × κ} {w v : World σ (Numbered ε)}
    {l : Story σ (Numbered ε)} {o : Outcome Result}
    (h : Course .clock p ctx (numbered f) left k s w l o v) (hk : k = UInt32.ofNat (s.1 + 1))
    (hleft : left + (s.1 + 1) = p.maxAttempts.toNat) :
    ∃ before : List (Round σ ε),
      (∀ i r, before[i]? = some r → ¬ p.Ends ctx (s.1 + 1 + i) r) ∧
      Concluded p ctx (s.1 + 1) before (signs l) o v.timeline := by
  induction h with
  | lost h ho =>
      rcases signs_watch h with ⟨r, hr, _⟩ | ⟨_, hl⟩
      · exact absurd hr (ho.left _)
      · rw [hl]
        exact ⟨[], by simp, .unanswered ho.right⟩
  | succeeded h =>
      rcases signs_watch h with ⟨r, hr, _, hl⟩ | ⟨ho, _⟩
      · have hout : r.outcome = .ok () := by cases r; cases hr; rfl
        rw [hl, ← hout]
        exact ⟨[], by simp, .decided r (Or.inl hout)⟩
      · exact absurd rfl (ho _)
  | @stopped left k s w v l e h hs =>
      rcases signs_watch h with ⟨r, hr, _, hl⟩ | ⟨ho, _⟩
      · have hout : r.outcome = .error e := by cases r; cases hr; rfl
        rw [signs_append, hl, ← hout]
        exact ⟨[], by simp, .decided r (Or.inr (Or.inl ⟨e, hout, hs⟩))⟩
      · exact absurd rfl (ho _)
  | @exhausted k s w v l e h hs =>
      rcases signs_watch h with ⟨r, hr, _, hl⟩ | ⟨ho, _⟩
      · have hout : r.outcome = .error e := by cases r; cases hr; rfl
        have hmax : s.1 + 1 = p.maxAttempts.toNat := by omega
        rw [hl, ← hout]
        exact ⟨[], by simp, .decided r (Or.inr (Or.inr hmax))⟩
      · exact absurd rfl (ho _)
  | @interrupted left k s w u v l e c h hs he =>
      subst hk
      rcases signs_watch h with ⟨r, hr, hu, hl⟩ | ⟨ho, _⟩
      · have hout : r.outcome = .error e := by cases r; cases hr; rfl
        obtain ⟨hc, _, hdone⟩ := ends_wait hu he
        have hnot : ¬ p.Decided (s.1 + 1) r.outcome := hout ▸ not_decided hs (by omega)
        rw [signs_append, hl]
        exact ⟨[], by simp, .overtaken r hout hnot (hdone (by simp)) hc.symm⟩
      · exact absurd rfl (ho _)
  | hung h hs hlast => exact absurd hlast Surroundings.not_lasts_clock
  | @again left k s w u u' v l l' e o h hs he _ ih =>
      subst hk
      rcases signs_watch h with ⟨r, hr, hu, hl⟩ | ⟨ho, _⟩
      · have hout : r.outcome = .error e := by cases r; cases hr; rfl
        obtain ⟨hc, hover, _⟩ := ends_wait hu he
        have hnot : ¬ p.Ends ctx (s.1 + 1) r := by
          rintro (hd | ho)
          · rw [hout] at hd
            exact not_decided hs (by omega) hd
          · exact hover ho rfl
        obtain ⟨before, hbefore, hend⟩ := ih (UInt32.ofNat_add _ _).symm (by
          show left + (s.1 + 1 + 1) = _
          omega)
        refine ⟨r :: before, fun i r' hi => ?_, ?_⟩
        · cases i with
          | zero =>
              cases hi
              exact hnot
          | succ i =>
              have hi' := hbefore i r' hi
              have hnum : (numbered f s).1.1 + 1 + i = s.1 + 1 + (i + 1) := by
                show s.1 + 1 + 1 + i = _
                omega
              rwa [hnum] at hi'
        · rw [signs_append, signs_append, hl]
          exact hend.cons
      · exact absurd rfl (ho _)

end Ending

end RetryPolicy

end TransactionAttempts
