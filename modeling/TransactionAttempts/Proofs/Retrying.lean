import TransactionAttempts.Proofs.Watching
import TransactionAttempts.Retry

/-!
# The course of a retried operation

All that the retrying of an operation can come to, in any surroundings and for any
operation.

**Waits.**  After a failed call the method is consulted once, a random part is drawn
if there is a choice, the wait is reported, and it ends in whatever way the
surroundings allow.

**Courses.**  `Course` has one rule for each way in which a call and what follows it
can go: the call is lost, succeeds, fails for good, or fails as the last one; or the
wait after it is interrupted, never ends, or leads to the next call.

Main facts:

* `exec_waitAfter`: the wait after a failed call;
* `course_of_exec`, `exec_run`: the executions of the scheduler;
* `alike_run`: like operations are retried alike.
-/

namespace TransactionAttempts

namespace RetryPolicy

theorem toNat_maxAttempts (p : RetryPolicy) : p.maxAttempts.toNat = max 1 p.attempts.toNat := by
  have hmax : p.maxAttempts = if p.attempts ≤ 1 then 1 else p.attempts := rfl
  rw [hmax]
  split
  · rename_i h
    have hle : p.attempts.toNat ≤ 1 := UInt32.le_iff_toNat_le.1 h
    exact (Nat.max_eq_left hle).symm
  · rename_i h
    have hlt : ¬ p.attempts.toNat ≤ 1 := fun hle => h (UInt32.le_iff_toNat_le.2 hle)
    omega

theorem one_le_maxAttempts (p : RetryPolicy) : 1 ≤ p.maxAttempts.toNat :=
  p.toNat_maxAttempts ▸ Nat.le_max_left 1 _

/-- An attempt count of zero is raised to one once; after that nothing is left to raise. -/
theorem maxAttempts_normalized (p : RetryPolicy) : p.normalized.maxAttempts = p.maxAttempts := by
  have hnormal : p.normalized.attempts.toNat = max 1 p.attempts.toNat := p.toNat_maxAttempts
  refine UInt32.toNat_inj.1 ?_
  rw [toNat_maxAttempts, toNat_maxAttempts, hnormal]
  omega

variable {σ ε ε' κ κ' : Type} {E : Surroundings σ ε}

section Waits

/-- The wait that is computed in a world after a failed call. -/
def waitIn (p : RetryPolicy) (attempt : UInt32) (w : World σ ε) : Duration :=
  p.method.wait attempt p.delay (pick (p.method.spread p.delay) (w.source w.draws))

/-- The world after the wait has been computed. -/
def consulted (p : RetryPolicy) (attempt : UInt32) (w : World σ ε) : World σ ε :=
  { w.log (.consulted attempt p.delay) with
    draws := if p.method.spread p.delay = 0 then w.draws else w.draws + 1 }

/-- The world in which the wait begins. -/
def waiting (p : RetryPolicy) (attempt : UInt32) (e : Failure) (w : World σ ε) : World σ ε :=
  (p.consulted attempt w).log (.notice (.retrying attempt p.maxAttempts (p.waitIn attempt w) e))

/-- What is told of a wait. -/
def waitStory (p : RetryPolicy) (attempt : UInt32) (e : Failure) (w : World σ ε) : Story σ ε :=
  [(w, .consulted attempt p.delay),
    (p.consulted attempt w, .notice (.retrying attempt p.maxAttempts (p.waitIn attempt w) e))]

theorem exec_nextWait {p : RetryPolicy} {attempt : UInt32} {w v : World σ ε} {l : Story σ ε}
    {o : Outcome Duration} (h : (p.nextWait attempt : Async σ ε Duration).Exec E w l o v) :
    l = [(w, .consulted attempt p.delay)] ∧ o = .returned (p.waitIn attempt w) ∧
      v = p.consulted attempt w := by
  obtain ⟨l₁, rfl, h₁⟩ := Async.exec_request_bind h
  by_cases hs : p.method.spread p.delay = 0
  · simp only [hs, if_true] at h₁
    obtain ⟨rfl, rfl, rfl⟩ := Async.exec_ret h₁
    refine ⟨rfl, ?_, ?_⟩
    · simp [waitIn, hs, pick]
    · simp [consulted, hs, Op.apply, World.log]
  · simp only [hs, if_false] at h₁
    obtain ⟨l₂, rfl, h₂⟩ := Async.exec_request_bind h₁
    obtain ⟨rfl, rfl, rfl⟩ := Async.exec_ret h₂
    refine ⟨rfl, rfl, ?_⟩
    simp [consulted, hs, Op.apply, World.log]

theorem exec_waitAfter {p : RetryPolicy} {ctx : ContextId} {attempt : UInt32} {e : Failure}
    {w v : World σ ε} {l : Story σ ε} {o : Outcome (Option ContextError)}
    (h : (p.waitAfter ctx attempt e).Exec E w l o v) :
    l = p.waitStory attempt e w ∧
      ((∃ r, E.ends (some ctx) (some (p.waitIn attempt w)) (p.waiting attempt e w) r v ∧
          o = .returned r) ∨
        (E.lasts (some ctx) (some (p.waitIn attempt w)) (p.waiting attempt e w) ∧
          o = .stalled ∧ v = p.waiting attempt e w)) := by
  rcases Async.exec_bind h with ⟨d, u, l₁, l₂, hw, h₁, rfl⟩ | ⟨o', hw, ho⟩
  · obtain ⟨rfl, hd, rfl⟩ := exec_nextWait hw
    cases hd
    obtain ⟨l₃, rfl, h₂⟩ := Async.exec_request_bind h₁
    rcases Async.exec_await h₂ with ⟨r, u, he, hr⟩ | ⟨hl, rfl, rfl, rfl⟩
    · obtain ⟨rfl, rfl, rfl⟩ := Async.exec_ret hr
      exact ⟨rfl, Or.inl ⟨r, he, rfl⟩⟩
    · exact ⟨rfl, Or.inr ⟨hl, rfl, rfl⟩⟩
  · obtain ⟨_, rfl, _⟩ := exec_nextWait hw
    cases ho

end Waits

section Courses

/-- What the attempts from a given number on can come to, of which as many as given may
still follow when this one fails. -/
inductive Course (E : Surroundings σ ε) (p : RetryPolicy) (ctx : ContextId)
    (f : κ → κ × Async σ ε Result) :
    Nat → UInt32 → κ → World σ ε → Story σ ε → Outcome Result → World σ ε → Prop
  | lost {left : Nat} {k : UInt32} {m : κ} {w v : World σ ε} {l : Story σ ε}
      {o o' : Outcome Result} :
      (f m).2.Exec E w l o v → o.Broken o' → Course E p ctx f left k m w l o' v
  | succeeded {left : Nat} {k : UInt32} {m : κ} {w v : World σ ε} {l : Story σ ε} :
      (f m).2.Exec E w l (.returned (.ok ())) v →
      Course E p ctx f left k m w l (.returned (.ok ())) v
  | stopped {left : Nat} {k : UInt32} {m : κ} {w v : World σ ε} {l : Story σ ε} {e : Failure} :
      (f m).2.Exec E w l (.returned (.error e)) v → e.isStop = true →
      Course E p ctx f left k m w (l ++ [(v, .notice (.givingUp k e))]) (.returned (.error e))
        (v.log (.notice (.givingUp k e)))
  | exhausted {k : UInt32} {m : κ} {w v : World σ ε} {l : Story σ ε} {e : Failure} :
      (f m).2.Exec E w l (.returned (.error e)) v → e.isStop = false →
      Course E p ctx f 0 k m w l (.returned (.error e)) v
  | interrupted {left : Nat} {k : UInt32} {m : κ} {w u v : World σ ε} {l : Story σ ε}
      {e : Failure} {c : ContextError} :
      (f m).2.Exec E w l (.returned (.error e)) u → e.isStop = false →
      E.ends (some ctx) (some (p.waitIn k u)) (p.waiting k e u) (some c) v →
      Course E p ctx f (left + 1) k m w (l ++ p.waitStory k e u)
        (.returned (.error (e.merge (some (.context c))))) v
  | hung {left : Nat} {k : UInt32} {m : κ} {w u : World σ ε} {l : Story σ ε} {e : Failure} :
      (f m).2.Exec E w l (.returned (.error e)) u → e.isStop = false →
      E.lasts (some ctx) (some (p.waitIn k u)) (p.waiting k e u) →
      Course E p ctx f (left + 1) k m w (l ++ p.waitStory k e u) .stalled (p.waiting k e u)
  | again {left : Nat} {k : UInt32} {m : κ} {w u u' v : World σ ε} {l l' : Story σ ε}
      {e : Failure} {o : Outcome Result} :
      (f m).2.Exec E w l (.returned (.error e)) u → e.isStop = false →
      E.ends (some ctx) (some (p.waitIn k u)) (p.waiting k e u) none u' →
      Course E p ctx f left (k + 1) (f m).1 u' l' o v →
      Course E p ctx f (left + 1) k m w (l ++ (p.waitStory k e u ++ l')) o v

theorem exec_giveUp {k : UInt32} {e : Failure} {w v : World σ ε} {l : Story σ ε}
    {o : Outcome Result} (h : (giveUp k e).Exec E w l o v) :
    o = .returned (.error e) ∧
      (e.isStop = true ∧ l = [(w, .notice (.givingUp k e))] ∧ v = w.log (.notice (.givingUp k e)) ∨
        e.isStop = false ∧ l = [] ∧ v = w) := by
  unfold giveUp at h
  cases hs : e.isStop with
  | true =>
      simp only [hs, if_true] at h
      obtain ⟨l₁, rfl, h₁⟩ := Async.exec_request_bind h
      obtain ⟨rfl, rfl, rfl⟩ := Async.exec_ret h₁
      exact ⟨rfl, Or.inl ⟨rfl, rfl, rfl⟩⟩
  | false =>
      simp only [hs] at h
      obtain ⟨rfl, rfl, rfl⟩ := Async.exec_ret h
      exact ⟨rfl, Or.inr ⟨rfl, rfl, rfl⟩⟩

variable {p : RetryPolicy} {ctx : ContextId} {f : κ → κ × Async σ ε Result}

/-- Every execution of the attempts is a course. -/
theorem course_of_exec {left : Nat} {k : UInt32} {m : κ} {w v : World σ ε} {l : Story σ ε}
    {o : Outcome Result} (h : (p.attemptsFrom ctx f left k m).Exec E w l o v) :
    Course E p ctx f left k m w l o v := by
  induction left generalizing k m w l with
  | zero =>
      rcases Async.exec_bind h with ⟨r, u, l₁, l₂, hf, h₁, rfl⟩ | ⟨o', hf, ho⟩
      · cases r with
        | ok _ =>
            obtain ⟨rfl, rfl, rfl⟩ := Async.exec_ret h₁
            rw [List.append_nil]
            exact .succeeded hf
        | error e =>
            obtain ⟨rfl, ⟨hs, rfl, rfl⟩ | ⟨hs, rfl, rfl⟩⟩ := exec_giveUp h₁
            · exact .stopped hf hs
            · rw [List.append_nil]
              exact .exhausted hf hs
      · exact .lost hf ho
  | succ left ih =>
      rcases Async.exec_bind h with ⟨r, u, l₁, l₂, hf, h₁, rfl⟩ | ⟨o', hf, ho⟩
      · cases r with
        | ok _ =>
            obtain ⟨rfl, rfl, rfl⟩ := Async.exec_ret h₁
            rw [List.append_nil]
            exact .succeeded hf
        | error e =>
            cases hs : e.isStop with
            | true =>
                simp only [hs, if_true] at h₁
                obtain ⟨rfl, ⟨_, rfl, rfl⟩ | ⟨hs', _, _⟩⟩ := exec_giveUp h₁
                · exact .stopped hf hs
                · rw [hs] at hs'
                  cases hs'
            | false =>
                simp only [hs] at h₁
                rcases Async.exec_bind h₁ with ⟨r, u', l₃, l₄, hw, h₂, rfl⟩ | ⟨o', hw, ho⟩
                · obtain ⟨rfl, ⟨r', he, hr⟩ | ⟨_, hr, _⟩⟩ := exec_waitAfter hw
                  · cases hr
                    cases r with
                    | some c =>
                        obtain ⟨rfl, rfl, rfl⟩ := Async.exec_ret h₂
                        rw [List.append_nil]
                        exact .interrupted hf hs he
                    | none => exact .again hf hs he (ih h₂)
                  · cases hr
                · obtain ⟨rfl, ⟨r', _, hr⟩ | ⟨hl, hr, rfl⟩⟩ := exec_waitAfter hw
                  · cases hr
                    cases ho
                  · cases hr
                    cases ho
                    exact .hung hf hs hl
      · exact .lost hf ho

/-- A context that is done at the start prevents the first call. -/
theorem exec_run {m : κ} {w v : World σ ε} {l : Story σ ε} {o : Outcome Result}
    (h : (p.run ctx f m).Exec E w l o v) :
    (∃ c, w.timeline.error ctx = some c ∧ l = [] ∧ o = .returned (.error (.context c)) ∧ v = w) ∨
      (w.timeline.error ctx = none ∧
        Course E p ctx f (p.maxAttempts.toNat - 1) 1 m w l o v) := by
  rcases Async.exec_errorOf h with ⟨c, hc, h₁⟩ | ⟨hlive, h₁⟩
  · obtain ⟨rfl, rfl, rfl⟩ := Async.exec_ret h₁
    exact Or.inl ⟨c, hc, rfl, rfl, rfl⟩
  · exact Or.inr ⟨hlive, course_of_exec h₁⟩

/-- On a context that is done at the start nothing happens. -/
theorem run_prevented {m : κ} {w : World σ ε} {c : ContextError}
    (f : κ → κ × Async σ ε Result) (hc : w.timeline.error ctx = some c) :
    (p.run ctx f m).run w = (.returned (.error (.context c)), w) := by
  rcases exec_run (Async.exec_run (p.run ctx f m) w) with ⟨c', hc', _, ho, hv⟩ | ⟨hlive, _⟩
  · cases hc.symm.trans hc'
    exact Prod.ext ho hv
  · exact nomatch hc.symm.trans hlive

end Courses

section Agreement

open Async

theorem alike_nextWait (p : RetryPolicy) (k : UInt32) :
    Alike (p.nextWait k : Async σ ε Duration) (p.nextWait k : Async σ ε' Duration) := by
  refine Alike.bind (alike_emit (.consulted k p.delay) (.consulted k p.delay)) fun _ => ?_
  by_cases hs : p.method.spread p.delay = 0
  · simp only [hs, if_true]
    exact .ret _
  · simp only [hs, if_false]
    exact Alike.bind (alike_draw _) fun _ => .ret _

theorem alike_giveUp (k : UInt32) (e : Failure) :
    Alike (giveUp k e : Async σ ε Result) (giveUp k e : Async σ ε' Result) := by
  unfold giveUp
  cases e.isStop with
  | true =>
      exact Alike.bind (alike_emit (.notice (.givingUp k e)) (.notice (.givingUp k e)))
        fun _ => .ret _
  | false => exact .ret _

theorem alike_waitAfter (p : RetryPolicy) (ctx : ContextId) (k : UInt32) (e : Failure) :
    Alike (p.waitAfter ctx k e : Async σ ε _) (p.waitAfter ctx k e : Async σ ε' _) :=
  Alike.bind (alike_nextWait p k) fun d =>
    Alike.bind (alike_emit (.notice (.retrying k p.maxAttempts d e)) _) fun _ =>
      alike_awaitEnd ctx (some d)

variable {f : κ → κ × Async σ ε Result} {g : κ' → κ' × Async σ ε' Result} {R : κ → κ' → Prop}

theorem alike_attemptsFrom (p : RetryPolicy) (ctx : ContextId)
    (hfg : ∀ m m', R m m' → R (f m).1 (g m').1 ∧ Alike (f m).2 (g m').2) (left : Nat) :
    ∀ {k : UInt32} {m : κ} {m' : κ'}, R m m' →
      Alike (p.attemptsFrom ctx f left k m) (p.attemptsFrom ctx g left k m') := by
  induction left with
  | zero =>
      intro k m m' hm
      refine Alike.bind (hfg m m' hm).2 fun r => ?_
      cases r with
      | ok _ => exact .ret _
      | error e => exact alike_giveUp k e
  | succ left ih =>
      intro k m m' hm
      refine Alike.bind (hfg m m' hm).2 fun r => ?_
      cases r with
      | ok _ => exact .ret _
      | error e =>
          cases hs : e.isStop with
          | true =>
              simp only [hs, if_true]
              exact alike_giveUp k e
          | false =>
              simp only [hs]
              refine Alike.bind (alike_waitAfter p ctx k e) fun r => ?_
              cases r with
              | some c => exact .ret _
              | none => exact ih (hfg m m' hm).1

/-- Like operations are retried alike. -/
theorem alike_run (p : RetryPolicy) (ctx : ContextId)
    (hfg : ∀ m m', R m m' → R (f m).1 (g m').1 ∧ Alike (f m).2 (g m').2) {m : κ} {m' : κ'}
    (hm : R m m') : Alike (p.run ctx f m) (p.run ctx g m') := by
  refine Alike.bind (alike_errorOf ctx) fun r => ?_
  cases r with
  | some c => exact .ret _
  | none => exact alike_attemptsFrom p ctx hfg _ hm

end Agreement

end RetryPolicy

end TransactionAttempts
