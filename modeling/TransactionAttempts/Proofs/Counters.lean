import Mathlib.Algebra.Ring.Nat
import TransactionAttempts.Proofs.Explanations
import TransactionAttempts.Proofs.Records

/-!
# The counters of a run

A run counts its attempts twice.  The scheduler raises its counter behind the wait, at
the end of a turn of its loop; the operation of an executor raises its own one at the
beginning of a call.  Both are words of 32 bits, and nothing but the exit test between
them, which looks at the scheduler's counter, keeps that one from wrapping around.

**The loop.**  `loop` is the scheduler with this exit test in place of a number of
attempts left.  It ends because the distance of its counter from the limit shrinks, and
it is the same program.

**Heads.**  A head is the state in which the loop calls the operation.  `Turn` leads from
one head to the next, `Finish` is what the last call and what follows it can come to, and
`Loop` is a list of heads from the first call to the last one.

Main facts:

* `attemptsFrom_eq_loop`: the loop is the scheduler;
* `exec_loop_iff`: the executions of the loop are its lists of heads;
* `Counted.turn`: both counters are raised together, and neither wraps around;
* `counters_loop`: the counters at every head of a loop;
* `Executor.attempts_counted`: the counters at every call of a run.
-/

namespace TransactionAttempts

namespace RetryPolicy

variable {σ ε κ : Type} {E : Surroundings σ ε} {p : RetryPolicy} {ctx : ContextId}
  {f : κ → κ × Async σ ε Result}

section Raising

/-- A word below another one can be raised by one. -/
theorem toNat_raised {k limit : UInt32} (h : k < limit) : (k + 1).toNat = k.toNat + 1 := by
  have hlt : k.toNat < limit.toNat := UInt32.lt_iff_toNat_lt.1 h
  have hmax : limit.toNat < 2 ^ 32 := limit.toNat_lt
  rw [UInt32.toNat_add, UInt32.toNat_one]
  exact Nat.mod_eq_of_lt (by omega)

/-- What the exit test lets pass comes closer to the limit. -/
theorem raised_closer {k limit : UInt32} (h : k < limit) :
    limit.toNat - (k + 1).toNat < limit.toNat - k.toNat := by
  have hlt : k.toNat < limit.toNat := UInt32.lt_iff_toNat_lt.1 h
  rw [toNat_raised h]
  omega

end Raising

section Programs

/-- The attempts from a given number on, with the exit test on that number. -/
def loop (p : RetryPolicy) (ctx : ContextId) (f : κ → κ × Async σ ε Result) (attempt : UInt32)
    (memory : κ) : Async σ ε Result := do
  match ← (f memory).2 with
  | .ok () => return .ok ()
  | .error e =>
      if e.isStop then giveUp attempt e
      else if _h : p.maxAttempts ≤ attempt then return .error e
      else
        match ← p.waitAfter ctx attempt e with
        | some cause => return .error (e.merge (some (.context cause)))
        | none => p.loop ctx f (attempt + 1) (f memory).1
termination_by p.maxAttempts.toNat - attempt.toNat
decreasing_by exact raised_closer (UInt32.not_le.1 ‹_›)

/-- The loop is the scheduler: as many attempts are left as the counter is away from its
limit. -/
theorem attemptsFrom_eq_loop (p : RetryPolicy) (ctx : ContextId)
    (f : κ → κ × Async σ ε Result) (left : Nat) (k : UInt32) (m : κ)
    (hleft : left = p.maxAttempts.toNat - k.toNat) :
    p.attemptsFrom ctx f left k m = p.loop ctx f k m := by
  induction left generalizing k m with
  | zero =>
      have hlast : p.maxAttempts ≤ k := UInt32.le_iff_toNat_le.2 (by omega)
      rw [loop, attemptsFrom]
      refine congrArg (Async.bind (f m).2) (funext fun r => ?_)
      cases r with
      | ok _ => rfl
      | error e =>
          cases hs : e.isStop with
          | true => simp only [hs, if_true]
          | false => simp [giveUp, hs, hlast]
  | succ left ih =>
      have hlt : k < p.maxAttempts := UInt32.lt_iff_toNat_lt.2 (by omega)
      have hmore : ¬ p.maxAttempts ≤ k := UInt32.not_le.2 hlt
      have hnext : left = p.maxAttempts.toNat - (k + 1).toNat := by
        rw [toNat_raised hlt]
        omega
      rw [loop, attemptsFrom]
      refine congrArg (Async.bind (f m).2) (funext fun r => ?_)
      cases r with
      | ok _ => rfl
      | error e =>
          simp only [hmore, dite_false]
          exact congrArg (fun rest => if e.isStop then giveUp k e
            else (p.waitAfter ctx k e).bind fun
              | some cause => .ret (.error (e.merge (some (.context cause))))
              | none => rest) (ih _ _ hnext)

/-- A run looks at the context, and enters the loop with its counter at one. -/
theorem run_eq_loop (p : RetryPolicy) (ctx : ContextId) (f : κ → κ × Async σ ε Result) (m : κ) :
    p.run ctx f m = (Async.errorOf ctx).bind fun
      | some cause => .ret (.error (.context cause))
      | none => p.loop ctx f 1 m := by
  refine congrArg (Async.bind (Async.errorOf ctx)) (funext fun r => ?_)
  cases r with
  | some cause => rfl
  | none => exact attemptsFrom_eq_loop p ctx f _ 1 m rfl

end Programs

section Heads

/-- The scheduler when it calls the operation. -/
structure Head (σ ε κ : Type) where
  attempt : UInt32
  memory : κ
  world : World σ ε

/-- The call at a head fails, the exit test lets the loop go on, and the wait comes to its
end. -/
inductive Turn (E : Surroundings σ ε) (p : RetryPolicy) (ctx : ContextId)
    (f : κ → κ × Async σ ε Result) : Head σ ε κ → Story σ ε → Head σ ε κ → Prop
  | again {k : UInt32} {m : κ} {w u v : World σ ε} {l : Story σ ε} {e : Failure} :
      (f m).2.Exec E w l (.returned (.error e)) u → e.isStop = false → k < p.maxAttempts →
      E.ends (some ctx) (some (p.waitIn k u)) (p.waiting k e u) none v →
      Turn E p ctx f ⟨k, m, w⟩ (l ++ p.waitStory k e u) ⟨k + 1, (f m).1, v⟩

/-- The call at a head is the last one. -/
inductive Finish (E : Surroundings σ ε) (p : RetryPolicy) (ctx : ContextId)
    (f : κ → κ × Async σ ε Result) :
    Head σ ε κ → Story σ ε → Outcome Result → World σ ε → Prop
  | lost {k : UInt32} {m : κ} {w v : World σ ε} {l : Story σ ε} {o o' : Outcome Result} :
      (f m).2.Exec E w l o v → o.Broken o' → Finish E p ctx f ⟨k, m, w⟩ l o' v
  | succeeded {k : UInt32} {m : κ} {w v : World σ ε} {l : Story σ ε} :
      (f m).2.Exec E w l (.returned (.ok ())) v →
      Finish E p ctx f ⟨k, m, w⟩ l (.returned (.ok ())) v
  | stopped {k : UInt32} {m : κ} {w v : World σ ε} {l : Story σ ε} {e : Failure} :
      (f m).2.Exec E w l (.returned (.error e)) v → e.isStop = true →
      Finish E p ctx f ⟨k, m, w⟩ (l ++ [(v, .notice (.givingUp k e))]) (.returned (.error e))
        (v.log (.notice (.givingUp k e)))
  | exhausted {k : UInt32} {m : κ} {w v : World σ ε} {l : Story σ ε} {e : Failure} :
      (f m).2.Exec E w l (.returned (.error e)) v → e.isStop = false → p.maxAttempts ≤ k →
      Finish E p ctx f ⟨k, m, w⟩ l (.returned (.error e)) v
  | interrupted {k : UInt32} {m : κ} {w u v : World σ ε} {l : Story σ ε} {e : Failure}
      {c : ContextError} :
      (f m).2.Exec E w l (.returned (.error e)) u → e.isStop = false → k < p.maxAttempts →
      E.ends (some ctx) (some (p.waitIn k u)) (p.waiting k e u) (some c) v →
      Finish E p ctx f ⟨k, m, w⟩ (l ++ p.waitStory k e u)
        (.returned (.error (e.merge (some (.context c))))) v
  | hung {k : UInt32} {m : κ} {w u : World σ ε} {l : Story σ ε} {e : Failure} :
      (f m).2.Exec E w l (.returned (.error e)) u → e.isStop = false → k < p.maxAttempts →
      E.lasts (some ctx) (some (p.waitIn k u)) (p.waiting k e u) →
      Finish E p ctx f ⟨k, m, w⟩ (l ++ p.waitStory k e u) .stalled (p.waiting k e u)

/-- The heads of the loop, from a given one to that of the last call. -/
inductive Loop (E : Surroundings σ ε) (p : RetryPolicy) (ctx : ContextId)
    (f : κ → κ × Async σ ε Result) :
    List (Head σ ε κ) → Story σ ε → Outcome Result → World σ ε → Prop
  | finish {h : Head σ ε κ} {l : Story σ ε} {o : Outcome Result} {v : World σ ε} :
      Finish E p ctx f h l o v → Loop E p ctx f [h] l o v
  | turn {h h' : Head σ ε κ} {hs : List (Head σ ε κ)} {l l' : Story σ ε} {o : Outcome Result}
      {v : World σ ε} :
      Turn E p ctx f h l h' → Loop E p ctx f (h' :: hs) l' o v →
      Loop E p ctx f (h :: h' :: hs) (l ++ l') o v

/-- A course goes through the heads of a loop. -/
theorem loop_of_course {left : Nat} {k : UInt32} {m : κ} {w v : World σ ε} {l : Story σ ε}
    {o : Outcome Result} (h : Course E p ctx f left k m w l o v)
    (hleft : left = p.maxAttempts.toNat - k.toNat) :
    ∃ hs, Loop E p ctx f (⟨k, m, w⟩ :: hs) l o v := by
  have hmore : ∀ {left : Nat} {k : UInt32}, left + 1 = p.maxAttempts.toNat - k.toNat →
      k < p.maxAttempts := fun _ => UInt32.lt_iff_toNat_lt.2 (by omega)
  induction h with
  | lost h ho => exact ⟨[], .finish (.lost h ho)⟩
  | succeeded h => exact ⟨[], .finish (.succeeded h)⟩
  | stopped h hs => exact ⟨[], .finish (.stopped h hs)⟩
  | exhausted h hs => exact ⟨[], .finish (.exhausted h hs (UInt32.le_iff_toNat_le.2 (by omega)))⟩
  | interrupted h hs he => exact ⟨[], .finish (.interrupted h hs (hmore hleft) he)⟩
  | hung h hs hl => exact ⟨[], .finish (.hung h hs (hmore hleft) hl)⟩
  | again h hs he _ ih =>
      obtain ⟨rest, hloop⟩ := ih (by
        rw [toNat_raised (hmore hleft)]
        omega)
      rw [← List.append_assoc]
      exact ⟨_, .turn (.again h hs (hmore hleft) he) hloop⟩

end Heads

section Executions

theorem nextWait_exec (k : UInt32) (w : World σ ε) :
    (p.nextWait k : Async σ ε Duration).Exec E w [(w, .consulted k p.delay)]
      (.returned (p.waitIn k w)) (p.consulted k w) := by
  refine .perform (l := []) ?_
  by_cases hs : p.method.spread p.delay = 0
  · simp only [hs, if_true]
    have hwait : p.waitIn k w = p.method.wait k p.delay 0 := by simp [waitIn, hs, pick]
    have hworld : p.consulted k w = w.log (.consulted k p.delay) := by
      simp [consulted, hs, World.log]
    rw [hwait, hworld]
    exact .ret _ _
  · simp only [hs, if_false]
    have hworld : p.consulted k w = { w.log (.consulted k p.delay) with draws := w.draws + 1 } := by
      simp [consulted, hs]
    rw [hworld]
    exact .perform (.ret _ _)

/-- The wait is computed and reported before it begins. -/
theorem waitAfter_exec {k : UInt32} {e : Failure} {w v : World σ ε}
    {o : Outcome (Option ContextError)}
    (h : (Async.awaitEnd ctx (some (p.waitIn k w))).Exec E (p.waiting k e w) [] o v) :
    (p.waitAfter ctx k e).Exec E w (p.waitStory k e w) o v :=
  (nextWait_exec k w).bind (.perform h)

theorem exec_of_finish {h : Head σ ε κ} {l : Story σ ε} {o : Outcome Result} {v : World σ ε}
    (hf : Finish E p ctx f h l o v) : (p.loop ctx f h.attempt h.memory).Exec E h.world l o v := by
  cases hf with
  | lost h ho =>
      rw [loop]
      exact h.bind_broken _ ho
  | succeeded h =>
      rw [loop, ← List.append_nil l]
      exact h.bind (.ret _ _)
  | stopped h hs =>
      rw [loop]
      refine h.bind ?_
      simp only [hs, if_true, giveUp]
      exact .perform (.ret _ _)
  | exhausted h hs hk =>
      rw [loop, ← List.append_nil l]
      refine h.bind ?_
      simp only [hs, hk, dite_true]
      exact .ret _ _
  | interrupted h hs hk he =>
      rw [loop]
      refine h.bind ?_
      simp only [hs, UInt32.not_le.2 hk, dite_false]
      rw [← List.append_nil (waitStory _ _ _ _)]
      exact (waitAfter_exec (.await he (.ret _ _))).bind (.ret _ _)
  | hung h hs hk hl =>
      rw [loop]
      refine h.bind ?_
      simp only [hs, UInt32.not_le.2 hk, dite_false]
      exact (waitAfter_exec (.stall hl)).bind_broken _ .stalled

/-- A turn comes before every execution of the loop from the next head on. -/
theorem exec_of_turn {h h' : Head σ ε κ} {l l' : Story σ ε} {o : Outcome Result}
    {v : World σ ε} (ht : Turn E p ctx f h l h')
    (hnext : (p.loop ctx f h'.attempt h'.memory).Exec E h'.world l' o v) :
    (p.loop ctx f h.attempt h.memory).Exec E h.world (l ++ l') o v := by
  cases ht with
  | again h hs hk he =>
      rw [loop, List.append_assoc]
      refine h.bind ?_
      simp only [hs, UInt32.not_le.2 hk, dite_false]
      exact (waitAfter_exec (.await he (.ret _ _))).bind hnext

theorem exec_of_loop {h : Head σ ε κ} {hs : List (Head σ ε κ)} {l : Story σ ε}
    {o : Outcome Result} {v : World σ ε} (hl : Loop E p ctx f (h :: hs) l o v) :
    (p.loop ctx f h.attempt h.memory).Exec E h.world l o v := by
  induction hs generalizing h l with
  | nil =>
      cases hl with
      | finish hf => exact exec_of_finish hf
  | cons h' hs ih =>
      cases hl with
      | turn ht hl => exact exec_of_turn ht (ih hl)

/-- The executions of the loop are its lists of heads. -/
theorem exec_loop_iff {h : Head σ ε κ} {l : Story σ ε} {o : Outcome Result} {v : World σ ε} :
    (p.loop ctx f h.attempt h.memory).Exec E h.world l o v ↔
      ∃ hs, Loop E p ctx f (h :: hs) l o v := by
  constructor
  · intro he
    rw [← attemptsFrom_eq_loop p ctx f _ _ _ rfl] at he
    exact loop_of_course (course_of_exec he) rfl
  · rintro ⟨hs, hl⟩
    exact exec_of_loop hl

/-- Each head of a loop is a turn away from the one before. -/
theorem Loop.chain {hs : List (Head σ ε κ)} {l : Story σ ε} {o : Outcome Result} {v : World σ ε}
    (h : Loop E p ctx f hs l o v) :
    hs.IsChain fun h h' => ∃ l, Turn E p ctx f h l h' := by
  induction h with
  | finish _ => exact .singleton _
  | turn ht _ ih => exact .cons_cons ⟨_, ht⟩ ih

end Executions

section Counting

variable {f : UInt32 → UInt32 × Async σ ε Result}

/-- A head is that of call number `n`, to which the operation is about to raise its own
counter. -/
structure Counted (p : RetryPolicy) (n : Nat) (h : Head σ ε UInt32) : Prop where
  scheduler : h.attempt.toNat = n
  operation : h.memory.toNat + 1 = n
  limited : n ≤ p.maxAttempts.toNat

theorem Counted.first (p : RetryPolicy) (w : World σ ε) :
    Counted p 1 (⟨1, 0, w⟩ : Head σ ε UInt32) :=
  ⟨rfl, rfl, p.one_le_maxAttempts⟩

/-- The operation's own counter during the call. -/
theorem Counted.raised {n : Nat} {h : Head σ ε UInt32} (hn : Counted p n h) :
    (h.memory + 1).toNat = n := by
  have hlimit := hn.limited
  have hbelow : h.memory < p.maxAttempts := by
    refine UInt32.lt_iff_toNat_lt.2 ?_
    have := hn.operation
    omega
  rw [toNat_raised hbelow, hn.operation]

/-- Both counters are raised together by a turn.  The exit test comes before the scheduler's
one is raised, so that it stays within the limit. -/
theorem Counted.turn (hf : ∀ m, (f m).1 = m + 1) {n : Nat} {h h' : Head σ ε UInt32}
    {l : Story σ ε} (hn : Counted p n h) (ht : Turn E p ctx f h l h') :
    h'.attempt = h.attempt + 1 ∧ h.attempt < p.maxAttempts ∧ Counted p (n + 1) h' := by
  have hraised := hn.raised
  have hattempt := hn.scheduler
  cases ht with
  | again _ _ hk _ =>
      have hlt := UInt32.lt_iff_toNat_lt.1 hk
      refine ⟨rfl, hk, ?_, ?_, hattempt ▸ hlt⟩
      · rw [toNat_raised hk, hattempt]
      · rw [hf, hraised]

/-- What the counters of a run with at most `limit` calls say at its heads. -/
structure Counters (limit : Nat) (hs : List (Head σ ε UInt32)) : Prop where
  /-- Both counters are the number of the call. -/
  counted : ∀ i h, hs[i]? = some h → h.attempt.toNat = i + 1 ∧ (h.memory + 1).toNat = i + 1
  /-- Both lie between one and the limit. -/
  bounded : ∀ h ∈ hs, 1 ≤ h.attempt.toNat ∧ h.attempt.toNat ≤ limit ∧
    1 ≤ (h.memory + 1).toNat ∧ (h.memory + 1).toNat ≤ limit
  /-- There are no more calls than the limit allows. -/
  calls : hs.length ≤ limit
  /-- The operation's own counter does not wrap around. -/
  operation : ∀ h ∈ hs, h.memory.toNat + 1 < 2 ^ 32
  /-- A turn raises both counters, that of the scheduler does not wrap around, and its
  distance from the limit shrinks. -/
  turns : ∀ i h h', hs[i]? = some h → hs[i + 1]? = some h' →
    h'.attempt = h.attempt + 1 ∧ h'.memory = h.memory + 1 ∧ h.attempt.toNat + 1 < 2 ^ 32 ∧
      limit - h'.attempt.toNat < limit - h.attempt.toNat

theorem counted_chain (hf : ∀ m, (f m).1 = m + 1) {hs : List (Head σ ε UInt32)} {n : Nat}
    {h : Head σ ε UInt32} (hn : Counted p n h)
    (hchain : (h :: hs).IsChain fun h h' => ∃ l, Turn E p ctx f h l h') (i : Nat)
    {h' : Head σ ε UInt32} (hi : (h :: hs)[i]? = some h') : Counted p (n + i) h' := by
  induction i generalizing n h hs with
  | zero =>
      cases hi
      exact hn
  | succ i ih =>
      cases hs with
      | nil => cases hi
      | cons h₁ hs =>
          obtain ⟨⟨l, ht⟩, hrest⟩ := List.isChain_cons_cons.1 hchain
          have hcounted := ih (hn.turn hf ht).2.2 hrest hi
          rwa [Nat.add_assoc, Nat.add_comm 1] at hcounted

/-- The counters at the heads of any number of turns, beginning with the first call. -/
theorem counters_chain (hf : ∀ m, (f m).1 = m + 1) {hs : List (Head σ ε UInt32)}
    {w : World σ ε}
    (hchain : (⟨1, 0, w⟩ :: hs).IsChain fun h h' => ∃ l, Turn E p ctx f h l h') :
    Counters (max 1 p.attempts.toNat) (⟨1, 0, w⟩ :: hs) := by
  have hmax : p.maxAttempts.toNat < 2 ^ 32 := p.maxAttempts.toNat_lt
  have hcounted : ∀ i h, (⟨1, 0, w⟩ :: hs)[i]? = some h → Counted p (1 + i) h :=
    fun i _ => counted_chain hf (Counted.first p w) hchain i
  rw [← p.toNat_maxAttempts]
  refine ⟨fun i h hi => ?_, fun h hmem => ?_, ?_, fun h hmem => ?_, fun i h h' hi hi' => ?_⟩
  · have hattempt := (hcounted i h hi).scheduler
    have hraised := (hcounted i h hi).raised
    omega
  · obtain ⟨i, hi⟩ := List.getElem?_of_mem hmem
    obtain ⟨hattempt, _, hlimit⟩ := hcounted i h hi
    have hraised := (hcounted i h hi).raised
    omega
  · have hlast : hs.length < (⟨1, 0, w⟩ :: hs).length := Nat.lt_succ_self _
    have hlimit := (hcounted hs.length _ (List.getElem?_eq_getElem hlast)).limited
    rw [List.length_cons]
    omega
  · obtain ⟨i, hi⟩ := List.getElem?_of_mem hmem
    obtain ⟨_, hoperation, hlimit⟩ := hcounted i h hi
    omega
  · obtain ⟨hlt, rfl⟩ := List.getElem?_eq_some_iff.1 hi
    obtain ⟨hlt', rfl⟩ := List.getElem?_eq_some_iff.1 hi'
    obtain ⟨l, ht⟩ := List.isChain_iff_getElem.1 hchain i hlt'
    obtain ⟨hnext, hbelow, hcounted'⟩ := (hcounted i _ hi).turn hf ht
    have hmemory : ((⟨1, 0, w⟩ :: hs)[i + 1].memory).toNat =
        ((⟨1, 0, w⟩ :: hs)[i].memory + 1).toNat := by
      have hraised := (hcounted i _ hi).raised
      have hoperation := hcounted'.operation
      omega
    have hbound := UInt32.lt_iff_toNat_lt.1 hbelow
    refine ⟨hnext, UInt32.toNat_inj.1 hmemory, by omega, ?_⟩
    rw [hnext]
    exact raised_closer hbelow

end Counting

end RetryPolicy

namespace Executor

open RetryPolicy

variable {σ ε τ : Type}

/-- **The counters of every run.**  At each call both counters are the number of calls so
far, this one included, and they lie between one and the limit, which is the number of
attempts in the settings or one if that is zero.  Neither of them ever wraps around, there
are no more calls than the limit, and each turn of the loop brings the scheduler's counter
closer to it.  This holds for any number of turns, whether or not the run comes to an end,
and a run that does end has gone through such turns, unless its context was done at the
start. -/
theorem attempts_counted {x : Executor σ ε τ} {pool : Pool σ ε τ} (hpool : x.pool = some pool)
    (ctx : ContextId) (steps : List (Step σ ε τ)) (E : Surroundings σ ε) (w : World σ ε) :
    (∀ config, new (some pool) config = .ok x →
      max 1 x.retry.attempts.toNat = max 1 config.retry.attempts.toNat) ∧
    (∀ hs, ((⟨1, 0, w⟩ :: hs).IsChain fun h h' =>
        ∃ l, Turn E x.retry ctx (nextAttempt pool ctx x.gracePeriod steps) h l h') →
      Counters (max 1 x.retry.attempts.toNat) (⟨1, 0, w⟩ :: hs)) ∧
    ∀ l o v, (x.run ctx steps).Exec E w l o v →
      (∃ c, w.timeline.error ctx = some c ∧ l = [] ∧ o = .returned (.error (.context c)) ∧
        v = w) ∨
      (w.timeline.error ctx = none ∧ ∃ hs,
        Loop E x.retry ctx (nextAttempt pool ctx x.gracePeriod steps) (⟨1, 0, w⟩ :: hs) l o v ∧
        Counters (max 1 x.retry.attempts.toNat) (⟨1, 0, w⟩ :: hs) ∧
        ∀ h ∈ (⟨1, 0, w⟩ :: hs), (nextAttempt pool ctx x.gracePeriod steps h.memory).2 =
          pool.attempt ctx x.gracePeriod steps h.attempt) := by
  have hcounting : ∀ m, (nextAttempt pool ctx x.gracePeriod steps m).1 = m + 1 := fun _ => rfl
  obtain ⟨_, retry, grace⟩ := x
  cases hpool
  refine ⟨fun config hnew => ?_, fun hs hchain => counters_chain hcounting hchain, ?_⟩
  · cases hnew
    rw [← RetryPolicy.toNat_maxAttempts, ← RetryPolicy.toNat_maxAttempts,
      RetryPolicy.maxAttempts_normalized]
  · intro l o v h
    replace h : (retry.run ctx (nextAttempt pool ctx grace steps) 0).Exec E w l o v := h
    rw [run_eq_loop] at h
    rcases Async.exec_errorOf h with ⟨c, hc, hprevented⟩ | ⟨hlive, hexec⟩
    · exact Or.inl ⟨c, hc, Async.exec_ret hprevented⟩
    · obtain ⟨hs, hloop⟩ := (exec_loop_iff (h := ⟨1, 0, w⟩)).1 hexec
      have hcounters := counters_chain hcounting hloop.chain
      refine Or.inr ⟨hlive, hs, hloop, hcounters, fun h hmem => ?_⟩
      obtain ⟨i, hi⟩ := List.getElem?_of_mem hmem
      obtain ⟨hattempt, hraised⟩ := hcounters.counted i h hi
      have hsame : h.memory + 1 = h.attempt := UInt32.toNat_inj.1 (hraised.trans hattempt.symm)
      exact congrArg (pool.attempt ctx grace steps) hsame

/-- All three attempts of an executor that never begins a transaction are counted. -/
theorem attempts_counted_waiting :
    (∃ v v', Counters 3 [⟨1, 0, World.calm⟩, ⟨2, 1, v⟩, ⟨3, 2, v'⟩]) ∧
      ∃ l v hs, Loop .clock waiting.retry 0 (nextAttempt Pool.unreachable 0 .zero [])
        (⟨1, 0, World.calm⟩ :: hs) l
        (.returned (.error (.beginFailed (.database .poolTimedOut)))) v ∧
        Counters 3 (⟨1, 0, World.calm⟩ :: hs) := by
  obtain ⟨-, hchain, hruns⟩ := attempts_counted (x := waiting) rfl 0 [] .clock World.calm
  have hcall : ∀ m w, (nextAttempt Pool.unreachable 0 .zero [] m).2.Exec .clock w _ _ _ :=
    fun _ _ => Async.exec_run _ _
  constructor
  · exact ⟨_, _, hchain [_, _] (.cons_cons ⟨_, .again (hcall 0 _) rfl (by decide) ⟨_, rfl, rfl⟩⟩
      (.cons_cons ⟨_, .again (hcall 1 _) rfl (by decide) ⟨_, rfl, rfl⟩⟩ (.singleton _)))⟩
  · rcases hruns _ _ _ (Async.exec_run _ _) with ⟨c, hc, _⟩ | ⟨_, hs, hloop, hcounters, _⟩
    · cases hc
    · exact ⟨_, _, hs, hloop, hcounters⟩

end Executor

end TransactionAttempts
