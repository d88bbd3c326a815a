import TransactionAttempts.Executor

/-!
# What runs inherit

The run of an executor is put together from the programs of its pool, from its steps behind
their guard, and from what the library itself says, asks and waits for.  A property of programs
that holds of these parts, and of a sequence whenever it holds of its parts, holds of the run.

* `Op.Ordinary`: the operations of the library outside the guard of the steps;
* `Async.Heritable`: the properties in question;
* `Pool.Each`: the property holds of all programs of a pool.

Main fact: `Executor.inherits`.
-/

namespace TransactionAttempts

variable {σ ε τ κ : Type}

/-- What the library does outside the guard of the steps: it says something other than that a
step has panicked, or asks something. -/
inductive Op.Ordinary : Op σ ε → Prop
  | notice {n : Notice} : (∀ k i e, n ≠ .stepPanicked k i e) → Ordinary (.emit (.notice n))
  | consulted (attempt : UInt32) (base : Duration) : Ordinary (.emit (.consulted attempt base))
  | error (c : ContextId) : Ordinary (.error c)
  | create (timeout : Option Duration) : Ordinary (.create timeout)
  | draw (bound : Nat) : Ordinary (.draw bound)

/-- A property of programs that sequences inherit from their parts, and that holds of what the
library does by itself. -/
structure Async.Heritable (P : (α : Type) → Async σ ε α → Prop) : Prop where
  ret : ∀ {α : Type} (a : α), P α (.ret a)
  bind : ∀ {α β : Type} {x : Async σ ε α} {f : α → Async σ ε β},
    P α x → (∀ a, P β (f a)) → P β (x.bind f)
  request : ∀ {o : Op σ ε}, o.Ordinary → P o.Answer (Async.request o)
  wait : ∀ (c : ContextId) (limit : Option Duration), P _ (Async.awaitEnd c limit)

/-- The property holds of all programs of the pool. -/
structure Pool.Each (P : (α : Type) → Async σ ε α → Prop) (pool : Pool σ ε τ) : Prop where
  begin : ∀ ctx, P _ (pool.begin ctx)
  commit : ∀ tx ctx, P _ (pool.commit tx ctx)
  rollback : ∀ tx ctx, P _ (pool.rollback tx ctx)

namespace Async.Heritable

variable {P : (α : Type) → Async σ ε α → Prop}

section Retrying

variable {ctx : ContextId} {f : κ → κ × Async σ ε Result}

theorem note (hP : Heritable P) {n : Notice} (hn : ∀ k i e, n ≠ .stepPanicked k i e) :
    P Unit (Async.note n) :=
  hP.request (.notice hn)

theorem nextWait (hP : Heritable P) (p : RetryPolicy) (k : UInt32) : P _ (p.nextWait k) := by
  refine hP.bind (hP.request (.consulted k p.delay)) fun _ => ?_
  by_cases hs : p.method.spread p.delay = 0
  · simp only [hs, if_true]
    exact hP.ret _
  · simp only [hs, if_false]
    exact hP.bind (hP.request (.draw _)) fun _ => hP.ret _

theorem giveUp (hP : Heritable P) (k : UInt32) (e : Failure) :
    P _ (RetryPolicy.giveUp k e) := by
  unfold RetryPolicy.giveUp
  cases e.isStop with
  | true => exact hP.bind (hP.note (by nofun)) fun _ => hP.ret _
  | false => exact hP.ret _

theorem waitAfter (hP : Heritable P) (p : RetryPolicy) (ctx : ContextId) (k : UInt32)
    (e : Failure) : P _ (p.waitAfter ctx k e) :=
  hP.bind (hP.nextWait p k) fun _ => hP.bind (hP.note (by nofun)) fun _ => hP.wait ctx _

/-- The attempts inherit what holds of every call. -/
theorem attemptsFrom (hP : Heritable P) (p : RetryPolicy) (hf : ∀ m, P _ (f m).2) (left : Nat)
    (k : UInt32) (m : κ) : P _ (p.attemptsFrom ctx f left k m) := by
  induction left generalizing k m with
  | zero =>
      refine hP.bind (hf m) fun r => ?_
      cases r with
      | ok _ => exact hP.ret _
      | error e => exact hP.giveUp k e
  | succ left ih =>
      refine hP.bind (hf m) fun r => ?_
      cases r with
      | ok _ => exact hP.ret _
      | error e =>
          cases hs : e.isStop with
          | true =>
              simp only [hs, if_true]
              exact hP.giveUp k e
          | false =>
              simp only [hs]
              refine hP.bind (hP.waitAfter p ctx k e) fun r => ?_
              cases r with
              | some c => exact hP.ret _
              | none => exact ih (k + 1) (f m).1

theorem errorOf (hP : Heritable P) (c : ContextId) : P _ (Async.errorOf c) :=
  hP.request (.error c)

theorem retried (hP : Heritable P) (p : RetryPolicy) (hf : ∀ m, P _ (f m).2) (m : κ) :
    P _ (p.run ctx f m) := by
  refine hP.bind (hP.errorOf ctx) fun r => ?_
  cases r with
  | some c => exact hP.ret _
  | none => exact hP.attemptsFrom p hf _ _ _

end Retrying

section Attempts

variable {pool : Pool σ ε τ} {ctx : ContextId} {grace : Duration} {k : UInt32} {tx : τ}

theorem rollBack (hP : Heritable P) (hpool : pool.Each P) (given : ContextId) :
    P _ (pool.rollBack k tx given) := by
  refine hP.bind (hpool.rollback tx given) fun r => ?_
  cases r with
  | ok _ => exact hP.bind (hP.note (by nofun)) fun _ => hP.ret _
  | error e => exact hP.bind (hP.note (by nofun)) fun _ => hP.ret _

theorem rollBackInGrace (hP : Heritable P) (hpool : pool.Each P) :
    P _ (pool.rollBackInGrace grace k tx) :=
  hP.bind (hP.request (.create (some grace))) fun given => hP.rollBack hpool given

theorem abandon (hP : Heritable P) (hpool : pool.Each P) (e : Failure) :
    P _ (pool.abandon ctx grace k tx e) := by
  refine hP.bind (hP.errorOf ctx) fun r => ?_
  cases r with
  | some c => exact hP.bind (hP.rollBackInGrace hpool) fun _ => hP.ret _
  | none => exact hP.bind (hP.rollBack hpool ctx) fun _ => hP.ret _

theorem runSteps (hP : Heritable P) (hpool : pool.Each P) {steps : List (Step σ ε τ)}
    (hsteps : ∀ step ∈ steps, ∀ i, P _ (Pool.runStep k i (step tx))) (i : Nat) :
    P _ (pool.runSteps ctx grace k tx i steps) := by
  induction steps generalizing i with
  | nil => exact hP.ret _
  | cons step rest ih =>
      refine hP.bind (hP.errorOf ctx) fun r => ?_
      cases r with
      | some c => exact hP.bind (hP.rollBackInGrace hpool) fun _ => hP.ret _
      | none =>
          refine hP.bind (hsteps step List.mem_cons_self i) fun r => ?_
          cases r with
          | ok _ => exact ih (fun s hs => hsteps s (List.mem_cons_of_mem _ hs)) (i + 1)
          | error e => exact hP.bind (hP.abandon hpool e) fun _ => hP.ret _

/-- An attempt inherits what holds of the pool and of the guarded steps. -/
theorem attempt (hP : Heritable P) (hpool : pool.Each P) {steps : List (Step σ ε τ)}
    (hsteps : ∀ step ∈ steps, ∀ tx i, P _ (Pool.runStep k i (step tx))) :
    P _ (pool.attempt ctx grace steps k) := by
  refine hP.bind (hP.note (by nofun)) fun _ => hP.bind (hpool.begin ctx) fun r => ?_
  cases r with
  | error e => exact hP.ret _
  | ok tx =>
      refine hP.bind (hP.runSteps hpool (fun step hs i => hsteps step hs tx i) 0) fun r => ?_
      cases r with
      | error e => exact hP.ret _
      | ok _ =>
          refine hP.bind (hpool.commit tx ctx) fun r => ?_
          cases r with
          | error e => exact hP.ret _
          | ok _ => exact hP.bind (hP.note (by nofun)) fun _ => hP.ret _

end Attempts

end Async.Heritable

/-- The run of an executor inherits what holds of its pool and of the guarded steps. -/
theorem Executor.inherits {P : (α : Type) → Async σ ε α → Prop} (hP : Async.Heritable P)
    (x : Executor σ ε τ) (ctx : ContextId) {steps : List (Step σ ε τ)}
    (hpool : ∀ pool, x.pool = some pool → pool.Each P)
    (hsteps : ∀ step ∈ steps, ∀ k tx i, P _ (Pool.runStep k i (step tx))) :
    P _ (x.run ctx steps) := by
  obtain ⟨pool, retry, grace⟩ := x
  cases pool with
  | none => exact hP.ret _
  | some pool =>
      exact hP.retried retry
        (fun _ => hP.attempt (hpool pool rfl) fun step hs tx i => hsteps step hs _ tx i) _

end TransactionAttempts
