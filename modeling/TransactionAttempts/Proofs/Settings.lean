import Mathlib.Data.List.Basic
import TransactionAttempts.Executor
import TransactionAttempts.Proofs.Decoding
import TransactionAttempts.Proofs.Retrying

/-!
# The last change wins

A configuration has four members, and a change gives values to some of them, whatever they were
before.  The others stay as they are.

**Sequences.**  So of all changes in a sequence that give a value to a member only the last one
counts for it.  Changes that write different members have nothing to do with one another and
may be made in either order.

**Attempts.**  A configuration may ask for no attempt at all.  The count is raised to one when
an executor is made, and once more when a policy is run, to the same number.

Main facts:

* `member_apply`, `ext_member`: a change is what it does to the members;
* `member_applyAll`: what a sequence of changes leaves of a member;
* `commutes_of_disjoint`: changes of different members may be made in either order;
* `run_normalized`: raising the count of attempts beforehand does not change a run;
* `last_change_wins`: all of this together.
-/

namespace TransactionAttempts

section Members

/-- What a member of a configuration is. -/
abbrev ConfigField.Value : ConfigField → Type
  | .attempts => UInt32
  | .delay => Duration
  | .delayMethod => DelayMethod
  | .gracePeriod => Duration

/-- The value of a member. -/
def Config.member (c : Config) : (f : ConfigField) → f.Value
  | .attempts => c.retry.attempts
  | .delay => c.retry.delay
  | .delayMethod => c.retry.method
  | .gracePeriod => c.gracePeriod

/-- A configuration is known by its members. -/
theorem Config.ext_member {c c' : Config} (h : ∀ f, c.member f = c'.member f) : c = c' := by
  obtain ⟨⟨n, d, m⟩, g⟩ := c
  obtain ⟨⟨n', d', m'⟩, g'⟩ := c'
  have hattempts : n = n' := h .attempts
  have hdelay : d = d' := h .delay
  have hmethod : m = m' := h .delayMethod
  have hgrace : g = g' := h .gracePeriod
  rw [hattempts, hdelay, hmethod, hgrace]

end Members

namespace Setting

/-- The members that a change writes. -/
def writes : Setting → List ConfigField
  | .policy _ => [.attempts, .delay, .delayMethod]
  | .retry _ _ => [.attempts, .delay]
  | .attempts _ => [.attempts]
  | .delay _ => [.delay]
  | .delayMethod _ => [.delayMethod]
  | .gracePeriod _ => [.gracePeriod]

/-- The value that a change gives to a member, if any. -/
def value? : Setting → (f : ConfigField) → Option f.Value
  | .policy p, .attempts => some p.attempts
  | .policy p, .delay => some p.delay
  | .policy p, .delayMethod => some p.method
  | .retry n _, .attempts => some n
  | .retry _ d, .delay => some d
  | .attempts n, .attempts => some n
  | .delay d, .delay => some d
  | .delayMethod m, .delayMethod => some m
  | .gracePeriod d, .gracePeriod => some d
  | _, _ => none

/-- The value that the last change which writes a member gives to it, if there is one. -/
def lastValue? (changes : List Setting) (f : ConfigField) : Option f.Value :=
  (changes.filterMap (·.value? f)).getLast?

theorem isSome_value?_iff (s : Setting) (f : ConfigField) :
    (s.value? f).isSome ↔ f ∈ s.writes := by
  cases s <;> cases f <;> simp [value?, writes]

theorem value?_eq_none_iff {s : Setting} {f : ConfigField} :
    s.value? f = none ↔ f ∉ s.writes := by
  rw [← isSome_value?_iff, Option.not_isSome_iff_eq_none]

end Setting

namespace Config

open Setting

section Sequences

/-- A change gives values to the members that it writes and keeps the others. -/
theorem member_apply (c : Config) (s : Setting) (f : ConfigField) :
    (c.apply s).member f = (s.value? f).getD (c.member f) := by
  cases s <;> cases f <;> rfl

/-- What a sequence of changes leaves of a member. -/
theorem member_applyAll (c : Config) (changes : List Setting) (f : ConfigField) :
    (c.applyAll changes).member f = (lastValue? changes f).getD (c.member f) := by
  induction changes generalizing c with
  | nil => rfl
  | cons s rest ih =>
      have hstep : (c.applyAll (s :: rest)).member f =
          (lastValue? rest f).getD ((s.value? f).getD (c.member f)) := by
        rw [← member_apply, ← ih]
        rfl
      rw [hstep, lastValue?, lastValue?, List.filterMap_cons]
      cases s.value? f with
      | none => rfl
      | some v =>
          rw [List.getLast?_cons]
          cases (rest.filterMap (·.value? f)).getLast? <;> rfl

/-- Changes of different members may be made in either order. -/
theorem commutes_of_disjoint {s t : Setting} (h : s.writes.Disjoint t.writes) :
    s.Commutes t := by
  refine fun c => ext_member fun f => ?_
  simp only [member_apply]
  by_cases hs : f ∈ s.writes
  · rw [value?_eq_none_iff.2 (h hs)]
    rfl
  · rw [value?_eq_none_iff.2 hs]
    rfl

/-- Neighbours in a sequence that write different members may change places. -/
theorem applyAll_swap {s t : Setting} (h : s.writes.Disjoint t.writes) (c : Config)
    (before after : List Setting) :
    c.applyAll (before ++ s :: t :: after) = c.applyAll (before ++ t :: s :: after) := by
  simp only [applyAll, List.foldl_append, List.foldl_cons]
  rw [commutes_of_disjoint h]

end Sequences

end Config

namespace RetryPolicy

section Attempts

variable {σ ε κ : Type} {p : RetryPolicy} {ctx : ContextId} {f : κ → κ × Async σ ε Result}

theorem waitAfter_normalized (attempt : UInt32) (e : Failure) :
    (p.normalized.waitAfter ctx attempt e : Async σ ε _) = p.waitAfter ctx attempt e := by
  rw [waitAfter, waitAfter, maxAttempts_normalized]
  rfl

theorem attemptsFrom_normalized (left : Nat) (attempt : UInt32) (memory : κ) :
    p.normalized.attemptsFrom ctx f left attempt memory =
      p.attemptsFrom ctx f left attempt memory := by
  induction left generalizing attempt memory with
  | zero => rfl
  | succ left ih =>
      rw [attemptsFrom, attemptsFrom]
      refine congrArg _ (funext fun r => ?_)
      cases r with
      | ok _ => rfl
      | error e => simp only [waitAfter_normalized, ih]

/-- A run is the same program whether the count of attempts is raised beforehand or not. -/
theorem run_normalized (memory : κ) : p.normalized.run ctx f memory = p.run ctx f memory := by
  rw [run, run, maxAttempts_normalized]
  refine congrArg _ (funext fun r => ?_)
  cases r with
  | some _ => rfl
  | none => exact attemptsFrom_normalized _ _ _

end Attempts

end RetryPolicy

/-- A pool that has been closed. -/
def Pool.closed : Pool Unit Unit Unit where
  begin _ := return .error (.database .poolClosed)
  commit _ _ := return .error (.database .poolClosed)
  rollback _ _ := return .error (.database .poolClosed)

namespace Config

open Setting

variable {σ ε τ κ : Type}

/-- **The last change wins.**  Of a sequence of changes, each member of a configuration has the
value that the last change which writes it gives to it, or keeps its own if there is none; and
neighbours in the sequence that write different members may change places.  An executor that is
made from the result has the same delay, method and grace period and makes at least one attempt.
Its policy asks for the same calls and waits and comes to the same result as the one that was
configured. -/
theorem last_change_wins (c : Config) (changes : List Setting) (pool : Pool σ ε τ)
    (ctx : ContextId) (operation : κ → κ × Async σ ε Result) (memory : κ) :
    (∀ f, (c.applyAll changes).member f = (lastValue? changes f).getD (c.member f)) ∧
    (∀ (s : Setting) f, (s.value? f).isSome ↔ f ∈ s.writes) ∧
    (∀ before s t after, changes = before ++ s :: t :: after → s.writes.Disjoint t.writes →
      c.applyAll (before ++ t :: s :: after) = c.applyAll changes) ∧
    ∃ x, Executor.new (some pool) (c.applyAll changes) = .ok x ∧ x.pool = some pool ∧
      x.retry.delay = (c.applyAll changes).retry.delay ∧
      x.retry.method = (c.applyAll changes).retry.method ∧
      x.gracePeriod = (c.applyAll changes).gracePeriod ∧
      x.retry.attempts.toNat = max 1 (c.applyAll changes).retry.attempts.toNat ∧
      x.retry.run ctx operation memory = (c.applyAll changes).retry.run ctx operation memory := by
  refine ⟨member_applyAll c changes, isSome_value?_iff, ?_, ?_⟩
  · rintro before s t after rfl hdisjoint
    exact (applyAll_swap hdisjoint c before after).symm
  · have hattempts := RetryPolicy.toNat_maxAttempts (c.applyAll changes).retry
    exact ⟨_, rfl, rfl, rfl, rfl, rfl, hattempts, RetryPolicy.run_normalized memory⟩

/-- A whole policy between single members: of its delay nothing is left, of its method all.  The
grace period may change places with the pair behind it, and the attempts that were taken away
last are one in an executor. -/
theorem last_change_wins_mixed :
    ∃ c, c = default.applyAll [.delayMethod .standard, .policy ⟨7, .zero, .exponential⟩,
        .gracePeriod .zero, .retry 5 .longest, .attempts 0] ∧
      c.member .attempts = (0 : UInt32) ∧ c.member .delay = Duration.longest ∧
      c.member .delayMethod = DelayMethod.exponential ∧ c.member .gracePeriod = Duration.zero ∧
      (Setting.gracePeriod .zero).writes.Disjoint (Setting.retry 5 .longest).writes ∧
      default.applyAll [.delayMethod .standard, .policy ⟨7, .zero, .exponential⟩,
        .retry 5 .longest, .gracePeriod .zero, .attempts 0] = c ∧
      ∃ x, Executor.new (some Pool.closed) c = .ok x ∧ x.retry.attempts.toNat = 1 := by
  obtain ⟨hmember, _, hswap, x, hx, _, _, _, _, hattempts, _⟩ :=
    last_change_wins default [.delayMethod .standard, .policy ⟨7, .zero, .exponential⟩,
      .gracePeriod .zero, .retry 5 .longest, .attempts 0] Pool.closed 0
      (fun calls : Nat => (calls + 1, .ret (.ok ()))) 0
  have hdisjoint : (Setting.gracePeriod .zero).writes.Disjoint
      (Setting.retry 5 .longest).writes := by
    simp [Setting.writes]
  have hplaces := hswap [.delayMethod .standard, .policy ⟨7, .zero, .exponential⟩] _ _
    [.attempts 0] rfl hdisjoint
  exact ⟨_, rfl, hmember .attempts, hmember .delay, hmember .delayMethod, hmember .gracePeriod,
    hdisjoint, hplaces, x, hx, hattempts⟩

end Config

end TransactionAttempts
