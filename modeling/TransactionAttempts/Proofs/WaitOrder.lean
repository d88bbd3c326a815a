import TransactionAttempts.Proofs.Delays

/-!
# The order of waits

Waits are compared for different attempts, for different base delays, and for random parts
that are drawn independently of one another.

**Attempts.**  The greatest wait after one attempt is no longer than the least wait after
the next.  So no draw can turn the order round.  For the incremental method this rests on
the random part: it is less than half the base delay, and the next attempt adds a whole one.

**Bounds.**  A wait is at least the base delay from the first attempt on.  It stops at the
longest duration, and up to there the waits of the incremental method grow.

**Base delays.**  Without a random part a longer base delay gives no shorter wait.

Main facts:

* `greatestWait_le_leastWait`, `greatestWait_lt_leastWait`: incremental waits of two attempts;
* `growth_mono`: the factors of the exponential method;
* `drawn_le_of_lt`, `base_le_drawn`, `drawn_le_of_base_le`: the order for every method;
* `waits_never_shrink`: the order of the waits of every method that is built in.
-/

namespace TransactionAttempts

namespace DelayMethod

/-- The wait after an attempt, for a number that is drawn if the method has a choice. -/
def drawn (m : DelayMethod) (n : UInt32) (base : Duration) (r : Nat) : Duration :=
  m.wait n base (pick (m.spread base) r)

/-- A policy computes the wait for the next number of its world. -/
theorem run_nextWait_drawn {σ ε : Type} (p : RetryPolicy) (n : UInt32) (w : World σ ε) :
    ((p.nextWait n).run w).1 = .returned (p.method.drawn n p.delay (w.source w.draws)) := by
  rw [run_nextWait]
  rfl

section Factors

theorem growth_mono {j k : UInt32} (h : j ≤ k) : growth j ≤ growth k := by
  have hjk : j.toNat ≤ k.toNat := UInt32.le_iff_toNat_le.1 h
  have hpow : 2 ^ (j.toNat - 1) ≤ 2 ^ (k.toNat - 1) :=
    Nat.pow_le_pow_right (by decide) (by omega)
  rw [growth_eq, growth_eq]
  omega

theorem one_le_growth (n : UInt32) : 1 ≤ growth n := by
  have hpow : 1 ≤ 2 ^ (n.toNat - 1) := Nat.one_le_two_pow
  rw [growth_eq]
  omega

theorem nanos_exponential (base : Duration) (n : UInt32) (r : Nat) :
    (exponential.drawn n base r).nanos = min (base.nanos * growth n) Duration.maxNanos :=
  Duration.nanos_mul base (growth n)

end Factors

section Intervals

variable {base : Duration} {j k : UInt32}

/-- From one attempt to a later one the product grows by the base delay at least. -/
theorem step_le_mul (d : Nat) (h : j < k) : d * j.toNat + d ≤ d * k.toNat := by
  have hjk : j.toNat + 1 ≤ k.toNat := UInt32.lt_iff_toNat_lt.1 h
  calc d * j.toNat + d
      = d * (j.toNat + 1) := (Nat.mul_succ _ _).symm
    _ ≤ d * k.toNat := Nat.mul_le_mul_left _ hjk

theorem greatestWait_le_leastWait (h : j < k) : greatestWait base j ≤ leastWait base k := by
  have hstep := step_le_mul base.nanos h
  unfold greatestWait leastWait
  omega

/-- The intervals of two attempts do not touch, short of the longest duration. -/
theorem greatestWait_lt_leastWait (h : j < k) (hpos : 0 < base.nanos)
    (hshort : base.nanos * k.toNat < Duration.maxNanos) :
    greatestWait base j < leastWait base k := by
  have hstep := step_le_mul base.nanos h
  unfold greatestWait leastWait
  omega

theorem base_le_leastWait (h : 1 ≤ k) : base.nanos ≤ leastWait base k := by
  have hk : 1 ≤ k.toNat := UInt32.le_iff_toNat_le.1 h
  have hmul : base.nanos * 1 ≤ base.nanos * k.toNat := Nat.mul_le_mul_left _ hk
  have hbound := base.nanos_le
  unfold leastWait
  omega

end Intervals

section Order

variable {m : DelayMethod} {base base' : Duration} {j k : UInt32}

theorem incremental_le (h : j < k) (r s : Nat) :
    incremental.drawn j base r ≤ incremental.drawn k base s := by
  have hj := (between_incremental base j r).2
  have hk := (between_incremental base k s).1
  exact Nat.le_trans hj (Nat.le_trans (greatestWait_le_leastWait h) hk)

theorem incremental_lt (h : j < k) (hpos : 0 < base.nanos)
    (hshort : base.nanos * k.toNat < Duration.maxNanos) (r s : Nat) :
    incremental.drawn j base r < incremental.drawn k base s := by
  have hj := (between_incremental base j r).2
  have hk := (between_incremental base k s).1
  exact Nat.lt_of_le_of_lt hj
    (Nat.lt_of_lt_of_le (greatestWait_lt_leastWait h hpos hshort) hk)

theorem exponential_le (hbase : base ≤ base') (h : j ≤ k) (r s : Nat) :
    exponential.drawn j base r ≤ exponential.drawn k base' s := by
  have hmul : base.nanos * growth j ≤ base'.nanos * growth k :=
    Nat.mul_le_mul hbase (growth_mono h)
  show (exponential.drawn j base r).nanos ≤ (exponential.drawn k base' s).nanos
  rw [nanos_exponential, nanos_exponential]
  omega

theorem base_le_exponential (r : Nat) : base ≤ exponential.drawn k base r := by
  have hmul : base.nanos * 1 ≤ base.nanos * growth k := Nat.mul_le_mul_left _ (one_le_growth k)
  have hbound := base.nanos_le
  show base.nanos ≤ (exponential.drawn k base r).nanos
  rw [nanos_exponential]
  omega

/-- A later attempt is followed by no shorter wait. -/
theorem drawn_le_of_lt (hm : ∀ f, m ≠ .custom f) (h : j < k) (r s : Nat) :
    m.drawn j base r ≤ m.drawn k base s := by
  cases m with
  | standard => exact Nat.le_refl base.nanos
  | incremental => exact incremental_le h r s
  | exponential => exact exponential_le (Nat.le_refl base.nanos) (UInt32.le_of_lt h) r s
  | custom f => exact absurd rfl (hm f)

theorem base_le_drawn (hm : ∀ f, m ≠ .custom f) (h : 1 ≤ k) (r : Nat) :
    base ≤ m.drawn k base r := by
  cases m with
  | standard => exact Nat.le_refl base.nanos
  | incremental => exact Nat.le_trans (base_le_leastWait h) (between_incremental base k r).1
  | exponential => exact base_le_exponential r
  | custom f => exact absurd rfl (hm f)

/-- Without a random part a longer base delay gives no shorter wait. -/
theorem drawn_le_of_base_le (hm : ∀ f, m ≠ .custom f) (hne : m ≠ .incremental)
    (hbase : base ≤ base') (r s : Nat) : m.drawn k base r ≤ m.drawn k base' s := by
  cases m with
  | standard => exact hbase
  | incremental => exact absurd rfl hne
  | exponential => exact exponential_le hbase (UInt32.le_refl k) r s
  | custom f => exact absurd rfl (hm f)

/-- **Waits never shrink.**  What a policy computes is the wait for a number that is drawn.
For a method that is built in, and for whatever numbers are drawn independently of one
another, a later attempt is followed by no shorter wait, and from the first attempt on a
wait lies between the base delay and the longest duration.  The waits of the incremental
method grow strictly, unless there is no base delay or its product with the number of the
attempt reaches the longest duration.  The waits of the other two grow with the base
delay, too. -/
theorem waits_never_shrink {σ ε : Type} {m : DelayMethod} (hm : ∀ f, m ≠ .custom f)
    (base : Duration) :
    (∀ (attempts n : UInt32) (w : World σ ε),
      (((RetryPolicy.mk attempts base m).nextWait n).run w).1 =
        .returned (m.drawn n base (w.source w.draws))) ∧
    (∀ (j k : UInt32) (r s : Nat), j < k → m.drawn j base r ≤ m.drawn k base s) ∧
    (∀ (k : UInt32) (r : Nat), 1 ≤ k →
      base ≤ m.drawn k base r ∧ m.drawn k base r ≤ .longest) ∧
    (m = .incremental → ∀ (j k : UInt32) (r s : Nat), 0 < base.nanos → j < k →
      base.nanos * k.toNat < Duration.maxNanos → m.drawn j base r < m.drawn k base s) ∧
    (m ≠ .incremental → ∀ (base' : Duration) (k : UInt32) (r s : Nat), base ≤ base' →
      m.drawn k base r ≤ m.drawn k base' s) := by
  refine ⟨?_, ?_, ?_, ?_, ?_⟩
  · intro attempts n w
    exact run_nextWait_drawn (RetryPolicy.mk attempts base m) n w
  · intro j k r s hjk
    exact drawn_le_of_lt hm hjk r s
  · intro k r hk
    exact ⟨base_le_drawn hm hk r, Duration.le_longest _⟩
  · rintro rfl j k r s hpos hjk hshort
    exact incremental_lt hjk hpos hshort r s
  · intro hne base' k r s hbase
    exact drawn_le_of_base_le hm hne hbase r s

/-- The greatest draw after the second attempt gives a shorter wait than no random part at
all after the third. -/
theorem waits_never_shrink_unlucky :
    (∀ f, incremental ≠ .custom f) ∧
      incremental.drawn 2 (.ofMillis 100) (2 ^ 64 - 1) < incremental.drawn 3 (.ofMillis 100) 0 := by
  have hm : ∀ f, incremental ≠ .custom f := by
    intro f h
    cases h
  obtain ⟨_, _, _, hstrict, _⟩ :=
    waits_never_shrink (σ := Unit) (ε := Unit) hm (.ofMillis 100)
  exact ⟨hm, hstrict rfl 2 3 _ _ (by decide) (by decide) (by decide)⟩

end Order

end DelayMethod

end TransactionAttempts
