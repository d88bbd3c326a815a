import Mathlib.Algebra.Ring.Nat
import TransactionAttempts.Proofs.Retrying

/-!
# How long a wait is

**Exponential waits.**  The factor is a power of two for the first thirty-two attempts.  From
the next one on it stays at the largest number of 32 bits, which is no power of two.  A wait
therefore stops doubling there, unless there is nothing to double or the longest duration has
been reached already.

**Incremental waits.**  The random part is less than half the base delay, as far as 64 bits
reach, and every such part can be drawn.  No draw is made if there is only one.

Main facts:

* `growth_eq`: the factor of an exponential wait;
* `exponential_wait`: exactly when it is the full power, and when the waits double;
* `exists_pick`: every choice comes from some number;
* `incremental_wait`: the waits that an incremental method can compute, and no others.
-/

namespace TransactionAttempts

namespace DelayMethod

section Exponential

/-- The powers of two, cut at the largest number of 32 bits. -/
theorem growth_eq (n : UInt32) : growth n = min (2 ^ (n.toNat - 1)) 4294967295 := by
  unfold growth
  split
  · rename_i h
    have hpow : 2 ^ (n.toNat - 1) ≤ 2 ^ 31 := Nat.pow_le_pow_right (by decide) (by omega)
    show 2 ^ (n.toNat - 1) = _
    omega
  · rename_i h
    have hpow : 2 ^ 32 ≤ 2 ^ (n.toNat - 1) := Nat.pow_le_pow_right (by decide) (by omega)
    omega

/-- Up to the thirty-second attempt nothing is cut. -/
theorem growth_of_le {n : UInt32} (h : n.toNat ≤ 32) : growth n = 2 ^ (n.toNat - 1) := by
  have hpow : 2 ^ (n.toNat - 1) ≤ 2 ^ 31 := Nat.pow_le_pow_right (by decide) (by omega)
  rw [growth_eq]
  omega

/-- From the thirty-third attempt on the factor is less than the power. -/
theorem growth_of_lt {n : UInt32} (h : 32 < n.toNat) :
    growth n = 4294967295 ∧ growth n < 2 ^ (n.toNat - 1) := by
  have hpow : 2 ^ 32 ≤ 2 ^ (n.toNat - 1) := Nat.pow_le_pow_right (by decide) (by omega)
  rw [growth_eq]
  omega

/-- Two factors give the same product only if they are equal, there is nothing to multiply,
or the smaller one already reaches the bound. -/
theorem min_mul_eq_iff {d f g bound : Nat} (h : f ≤ g) :
    min (d * f) bound = min (d * g) bound ↔ f = g ∨ d = 0 ∨ bound ≤ d * f := by
  have hmul : d * f ≤ d * g := Nat.mul_le_mul_left d h
  constructor
  · intro heq
    by_cases hbound : bound ≤ d * f
    · exact Or.inr (Or.inr hbound)
    · have hsame : d * f = d * g := by omega
      rcases Nat.eq_zero_or_pos d with hd | hd
      · exact Or.inr (Or.inl hd)
      · exact Or.inl (Nat.eq_of_mul_eq_mul_left hd hsame)
  · rintro (rfl | rfl | hbound)
    · rfl
    · simp
    · omega

/-- The largest factor gives what every greater one would give. -/
def Settled (base : Duration) : Prop :=
  base.nanos = 0 ∨ Duration.maxNanos ≤ base.nanos * 4294967295

/-- A wait with a factor that is cut is that with the full factor only if the base delay has
settled. -/
theorem cut_eq_iff {base : Duration} {n : UInt32} {g : Nat} (h : growth n ≤ g)
    (hcut : growth n ≠ g → growth n = 4294967295) :
    min (base.nanos * growth n) Duration.maxNanos = min (base.nanos * g) Duration.maxNanos ↔
      growth n = g ∨ Settled base := by
  rw [min_mul_eq_iff h]
  by_cases hg : growth n = g
  · simp [hg]
  · rw [hcut hg, Settled]

/-- **Exponential waits.**  The base delay is multiplied with a power of two that is cut at
the largest number of 32 bits.  Up to the thirty-second attempt this is the full power, and
each wait is twice the one before, as far as durations reach.  From the thirty-third attempt
on neither holds any more, except of a base delay that has settled. -/
theorem exponential_wait (base : Duration) (n : UInt32) (jitter : Nat) :
    (exponential.wait n base jitter).nanos =
        min (base.nanos * min (2 ^ (n.toNat - 1)) 4294967295) Duration.maxNanos ∧
      ((exponential.wait n base jitter).nanos =
          min (base.nanos * 2 ^ (n.toNat - 1)) Duration.maxNanos ↔
        n.toNat ≤ 32 ∨ Settled base) ∧
      ∀ (k : UInt32) (jitter' : Nat), 1 ≤ k.toNat → n.toNat = k.toNat + 1 →
        ((exponential.wait n base jitter).nanos =
            min (2 * (exponential.wait k base jitter').nanos) Duration.maxNanos ↔
          n.toNat ≤ 32 ∨ Settled base) := by
  have hwait : ∀ (m : UInt32) (j : Nat), (exponential.wait m base j).nanos =
      min (base.nanos * growth m) Duration.maxNanos := fun m j => rfl
  refine ⟨by rw [hwait, growth_eq], ?_, fun k j hk hnk => ?_⟩
  · rw [hwait, cut_eq_iff]
    · refine or_congr ⟨fun hfull => ?_, growth_of_le⟩ Iff.rfl
      exact Nat.le_of_not_lt fun hlt => absurd hfull (Nat.ne_of_lt (growth_of_lt hlt).2)
    · rw [growth_eq]
      exact Nat.min_le_left _ _
    · intro hcut
      exact (growth_of_lt (Nat.lt_of_not_le fun hle => hcut (growth_of_le hle))).1
  · have htwice : min (2 * min (base.nanos * growth k) Duration.maxNanos) Duration.maxNanos =
        min (base.nanos * (2 * growth k)) Duration.maxNanos := by
      rw [Nat.mul_left_comm]
      omega
    have hpow : 2 * 2 ^ (k.toNat - 1) = 2 ^ (n.toNat - 1) := by
      rw [← Nat.pow_succ']
      congr 1
      omega
    rw [hwait, hwait, htwice]
    rcases Nat.lt_or_ge 32 n.toNat with hlt | hle
    · obtain ⟨hmax, _⟩ := growth_of_lt hlt
      have hdouble : growth n < 2 * growth k := by
        have hpow' : 2 ^ 32 ≤ 2 ^ (n.toNat - 1) := Nat.pow_le_pow_right (by decide) (by omega)
        rw [growth_eq k]
        omega
      rw [cut_eq_iff (Nat.le_of_lt hdouble) fun _ => hmax]
      have hne : growth n ≠ 2 * growth k := Nat.ne_of_lt hdouble
      simp [hne, Nat.not_le.2 hlt]
    · have hdouble : growth n = 2 * growth k := by
        rw [growth_of_le hle, growth_of_le (by omega), hpow]
      simp [hdouble, hle]

/-- With a base delay of one millisecond the thirty-third wait falls one millisecond short of
twice the one before. -/
theorem exponential_wait_short :
    (exponential.wait 33 (Duration.ofMillis 1) 0).nanos ≠
      min ((Duration.ofMillis 1).nanos * 2 ^ ((33 : UInt32).toNat - 1)) Duration.maxNanos := by
  decide

end Exponential

section Incremental

theorem half_pos_iff (base : Duration) : 0 < half base ↔ 2 ≤ base.nanos := by
  unfold half
  omega

theorem half_lt (base : Duration) : half base < 2 ^ 64 := by
  unfold half
  omega

/-- A random part of 64 bits is a duration. -/
theorem nanos_clamp_of_lt {j : Nat} (h : j < 2 ^ 64) : (Duration.clamp j).nanos = j := by
  rw [Duration.nanos_clamp, Duration.maxNanos]
  omega

theorem nanos_incremental (base : Duration) (n : UInt32) (j : Nat) :
    (incremental.wait n base j).nanos = min (base.nanos * n.toNat + j) Duration.maxNanos := by
  rw [wait, Duration.nanos_add, Duration.nanos_mul, Duration.nanos_clamp]
  omega

/-- Every choice comes from some number of 64 bits. -/
theorem exists_pick {bound j : Nat} (hj : j < bound) (hbound : bound ≤ 2 ^ 64) :
    ∃ n, pick bound n = j := by
  have hpos : 0 < bound := Nat.zero_lt_of_lt hj
  -- the least number whose share reaches `j`
  obtain ⟨n, hn⟩ : ∃ n, n = (j * 18446744073709551616 + (bound - 1)) / bound := ⟨_, rfl⟩
  have hle : n * bound ≤ j * 18446744073709551616 + (bound - 1) := hn ▸ Nat.div_mul_le_self _ _
  have hlt : j * 18446744073709551616 + (bound - 1) < n * bound + bound := by
    have := Nat.lt_div_mul_add (a := j * 18446744073709551616 + (bound - 1)) hpos
    rwa [← hn] at this
  have hsize : n < 18446744073709551616 := by
    refine Nat.lt_of_mul_lt_mul_right (a := bound) (Nat.lt_of_le_of_lt hle ?_)
    have : j * 18446744073709551616 ≤ (bound - 1) * 18446744073709551616 :=
      Nat.mul_le_mul_right _ (by omega)
    omega
  refine ⟨n, ?_⟩
  rw [pick, Nat.mod_eq_of_lt hsize]
  exact Nat.div_eq_of_lt_le (by omega) (by omega)

/-- The wait that a policy computes, and the world after it. -/
theorem run_nextWait {σ ε : Type} (p : RetryPolicy) (n : UInt32) (w : World σ ε) :
    (p.nextWait n).run w = (.returned (p.waitIn n w), p.consulted n w) := by
  obtain ⟨_, ho, hv⟩ := RetryPolicy.exec_nextWait (Async.exec_run (p.nextWait n) w)
  exact Prod.ext ho hv

/-- The only number that is drawn for a wait is one of the choices that there are. -/
theorem reaches_nextWait {σ ε : Type} {E : Surroundings σ ε} {p : RetryPolicy} {n : UInt32}
    {w u : World σ ε} {l : Story σ ε} {bound : Nat} {next : Nat → Async σ ε Duration}
    (h : Async.Reaches E (p.nextWait n) w l (.perform (.draw bound) next) u) :
    bound = p.method.spread p.delay ∧ bound ≠ 0 := by
  rcases Async.reaches_perform h with ⟨_, hy, _⟩ | ⟨l', _, h'⟩
  · cases hy
  · by_cases hs : p.method.spread p.delay = 0
    · simp only [hs, if_true] at h'
      obtain ⟨_, hy, _⟩ := Async.reaches_ret h'
      cases hy
    · simp only [hs, if_false] at h'
      rcases Async.reaches_perform h' with ⟨_, hy, _⟩ | ⟨l'', _, h''⟩
      · cases hy
        exact ⟨rfl, hs⟩
      · obtain ⟨_, hy, _⟩ := Async.reaches_ret h''
        cases hy

/-- The least wait after an attempt, in nanoseconds. -/
def leastWait (base : Duration) (n : UInt32) : Nat :=
  min (base.nanos * n.toNat) Duration.maxNanos

/-- The greatest wait after an attempt, in nanoseconds: the random part is less than half the
base delay, and less than 64 bits can hold. -/
def greatestWait (base : Duration) (n : UInt32) : Nat :=
  min (base.nanos * n.toNat + (min (base.nanos / 2) 18446744073709551615 - 1)) Duration.maxNanos

/-- A random part that can be drawn, or none where there is no choice, keeps the wait in its
bounds. -/
theorem between_incremental (base : Duration) (n : UInt32) (r : Nat) :
    leastWait base n ≤ (incremental.wait n base (pick (half base) r)).nanos ∧
      (incremental.wait n base (pick (half base) r)).nanos ≤ greatestWait base n := by
  have hpick : pick (half base) r ≤ half base - 1 := by
    rcases Nat.eq_zero_or_pos (half base) with hzero | hpos
    · simp [hzero, pick]
    · have := pick_lt hpos r
      omega
  rw [nanos_incremental, leastWait, greatestWait]
  unfold half at hpick ⊢
  omega

/-- Every wait in the bounds is that of some number that is drawn. -/
theorem exists_incremental {base : Duration} {n : UInt32} {t : Nat}
    (hleast : leastWait base n ≤ t) (hgreatest : t ≤ greatestWait base n) :
    ∃ r, (incremental.wait n base (pick (half base) r)).nanos = t := by
  unfold leastWait at hleast
  unfold greatestWait at hgreatest
  rcases Nat.eq_zero_or_pos (half base) with hzero | hpos
  · refine ⟨0, ?_⟩
    rw [nanos_incremental, hzero]
    unfold half at hzero
    simp only [pick]
    omega
  · have hj : t - base.nanos * n.toNat < half base := by
      unfold half at hpos ⊢
      omega
    obtain ⟨r, hr⟩ := exists_pick hj (Nat.le_of_lt (half_lt base))
    refine ⟨r, ?_⟩
    rw [nanos_incremental, hr]
    omega

/-- **Incremental waits.**  Whatever is drawn, a wait is computed; it lies between its bounds,
and every duration between them is the wait for some draw.  There is one draw if the base
delay has two nanoseconds, from a range that is not empty and all of whose numbers are
durations, and none otherwise. -/
theorem incremental_wait {σ ε : Type} (attempts n : UInt32) (base : Duration) :
    (∀ w : World σ ε, ∃ d v,
      ((RetryPolicy.mk attempts base .incremental).nextWait n).run w = (.returned d, v) ∧
        leastWait base n ≤ d.nanos ∧ d.nanos ≤ greatestWait base n ∧
        v.draws = w.draws + if 2 ≤ base.nanos then 1 else 0) ∧
    (∀ (E : Surroundings σ ε) w l bound next u,
      Async.Reaches E ((RetryPolicy.mk attempts base .incremental).nextWait n) w l
          (.perform (.draw bound) next) u →
        base.nanos < 2 ^ 128 ∧ 0 < bound ∧ bound < 2 ^ 64 ∧
          ∀ j < bound, (Duration.clamp j).nanos = j) ∧
    (∀ (w : World σ ε) t, leastWait base n ≤ t → t ≤ greatestWait base n →
      ∃ source d v, ((RetryPolicy.mk attempts base .incremental).nextWait n).run
        { w with source := source } = (.returned d, v) ∧ d.nanos = t) ∧
    (∀ (w : World σ ε) d v,
      ((RetryPolicy.mk attempts base .incremental).nextWait n).run w = (.returned d, v) →
        (2 ≤ base.nanos → base.nanos * n.toNat + base.nanos / 2 ≤ Duration.maxNanos →
          d.nanos < base.nanos * n.toNat + base.nanos / 2) ∧
        (base.nanos < 2 → d.nanos = min (base.nanos * n.toNat) Duration.maxNanos)) := by
  generalize hp : RetryPolicy.mk attempts base .incremental = p
  have hwait : ∀ w : World σ ε, p.waitIn n w =
      incremental.wait n base (pick (half base) (w.source w.draws)) := fun w => by rw [← hp]; rfl
  have hdraws : ∀ w : World σ ε, (p.consulted n w).draws =
      w.draws + if 2 ≤ base.nanos then 1 else 0 := by
    intro w
    have hspread : p.method.spread p.delay = half base := by rw [← hp]; rfl
    show (if p.method.spread p.delay = 0 then w.draws else w.draws + 1) = _
    have := half_pos_iff base
    rw [hspread]
    split <;> split <;> omega
  refine ⟨fun w => ⟨_, _, run_nextWait p n w, ?_⟩, fun E w l bound next u h => ?_,
    fun w t hleast hgreatest => ?_, fun w d v h => ?_⟩
  · rw [hwait, hdraws]
    have hbetween := between_incremental base n (w.source w.draws)
    exact ⟨hbetween.1, hbetween.2, rfl⟩
  · obtain ⟨hbound, hne⟩ := reaches_nextWait h
    have hhalf : bound = half base := by rw [hbound, ← hp]; rfl
    have hlt := half_lt base
    refine ⟨Nat.lt_of_le_of_lt base.nanos_le (by decide), by omega, by omega, fun j hj => ?_⟩
    exact nanos_clamp_of_lt (by omega)
  · obtain ⟨r, hr⟩ := exists_incremental hleast hgreatest
    refine ⟨fun _ => r, _, _, run_nextWait p n _, ?_⟩
    rw [hwait]
    exact hr
  · rw [run_nextWait] at h
    cases h
    obtain ⟨hleast, hgreatest⟩ := between_incremental base n (w.source w.draws)
    rw [hwait]
    unfold leastWait at hleast
    unfold greatestWait at hgreatest
    constructor <;> intros <;> omega

end Incremental

end DelayMethod

end TransactionAttempts
