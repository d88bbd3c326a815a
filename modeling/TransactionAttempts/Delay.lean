import TransactionAttempts.Duration

/-!
# Waiting between attempts

How long to wait after a failed attempt, as a function of the number of the
attempt (from 1) and of a base delay.

**Methods.**

* `standard`: always the base delay;
* `incremental`: the base delay times the number of the attempt, and a random
  part of less than half the base delay on top;
* `exponential`: the base delay times a power of two, which starts at one,
  doubles with each attempt and stops at the largest 32-bit number;
* `custom`: a function of the caller.

The random part enters as an argument, so that a wait is a function; `spread`
says how many values it may take, and that none is drawn when there is only one.
-/

namespace TransactionAttempts

inductive DelayMethod where
  | standard
  | incremental
  | exponential
  | custom (f : UInt32 → Duration → Duration)

/-- A number of 64 bits as a choice from `bound` many: it is scaled down, so that
equal shares of all numbers fall on every choice.  With nothing to choose from it
is zero. -/
def pick (bound n : Nat) : Nat :=
  n % 18446744073709551616 * bound / 18446744073709551616

theorem pick_lt {bound : Nat} (h : 0 < bound) (n : Nat) : pick bound n < bound := by
  refine Nat.div_lt_of_lt_mul ((Nat.mul_lt_mul_right h).2 (Nat.mod_lt n ?_))
  decide

namespace DelayMethod

instance : Inhabited DelayMethod := ⟨.standard⟩

/-- The factor of the exponential method. -/
def growth (attempt : UInt32) : Nat :=
  if attempt.toNat - 1 < 32 then Nat.pow 2 (attempt.toNat - 1) else 4294967295

/-- How many nanoseconds of jitter are possible: half the base delay, as far as
64 bits reach. -/
def half (base : Duration) : Nat := min (base.nanos / 2) 18446744073709551615

/-- How many random parts the method chooses from; zero if it makes no choice. -/
def spread : DelayMethod → Duration → Nat
  | .incremental, base => half base
  | _, _ => 0

/-- The wait after a failed attempt, for a given random part. -/
def wait : DelayMethod → UInt32 → Duration → Nat → Duration
  | .standard, _, base, _ => base
  | .incremental, attempt, base, jitter =>
      (base.mul attempt.toNat).add (Duration.clamp jitter)
  | .exponential, attempt, base, _ => base.mul (growth attempt)
  | .custom f, attempt, base, _ => f attempt base

section Names

def name : DelayMethod → String
  | .standard => "standard"
  | .incremental => "incremental"
  | .exponential => "exponential"
  | .custom _ => "custom"

/-- The methods that a name can stand for. -/
def named : List (String × DelayMethod) :=
  [("standard", .standard), ("incremental", .incremental), ("exponential", .exponential)]

def ofName? (s : String) : Option DelayMethod := named.lookup s

/-- The method as it is shown in a description; a caller's function has none. -/
def text? : DelayMethod → Option String
  | .standard => some "Standard"
  | .incremental => some "Incremental"
  | .exponential => some "Exponential"
  | .custom _ => none

end Names

section Draws

/-- A source of numbers that spread evenly over 64 bits: the multiples of the
golden section of their range, which keep apart from one another. -/
def scattered (k : Nat) : Nat := (k + 1) * 11400714819323198485 % 18446744073709551616

/-- The waits that successive draws from a source give. -/
def samples (m : DelayMethod) (attempt : UInt32) (base : Duration) (source : Nat → Nat) :
    Nat → List Duration
  | 0 => []
  | k + 1 =>
      samples m attempt base source k ++
        [m.wait attempt base (pick (m.spread base) (source k))]

end Draws

end DelayMethod

end TransactionAttempts
