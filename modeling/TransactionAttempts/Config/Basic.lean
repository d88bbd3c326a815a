import TransactionAttempts.Delay

/-!
# Settings

A retry policy says how often an operation is tried and how long to wait in
between.  A configuration adds the grace period: the time that a rollback gets
when the caller's own context is already done.

* `Setting` is one change to a configuration, `Config.apply` carries it out and
  `Config.history` lists the configurations that a sequence of changes passes through;
* `RetryPolicy.normalized` raises an attempt count of zero to one.

Main fact: `getLast_history`, the last of these configurations is the result.
-/

namespace TransactionAttempts

structure RetryPolicy where
  attempts : UInt32
  delay : Duration
  method : DelayMethod

namespace RetryPolicy

/-- One attempt and no waiting. -/
def once : RetryPolicy := ⟨1, Duration.zero, .standard⟩

/-- A policy that always waits the same time. -/
def every (attempts : UInt32) (delay : Duration) : RetryPolicy := ⟨attempts, delay, .standard⟩

def withMethod (p : RetryPolicy) (m : DelayMethod) : RetryPolicy := { p with method := m }

/-- At least one attempt is always made. -/
def normalized (p : RetryPolicy) : RetryPolicy := { p with attempts := max p.attempts 1 }

/-- A description of the policy, unless its delays are a function of the caller. -/
def text? (p : RetryPolicy) : Option String :=
  p.method.text?.map fun m =>
    "Retry \x7b attempts: " ++ toString p.attempts ++ ", delay: " ++ p.delay.text ++
      ", method: " ++ m ++ " \x7d"

end RetryPolicy

structure Config where
  retry : RetryPolicy
  gracePeriod : Duration

/-- One change to a configuration. -/
inductive Setting where
  | policy (p : RetryPolicy)
  | retry (attempts : UInt32) (delay : Duration)
  | attempts (n : UInt32)
  | delay (d : Duration)
  | delayMethod (m : DelayMethod)
  | gracePeriod (d : Duration)

namespace Config

/-- How long a rollback may take after the caller's context is done. -/
def defaultGracePeriod : Duration := Duration.ofSeconds 30

def default : Config := ⟨RetryPolicy.once, defaultGracePeriod⟩

instance : Inhabited Config := ⟨default⟩

def apply (c : Config) : Setting → Config
  | .policy p => { c with retry := p }
  | .retry n d => { c with retry := { c.retry with attempts := n, delay := d } }
  | .attempts n => { c with retry := { c.retry with attempts := n } }
  | .delay d => { c with retry := { c.retry with delay := d } }
  | .delayMethod m => { c with retry := { c.retry with method := m } }
  | .gracePeriod d => { c with gracePeriod := d }

/-- The configuration after all changes. -/
def applyAll (c : Config) (changes : List Setting) : Config := changes.foldl apply c

/-- The configurations before the first change and after each. -/
def history (c : Config) : List Setting → List Config
  | [] => [c]
  | s :: rest => c :: history (c.apply s) rest

theorem getLast_history (c : Config) (changes : List Setting) :
    (c.history changes).getLast? = some (c.applyAll changes) := by
  induction changes generalizing c with
  | nil => rfl
  | cons s rest ih =>
      rw [history, List.getLast?_cons]
      simp [ih, applyAll]

/-- A description of the configuration, unless its delays are a function of the caller. -/
def text? (c : Config) : Option String :=
  c.retry.text?.map fun p =>
    "Config \x7b retry: " ++ p ++ ", grace_period: " ++ c.gracePeriod.text ++ " \x7d"

end Config

end TransactionAttempts
