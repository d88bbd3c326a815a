/-!
# Durations

A duration is a whole number of nanoseconds, at most `2^64 - 1` seconds and
`999999999` nanoseconds.  Sums and products that do not fit stop at that bound.

**Text.**  A duration is written in the largest of the units `s`, `ms`, `µs`,
`ns` of which it holds at least one, with an exact fraction and no zeros at its
end: `1.5s`, `100ms`, `1.001µs`, `0ns`.

Main facts:

* `nanos_clamp`: clamping takes the smaller of the number and the bound;
* `nanos_add`, `nanos_mul`: addition and multiplication saturate.
-/

namespace TransactionAttempts

/-- Nanoseconds of the longest duration. -/
def Duration.maxNanos : Nat := 18446744073709551615999999999

/-- A whole number of nanoseconds within the bound. -/
structure Duration where
  nanos : Nat
  nanos_le : nanos ≤ Duration.maxNanos
deriving DecidableEq

namespace Duration

@[ext] theorem ext {d e : Duration} (h : d.nanos = e.nanos) : d = e := by
  cases d; cases e; simp_all

/-- The number of nanoseconds, cut at the bound. -/
def clamp (n : Nat) : Duration := ⟨min n maxNanos, Nat.min_le_right n maxNanos⟩

@[simp] theorem nanos_clamp (n : Nat) : (clamp n).nanos = min n maxNanos := rfl

@[simp] theorem clamp_nanos (d : Duration) : clamp d.nanos = d :=
  ext (Nat.min_eq_left d.nanos_le)

def zero : Duration := clamp 0

/-- The longest duration. -/
def longest : Duration := clamp maxNanos

instance : Inhabited Duration := ⟨zero⟩

instance : LE Duration := ⟨fun d e => d.nanos ≤ e.nanos⟩

instance : LT Duration := ⟨fun d e => d.nanos < e.nanos⟩

instance (d e : Duration) : Decidable (d ≤ e) := inferInstanceAs (Decidable (d.nanos ≤ e.nanos))

instance (d e : Duration) : Decidable (d < e) := inferInstanceAs (Decidable (d.nanos < e.nanos))

theorem le_longest (d : Duration) : d ≤ longest := by
  show d.nanos ≤ min maxNanos maxNanos
  simpa using d.nanos_le

section Arithmetic

/-- Saturating sum. -/
def add (d e : Duration) : Duration := clamp (d.nanos + e.nanos)

/-- Saturating product with a number. -/
def mul (d : Duration) (n : Nat) : Duration := clamp (d.nanos * n)

@[simp] theorem nanos_add (d e : Duration) :
    (d.add e).nanos = min (d.nanos + e.nanos) maxNanos := rfl

@[simp] theorem nanos_mul (d : Duration) (n : Nat) :
    (d.mul n).nanos = min (d.nanos * n) maxNanos := rfl

end Arithmetic

section Units

def ofMillis (n : Nat) : Duration := clamp (n * 1000000)

def ofSeconds (n : Nat) : Duration := clamp (n * 1000000000)

/-- Whole milliseconds. -/
def toMillis (d : Duration) : Nat := d.nanos / 1000000

end Units

section Text

/-- The last `width` decimal digits of `n`, with leading zeros. -/
def lastDigits : Nat → Nat → List Char
  | 0, _ => []
  | width + 1, n => lastDigits width (n / 10) ++ [Nat.digitChar (n % 10)]

/-- `n` units of `10 ^ width` parts each: the whole units, then the parts as an
exact fraction without zeros at its end. -/
def scaled (n width : Nat) : String :=
  let fraction := ((lastDigits width n).reverse.dropWhile (· == '0')).reverse
  let whole := toString (n / Nat.pow 10 width)
  if fraction.isEmpty then whole else whole ++ "." ++ String.ofList fraction

/-- The duration in its largest unit. -/
def text (d : Duration) : String :=
  if d.nanos ≥ 1000000000 then scaled d.nanos 9 ++ "s"
  else if d.nanos ≥ 1000000 then scaled d.nanos 6 ++ "ms"
  else if d.nanos ≥ 1000 then scaled d.nanos 3 ++ "µs"
  else scaled d.nanos 0 ++ "ns"

end Text

end Duration

end TransactionAttempts
