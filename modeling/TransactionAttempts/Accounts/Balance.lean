/-!
# Sums of balances

A balance is a whole number.  While it fits into 64 bits with a sign it is kept as
an integer, and beyond that as a binary float of 53 digits.  A float comes back to
the integers as soon as it fits.

**Sums.**  Two integers are added exactly if their sum fits.  Otherwise both become
floats and so does their sum, each rounded to the nearest, and a half to the even.

Main facts:

* `rounded_of_lt`: a number of at most 53 digits is not changed by rounding;
* `plus_of_fits`: what fits is added exactly.
-/

namespace TransactionAttempts.Balance

/-- The number fits into 64 bits with a sign. -/
def fits (n : Int) : Bool := -9223372036854775808 ≤ n && n ≤ 9223372036854775807

/-- The last place of a float of this size. -/
def lastPlace (n : Nat) : Nat := Nat.pow 2 (Nat.log2 n - 52)

/-- The nearest number of at most 53 binary digits; of two that are equally near,
the one whose last digit is even. -/
def roundedNat (n : Nat) : Nat :=
  let unit := lastPlace n
  let below := n / unit
  let rest := 2 * (n % unit)
  if unit < rest || (rest = unit && below % 2 = 1) then (below + 1) * unit else below * unit

/-- The float nearest to a number. -/
def rounded (n : Int) : Int :=
  if n < 0 then -(roundedNat n.natAbs : Int) else roundedNat n.natAbs

/-- A balance after a deposit. -/
def plus (balance amount : Int) : Int :=
  if fits balance && fits (balance + amount) then balance + amount
  else rounded (rounded balance + rounded amount)

theorem lastPlace_of_lt {n : Nat} (h : n < 9007199254740992) : lastPlace n = 1 := by
  have hlog : Nat.log2 n ≤ 52 := by
    by_cases hn : n = 0
    · subst hn; decide
    · exact Nat.le_of_lt_succ ((Nat.log2_lt hn).2 h)
  simp [lastPlace, Nat.sub_eq_zero_of_le hlog]

theorem roundedNat_of_lt {n : Nat} (h : n < 9007199254740992) : roundedNat n = n := by
  simp [roundedNat, lastPlace_of_lt h, Nat.mod_one]

theorem rounded_of_lt {n : Int} (h : n.natAbs < 9007199254740992) : rounded n = n := by
  simp only [rounded, roundedNat_of_lt h]
  split <;> omega

theorem plus_of_fits {balance amount : Int} (hb : fits balance = true)
    (hs : fits (balance + amount) = true) : plus balance amount = balance + amount := by
  simp [plus, hb, hs]

end TransactionAttempts.Balance
