/-!
# The shortest decimal of a binary number

A binary floating-point number stands for all reals that round to it.  Its
shortest decimal is the one with the fewest digits among them, and of those the
nearest to the number itself.

**Search.**  For one digit, two digits, and so on, the two neighbours of the
number on the grid of decimals with so many digits are tried.  If any point of a
grid rounds to the number, one of the neighbours does.  All arithmetic is exact.

* `Binary.ofFloat` takes a float apart;
* `Binary.shortest` finds the digits and the power of ten.
-/

namespace TransactionAttempts

/-- The number `mantissa * 2 ^ exponent`.  `lowerGap` is the distance to the next
smaller float in units of half the distance to the next larger one. -/
structure Binary where
  mantissa : Nat
  exponent : Int
  lowerGap : Nat
deriving DecidableEq

namespace Binary

/-- The number that 64 bits encode, without its sign. -/
def ofBits (bits : Nat) : Binary :=
  let fraction : Nat := bits % 4503599627370496
  let field : Nat := bits / 4503599627370496 % 2048
  if field = 0 then ⟨fraction, -1074, 2⟩
  else
    let gap := if fraction = 0 ∧ 1 < field then 1 else 2
    ⟨4503599627370496 + fraction, (field : Int) - 1075, gap⟩

/-- A finite float without its sign. -/
def ofFloat (x : Float) : Binary := ofBits x.toBits.toNat

/-- Ten to a power, as a fraction. -/
def tenTo (e : Int) : Nat × Nat := (Nat.pow 10 e.toNat, Nat.pow 10 (-e).toNat)

/-- A quarter of the last place of the mantissa, as a fraction. -/
def unit (b : Binary) : Nat × Nat :=
  (Nat.pow 2 (b.exponent - 2).toNat, Nat.pow 2 (2 - b.exponent).toNat)

/-- How many digits a positive number has. -/
def digitCount (n : Nat) : Nat := (Nat.toDigits 10 n).length

/-- The power of ten of the leading digit. -/
def leading (b : Binary) : Int :=
  let num := 4 * b.mantissa * b.unit.1
  let den := b.unit.2
  if den ≤ num then (digitCount (num / den) : Int) - 1
  else -(digitCount ((den + num - 1) / num - 1) : Int)

/-- The decimal `c * 10 ^ e` rounds to the number.  The ends of the interval do so
if the mantissa is even. -/
def holds (b : Binary) (e : Int) (c : Nat) : Bool :=
  let value := c * (tenTo e).1 * b.unit.2
  let step := b.unit.1 * (tenTo e).2
  let low := (4 * b.mantissa - b.lowerGap) * step
  let high := (4 * b.mantissa + 2) * step
  if b.mantissa % 2 = 0 then low ≤ value && value ≤ high else low < value && value < high

/-- The decimal with the power of ten `e` that stands for the number, if any; of
two the nearer, and of two that are equally near the even one. -/
def onGrid (b : Binary) (e : Int) : Option Nat :=
  let num := 4 * b.mantissa * b.unit.1 * (tenTo e).2
  let den := (tenTo e).1 * b.unit.2
  let c := num / den
  let rest := num % den
  let above := den < 2 * rest || (2 * rest = den && c % 2 = 1)
  match b.holds e c, b.holds e (c + 1) with
  | true, true => some (if above then c + 1 else c)
  | true, false => some c
  | false, true => some (c + 1)
  | false, false => none

/-- Moves zeros at the end of the digits into the power of ten. -/
def stripZeros : Nat → Nat → Int → Nat × Int
  | 0, c, e => (c, e)
  | n + 1, c, e => if c % 10 = 0 then stripZeros n (c / 10) (e + 1) else (c, e)

/-- The digits and the power of ten of the shortest decimal of a positive number. -/
def shortest (b : Binary) : Nat × Int :=
  let withDigits (n : Nat) : Option (Nat × Int) :=
    (b.onGrid (b.leading - n)).map fun c => stripZeros 17 c (b.leading - n)
  ((List.range 17).findSome? withDigits).getD (0, 0)

end Binary

/-- Where positional notation begins and ends: a number is written positionally
when its decimal point stands after more than `above` and at most `upTo` places of
its digits; otherwise it has an exponent with a sign. -/
structure DecimalStyle where
  above : Int
  upTo : Int
deriving DecidableEq

namespace DecimalStyle

def zeros (n : Nat) : String := String.ofList (List.replicate n '0')

/-- The digits with their decimal point after so many places. -/
def positional (digits : String) (point : Int) : String :=
  let n : Int := digits.length
  if point ≤ 0 then "0." ++ zeros (-point).toNat ++ digits
  else if n ≤ point then digits ++ zeros (point - n).toNat ++ ".0"
  else
    String.ofList (digits.toList.take point.toNat) ++ "." ++
      String.ofList (digits.toList.drop point.toNat)

def withExponent (digits : String) (power : Int) : String :=
  let head := String.ofList (digits.toList.take 1)
  let tail := String.ofList (digits.toList.drop 1)
  head ++ (if tail.isEmpty then "" else "." ++ tail) ++ "e" ++ (if power < 0 then "-" else "+") ++
    toString power.natAbs

/-- A float in its shortest decimal. -/
def render (style : DecimalStyle) (x : Float) : String :=
  let negative := 9223372036854775808 ≤ x.toBits.toNat
  let b := Binary.ofFloat x
  let magnitude :=
    if x.isNaN then "NaN"
    else if x.isInf then "inf"
    else if b.mantissa = 0 then "0.0"
    else
      let (c, e) := b.shortest
      let digits := toString c
      let point := e + digits.length
      if style.above < point ∧ point ≤ style.upTo then positional digits point
      else withExponent digits (point - 1)
  if negative then "-" ++ magnitude else magnitude

end DecimalStyle

end TransactionAttempts
