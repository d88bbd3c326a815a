import TransactionAttempts.Json.Basic

/-!
# Reading numbers

**Value.**  The digits of a number form a significand of at most 64 bits.  A digit
before the point that no longer fits raises the power of ten instead, as do all
such digits after it; a digit after the point that no longer fits is dropped with
those after it.  The float is the significand multiplied or divided by the power
of ten, both as floats, and a number beyond all floats is malformed.

A number without a point and an exponent is an integer if it fits into 64 bits,
with a sign where it has one; `-0` is a float.
-/

namespace TransactionAttempts.Numeral

/-- The fault of a text that should go on differently here. -/
def faultAt : List Char → Fault
  | [] => .truncated
  | _ => .malformed

def digits (cs : List Char) : List Char := cs.takeWhile Char.isDigit

def afterDigits (cs : List Char) : List Char := cs.dropWhile Char.isDigit

theorem digits_append (cs : List Char) : digits cs ++ afterDigits cs = cs :=
  List.takeWhile_append_dropWhile

def digitValue (c : Char) : Nat := c.toNat - '0'.toNat

/-- Appends digits to a significand while it fits; the second number counts the
digits that were left. -/
def absorb (n : Nat) : List Char → Nat × Nat
  | [] => (n, 0)
  | c :: cs =>
      if n * 10 + digitValue c < 18446744073709551616 then absorb (n * 10 + digitValue c) cs
      else (n, cs.length + 1)

/-- The value of a row of digits. -/
def valueOf (cs : List Char) : Nat := cs.foldl (fun n c => n * 10 + digitValue c) 0

section Scaling

/-- A power of ten as a float, the nearest there is. -/
def power (e : Nat) : Float := Float.ofScientific 1 false e

/-- Divides by a power of ten, in steps of which a float can hold the power. -/
def divide (x : Float) (e : Nat) : Float :=
  if e ≤ 308 then x / power e
  else if x == 0 then x
  else divide (x / power 308) (e - 308)
termination_by e

/-- The float of a significand and a power of ten, if there is one. -/
def scale (significand : Nat) (e : Int) : Option Float :=
  let x := significand.toUInt64.toFloat
  if e < 0 then some (divide x (-e).toNat)
  else if e ≤ 308 then
    let y := x * power e.toNat
    if y.isInf then none else some y
  else if significand = 0 then some x
  else none

end Scaling

/-- The digits after a point, if there is one. -/
def fraction : List Char → Except Fault (Option (List Char) × List Char)
  | '.' :: cs =>
      if (digits cs).isEmpty then .error (faultAt cs)
      else .ok (some (digits cs), afterDigits cs)
  | cs => .ok (none, cs)

/-- The digits of an exponent with the given sign. -/
def exponentDigits (negative : Bool) (cs : List Char) : Except Fault (Option Int × List Char) :=
  if (digits cs).isEmpty then .error (faultAt cs)
  else
    let e : Int := valueOf (digits cs)
    .ok (some (if negative then -e else e), afterDigits cs)

/-- The exponent, if there is one. -/
def exponent : List Char → Except Fault (Option Int × List Char)
  | c :: cs =>
      if c = 'e' ∨ c = 'E' then
        match cs with
        | '+' :: rest => exponentDigits false rest
        | '-' :: rest => exponentDigits true rest
        | rest => exponentDigits false rest
      else .ok (none, c :: cs)
  | [] => .ok (none, [])

/-- A float with its sign. -/
def signed (negative : Bool) (x : Float) : Float := if negative then -x else x

/-- The number with the given sign, digits before and after the point, and exponent. -/
def number (negative : Bool) (whole : List Char) (part : Option (List Char))
    (e : Option Int) : Option Number :=
  let (n, raised) := absorb 0 whole
  let float (significand : Nat) (power : Int) : Option Number :=
    (scale significand power).map fun x => .real (signed negative x)
  match part, e with
  | none, none =>
      if raised > 0 then float n raised
      else if negative then
        if 0 < n ∧ n ≤ 9223372036854775808 then some (.integer (-n)) else float n 0
      else some (.integer n)
  | part, e =>
      let cs := part.getD []
      let (m, dropped) := absorb n cs
      float m ((raised : Int) - (cs.length - dropped) + e.getD 0)

/-- Reads a number without its sign. -/
def readUnsigned (negative : Bool) (cs : List Char) : Except Fault (Number × List Char) := do
  let whole := digits cs
  match whole with
  | [] => throw (faultAt cs)
  | '0' :: _ :: _ => throw .malformed
  | _ =>
      let (part, rest) ← fraction (afterDigits cs)
      let (e, rest) ← exponent rest
      match number negative whole part e with
      | some n => return (n, rest)
      | none => throw .malformed

def read : List Char → Except Fault (Number × List Char)
  | '-' :: cs => readUnsigned true cs
  | cs => readUnsigned false cs

end TransactionAttempts.Numeral
