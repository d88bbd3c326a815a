import TransactionAttempts.Json.Basic

/-!
# Reading strings

A string ends at a quote that does not follow a backslash.  Controls may not stand
in it.  A backslash is followed by one of eight letters and marks or by `u` and
four hexadecimal digits; a character beyond 16 bits takes two such groups, and half
of such a pair is malformed.
-/

namespace TransactionAttempts.Literal

/-- What stands for a character after a backslash. -/
def shorthands : List (Char × Char) :=
  [('"', '"'), ('\\', '\\'), ('/', '/'), ('b', '\x08'), ('f', '\x0c'), ('n', '\n'), ('r', '\r'),
    ('t', '\t')]

def hexValue? (c : Char) : Option Nat :=
  if '0' ≤ c ∧ c ≤ '9' then some (c.toNat - '0'.toNat)
  else if 'a' ≤ c ∧ c ≤ 'f' then some (c.toNat - 'a'.toNat + 10)
  else if 'A' ≤ c ∧ c ≤ 'F' then some (c.toNat - 'A'.toNat + 10)
  else none

/-- Four hexadecimal digits.  A text of fewer than four bytes has ended too early. -/
def hex4 (cs : List Char) : Except Fault Nat :=
  if (cs.take 4).foldl (fun n c => n + c.utf8Size) 0 < 4 then .error .truncated
  else
    match (cs.take 4).mapM hexValue? with
    | some [a, b, c, d] => .ok (((a * 16 + b) * 16 + c) * 16 + d)
    | _ => .error .malformed

/-- The first half of a pair. -/
def isHigh (n : Nat) : Bool := 0xd800 ≤ n && n ≤ 0xdbff

/-- The second half of a pair. -/
def isLow (n : Nat) : Bool := 0xdc00 ≤ n && n ≤ 0xdfff

/-- The second half, which follows another backslash and `u`. -/
def lowHalf : List Char → Except Fault Nat
  | [] => .error .truncated
  | '\\' :: [] => .error .truncated
  | '\\' :: 'u' :: cs =>
      match hex4 cs with
      | .ok n => if isLow n then .ok n else .error .malformed
      | .error fault => .error fault
  | _ => .error .malformed

/-- The character given by digits, and how many characters give it. -/
def byDigits (cs : List Char) : Except Fault (Char × Nat) := do
  let n ← hex4 cs
  if isLow n then throw .malformed
  if isHigh n then
    let m ← lowHalf (cs.drop 4)
    return (Char.ofNat (0x10000 + (n - 0xd800) * 0x400 + (m - 0xdc00)), 10)
  return (Char.ofNat n, 4)

/-- The character given after a backslash, and how many characters give it. -/
def escaped : List Char → Except Fault (Char × Nat)
  | [] => .error .truncated
  | 'u' :: cs => (byDigits cs).map fun (c, n) => (c, n + 1)
  | c :: _ =>
      match shorthands.lookup c with
      | some d => .ok (d, 1)
      | none => .error .malformed

/-- The characters up to the closing quote and the text after it.  The number says
how many characters are to be passed over first. -/
def readFrom : Nat → List Char → Except Fault (List Char × List Char)
  | _, [] => .error .truncated
  | skip + 1, _ :: cs => readFrom skip cs
  | 0, c :: cs =>
      if c = '"' then .ok ([], cs)
      else if c = '\\' then
        match escaped cs with
        | .ok (d, used) => (readFrom used cs).map fun (ds, rest) => (d :: ds, rest)
        | .error fault => .error fault
      else if c.toNat < 32 then .error .malformed
      else (readFrom 0 cs).map fun (ds, rest) => (c :: ds, rest)

/-- Reads a string after its opening quote. -/
def read (cs : List Char) : Except Fault (String × List Char) :=
  (readFrom 0 cs).map fun (ds, rest) => (String.ofList ds, rest)

end TransactionAttempts.Literal
