import TransactionAttempts.Json.Literal
import TransactionAttempts.Json.Numeral

/-!
# Reading JSON

A value is read as far as it can be understood, together with the text after it
or the fault that ended the reading.

Every call of the reader takes at least one character or ends the reading, so a
number of calls that grows with the text is enough for all of it.
-/

namespace TransactionAttempts.Json

/-- Where the reading goes on, or the fault that ended it. -/
abbrev Rest := Except Fault (List Char)

def isBlank (c : Char) : Bool := c = ' ' || c = '\n' || c = '\t' || c = '\r'

def skipBlanks (cs : List Char) : List Char := cs.dropWhile isBlank

/-- The text after the given characters. -/
def word : List Char → List Char → Rest
  | [], cs => .ok cs
  | _ :: _, [] => .error .truncated
  | x :: xs, c :: cs => if x = c then word xs cs else .error .malformed

/-- A value that is known from its first character, if the rest of its word follows. -/
def ofWord (v : Json Fault) (rest : Rest) : Json Fault × Rest :=
  match rest with
  | .ok cs => (v, .ok cs)
  | .error fault => (.garbled fault, .error fault)

def stopped (fault : Fault) : Json Fault × Rest := (.broken fault, .error fault)

/-- A string after its opening quote. -/
def ofString (cs : List Char) : Json Fault × Rest :=
  match Literal.read cs with
  | .ok (s, rest) => (.string s, .ok rest)
  | .error fault => stopped fault

def ofNumber (cs : List Char) : Json Fault × Rest :=
  match Numeral.read cs with
  | .ok (n, rest) => (.number n, .ok rest)
  | .error fault => (.garbled fault, .error fault)

mutual

/-- Reads a value. -/
def readValue : Nat → List Char → Json Fault × Rest
  | 0, _ => stopped .truncated
  | n + 1, cs =>
      match skipBlanks cs with
      | [] => stopped .truncated
      | '{' :: rest =>
          match skipBlanks rest with
          | '}' :: after => (.object [] .closed, .ok after)
          | _ =>
              let (members, ending, after) := readMembers n rest
              (.object members ending, after)
      | '[' :: rest =>
          match skipBlanks rest with
          | ']' :: after => (.array [] none, .ok after)
          | _ =>
              let (items, after) := readItems n rest
              match after with
              | .ok cs => (.array items none, .ok cs)
              | .error fault => (.array items (some fault), .error fault)
      | '"' :: rest => ofString rest
      | 'n' :: rest => ofWord .null (word ['u', 'l', 'l'] rest)
      | 't' :: rest => ofWord (.bool true) (word ['r', 'u', 'e'] rest)
      | 'f' :: rest => ofWord (.bool false) (word ['a', 'l', 's', 'e'] rest)
      | c :: rest =>
          if c = '-' || c.isDigit then ofNumber (c :: rest) else stopped .malformed

/-- Reads the items of an array from one of them on. -/
def readItems : Nat → List Char → List (Json Fault) × Rest
  | 0, _ => ([], .error .truncated)
  | n + 1, cs =>
      match readValue n cs with
      | (v, .error fault) => ([v], .error fault)
      | (v, .ok rest) =>
          match skipBlanks rest with
          | [] => ([v], .error .truncated)
          | ']' :: after => ([v], .ok after)
          | ',' :: more =>
              let (vs, after) := readItems n more
              (v :: vs, after)
          | _ => ([v], .error .malformed)

/-- Reads the members of an object from one of them on. -/
def readMembers : Nat → List Char →
    List (String × Json Fault) × Ending Fault × Rest
  | 0, _ => ([], .cut .truncated, .error .truncated)
  | n + 1, cs =>
      match skipBlanks cs with
      | [] => ([], .keyless .truncated, .error .truncated)
      | '"' :: rest =>
          match Literal.read rest with
          | .error fault => ([], .keyless fault, .error fault)
          | .ok (key, rest) =>
              match skipBlanks rest with
              | [] => ([], .half key .truncated, .error .truncated)
              | ':' :: rest =>
                  match readValue n rest with
                  | (v, .error fault) => ([(key, v)], .cut fault, .error fault)
                  | (v, .ok rest) =>
                      match skipBlanks rest with
                      | [] => ([(key, v)], .cut .truncated, .error .truncated)
                      | '}' :: after => ([(key, v)], .closed, .ok after)
                      | ',' :: more =>
                          let (members, ending, after) := readMembers n more
                          ((key, v) :: members, ending, after)
                      | _ => ([(key, v)], .cut .malformed, .error .malformed)
              | _ => ([], .half key .malformed, .error .malformed)
      | _ => ([], .keyless .malformed, .error .malformed)

end

/-- The value that a text begins with, and the fault of what follows it, if any. -/
def ofText (s : String) : Json Fault × Option Fault :=
  let cs := s.toList
  match readValue (2 * cs.length + 2) cs with
  | (v, .ok rest) => (v, if (skipBlanks rest).isEmpty then none else some .malformed)
  | (v, .error fault) => (v, some fault)

end TransactionAttempts.Json
