import TransactionAttempts.Text.Printable

/-!
# Quoted text

A text between double quotes.  A quote and a backslash in it follow a backslash,
some controls have a letter of their own, and other characters that cannot be seen
are given by their code point in braces.
-/

namespace TransactionAttempts.Text

/-- A character by its code point. -/
def byCodePoint (c : Char) : String :=
  "\\u\x7b" ++ String.ofList (Nat.toDigits 16 c.toNat) ++ "\x7d"

def quotedChar (c : Char) : String :=
  if c = '"' then "\\\""
  else if c = '\\' then "\\\\"
  else if c = '\n' then "\\n"
  else if c = '\r' then "\\r"
  else if c = '\t' then "\\t"
  else if c.toNat = 0 then "\\0"
  else if isHidden c then byCodePoint c
  else c.toString

def quoted (s : String) : String :=
  "\"" ++ String.join (s.toList.map quotedChar) ++ "\""

end TransactionAttempts.Text
