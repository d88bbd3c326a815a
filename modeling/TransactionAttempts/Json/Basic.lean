import TransactionAttempts.Decimal.Shortest
import TransactionAttempts.Text.Quoted

/-!
# JSON values, whole and in part

A text is looked at from left to right, and what has been understood before a
fault still counts.  Therefore a value may hold faults, each at the place where
the text can no longer be understood.

* `Json φ` is the type of values with faults of type `φ`.  Without faults, that is
  with an empty type of them, it is the type of whole values.
* The keys of an object keep their order and may repeat.
* `Json.found` names a value by its type, as far as its beginning shows it.
-/

namespace TransactionAttempts

/-- A number: an integer, or a float if it was not written as one or did not fit. -/
inductive Number where
  | integer (n : Int)
  | real (x : Float)

/-- Floats are positional from `10 ^ -5` on and below `10 ^ 16`. -/
def Number.style : DecimalStyle := ⟨-5, 16⟩

/-- Why a text cannot be understood: something in it is wrong, or it has ended. -/
inductive Fault where
  | malformed
  | truncated
deriving DecidableEq

/-- How the members of an object end. -/
inductive Ending (φ : Type) where
  | closed
  /-- After a member there is neither a comma nor the end of the object. -/
  | cut (fault : φ)
  /-- A key is not followed by a colon. -/
  | half (key : String) (fault : φ)
  /-- Something else stands in the place of a key. -/
  | keyless (fault : φ)

inductive Json (φ : Type) where
  | null
  | bool (b : Bool)
  | number (n : Number)
  | string (s : String)
  /-- A fault at the end stands where neither a comma nor the end of the array is. -/
  | array (items : List (Json φ)) (ending : Option φ)
  | object (members : List (String × Json φ)) (ending : Ending φ)
  /-- No value begins here, or a string that does not end well. -/
  | broken (fault : φ)
  /-- A word or a number that begins but does not end well. -/
  | garbled (fault : φ)

namespace Json

/-- The type of a value, with its text where it has one, or the fault that hides it. -/
def found {φ : Type} : Json φ → Except φ String
  | .null => .ok "null"
  | .bool b => .ok ("boolean `" ++ toString b ++ "`")
  | .number (.integer n) => .ok ("integer `" ++ toString n ++ "`")
  | .number (.real x) => .ok ("floating point `" ++ Number.style.render x ++ "`")
  | .string s => .ok ("string " ++ Text.quoted s)
  | .array _ _ => .ok "sequence"
  | .object _ _ => .ok "map"
  | .broken fault => .error fault
  | .garbled fault => .error fault

end Json

end TransactionAttempts
