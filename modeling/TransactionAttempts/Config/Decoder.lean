import TransactionAttempts.Config.Basic
import TransactionAttempts.Json.Reader

/-!
# Settings from JSON

A configuration is written as an object with some of four members, or as an array
with the first of their values.

**Members.**

* `attempts`: an integer of 32 bits;
* `delay_ms` and `grace_period_ms`: integers of 64 bits, in milliseconds;
* `delay_method`: a name, or an object with the name as its only key and `null`.

A member that is not given keeps its default.  The first problem from the left is
the one that is reported; a key is judged before its value is looked at.
-/

namespace TransactionAttempts

/-- Why a configuration cannot be decoded from a value with faults of type `φ`. -/
inductive DecodeError (φ : Type) where
  /-- The text cannot be understood at this place. -/
  | unreadable (fault : φ)
  /-- The value has a form that is not allowed here. -/
  | malformed
  | invalidType (found expected : String)
  | outOfRange (found : Int) (expected : String)
  | unknownField (name : String)
  | duplicateField (name : String)
  | unknownVariant (name : String)

/-- A member of a configuration. -/
inductive ConfigField where
  | attempts
  | delay
  | delayMethod
  | gracePeriod
deriving DecidableEq

namespace ConfigField

def name : ConfigField → String
  | .attempts => "attempts"
  | .delay => "delay_ms"
  | .delayMethod => "delay_method"
  | .gracePeriod => "grace_period_ms"

/-- The members, in the order that they have in an array. -/
def all : List ConfigField := [.attempts, .delay, .delayMethod, .gracePeriod]

def ofName? (s : String) : Option ConfigField := all.find? (·.name == s)

theorem ofName_name (f : ConfigField) : ofName? f.name = some f := by
  cases f <;> decide

end ConfigField

namespace DecodeError

/-- Names as they are listed in a message. -/
def listed (names : List String) : String :=
  ", ".intercalate (names.map fun s => "`" ++ s ++ "`")

/-- The message of an error in the data; there is none where the text itself is at
fault. -/
def message? {φ : Type} : DecodeError φ → Option String
  | .unreadable _ => none
  | .malformed => none
  | .invalidType found expected =>
      some ("invalid type: " ++ found ++ ", expected " ++ expected)
  | .outOfRange found expected =>
      some ("invalid value: integer `" ++ toString found ++ "`, expected " ++ expected)
  | .unknownField name =>
      some ("unknown field `" ++ name ++ "`, expected one of " ++
        listed (ConfigField.all.map ConfigField.name))
  | .duplicateField name => some ("duplicate field `" ++ name ++ "`")
  | .unknownVariant name =>
      some ("unknown variant `" ++ name ++ "`, expected one of " ++
        listed (DelayMethod.named.map (·.1)))

end DecodeError

/-- The members that have been given so far. -/
structure ConfigDraft where
  attempts : Option UInt32
  delay : Option Duration
  delayMethod : Option DelayMethod
  gracePeriod : Option Duration

namespace ConfigDraft

def empty : ConfigDraft := ⟨none, none, none, none⟩

def has (d : ConfigDraft) : ConfigField → Bool
  | .attempts => d.attempts.isSome
  | .delay => d.delay.isSome
  | .delayMethod => d.delayMethod.isSome
  | .gracePeriod => d.gracePeriod.isSome

/-- The configuration, with defaults for what was not given. -/
def config (d : ConfigDraft) : Config :=
  ⟨⟨d.attempts.getD RetryPolicy.once.attempts, d.delay.getD RetryPolicy.once.delay,
    d.delayMethod.getD RetryPolicy.once.method⟩, d.gracePeriod.getD Config.defaultGracePeriod⟩

end ConfigDraft

namespace Config

variable {φ α : Type}

section Values

/-- Refuses a value for its type, unless a fault hides it. -/
def refuse (expected : String) (j : Json φ) : Except (DecodeError φ) α :=
  match j.found with
  | .ok found => .error (.invalidType found expected)
  | .error fault => .error (.unreadable fault)

/-- An integer from zero up to a bound. -/
def natural (expected : String) (bound : Nat) : Json φ → Except (DecodeError φ) Nat
  | .number (.integer n) =>
      if 0 ≤ n ∧ n ≤ bound then .ok n.toNat else .error (.outOfRange n expected)
  | j => refuse expected j

def word32 (j : Json φ) : Except (DecodeError φ) UInt32 :=
  (natural "u32" 4294967295 j).map UInt32.ofNat

def millis (j : Json φ) : Except (DecodeError φ) Duration :=
  (natural "u64" 18446744073709551615 j).map Duration.ofMillis

def methodNamed (s : String) : Except (DecodeError φ) DelayMethod :=
  match DelayMethod.ofName? s with
  | some m => .ok m
  | none => .error (.unknownVariant s)

/-- What belongs to a name as the only key of an object. -/
def nothing : Json φ → Except (DecodeError φ) Unit
  | .null => .ok ()
  | j => refuse "unit" j

def method : Json φ → Except (DecodeError φ) DelayMethod
  | .string s => methodNamed s
  | .object ((key, value) :: more) ending => do
      let m ← methodNamed key
      nothing value
      match more, ending with
      | [], .closed => return m
      | [], .cut fault => throw (.unreadable fault)
      | _, _ => throw .malformed
  | .object [] (.half key fault) => do
      let _ ← methodNamed key
      throw (.unreadable fault)
  | .object [] (.keyless fault) => .error (.unreadable fault)
  | .object [] (.cut fault) => .error (.unreadable fault)
  | .broken fault => .error (.unreadable fault)
  | _ => .error .malformed

end Values

/-- Decodes the value of a member. -/
def decodeField (d : ConfigDraft) (j : Json φ) :
    ConfigField → Except (DecodeError φ) ConfigDraft
  | .attempts => return { d with attempts := some (← word32 j) }
  | .delay => return { d with delay := some (← millis j) }
  | .delayMethod => return { d with delayMethod := some (← method j) }
  | .gracePeriod => return { d with gracePeriod := some (← millis j) }

/-- The member that a key may name next. -/
def nextField (d : ConfigDraft) (key : String) : Except (DecodeError φ) ConfigField :=
  match ConfigField.ofName? key with
  | none => .error (.unknownField key)
  | some f => if d.has f then .error (.duplicateField key) else .ok f

/-- Decodes the members of an object. -/
def decodeMembers (ending : Ending φ) :
    ConfigDraft → List (String × Json φ) → Except (DecodeError φ) ConfigDraft
  | d, (key, value) :: more => do
      let f ← nextField d key
      let d ← decodeField d value f
      decodeMembers ending d more
  | d, [] =>
      match ending with
      | .closed => .ok d
      | .cut fault => .error (.unreadable fault)
      | .half key fault => do
          let _ ← nextField d key
          throw (.unreadable fault)
      | .keyless fault => .error (.unreadable fault)

/-- Decodes the items of an array as the values of the given members. -/
def decodeItems (ending : Option φ) :
    ConfigDraft → List ConfigField → List (Json φ) → Except (DecodeError φ) ConfigDraft
  | d, f :: fields, value :: more => do
      let d ← decodeField d value f
      decodeItems ending d fields more
  | _, [], _ :: _ => .error .malformed
  | d, _, [] =>
      match ending with
      | none => .ok d
      | some fault => .error (.unreadable fault)

/-- Decodes a configuration. -/
def decode : Json φ → Except (DecodeError φ) Config
  | .object members ending => return (← decodeMembers ending ConfigDraft.empty members).config
  | .array items ending =>
      return (← decodeItems ending ConfigDraft.empty ConfigField.all items).config
  | j => refuse "struct ConfigFile" j

/-- Decodes a configuration from a text that holds nothing else. -/
def ofText (s : String) : Except (DecodeError Fault) Config := do
  let (value, after) := Json.ofText s
  let config ← decode value
  match after with
  | none => return config
  | some fault => throw (.unreadable fault)

end Config

end TransactionAttempts
