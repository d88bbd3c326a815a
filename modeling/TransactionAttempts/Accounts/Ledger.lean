import TransactionAttempts.Accounts.Balance
import TransactionAttempts.Failure.Basic

/-!
# A table of accounts

Accounts have a name, which no two of them share, and a balance, which is never
negative.  The rows are kept in the order of their names.

**Refusals.**  A statement that would break a rule changes nothing.  A negative
balance is refused before a name that is taken.

Main fact: `balance_remove`, a removed account is gone.
-/

namespace TransactionAttempts

/-- The accounts, in the order of their names. -/
structure Ledger where
  rows : List (String × Int)
  sorted : rows.Pairwise (·.1 < ·.1)
deriving DecidableEq

/-- A statement about accounts. -/
inductive Statement where
  | insert (name : String) (balance : Int)
  /-- Changes a balance; without such an account nothing happens. -/
  | add (name : String) (amount : Int)
  | delete (name : String)
  /-- Fails if there is no such account. -/
  | require (name : String)

namespace Ledger

def empty : Ledger := ⟨[], .nil⟩

def balance? (l : Ledger) (name : String) : Option Int := l.rows.lookup name

/-- The ledger in which an account has the given balance. -/
def put (l : Ledger) (name : String) (balance : Int) : Ledger where
  rows := l.rows.filter (·.1 < name) ++ (name, balance) :: l.rows.filter (name < ·.1)
  sorted := by
    refine List.pairwise_append.2 ⟨l.sorted.filter _, ?_, ?_⟩
    · refine List.pairwise_cons.2 ⟨fun x hx => ?_, l.sorted.filter _⟩
      exact of_decide_eq_true (List.mem_filter.1 hx).2
    · intro x hx y hy
      have hlt : x.1 < name := of_decide_eq_true (List.mem_filter.1 hx).2
      rcases List.mem_cons.1 hy with rfl | hy
      · exact hlt
      · exact String.lt_trans hlt (of_decide_eq_true (List.mem_filter.1 hy).2)

/-- The ledger without an account. -/
def remove (l : Ledger) (name : String) : Ledger where
  rows := l.rows.filter (·.1 ≠ name)
  sorted := l.sorted.filter _

theorem balance_remove (l : Ledger) (name : String) :
    (l.remove name).balance? name = none := by
  refine List.lookup_eq_none_iff.2 fun x hx => ?_
  have h : x.1 ≠ name := of_decide_eq_true (List.mem_filter.1 hx).2
  simpa using Ne.symm h

/-- What the database says about a refused statement. -/
def refusal (code : Nat) (text : String) : String := s!"(code: {code}) {text}"

def negativeBalance : DriverError :=
  .refused (refusal 275 "CHECK constraint failed: balance >= 0")

def nameTaken : DriverError :=
  .refused (refusal 1555 "UNIQUE constraint failed: accounts.name")

/-- The ledger after a statement, or why the statement is refused. -/
def execute (l : Ledger) : Statement → Except DriverError Ledger
  | .insert name balance =>
      if balance < 0 then .error negativeBalance
      else if (l.balance? name).isSome then .error nameTaken
      else .ok (l.put name balance)
  | .add name amount =>
      match l.balance? name with
      | none => .ok l
      | some balance =>
          if Balance.plus balance amount < 0 then .error negativeBalance
          else .ok (l.put name (Balance.plus balance amount))
  | .delete name => .ok (l.remove name)
  | .require name => if (l.balance? name).isSome then .ok l else .error .rowNotFound

end Ledger

end TransactionAttempts
