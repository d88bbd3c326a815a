import TransactionAttempts.Proofs.Calls

/-!
# What the steps write

A store keeps what has been published and, for every open transaction, what was written
in it.  A step may do anything, but what it writes goes into its own transaction.

**Writes.**  `written` collects from a story what the steps have written since the latest
begin, each write with the index of its step.  `InOrder` says that writes come in the
order of the steps.

Main facts:

* `caught_writing`, `bracketed_writing`: catching and bracketing a step keep its writes;
* `exec_writing`: a step writes into its transaction what its story tells.
-/

namespace TransactionAttempts

/-- What a pool keeps: the published writes, those of each open transaction, and whatever
else there is. -/
structure Store (ρ τ ω : Type) where
  rest : ρ
  published : List ω
  pending : τ → List ω

variable {ρ τ ω α : Type}

section Steps

variable [DecidableEq τ]

/-- The store after a write in a transaction. -/
def Store.write (s : Store ρ τ ω) (tx : τ) (x : ω) : Store ρ τ ω :=
  { s with pending := fun t => if t = tx then s.pending t ++ [x] else s.pending t }

/-- The store with the rest of another one. -/
def Store.withRest (s : Store ρ τ ω) (r : ρ) : Store ρ τ ω := { s with rest := r }

/-- An operation of a step in a transaction.  Its marks are its writes, and what it changes
otherwise is neither published nor written. -/
def Op.writing (tx : τ) : (o : Op (Store ρ τ ω) ω) → Async (Store ρ τ ω) ω o.Answer
  | .emit (.mark x) =>
      .perform (.update fun s => s.write tx x) fun _ => .perform (.emit (.mark x)) .ret
  | .update f => .perform (.update fun s => s.withRest (f s).rest) .ret
  | o => .perform o .ret

namespace Async

/-- The program as a step in a transaction, whose marks are its writes. -/
def writing (tx : τ) : Async (Store ρ τ ω) ω α → Async (Store ρ τ ω) ω α
  | .ret a => .ret a
  | .unwind p => .unwind p
  | .perform o next => (o.writing tx).bind fun a => (next a).writing tx
  | .await c limit next => .await c limit fun r => (next r).writing tx

theorem caught_writing (tx : τ) (x : Async (Store ρ τ ω) ω α) :
    (x.writing tx).caught = x.caught.writing tx := by
  induction x with
  | ret a => rfl
  | unwind p => rfl
  | await c limit next ih => exact congrArg (Async.await c limit) (funext ih)
  | perform o next ih =>
      cases o with
      | emit e =>
          cases e with
          | mark x =>
              refine congrArg (Async.perform _) (funext fun _ => ?_)
              exact congrArg (Async.perform _) (funext ih)
          | _ => exact congrArg (Async.perform _) (funext ih)
      | _ => exact congrArg (Async.perform _) (funext ih)

theorem bracketed_writing (tx : τ) (x : Async (Store ρ τ ω) ω α) :
    (x.writing tx).bracketed = x.bracketed.writing tx := by
  induction x with
  | ret a => rfl
  | unwind p => rfl
  | await c limit next ih =>
      refine congrArg (Async.perform .leaveCapture) (funext fun _ => ?_)
      refine congrArg (Async.await c limit) (funext fun r => ?_)
      exact congrArg (Async.perform .enterCapture) (funext fun _ => ih r)
  | perform o next ih =>
      cases o with
      | emit e =>
          cases e with
          | mark x =>
              refine congrArg (Async.perform _) (funext fun _ => ?_)
              exact congrArg (Async.perform _) (funext ih)
          | _ => exact congrArg (Async.perform _) (funext ih)
      | _ => exact congrArg (Async.perform _) (funext ih)

end Async

/-- The step, which writes into the transaction that it is given. -/
def Step.writing (step : Step (Store ρ τ ω) ω τ) : Step (Store ρ τ ω) ω τ := fun tx =>
  (step tx).writing tx

end Steps

section Writes

/-- What the steps have written since the latest begin, after one more event. -/
def writtenAfter (acc : List (Nat × ω)) : Event (Recorded ω τ) → List (Nat × ω)
  | .mark (.called (.begin _)) => []
  | .mark (.within (.step i _) (.mark x)) => acc ++ [(i, x)]
  | _ => acc

/-- What the steps have written since the latest begin, each write with the index of the
step. -/
def writtenFrom (acc : List (Nat × ω)) (l : Story (Store ρ τ ω) (Recorded ω τ)) :
    List (Nat × ω) :=
  l.foldl (fun acc y => writtenAfter acc y.2) acc

/-- What the steps have written since the latest begin. -/
def written (l : Story (Store ρ τ ω) (Recorded ω τ)) : List (Nat × ω) := writtenFrom [] l

theorem writtenFrom_append (acc : List (Nat × ω)) (l l' : Story (Store ρ τ ω) (Recorded ω τ)) :
    writtenFrom acc (l ++ l') = writtenFrom (writtenFrom acc l) l' :=
  List.foldl_append

/-- What a pool leaves in a story is no write. -/
theorem writtenFrom_within {c : Call τ} (hc : ∀ i tx, c ≠ .step i tx) (acc : List (Nat × ω))
    (l : Story (Store ρ τ ω) (Recorded ω τ)) (hl : ∀ y ∈ l, ∃ e, y.2 = .mark (.within c e)) :
    writtenFrom acc l = acc := by
  induction l with
  | nil => rfl
  | cons y rest ih =>
      obtain ⟨hy, hrest⟩ := List.forall_mem_cons.1 hl
      obtain ⟨u, _⟩ := y
      obtain ⟨e, rfl⟩ := hy
      cases c with
      | step i tx => exact absurd rfl (hc i tx)
      | _ => exact ih hrest

variable [DecidableEq τ]

/-- A step in a transaction publishes nothing and writes into the transaction what its
story tells. -/
theorem exec_writing {tx : τ} {i : Nat} {x : Async (Store ρ τ ω) ω α}
    {w v : World (Store ρ τ ω) (Recorded ω τ)} {l : Story (Store ρ τ ω) (Recorded ω τ)}
    {o : Outcome α}
    (h : (@Async.within _ _ _ (Call τ) Call.Reply (.step i tx) (x.writing tx)).Exec .clock
      w l o v) :
    ∃ xs : List ω, v.state.published = w.state.published ∧
      v.state.pending tx = w.state.pending tx ++ xs ∧
      ∀ acc, writtenFrom acc l = acc ++ xs.map (i, ·) := by
  induction x generalizing w l with
  | ret a =>
      obtain ⟨rfl, _, rfl⟩ := Async.exec_ret h
      exact ⟨[], rfl, by simp, fun acc => by simp [writtenFrom]⟩
  | unwind p =>
      cases h
      exact ⟨[], rfl, by simp, fun acc => by simp [writtenFrom]⟩
  | await c limit next ih =>
      rcases Async.exec_await h with ⟨r, u, ⟨t, _, rfl⟩, h'⟩ | ⟨_, rfl, _, rfl⟩
      · have hrest := ih r h'
        exact hrest
      · exact ⟨[], rfl, by simp, fun acc => by simp [writtenFrom]⟩
  | perform o next ih =>
      cases o with
      | emit e =>
          cases e with
          | mark x =>
              obtain ⟨l₁, rfl, h₁⟩ := Async.exec_perform h
              obtain ⟨l₂, rfl, h₂⟩ := Async.exec_perform h₁
              obtain ⟨xs, hpub, hpend, hwritten⟩ := ih _ h₂
              refine ⟨x :: xs, hpub, ?_, fun acc => ?_⟩
              · have hw : (w.state.write tx x).pending tx = w.state.pending tx ++ [x] := if_pos rfl
                refine hpend.trans ?_
                show (w.state.write tx x).pending tx ++ xs = _
                rw [hw, List.append_assoc]
                rfl
              · refine (hwritten (acc ++ [(i, x)])).trans ?_
                simp
          | _ =>
              obtain ⟨l₁, rfl, h₁⟩ := Async.exec_perform h
              have hrest := ih _ h₁
              exact hrest
      | _ =>
          obtain ⟨l₁, rfl, h₁⟩ := Async.exec_perform h
          have hrest := ih _ h₁
          exact hrest

end Writes

section Order

/-- The writes are in the order of their steps, and these are `n` from a given one on. -/
def InOrder (i n : Nat) (new : List (Nat × ω)) : Prop :=
  new.Pairwise (·.1 ≤ ·.1) ∧ ∀ a ∈ new, i ≤ a.1 ∧ a.1 < i + n

theorem InOrder.cons {i n : Nat} {new : List (Nat × ω)} (h : InOrder (i + 1) n new)
    (xs : List ω) : InOrder i (n + 1) (xs.map (i, ·) ++ new) := by
  obtain ⟨hsorted, hrange⟩ := h
  have hxs : ∀ a ∈ xs.map (fun x => (i, x)), a.1 = i := by
    intro a ha
    obtain ⟨x, _, rfl⟩ := List.mem_map.1 ha
    rfl
  refine ⟨List.pairwise_append.2 ⟨?_, hsorted, fun a ha b hb => ?_⟩, fun a ha => ?_⟩
  · exact List.pairwise_map.2 (List.pairwise_of_forall fun _ _ => Nat.le_refl i)
  · rw [hxs a ha]
    exact Nat.le_of_lt (hrange b hb).1
  · rcases List.mem_append.1 ha with ha | ha
    · rw [hxs a ha]
      omega
    · have := hrange a ha
      omega

end Order

end TransactionAttempts
