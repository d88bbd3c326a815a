import Mathlib.Data.List.Induction
import TransactionAttempts.Proofs.Settling

/-!
# Families of handles

A history is a sequence of actions.  It alone says which names stand for which family of
handles (`Lineage`), when each family was founded and with what timeout (`Founded`), and
when it is cancelled (`Cancels`).  From this follows the error of the family at any instant
(`Told`).

A cancellation that a task in the background makes later counts from its own instant, and
one whose instant the clock has not reached yet is still to come.

Main facts:

* `lineage_known`: names stand for families that have been founded;
* `Founded.unique`: a family is founded once;
* `Told.unique`, `Told.snoc`, `Told.stage_le`: a history tells one thing, and what it tells
  only moves forward.
-/

namespace TransactionAttempts

namespace Handles

variable {acts : List HandleAction} {a : HandleAction} {i : ContextId} {u : Instant}

section Histories

/-- The state after a sequence of actions. -/
def after (s : Handles) (acts : List HandleAction) : Handles :=
  acts.foldl (fun s a => (s.step a).2) s

theorem after_snoc (s : Handles) (acts : List HandleAction) (a : HandleAction) :
    s.after (acts ++ [a]) = ((s.after acts).step a).2 := by
  simp [after]

/-- The position of the clock after a history. -/
def clock (acts : List HandleAction) : Instant := (empty.after acts).timeline.now

theorem clock_le_snoc (acts : List HandleAction) (a : HandleAction) :
    clock acts ≤ clock (acts ++ [a]) := by
  simpa [clock, after_snoc, now_step] using now_le_arrival (empty.after acts) a

theorem clock_le_append (acts more : List HandleAction) : clock acts ≤ clock (acts ++ more) := by
  induction more using List.reverseRecOn with
  | nil => simp
  | append_singleton more a ih =>
      rw [← List.append_assoc]
      exact Nat.le_trans ih (clock_le_snoc _ a)

end Histories

section Families

/-- How many families of handles there are, and which one a name stands for. -/
structure Lineage where
  families : Nat
  origin : String → Option ContextId

/-- A new handle founds a family, and a clone joins the family of its source. -/
def Lineage.next (l : Lineage) : HandleAction → Lineage
  | .create handle => ⟨l.families + 1, Function.update l.origin handle (some l.families)⟩
  | .withTimeout handle _ => ⟨l.families + 1, Function.update l.origin handle (some l.families)⟩
  | .clone handle source =>
      match l.origin source with
      | some i => { l with origin := Function.update l.origin handle (some i) }
      | none => l
  | .drop handle => { l with origin := Function.update l.origin handle none }
  | _ => l

def lineage (acts : List HandleAction) : Lineage := acts.foldl Lineage.next ⟨0, fun _ => none⟩

theorem lineage_snoc (acts : List HandleAction) (a : HandleAction) :
    lineage (acts ++ [a]) = (lineage acts).next a := by
  simp [lineage]

theorem Lineage.families_le_next (l : Lineage) (a : HandleAction) :
    l.families ≤ (l.next a).families := by
  cases a with
  | clone handle source => cases h : l.origin source <;> simp [next, h]
  | _ => simp [next]

/-- Names stand for families that have been founded. -/
def Lineage.Known (l : Lineage) : Prop := ∀ handle i, l.origin handle = some i → i < l.families

theorem Lineage.Known.update {l : Lineage} (h : l.Known) {n : Nat} (hn : l.families ≤ n)
    (name : String) {v : Option ContextId} (hv : ∀ j, v = some j → j < n) :
    (⟨n, Function.update l.origin name v⟩ : Lineage).Known := fun handle i hi => by
  by_cases hname : handle = name
  · subst hname
    exact hv i (by simpa using hi)
  · exact Nat.lt_of_lt_of_le (h handle i (by simpa [hname] using hi)) hn

theorem Lineage.Known.next {l : Lineage} (h : l.Known) (a : HandleAction) : (l.next a).Known := by
  have hnew : ∀ j, some l.families = some j → j < l.families + 1 := fun j hj => by
    cases hj
    exact Nat.lt_succ_self _
  cases a with
  | create name => exact h.update (Nat.le_succ _) name hnew
  | withTimeout name _ => exact h.update (Nat.le_succ _) name hnew
  | clone name source =>
      cases hsource : l.origin source with
      | none => simpa [Lineage.next, hsource] using h
      | some i =>
          have hold : ∀ j, some i = some j → j < l.families := fun j hj => by
            cases hj
            exact h source i hsource
          simpa [Lineage.next, hsource] using h.update (Nat.le_refl _) name hold
  | drop name => exact h.update (Nat.le_refl _) name (fun j hj => nomatch hj)
  | _ => exact h

theorem lineage_known (acts : List HandleAction) : (lineage acts).Known := by
  induction acts using List.reverseRecOn with
  | nil => exact fun _ _ h => nomatch h
  | append_singleton acts a ih =>
      rw [lineage_snoc]
      exact ih.next a

/-- An action founds a family. -/
inductive Founds (before : List HandleAction) : HandleAction → ContextId → Option Duration → Prop
  | create (handle : String) : Founds before (.create handle) (lineage before).families none
  | withTimeout (handle : String) (timeout : Duration) :
      Founds before (.withTimeout handle timeout) (lineage before).families (some timeout)

/-- An action cancels a family through one of its handles, now or at a later instant. -/
inductive Orders (before : List HandleAction) : HandleAction → ContextId → Instant → Prop
  | cancel (handle : String) (i : ContextId) :
      (lineage before).origin handle = some i →
      Orders before (.cancel handle) i (clock before)
  | cancelAfter (handle : String) (delay : Duration) (i : ContextId) :
      (lineage before).origin handle = some i →
      Orders before (.cancelAfter handle delay) i (Instant.afterSleep (clock before) delay)

/-- Something is true of an action of the history and of what comes before it. -/
def Happens (P : List HandleAction → HandleAction → Prop) (acts : List HandleAction) : Prop :=
  ∃ before a more, acts = before ++ a :: more ∧ P before a

theorem happens_snoc {P : List HandleAction → HandleAction → Prop} :
    Happens P (acts ++ [a]) ↔ Happens P acts ∨ P acts a := by
  constructor
  · rintro ⟨before, b, more, h, hP⟩
    rcases more.eq_nil_or_concat with rfl | ⟨more, z, rfl⟩
    · obtain ⟨rfl, hab⟩ := List.append_inj' h rfl
      cases hab
      exact Or.inr hP
    · rw [List.concat_eq_append, ← List.cons_append, ← List.append_assoc] at h
      obtain ⟨rfl, _⟩ := List.append_inj' h rfl
      exact Or.inl ⟨before, b, more, rfl, hP⟩
  · rintro (⟨before, b, more, rfl, hP⟩ | hP)
    · exact ⟨before, b, more ++ [a], by simp, hP⟩
    · exact ⟨acts, a, [], rfl, hP⟩

theorem not_happens_nil {P : List HandleAction → HandleAction → Prop} : ¬ Happens P [] := by
  rintro ⟨before, a, more, h, _⟩
  simp at h

theorem Happens.append {P : List HandleAction → HandleAction → Prop} (h : Happens P acts)
    (more : List HandleAction) : Happens P (acts ++ more) := by
  obtain ⟨before, b, rest, rfl, hP⟩ := h
  exact ⟨before, b, rest ++ more, by simp, hP⟩

/-- The family was founded at an instant, with a timeout or without. -/
def Founded (acts : List HandleAction) (i : ContextId) (t : Instant)
    (timeout : Option Duration) : Prop :=
  Happens (fun before a => clock before = t ∧ Founds before a i timeout) acts

/-- The family is cancelled at an instant, which may lie ahead. -/
def Cancels (acts : List HandleAction) (i : ContextId) (c : Instant) : Prop :=
  Happens (fun before a => Orders before a i c) acts

/-- The error of a family at an instant, as its history tells it. -/
inductive Told (acts : List HandleAction) (i : ContextId) (deadline : Option Instant)
    (u : Instant) : Option ContextError → Prop
  | canceled (c : Instant) : Cancels acts i c → c ≤ u → Told acts i deadline u (some .canceled)
  | deadlineExceeded (d : Instant) :
      (∀ c, Cancels acts i c → u < c) → deadline = some d → d ≤ u →
      Told acts i deadline u (some .deadlineExceeded)
  | live :
      (∀ c, Cancels acts i c → u < c) → (∀ d, deadline = some d → u < d) →
      Told acts i deadline u none

theorem Cancels.snoc_iff {c : Instant} :
    Cancels (acts ++ [a]) i c ↔ Cancels acts i c ∨ Orders acts a i c := happens_snoc

theorem Founded.snoc_iff {t : Instant} {timeout : Option Duration} :
    Founded (acts ++ [a]) i t timeout ↔
      Founded acts i t timeout ∨ clock acts = t ∧ Founds acts a i timeout := happens_snoc

theorem Orders.origin {c : Instant} (h : Orders acts a i c) :
    ∃ handle, (lineage acts).origin handle = some i := by
  cases h with
  | cancel handle _ hi => exact ⟨handle, hi⟩
  | cancelAfter handle _ _ hi => exact ⟨handle, hi⟩

/-- Whoever cancels does so now or later. -/
theorem Orders.clock_le {c : Instant} (h : Orders acts a i c) : clock acts ≤ c := by
  cases h with
  | cancel => exact Nat.le_refl _
  | cancelAfter => exact Instant.le_afterSleep _ _

/-- Only families that have been founded are cancelled. -/
theorem Cancels.lt_families {c : Instant} (h : Cancels acts i c) :
    i < (lineage acts).families := by
  induction acts using List.reverseRecOn with
  | nil => exact absurd h not_happens_nil
  | append_singleton acts a ih =>
      have hle := (lineage acts).families_le_next a
      rw [lineage_snoc]
      rcases Cancels.snoc_iff.1 h with h | h
      · exact Nat.lt_of_lt_of_le (ih h) hle
      · obtain ⟨handle, hi⟩ := h.origin
        exact Nat.lt_of_lt_of_le (lineage_known acts handle i hi) hle

theorem Founded.lt_families {t : Instant} {timeout : Option Duration}
    (h : Founded acts i t timeout) : i < (lineage acts).families := by
  induction acts using List.reverseRecOn with
  | nil => exact absurd h not_happens_nil
  | append_singleton acts a ih =>
      rw [lineage_snoc]
      rcases Founded.snoc_iff.1 h with h | ⟨_, h⟩
      · exact Nat.lt_of_lt_of_le (ih h) ((lineage acts).families_le_next a)
      · cases h <;> exact Nat.lt_succ_self _

theorem Founds.eq_families {timeout : Option Duration} (h : Founds acts a i timeout) :
    i = (lineage acts).families := by
  cases h <;> rfl

/-- A family is founded once. -/
theorem Founded.unique {t t' : Instant} {timeout timeout' : Option Duration}
    (h : Founded acts i t timeout) (h' : Founded acts i t' timeout') :
    t = t' ∧ timeout = timeout' := by
  induction acts using List.reverseRecOn with
  | nil => exact absurd h not_happens_nil
  | append_singleton acts a ih =>
      rcases Founded.snoc_iff.1 h with hold | ⟨rfl, hnew⟩ <;>
        rcases Founded.snoc_iff.1 h' with hold' | ⟨rfl, hnew'⟩
      · exact ih hold hold'
      · exact absurd hold.lt_families (hnew'.eq_families ▸ Nat.lt_irrefl _)
      · exact absurd hold'.lt_families (hnew.eq_families ▸ Nat.lt_irrefl _)
      · cases hnew <;> cases hnew' <;> exact ⟨rfl, rfl⟩

/-- An action that does not cancel the family by an instant leaves what is told of it then. -/
theorem Told.snoc {deadline : Option Instant} {e : Option ContextError}
    (h : Told acts i deadline u e) (ha : ∀ c, Orders acts a i c → u < c) :
    Told (acts ++ [a]) i deadline u e := by
  have hlt : (∀ c, Cancels acts i c → u < c) → ∀ c, Cancels (acts ++ [a]) i c → u < c :=
    fun hc c h => (Cancels.snoc_iff.1 h).elim (hc c) (ha c)
  cases h with
  | canceled c hc hle => exact .canceled c (Cancels.snoc_iff.2 (Or.inl hc)) hle
  | deadlineExceeded d hc hd hle => exact .deadlineExceeded d (hlt hc) hd hle
  | live hc hd => exact .live (hlt hc) hd

/-- A history tells one thing. -/
theorem Told.unique {deadline : Option Instant} {e e' : Option ContextError}
    (h : Told acts i deadline u e) (h' : Told acts i deadline u e') : e = e' := by
  cases h with
  | canceled c hc hle =>
      cases h' with
      | canceled => rfl
      | deadlineExceeded d hnone => exact absurd hle (Nat.not_le_of_lt (hnone c hc))
      | live hnone => exact absurd hle (Nat.not_le_of_lt (hnone c hc))
  | deadlineExceeded d hnone hd hle =>
      cases h' with
      | canceled c hc hle => exact absurd hle (Nat.not_le_of_lt (hnone c hc))
      | deadlineExceeded => rfl
      | live _ hlive => exact absurd hle (Nat.not_le_of_lt (hlive d hd))
  | live hnone hlive =>
      cases h' with
      | canceled c hc hle => exact absurd hle (Nat.not_le_of_lt (hnone c hc))
      | deadlineExceeded d _ hd hle => exact absurd hle (Nat.not_le_of_lt (hlive d hd))
      | live => rfl

/-- How far a context has come on its way. -/
def stage : Option ContextError → Nat
  | none => 0
  | some .deadlineExceeded => 1
  | some .canceled => 2

/-- As time goes on and more is done, a family only moves forward. -/
theorem Told.stage_le {more : List HandleAction} {v : Instant} {deadline : Option Instant}
    {e e' : Option ContextError} (h : Told acts i deadline u e)
    (h' : Told (acts ++ more) i deadline v e') (huv : u ≤ v) : stage e ≤ stage e' := by
  cases h with
  | live => exact Nat.zero_le _
  | canceled c hc hle =>
      have hcancels : Told (acts ++ more) i deadline v (some .canceled) :=
        .canceled c (hc.append more) (Nat.le_trans hle huv)
      rw [hcancels.unique h']
  | deadlineExceeded d _ hd hle =>
      cases h' with
      | canceled => decide
      | deadlineExceeded => exact Nat.le_refl _
      | live _ hlive => exact absurd (Nat.le_trans hle huv) (Nat.not_le_of_lt (hlive d hd))

end Families

end Handles

end TransactionAttempts
