import TransactionAttempts.Proofs.Parts

/-!
# Chains of sources and searches

There are two ways down into a failure.  The chain of sources goes from an error to the one
that it names as its source, also where this is of an unknown type, and it ends at a list.  A
search goes into lists, but not into what was handed over as an error of an unknown type, nor
into an error of a driver.

**Positions.**  A chain is a walk by `Source.next?`.  `Reached x before s` says that the walk
from `s` comes to the failure `x` behind the links `before`.

**Seals.**  A failure is sealed if searches do not look below it.  Down to the first sealed
failure on a chain the two ways agree.  From there on they part: a search that finds anything
finds it in front of that place, where everything wraps something and no failure is an error
of a context.

Main facts:

* `sources_eq`: a chain of sources goes link by link;
* `reached_of_chain`: the positions of a chain;
* `part_of_unsealed`, `part_of_sealed`: the parts of a failure and the links of its chain;
* `chain_found_iff`: which failures on a chain every search finds.
-/

namespace TransactionAttempts

section Walk

/-- The source of an error of an unknown type. -/
def ForeignError.source? : ForeignError → Option Source
  | .plain _ => none
  | .above _ source => some (.foreign source)
  | .holding _ inner => some (.failure inner)

/-- The source of an error of a driver. -/
def DriverError.source? : DriverError → Option Source
  | .configuration error => some (.foreign error)
  | .refused error => some (.foreign error)
  | .further error => error.source?
  | _ => none

/-- The source of a failure. -/
def Failure.source? : Failure → Option Source
  | .beginFailed inner => some (.failure inner)
  | .commitFailed inner => some (.failure inner)
  | .rollbackFailed inner => some (.failure inner)
  | .stop inner => some (.failure inner)
  | .boxed inner => some (.failure inner)
  | .other error => some (.foreign error)
  | .database error => some (.driver error)
  | _ => none

namespace Source

/-- The link behind this one. -/
def next? : Source → Option Source
  | .failure e => e.source?
  | .driver e => e.source?
  | .foreign e => e.source?

/-- All links behind this one. -/
def sources : Source → List Source
  | .failure e => e.sources
  | .driver e => e.sources
  | .foreign e => e.sources

/-- A chain goes link by link. -/
theorem sources_eq (s : Source) :
    s.sources = match s.next? with
      | none => []
      | some t => t :: t.sources := by
  cases s with
  | failure e => cases e <;> rfl
  | driver e =>
      cases e with
      | further error => cases error <;> rfl
      | _ => rfl
  | foreign e => cases e <;> rfl

/-- The source of an error of an unknown type is a part of it. -/
theorem sizeOf_foreign {e : ForeignError} {t : Source} (h : e.source? = some t) :
    sizeOf t ≤ sizeOf e := by
  cases e <;> cases h <;> simp

/-- A link is greater than the one behind it. -/
theorem sizeOf_next {s t : Source} (h : s.next? = some t) : sizeOf t < sizeOf s := by
  cases s with
  | failure e => cases e <;> cases h <;> simp
  | driver e =>
      cases e with
      | further error =>
          have hle : sizeOf t ≤ sizeOf error := sizeOf_foreign h
          simp only [driver.sizeOf_spec, DriverError.further.sizeOf_spec]
          omega
      | _ => cases h <;> simp
  | foreign e =>
      have hle : sizeOf t ≤ sizeOf e := sizeOf_foreign h
      rw [foreign.sizeOf_spec]
      omega

/-- The walk from a link comes to the failure behind some links. -/
inductive Reached (x : Failure) : List Source → Source → Prop
  | here : Reached x [] (.failure x)
  | next {s t : Source} {before : List Source} :
      s.next? = some t → Reached x before t → Reached x (s :: before) s

variable {x : Failure} {s : Source} {before after : List Source}

theorem reached_of_chain (h : s :: s.sources = before ++ .failure x :: after) :
    Reached x before s := by
  induction before generalizing s with
  | nil =>
      obtain ⟨rfl, _⟩ := List.cons.inj h
      exact .here
  | cons y before ih =>
      obtain ⟨rfl, hs⟩ := List.cons.inj h
      rw [sources_eq] at hs
      cases hnext : s.next? with
      | none => simp [hnext] at hs
      | some t => exact .next hnext (ih (by simpa [hnext] using hs))

/-- Along a chain links become smaller. -/
theorem Reached.sizeOf_lt (h : Reached x before s) :
    sizeOf (Source.failure x) ≤ sizeOf s ∧
      ∀ y ∈ before, sizeOf (Source.failure x) < sizeOf y := by
  induction h with
  | here => exact ⟨Nat.le_refl _, fun y hy => nomatch hy⟩
  | next hnext _ ih =>
      have hlt := Nat.lt_of_le_of_lt ih.1 (sizeOf_next hnext)
      exact ⟨Nat.le_of_lt hlt, List.forall_mem_cons.2 ⟨hlt, ih.2⟩⟩

end Source

end Walk

namespace Failure

/-- A failure and, behind it, the errors along its chain of sources. -/
def chain (e : Failure) : List Source := .failure e :: e.sources

/-- A search does not look below the failure, though the chain of its sources goes on. -/
def isSealed : Failure → Bool
  | .database _ => true
  | .other _ => true
  | .boxed _ => true
  | _ => false

section Agreement

variable {e x : Failure} {before after : List Source}

/-- What has something below it is not sealed. -/
theorem isSealed_of_mem_children {y : Failure} (h : y ∈ e.children) : e.isSealed = false := by
  cases e <;> first | rfl | cases h

/-- The chain of an error of a context does not go on. -/
theorem isContext_of_next {t : Source} (h : (Source.failure e).next? = some t) :
    e.isContext = false := by
  cases e <;> first | rfl | cases h

/-- The source of a failure that is not sealed is what it wraps. -/
theorem children_of_next {t : Source} (h : e.isSealed = false)
    (hnext : (Source.failure e).next? = some t) :
    ∃ inner, t = .failure inner ∧ e.children = [inner] := by
  cases e <;> cases hnext <;> first | exact ⟨_, rfl, rfl⟩ | cases h

/-- Behind wrappers a chain comes to parts of the failure. -/
theorem part_of_unsealed (h : Source.Reached x before (.failure e))
    (hopen : ∀ y, Source.failure y ∈ before → y.isSealed = false) : Part x e := by
  induction before generalizing e with
  | nil =>
      cases h
      exact .self
  | cons y before ih =>
      cases h with
      | next hnext h =>
          obtain ⟨inner, rfl, hinner⟩ := children_of_next (hopen e List.mem_cons_self) hnext
          have hrest := ih h fun y hy => hopen y (List.mem_cons_of_mem _ hy)
          exact .child (hinner ▸ List.mem_singleton_self inner) hrest

/-- If a sealed failure stands on the way, every part of the failure stands there, and none is
an error of a context. -/
theorem part_of_sealed (h : Source.Reached x before (.failure e)) {y z : Failure}
    (hy : Source.failure y ∈ before) (hsealed : y.isSealed = true) (hz : Part z e) :
    Source.failure z ∈ before ∧ z.isContext = false := by
  induction before generalizing e with
  | nil => cases hy
  | cons w before ih =>
      cases h with
      | next hnext h =>
          cases hz with
          | self => exact ⟨List.mem_cons_self, isContext_of_next hnext⟩
          | child hmem hz =>
              have hopen : e.isSealed = false := isSealed_of_mem_children hmem
              obtain ⟨inner, rfl, hinner⟩ := children_of_next hopen hnext
              rw [hinner, List.mem_singleton] at hmem
              subst hmem
              have hbefore : Source.failure y ∈ before := by
                rcases List.mem_cons.1 hy with heq | hmem
                · cases heq
                  cases hopen.symm.trans hsealed
                · exact hmem
              obtain ⟨hmem, hcontext⟩ := ih h hbefore hz
              exact ⟨List.mem_cons_of_mem _ hmem, hcontext⟩

/-- **What searches find on a chain.**  A failure on the chain of sources is found by every
search whose test it passes exactly if no sealed failure stands on the way to it, that is, if
the chain has not passed through an error of a driver or of an unknown type.  So where the
chain comes to an error of a context, the failure is a cancellation exactly if nothing sealed
stands in front of that. -/
theorem chain_found_iff (h : e.chain = before ++ .failure x :: after) :
    ((∀ test : Failure → Bool, test x = true → e.contains test = true) ↔
      ∀ y, Source.failure y ∈ before → y.isSealed = false) ∧
    (x.isContext = true →
      (e.isCancellation = true ↔ ∀ y, Source.failure y ∈ before → y.isSealed = false)) := by
  have hreached : Source.Reached x before (.failure e) := Source.reached_of_chain h
  have hfound : (∀ y, Source.failure y ∈ before → y.isSealed = false) →
      ∀ test : Failure → Bool, test x = true → e.contains test = true := by
    intro hopen test hx
    exact (contains_iff e).2 ⟨x, part_of_unsealed hreached hopen, hx⟩
  refine ⟨⟨fun hall y hy => ?_, hfound⟩, fun hx => ⟨fun hc y hy => ?_, fun hopen => ?_⟩⟩
  · -- the size tells the failure from all that stands in front of it
    refine eq_false_of_ne_true fun hsealed => ?_
    obtain ⟨z, hz, hsize⟩ :=
      (contains_iff e).1 (hall (fun z => sizeOf z == sizeOf x) (beq_self_eq_true _))
    have hlt := hreached.sizeOf_lt.2 _ (part_of_sealed hreached hy hsealed hz).1
    have heq : sizeOf z = sizeOf x := by simpa using hsize
    simp [heq] at hlt
  · refine eq_false_of_ne_true fun hsealed => ?_
    obtain ⟨c, hpart⟩ := (isCancellation_iff e).1 hc
    cases (part_of_sealed hreached hy hsealed hpart).2
  · exact hfound hopen isContext hx

/-- A cancellation is found below a mark and the failure of a rollback.  It is not found behind
an error that was handed over, nor behind an error of an unknown type that names it as the
source of its source. -/
theorem chain_found_iff_canceled :
    (Failure.stop (.rollbackFailed (.context .canceled))).isCancellation = true ∧
      ¬ (Failure.commitFailed (.boxed (.context .canceled))).isCancellation = true ∧
      ¬ (Failure.other (.above "save" (.holding "flush" (.context .canceled)))).isCancellation =
        true := by
  refine ⟨?_, fun hc => ?_, fun hc => ?_⟩
  · have h : (Failure.stop (.rollbackFailed (.context .canceled))).chain =
        [.failure (.stop (.rollbackFailed (.context .canceled))),
          .failure (.rollbackFailed (.context .canceled))] ++
        .failure (.context .canceled) :: [] := rfl
    exact ((chain_found_iff h).2 rfl).2 (by simp [isSealed])
  · have h : (Failure.commitFailed (.boxed (.context .canceled))).chain =
        [.failure (.commitFailed (.boxed (.context .canceled))),
          .failure (.boxed (.context .canceled))] ++
        .failure (.context .canceled) :: [] := rfl
    have hopen := ((chain_found_iff h).2 rfl).1 hc (.boxed (.context .canceled)) (by simp)
    cases hopen
  · have h : (Failure.other (.above "save" (.holding "flush" (.context .canceled)))).chain =
        [.failure (.other (.above "save" (.holding "flush" (.context .canceled)))),
          .foreign (.above "save" (.holding "flush" (.context .canceled))),
          .foreign (.holding "flush" (.context .canceled))] ++
        .failure (.context .canceled) :: [] := rfl
    have hopen := ((chain_found_iff h).2 rfl).1 hc _ List.mem_cons_self
    cases hopen

/-- A context error that was handed over stands on the chain of sources, and no search for
one finds it. -/
theorem boxed_cancellation_missed :
    ¬ ∀ (e x : Failure) (test : Failure → Bool), Source.failure x ∈ e.chain →
      test x = true → e.contains test = true := by
  intro h
  have hmem : Source.failure (.context .canceled) ∈
      (Failure.boxed (.context .canceled)).chain := by simp [chain, sources]
  have hfound := h _ _ isContext hmem rfl
  revert hfound
  decide

end Agreement

end Failure

end TransactionAttempts
