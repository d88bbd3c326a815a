import Mathlib.Data.List.Induction
import TransactionAttempts.Panic

/-!
# The captures of a thread

What a thread does to its captures is a sequence of moves: a captured poll begins or ends,
a panic is raised, or a panic is recovered and the record taken out.

**Nesting.**  `Closing n l` says that the moves end `n` captured polls that were in progress
and all those that they begin, so that no poll ends before those that began inside it.

**The record.**  A move touches the record if it raises a panic inside a captured poll or
recovers one.  `Latest a site` says that the last move that touched the record was a panic
raised at the site.

Main facts:

* `Closing.depth`: the depth is the number of captured polls in progress;
* `Closing.split`: a captured poll that begins comes to its end;
* `record_eq_some_iff`, `record_eq_none_iff`: what the record holds;
* `accounted`: what holds of all moves of a thread.
-/

namespace TransactionAttempts

namespace Capture

section Moves

inductive Move where
  /-- A captured poll begins. -/
  | entered
  /-- A captured poll ends. -/
  | left
  /-- A panic is raised, and its hook runs. -/
  | raised (site : PanicSite)
  /-- A panic is recovered, and what the record held is taken out. -/
  | recovered (record : Option PanicSite)
deriving DecidableEq

/-- The captures after a move. -/
def step (c : Capture) : Move → Capture
  | .entered => c.enter
  | .left => c.leave
  | .raised site => c.hook site
  | .recovered _ => c.take

def after (c : Capture) (l : List Move) : Capture := l.foldl step c

@[simp] theorem after_nil (c : Capture) : c.after [] = c := rfl

@[simp] theorem after_cons (c : Capture) (m : Move) (l : List Move) :
    c.after (m :: l) = (c.step m).after l := rfl

@[simp] theorem after_append (c : Capture) (l l' : List Move) :
    c.after (l ++ l') = (c.after l).after l' :=
  List.foldl_append

@[simp] theorem depth_hook (c : Capture) (site : PanicSite) : (c.hook site).depth = c.depth := by
  unfold hook
  split <;> rfl

/-- How many captured polls have begun and not ended. -/
def inProgress (l : List Move) : Int := l.count .entered - l.count .left

@[simp] theorem inProgress_nil : inProgress [] = 0 := rfl

@[simp] theorem inProgress_entered (l : List Move) :
    inProgress (.entered :: l) = inProgress l + 1 := by
  simp only [inProgress, List.count_cons]
  simp
  omega

@[simp] theorem inProgress_left (l : List Move) : inProgress (.left :: l) = inProgress l - 1 := by
  simp only [inProgress, List.count_cons]
  simp
  omega

@[simp] theorem inProgress_raised (site : PanicSite) (l : List Move) :
    inProgress (.raised site :: l) = inProgress l := by
  simp [inProgress]

@[simp] theorem inProgress_recovered (r : Option PanicSite) (l : List Move) :
    inProgress (.recovered r :: l) = inProgress l := by
  simp [inProgress]

end Moves

section Nesting

/-- The moves end `n` captured polls that were in progress, and all that they begin. -/
inductive Closing : Nat → List Move → Prop
  | nil : Closing 0 []
  | entered {n : Nat} {l : List Move} : Closing (n + 1) l → Closing n (.entered :: l)
  | left {n : Nat} {l : List Move} : Closing n l → Closing (n + 1) (.left :: l)
  | raised {n : Nat} {l : List Move} (site : PanicSite) :
      Closing n l → Closing n (.raised site :: l)
  | recovered {n : Nat} {l : List Move} (r : Option PanicSite) :
      Closing n l → Closing n (.recovered r :: l)

theorem Closing.append {n : Nat} {l l' : List Move} (h : Closing n l) (h' : Closing 0 l') :
    Closing n (l ++ l') := by
  induction h with
  | nil => exact h'
  | entered _ ih => exact .entered ih
  | left _ ih => exact .left ih
  | raised site _ ih => exact .raised site ih
  | recovered r _ ih => exact .recovered r ih

/-- Among moves that end `n` polls, the depth stands above what it was outside these polls by
the number of polls in progress. -/
theorem Closing.depth {n d : Nat} {a b : List Move} (h : Closing n (a ++ b)) {c : Capture}
    (hc : c.depth = d + n) :
    ∃ k, Closing k b ∧ (c.after a).depth = d + k ∧ (k : Int) = n + inProgress a := by
  induction a generalizing n c with
  | nil => exact ⟨n, h, hc, by simp⟩
  | cons m a ih =>
      cases h with
      | entered h =>
          obtain ⟨k, hk, hdepth, hcount⟩ := ih h (c := c.enter) (by
            show c.depth + 1 = _
            omega)
          exact ⟨k, hk, hdepth, by rw [hcount, inProgress_entered]; omega⟩
      | left h =>
          obtain ⟨k, hk, hdepth, hcount⟩ := ih h (c := c.leave) (by
            show c.depth - 1 = _
            omega)
          exact ⟨k, hk, hdepth, by rw [hcount, inProgress_left]; omega⟩
      | raised site h =>
          obtain ⟨k, hk, hdepth, hcount⟩ := ih h (c := c.hook site) (by rw [depth_hook, hc])
          exact ⟨k, hk, hdepth, by rw [hcount, inProgress_raised]⟩
      | recovered r h =>
          obtain ⟨k, hk, hdepth, hcount⟩ := ih h (c := c.take) hc
          exact ⟨k, hk, hdepth, by rw [hcount, inProgress_recovered]⟩

/-- Moves that end all polls they begin leave the depth as it was. -/
theorem Closing.depth_after {l : List Move} (h : Closing 0 l) (c : Capture) :
    (c.after l).depth = c.depth := by
  obtain ⟨k, hk, hdepth, _⟩ := Closing.depth (b := []) ((List.append_nil l).symm ▸ h) (c := c) rfl
  cases hk
  exact hdepth

/-- The end of a poll in progress: up to it, all polls that begin inside it end. -/
theorem Closing.split {i j : Nat} {l : List Move} (h : Closing (i + 1 + j) l) :
    ∃ m b, l = m ++ .left :: b ∧ Closing i m ∧ Closing j b := by
  induction l generalizing i with
  | nil =>
      generalize hn : i + 1 + j = n at h
      cases h
      omega
  | cons x l ih =>
      generalize hn : i + 1 + j = n at h
      cases h with
      | entered h =>
          obtain ⟨m, b, rfl, hm, hb⟩ := ih (i := i + 1) (by rwa [← hn, Nat.add_right_comm] at h)
          exact ⟨.entered :: m, b, rfl, .entered hm, hb⟩
      | @left n _ h =>
          cases i with
          | zero =>
              have hj : n = j := by omega
              exact ⟨[], l, rfl, .nil, hj ▸ h⟩
          | succ i =>
              have hi : n = i + 1 + j := by omega
              obtain ⟨m, b, rfl, hm, hb⟩ := ih (hi ▸ h)
              exact ⟨.left :: m, b, rfl, .left hm, hb⟩
      | raised site h =>
          obtain ⟨m, b, rfl, hm, hb⟩ := ih (hn ▸ h)
          exact ⟨.raised site :: m, b, rfl, .raised site hm, hb⟩
      | recovered r h =>
          obtain ⟨m, b, rfl, hm, hb⟩ := ih (hn ▸ h)
          exact ⟨.recovered r :: m, b, rfl, .recovered r hm, hb⟩

end Nesting

section Record

/-- At every moment the depth is the number of captured polls in progress. -/
def Counted (l : List Move) : Prop :=
  ∀ a b, l = a ++ b → ((idle.after a).depth : Int) = inProgress a

theorem Closing.counted {l : List Move} (h : Closing 0 l) : Counted l := by
  rintro a b rfl
  obtain ⟨k, _, hdepth, hcount⟩ := Closing.depth h (d := 0) (c := idle) rfl
  rw [hdepth]
  omega

theorem Counted.before {a b : List Move} (h : Counted (a ++ b)) : Counted a := by
  rintro a₁ a₂ rfl
  exact h a₁ (a₂ ++ b) (List.append_assoc _ _ _)

theorem Counted.whole {l : List Move} (h : Counted l) :
    ((idle.after l).depth : Int) = inProgress l :=
  h l [] (List.append_nil l).symm

/-- A move that comes after some others touches the record: it recovers a panic, or raises
one inside a captured poll. -/
def Touches (a : List Move) : Move → Prop
  | .raised _ => 0 < inProgress a
  | .recovered _ => True
  | _ => False

/-- No move of the second list, which comes after the first, touches the record. -/
def Untouched (a l : List Move) : Prop :=
  ∀ l₁ m l₂, l = l₁ ++ m :: l₂ → ¬ Touches (a ++ l₁) m

/-- The last move that touched the record was a panic raised at the site. -/
def Latest (a : List Move) (site : PanicSite) : Prop :=
  ∃ a₁ a₂, a = a₁ ++ .raised site :: a₂ ∧ 0 < inProgress a₁ ∧
    Untouched (a₁ ++ [.raised site]) a₂

theorem untouched_nil (a : List Move) : Untouched a [] := by
  rintro l₁ m l₂ hsplit
  cases l₁ <;> cases hsplit

theorem Untouched.snoc {a l : List Move} {m : Move} (h : Untouched a l)
    (hm : ¬ Touches (a ++ l) m) : Untouched a (l ++ [m]) := by
  rintro l₁ m' l₂ hsplit
  rcases List.append_eq_append_iff.1 hsplit with ⟨k, rfl, hk⟩ | ⟨k, rfl, hk⟩
  · cases k with
    | nil =>
        cases hk
        rwa [List.append_nil]
    | cons _ k => cases k <;> cases hk
  · cases k with
    | nil =>
        cases hk
        rwa [List.append_nil] at hm
    | cons x k =>
        cases hk
        exact h l₁ m' k rfl

theorem Untouched.before {a l l' : List Move} (h : Untouched a (l ++ l')) : Untouched a l := by
  rintro l₁ m l₂ rfl
  exact h l₁ m (l₂ ++ l') (by simp)

theorem Latest.snoc {a : List Move} {site : PanicSite} {m : Move} (h : Latest a site)
    (hm : ¬ Touches a m) : Latest (a ++ [m]) site := by
  obtain ⟨a₁, a₂, rfl, hin, hrest⟩ := h
  refine ⟨a₁, a₂ ++ [m], by simp, hin, hrest.snoc ?_⟩
  simpa using hm

/-- A move that does not touch the record leaves it as it is. -/
theorem record_step {a : List Move} {c : Capture} {m : Move}
    (hc : (c.depth : Int) = inProgress a) (hm : ¬ Touches a m) :
    (c.step m).record = c.record := by
  cases m with
  | entered => rfl
  | left => rfl
  | raised site =>
      have hout : ¬ 0 < inProgress a := hm
      have hdepth : ¬ c.depth > 0 := by omega
      show (c.hook site).record = _
      rw [hook, if_neg hdepth]
  | recovered r => exact absurd trivial hm

/-- What the record holds was left by the latest panic. -/
theorem latest_of_record {a : List Move} {site : PanicSite} (hcount : Counted a)
    (h : (idle.after a).record = some site) : Latest a site := by
  induction a using List.reverseRecOn with
  | nil => cases h
  | append_singleton a m ih =>
      have hdepth := hcount.before.whole
      rw [after_append] at h
      replace h : ((idle.after a).step m).record = some site := h
      by_cases hm : Touches a m
      · cases m with
        | entered => cases hm
        | left => cases hm
        | raised site' =>
            have hin : 0 < inProgress a := hm
            have hsite := (record_hook (c := idle.after a) (by omega) site').symm.trans h
            cases hsite
            exact ⟨a, [], rfl, hin, untouched_nil _⟩
        | recovered r => cases h
      · rw [record_step hdepth hm] at h
        exact (ih hcount.before h).snoc hm

theorem record_untouched {a l : List Move} (hcount : Counted (a ++ l)) (h : Untouched a l) :
    (idle.after (a ++ l)).record = (idle.after a).record := by
  induction l using List.reverseRecOn with
  | nil => rw [List.append_nil]
  | append_singleton l m ih =>
      rw [← List.append_assoc] at hcount ⊢
      have hm : ¬ Touches (a ++ l) m := h l m [] rfl
      rw [← ih hcount.before h.before, after_append]
      exact record_step hcount.before.whole hm

/-- The record holds the site of the latest panic that was raised inside a captured poll,
unless a panic has been recovered since. -/
theorem record_eq_some_iff {a : List Move} {site : PanicSite} (hcount : Counted a) :
    (idle.after a).record = some site ↔ Latest a site := by
  refine ⟨latest_of_record hcount, ?_⟩
  rintro ⟨a₁, a₂, rfl, hin, hrest⟩
  have hsplit : a₁ ++ .raised site :: a₂ = (a₁ ++ [.raised site]) ++ a₂ := by simp
  have hdepth := hcount.before.whole
  rw [hsplit] at hcount ⊢
  rw [record_untouched hcount hrest, after_append]
  exact record_hook (by omega) site

/-- Without a recovery, a record that holds a site goes on to hold one. -/
theorem record_kept {c : Capture} {l : List Move} (hc : c.record ≠ none)
    (hl : ∀ r, .recovered r ∉ l) : (c.after l).record ≠ none := by
  induction l generalizing c with
  | nil => exact hc
  | cons m l ih =>
      refine ih ?_ fun r hr => hl r (List.mem_cons_of_mem _ hr)
      cases m with
      | entered => exact hc
      | left => exact hc
      | raised site =>
          show (c.hook site).record ≠ none
          unfold hook
          split
          · simp
          · exact hc
      | recovered r => exact absurd List.mem_cons_self (hl r)

/-- The record is empty if every panic that was raised inside a captured poll has been followed
by a recovery. -/
theorem record_eq_none_iff {a : List Move} (hcount : Counted a) :
    (idle.after a).record = none ↔
      ∀ a₁ site a₂, a = a₁ ++ .raised site :: a₂ → 0 < inProgress a₁ →
        ∃ r, .recovered r ∈ a₂ := by
  constructor
  · rintro hnone a₁ site a₂ rfl hin
    by_contra hno
    have hdepth := hcount.before.whole
    have hraised : ((idle.after a₁).step (.raised site)).record ≠ none := by
      show ((idle.after a₁).hook site).record ≠ none
      rw [record_hook (by omega)]
      simp
    rw [after_append, after_cons] at hnone
    exact record_kept hraised (fun r hr => hno ⟨r, hr⟩) hnone
  · intro hall
    by_contra hsome
    obtain ⟨site, hsite⟩ := Option.ne_none_iff_exists'.1 hsome
    obtain ⟨a₁, a₂, rfl, hin, hrest⟩ := latest_of_record hcount hsite
    obtain ⟨r, hr⟩ := hall a₁ site a₂ rfl hin
    obtain ⟨b₁, b₂, rfl⟩ := List.append_of_mem hr
    exact hrest b₁ _ b₂ rfl trivial

end Record

section Histories

/-- Each recovery takes out what the record held. -/
def Answered : Capture → List Move → Prop
  | _, [] => True
  | c, m :: l => (∀ r, m = .recovered r → r = c.record) ∧ Answered (c.step m) l

theorem answered_append {c : Capture} {l l' : List Move} :
    Answered c (l ++ l') ↔ Answered c l ∧ Answered (c.after l) l' := by
  induction l generalizing c with
  | nil => simp [Answered]
  | cons m l ih => simp only [List.cons_append, Answered, ih, after_cons, and_assoc]

/-- What holds of all that a thread does to its captures, from its start on. -/
structure Accounted (l : List Move) : Prop where
  /-- The depth is at every moment the number of captured polls in progress. -/
  depth : ∀ a b, l = a ++ b → ((idle.after a).depth : Int) = inProgress a
  /-- No captured poll ends at depth zero. -/
  unclipped : ∀ a b, l = a ++ .left :: b → 0 < (idle.after a).depth
  /-- Every captured poll comes to its end, after all those inside it, and the depth is then
  what it was before. -/
  restored : ∀ a b, l = a ++ .entered :: b → ∃ m b', b = m ++ .left :: b' ∧ Closing 0 m ∧
    (idle.after (a ++ .entered :: (m ++ [.left]))).depth = (idle.after a).depth
  /-- A panic leaves a record exactly if it is raised inside a captured poll. -/
  stored : ∀ a site b, l = a ++ .raised site :: b →
    (0 < inProgress a → (idle.after (a ++ [.raised site])).record = some site) ∧
      (¬ 0 < inProgress a → idle.after (a ++ [.raised site]) = idle.after a)
  /-- A recovery finds the site of the latest panic that was raised inside a captured poll
  since the recovery before. -/
  found : ∀ a r b, l = a ++ .recovered r :: b → ∀ site, r = some site ↔ Latest a site
  /-- It finds nothing exactly if there was no such panic. -/
  missed : ∀ a r b, l = a ++ .recovered r :: b →
    (r = none ↔ ∀ a₁ site a₂, a = a₁ ++ .raised site :: a₂ → 0 < inProgress a₁ →
      ∃ r', .recovered r' ∈ a₂)
  /-- The failure that the panic becomes tells that site, or none. -/
  told : ∀ a r b, l = a ++ .recovered r :: b → ∀ p : Payload,
    (∀ site, Latest a site →
      p.failure r = .panic p.message (some site.location) site.stack) ∧
    ((∀ site, ¬ Latest a site) → p.failure r = .panic p.message none Payload.recoveryStack)
  /-- It leaves the record empty. -/
  emptied : ∀ a r b, l = a ++ .recovered r :: b → (idle.after (a ++ [.recovered r])).record = none
  /-- What a recovery finds was raised after the recovery before. -/
  fresh : ∀ a r m site b, l = a ++ .recovered r :: (m ++ .recovered (some site) :: b) →
    ∃ m₁ m₂, m = m₁ ++ .raised site :: m₂ ∧ 0 < inProgress (a ++ .recovered r :: m₁)
  /-- If panics are raised at a location outside captured polls only, no failure tells it. -/
  outside : ∀ location,
    (∀ a site b, l = a ++ .raised site :: b → site.location = location → ¬ 0 < inProgress a) →
    ∀ r, .recovered r ∈ l → ∀ (p : Payload) (message stack : String),
      p.failure r ≠ .panic message (some location) stack

theorem Answered.record {c : Capture} {a b : List Move} {r : Option PanicSite}
    (h : Answered c (a ++ .recovered r :: b)) : r = (c.after a).record :=
  (answered_append.1 h).2.1 r rfl

/-- A failure that tells a location tells that of the site it was made with. -/
theorem exists_site_of_failure {p : Payload} {r : Option PanicSite}
    {message location stack : String}
    (h : p.failure r = .panic message (some location) stack) :
    ∃ site, r = some site ∧ site.location = location := by
  cases r with
  | none => cases h
  | some site =>
      cases h
      exact ⟨site, rfl, rfl⟩

/-- If the latest panic comes before a recovery, it does not come before that recovery. -/
theorem Latest.fresh {a m : List Move} {r : Option PanicSite} {site : PanicSite}
    (h : Latest (a ++ .recovered r :: m) site) :
    ∃ m₁ m₂, m = m₁ ++ .raised site :: m₂ ∧ 0 < inProgress (a ++ .recovered r :: m₁) := by
  obtain ⟨a₁, a₂, hsplit, hin, hrest⟩ := h
  rcases List.append_eq_append_iff.1 hsplit with ⟨k, rfl, hk⟩ | ⟨k, rfl, hk⟩
  · cases k with
    | nil => cases hk
    | cons x k =>
        cases hk
        exact ⟨k, a₂, rfl, hin⟩
  · cases k with
    | nil => cases hk
    | cons x k =>
        cases hk
        exact absurd trivial (hrest k _ m rfl)

/-- A poll that ends is in progress, and the depth tells so. -/
theorem Closing.unclipped {a b : List Move} (h : Closing 0 (a ++ .left :: b)) :
    0 < (idle.after a).depth := by
  obtain ⟨k, hk, hdepth, _⟩ := h.depth (d := 0) (c := idle) rfl
  cases hk
  omega

/-- A poll that begins comes to its end, and the depth is then what it was before. -/
theorem Closing.restored {a b : List Move} (h : Closing 0 (a ++ .entered :: b)) :
    ∃ m b', b = m ++ .left :: b' ∧ Closing 0 m ∧
      (idle.after (a ++ .entered :: (m ++ [.left]))).depth = (idle.after a).depth := by
  obtain ⟨k, hk, _, _⟩ := h.depth (d := 0) (c := idle) rfl
  cases hk with
  | entered hk =>
      obtain ⟨m, b', rfl, hm, _⟩ := Closing.split (i := 0) (by rwa [Nat.zero_add, Nat.add_comm])
      refine ⟨m, b', rfl, hm, ?_⟩
      have hinside := hm.depth_after (idle.after a).enter
      rw [after_append, after_cons, after_append]
      calc
        _ = ((idle.after a).enter.after m).depth - 1 := rfl
        _ = (idle.after a).enter.depth - 1 := by rw [hinside]
        _ = (idle.after a).depth := rfl

/-- **The captures of a thread.**  All that its nested captured polls do to them from its start
on, the panics raised and the recoveries made in between included. -/
theorem accounted {l : List Move} (hclosing : Closing 0 l) (hanswered : Answered idle l) :
    Accounted l := by
  have hcounted := hclosing.counted
  have hrecord : ∀ {a r b}, l = a ++ .recovered r :: b → Counted a ∧ r = (idle.after a).record := by
    rintro a r b rfl
    exact ⟨hcounted.before, hanswered.record⟩
  have hfound : ∀ a r b, l = a ++ .recovered r :: b → ∀ site, r = some site ↔ Latest a site := by
    intro a r b hl site
    obtain ⟨hcount, rfl⟩ := hrecord hl
    exact record_eq_some_iff hcount
  refine
    { depth := hcounted
      unclipped := ?_
      restored := ?_
      stored := ?_
      found := hfound
      missed := ?_
      told := ?_
      emptied := ?_
      fresh := ?_
      outside := ?_ }
  · rintro a b rfl
    exact hclosing.unclipped
  · rintro a b rfl
    exact hclosing.restored
  · rintro a site b rfl
    have hdepth := hcounted.before.whole
    rw [after_append]
    refine ⟨fun hin => record_hook (by omega) site, fun hout => ?_⟩
    exact if_neg (by omega)
  · rintro a r b hl
    obtain ⟨hcount, rfl⟩ := hrecord hl
    exact record_eq_none_iff hcount
  · intro a r b hl p
    refine ⟨fun site hlatest => ?_, fun hnone => ?_⟩
    · rw [(hfound a r b hl site).2 hlatest]
      rfl
    · cases r with
      | none => rfl
      | some site => exact absurd ((hfound a _ b hl site).1 rfl) (hnone site)
  · rintro a r b -
    rw [after_append]
    rfl
  · rintro a r m site b hl
    have hl' : l = (a ++ .recovered r :: m) ++ .recovered (some site) :: b := by
      rw [hl, List.append_assoc, List.cons_append]
    exact ((hfound _ _ _ hl' site).1 rfl).fresh
  · intro location hout r hr p message stack hp
    obtain ⟨site, rfl, hlocation⟩ := exists_site_of_failure hp
    obtain ⟨a, b, hl⟩ := List.append_of_mem hr
    obtain ⟨a₁, a₂, rfl, hin, _⟩ := (hfound a _ b hl site).1 rfl
    exact hout a₁ site (a₂ ++ .recovered (some site) :: b) (by simp [hl]) hlocation hin

end Histories

end Capture

end TransactionAttempts
