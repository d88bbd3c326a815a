import TransactionAttempts.Proofs.Writing

/-!
# What a run publishes

**Pools.**  A pool is transactional if a begin opens a transaction in which nothing was
written, a successful commit publishes what was written in its transaction, and nothing
else publishes anything.

Main facts:

* `publishes_steps`, `publishes_attempt`: what the steps and an attempt do to the store;
* `run_publishes`: a run publishes all writes of its last attempt, or nothing.
-/

namespace TransactionAttempts

variable {ρ τ ω : Type}

section Pools

/-- What is required of a pool.  Each rule looks at a call that returns. -/
structure Pool.Transactional (pool : Pool (Store ρ τ ω) ω τ) : Prop where
  begin_ok : ∀ ctx w tx v, (pool.begin ctx).run w = (.returned (.ok tx), v) →
    v.state.published = w.state.published ∧ v.state.pending tx = []
  begin_error : ∀ ctx w e v, (pool.begin ctx).run w = (.returned (.error e), v) →
    v.state.published = w.state.published
  commit_ok : ∀ tx ctx w v, (pool.commit tx ctx).run w = (.returned (.ok ()), v) →
    v.state.published = w.state.published ++ w.state.pending tx
  commit_error : ∀ tx ctx w e v, (pool.commit tx ctx).run w = (.returned (.error e), v) →
    v.state.published = w.state.published
  rollback : ∀ tx ctx w r v, (pool.rollback tx ctx).run w = (.returned r, v) →
    v.state.published = w.state.published

/-- A pool that refuses as many commits as the rest of its store says. -/
def Pool.refusing : Pool (Store Nat Unit ω) ω Unit where
  begin _ := do
    Async.modify fun s => { s with pending := fun _ => [] }
    return .ok ()
  commit _ _ := do
    let s ← Async.get
    match s.rest with
    | 0 =>
        Async.modify fun s => { s with published := s.published ++ s.pending () }
        return .ok ()
    | n + 1 =>
        Async.modify fun s => s.withRest n
        return .error (.other "refused")
  rollback _ _ := return .ok ()

theorem Pool.transactional_refusing :
    (Pool.refusing : Pool (Store Nat Unit ω) ω Unit).Transactional where
  begin_ok ctx w tx v h := by
    cases h
    exact ⟨rfl, rfl⟩
  begin_error ctx w e v h := by cases h
  commit_ok tx ctx w v h := by
    obtain ⟨timeline, capture, source, draws, ⟨rest, published, pending⟩, trace⟩ := w
    cases rest with
    | zero =>
        cases h
        rfl
    | succ n => cases h
  commit_error tx ctx w e v h := by
    obtain ⟨timeline, capture, source, draws, ⟨rest, published, pending⟩, trace⟩ := w
    cases rest with
    | zero => cases h
    | succ n =>
        cases h
        rfl
  rollback tx ctx w r v h := by
    cases h
    rfl

/-- Whenever something is called, exactly the given writes have been published. -/
def CallsAt (s : List ω) (l : Story (Store ρ τ ω) (Recorded ω τ)) : Prop :=
  ∀ y ∈ l, ∀ c, y.2 = .mark (.called c) → y.1.state.published = s

theorem callsAt_iff {s : List ω} {l : Story (Store ρ τ ω) (Recorded ω τ)} :
    CallsAt s l ↔ AtCalls (fun w _ => w.state.published = s) l :=
  Iff.rfl

theorem CallsAt.append {s : List ω} {l l' : Story (Store ρ τ ω) (Recorded ω τ)}
    (h : CallsAt s l) (h' : CallsAt s l') : CallsAt s (l ++ l') :=
  List.forall_mem_append.2 ⟨h, h'⟩

theorem callsAt_notice (s : List ω) (w : World (Store ρ τ ω) (Recorded ω τ)) (n : Notice) :
    CallsAt s [(w, .notice n)] :=
  callsAt_iff.2 (atCalls_notice w n)

variable {w v : World (Store ρ τ ω) (Recorded ω τ)} {l : Story (Store ρ τ ω) (Recorded ω τ)}

theorem callsAt_watch {E : Surroundings (Store ρ τ ω) (Recorded ω τ)} {c : Call τ}
    {x : Async (Store ρ τ ω) ω c.Reply} {o : Outcome c.Reply}
    (h : (Async.watch c x).Exec E w l o v) : CallsAt w.state.published l :=
  callsAt_iff.2 (atCalls_watch rfl h)

/-- A watched call of a pool that returns does so in the same way unwatched. -/
theorem run_watch {c : Call τ} {x : Async (Store ρ τ ω) ω c.Reply} {r : c.Reply}
    (h : (Async.watch c x).Exec .clock w l (.returned r) v) :
    ∃ u : World (Store ρ τ ω) ω, x.run w.untraced = (.returned r, u) ∧ u.state = v.state := by
  rcases Async.exec_watch h with ⟨r', u, l', hx, hr, rfl, _⟩ | ⟨_, _, ho, _⟩
  · cases hr
    obtain ⟨_, hrun⟩ := Async.eq_run_of_exec hx
    obtain ⟨ho, hagree⟩ := (Async.alike_within c x).run
      (World.agree_untraced (w.log (.mark (.called c))))
    rw [hrun] at ho hagree
    exact ⟨_, Prod.ext ho rfl, hagree.state⟩
  · cases ho

/-- What a watched call of a pool leaves is no write, except that a begin forgets the
writes of the transaction before. -/
theorem writtenFrom_watch {E : Surroundings (Store ρ τ ω) (Recorded ω τ)} {c : Call τ}
    (hc : ∀ i tx, c ≠ .step i tx) {x : Async (Store ρ τ ω) ω c.Reply} {o : Outcome c.Reply}
    (h : (Async.watch c x).Exec E w l o v) (acc : List (Nat × ω)) :
    writtenFrom acc l = writtenAfter acc (.mark (.called c)) := by
  rcases Async.exec_watch h with ⟨r, u, l', hx, _, _, rfl⟩ | ⟨l', hx, _, rfl⟩
  · rw [← List.singleton_append, writtenFrom_append, writtenFrom_append,
      writtenFrom_within hc _ l' (Async.exec_within hx)]
    rfl
  · rw [← List.singleton_append, writtenFrom_append,
      writtenFrom_within hc _ l' (Async.exec_within hx)]
    rfl

end Pools

section Attempts

variable {pool : Pool (Store ρ τ ω) ω τ} {ctx : ContextId} {grace : Duration} {k : UInt32}
  {w v : World (Store ρ τ ω) (Recorded ω τ)}
  {l : Story (Store ρ τ ω) (Recorded ω τ)}

/-- A begin publishes nothing, forgets all writes, and opens a transaction without any. -/
theorem publishes_begin (hp : pool.Transactional) {given : ContextId}
    {o : Outcome (Except Failure τ)} (h : (pool.watched.begin given).Exec .clock w l o v) :
    CallsAt w.state.published l ∧ (∀ acc, writtenFrom acc l = []) ∧
      (∀ r, o = .returned r → v.state.published = w.state.published) ∧
      ∀ tx, o = .returned (.ok tx) → v.state.pending tx = [] := by
  have h' := Pool.exec_begin h
  have hret : ∀ r, o = .returned r → v.state.published = w.state.published ∧
      ∀ tx, r = .ok tx → v.state.pending tx = [] := by
    intro r hr
    subst hr
    obtain ⟨u, hrun, hu⟩ := run_watch h'
    rw [← hu]
    cases r with
    | error e => exact ⟨hp.begin_error given _ e u hrun, fun tx htx => (nomatch htx)⟩
    | ok tx =>
        obtain ⟨hpub, hpend⟩ := hp.begin_ok given _ tx u hrun
        refine ⟨hpub, fun tx' htx => ?_⟩
        cases htx
        exact hpend
  exact ⟨callsAt_watch h', writtenFrom_watch (by simp) h', fun r hr => (hret r hr).1,
    fun tx htx => (hret _ htx).2 tx rfl⟩

/-- A commit is no write, and it publishes what was written in its transaction or nothing. -/
theorem publishes_commit (hp : pool.Transactional) {tx : τ} {given : ContextId}
    {o : Outcome Result} (h : (pool.watched.commit tx given).Exec .clock w l o v) :
    CallsAt w.state.published l ∧ (∀ acc, writtenFrom acc l = acc) ∧
      (∀ e, o = .returned (.error e) → v.state.published = w.state.published) ∧
      (o = .returned (.ok ()) →
        v.state.published = w.state.published ++ w.state.pending tx) := by
  have h' := Pool.exec_commit h
  refine ⟨callsAt_watch h', writtenFrom_watch (by simp) h', fun e he => ?_, fun ho => ?_⟩
  · subst he
    obtain ⟨u, hrun, hu⟩ := run_watch h'
    rw [← hu]
    exact hp.commit_error tx given _ e u hrun
  · subst ho
    obtain ⟨u, hrun, hu⟩ := run_watch h'
    rw [← hu]
    exact hp.commit_ok tx given _ u hrun

/-- A rollback publishes nothing. -/
theorem publishes_rollback (hp : pool.Transactional) {tx : τ} {given : ContextId}
    {o : Outcome Result} (h : (pool.watched.rollback tx given).Exec .clock w l o v) :
    CallsAt w.state.published l ∧
      ∀ r, o = .returned r → v.state.published = w.state.published := by
  have h' := Pool.exec_rollback h
  refine ⟨callsAt_watch h', fun r hr => ?_⟩
  subst hr
  obtain ⟨u, hrun, hu⟩ := run_watch h'
  rw [← hu]
  exact hp.rollback tx given _ r u hrun

theorem publishes_undoing (hp : pool.Transactional) {tx : τ} {given : ContextId}
    {o : Outcome (Option Failure)}
    (h : Pool.Undoing .clock pool.watched k tx given w l o v) :
    CallsAt w.state.published l ∧
      ∀ r, o = .returned r → v.state.published = w.state.published := by
  cases h with
  | done hx =>
      obtain ⟨hcalls, hpub⟩ := publishes_rollback hp hx
      exact ⟨hcalls.append (callsAt_notice _ _ _), fun _ _ => hpub _ rfl⟩
  | failed hx =>
      obtain ⟨hcalls, hpub⟩ := publishes_rollback hp hx
      exact ⟨hcalls.append (callsAt_notice _ _ _), fun _ _ => hpub _ rfl⟩
  | lost hx ho =>
      obtain ⟨hcalls, _⟩ := publishes_rollback hp hx
      exact ⟨hcalls, fun r hr => absurd hr (ho.right r)⟩

theorem publishes_undone (hp : pool.Transactional) {tx : τ} {o : Outcome (Option Failure)}
    (h : Pool.Undone .clock pool.watched ctx grace k tx w l o v) :
    CallsAt w.state.published l ∧
      ∀ r, o = .returned r → v.state.published = w.state.published := by
  cases h with
  | live _ hu => exact publishes_undoing hp hu
  | late _ hu =>
      have hgrace := publishes_undoing hp hu
      exact hgrace

/-- What an attempt or a run at `n` steps does to the store.  If it succeeds, what the
steps wrote since the latest begin has been published, and if it fails, nothing has. -/
structure Publishes (n : Nat) (w : World (Store ρ τ ω) (Recorded ω τ))
    (l : Story (Store ρ τ ω) (Recorded ω τ)) (o : Outcome Result)
    (v : World (Store ρ τ ω) (Recorded ω τ)) : Prop where
  calls : CallsAt w.state.published l
  error : ∀ e, o = .returned (.error e) → v.state.published = w.state.published
  ok : o = .returned (.ok ()) → ∃ new : List (Nat × ω), InOrder 0 n new ∧
    v.state.published = w.state.published ++ new.map Prod.snd ∧ ∀ acc, writtenFrom acc l = new

/-- Whatever does not return has to answer for its calls only. -/
theorem publishes_unreturned {n : Nat} {o : Outcome Result} (ho : o.Unreturned)
    (h : CallsAt w.state.published l) : Publishes n w l o v where
  calls := h
  error _ he := absurd he (ho _)
  ok hr := absurd hr (ho _)

variable [DecidableEq τ]

/-- What a step in a transaction does to the store, and what its story tells of it. -/
structure Writes (tx : τ) (i : Nat) (xs : List ω) (w : World (Store ρ τ ω) (Recorded ω τ))
    (l : Story (Store ρ τ ω) (Recorded ω τ)) (v : World (Store ρ τ ω) (Recorded ω τ)) : Prop where
  calls : CallsAt w.state.published l
  published : v.state.published = w.state.published
  pending : v.state.pending tx = w.state.pending tx ++ xs
  written : ∀ acc, writtenFrom acc l = acc ++ xs.map (i, ·)

theorem writes_bracketed {tx : τ} {i : Nat} {step : Step (Store ρ τ ω) ω τ}
    {o : Outcome Result} (h : (step.writing.watched i tx).bracketed.Exec .clock w l o v) :
    ∃ xs, Writes tx i xs w l v := by
  obtain ⟨o', hx, _, _⟩ := Step.exec_watched h
  have hcalls := callsAt_watch hx
  have hwriting : (step.writing tx).caught.bracketed =
      ((step tx).caught.bracketed).writing tx := by
    rw [Step.writing, Async.caught_writing, Async.bracketed_writing]
  rw [hwriting] at hx
  rcases Async.exec_watch hx with ⟨r, u, l', hl', _, rfl, rfl⟩ | ⟨l', hl', _, rfl⟩
  · obtain ⟨xs, hpub, hpend, hwritten⟩ := exec_writing hl'
    refine ⟨xs, hcalls, hpub, hpend, fun acc => ?_⟩
    rw [← List.singleton_append, writtenFrom_append, writtenFrom_append]
    exact hwritten acc
  · obtain ⟨xs, hpub, hpend, hwritten⟩ := exec_writing hl'
    exact ⟨xs, hcalls, hpub, hpend, hwritten⟩

theorem writes_ran {tx : τ} {i : Nat} {step : Step (Store ρ τ ω) ω τ} {o : Outcome Result}
    (h : Pool.Ran .clock k i (step.writing.watched i tx) w l o v) : ∃ xs, Writes tx i xs w l v := by
  cases h with
  | returned hb =>
      obtain ⟨xs, hcalls, hpub, hpend, hwritten⟩ := writes_bracketed hb
      exact ⟨xs, hcalls, hpub, hpend, hwritten⟩
  | panicked hb _ =>
      obtain ⟨xs, hcalls, hpub, hpend, hwritten⟩ := writes_bracketed hb
      refine ⟨xs, hcalls.append (callsAt_notice _ _ _), hpub, hpend, fun acc => ?_⟩
      rw [writtenFrom_append, hwritten]
      rfl
  | stalled hb =>
      obtain ⟨xs, hcalls, hpub, hpend, hwritten⟩ := writes_bracketed hb
      exact ⟨xs, hcalls, hpub, hpend, hwritten⟩

/-- The steps publish nothing.  If they all pass, what they wrote is in their transaction. -/
theorem publishes_steps (hp : pool.Transactional) {tx : τ} {i : Nat}
    {steps : List (Step (Store ρ τ ω) ω τ)} {o : Outcome Result}
    (h : Pool.StepsCourse .clock pool.watched ctx grace k tx i
      (watchSteps i (steps.map Step.writing)) w l o v) :
    CallsAt w.state.published l ∧
      (∀ r, o = .returned r → v.state.published = w.state.published) ∧
      (o = .returned (.ok ()) → ∃ new : List (Nat × ω), InOrder i steps.length new ∧
        v.state.pending tx = w.state.pending tx ++ new.map Prod.snd ∧
        ∀ acc, writtenFrom acc l = acc ++ new) := by
  induction steps generalizing i w l with
  | nil =>
      cases h with
      | passed =>
          refine ⟨fun y hy => absurd hy List.not_mem_nil, fun _ _ => rfl,
            fun _ => ⟨[], ⟨.nil, ?_⟩, ?_, ?_⟩⟩
          · simp
          · simp
          · simp [writtenFrom]
  | cons step rest ih =>
      cases h with
      | @interrupted _ _ _ _ _ _ o c he hu =>
          obtain ⟨hcalls, hlast⟩ := publishes_undoing hp hu
          refine ⟨hcalls, fun r hr => ?_, fun hr => ?_⟩
          · cases o with
            | returned a => exact hlast a rfl
            | unwound p => cases hr
            | stalled => cases hr
          · cases o <;> cases hr
      | stalled he hs =>
          obtain ⟨xs, hw⟩ := writes_ran hs
          refine ⟨hw.calls, fun r hr => ?_, fun hr => ?_⟩
          · cases hr
          · cases hr
      | @failed _ _ _ _ u _ l₁ l₂ e o he hs hu =>
          obtain ⟨xs, hw⟩ := writes_ran hs
          obtain ⟨hcalls, hlast⟩ := publishes_undone hp hu
          rw [hw.published] at hcalls hlast
          refine ⟨hw.calls.append hcalls, fun r hr => ?_, fun hr => ?_⟩
          · cases o with
            | returned a => exact hlast a rfl
            | unwound p => cases hr
            | stalled => cases hr
          · cases o <;> cases hr
      | next he hs hrest =>
          obtain ⟨xs, hw⟩ := writes_ran hs
          obtain ⟨hcalls, hlast, hnew⟩ := ih hrest
          rw [hw.published] at hcalls hlast
          refine ⟨hw.calls.append hcalls, hlast, fun hr => ?_⟩
          obtain ⟨new, horder, hpend, hwritten⟩ := hnew hr
          refine ⟨xs.map (i, ·) ++ new, horder.cons xs, ?_, fun acc => ?_⟩
          · rw [hpend, hw.pending, List.map_append, List.map_map, List.append_assoc]
            exact congrArg (fun l => w.state.pending tx ++ (l ++ _)) (List.map_id xs).symm
          · rw [writtenFrom_append, hw.written, hwritten, List.append_assoc]

/-- A transaction that was begun, and the steps in it.  Nothing is published, and if all
steps pass, what they wrote since the begin is what the transaction holds. -/
theorem publishes_opened (hp : pool.Transactional) {tx : τ}
    {steps : List (Step (Store ρ τ ω) ω τ)} {u : World (Store ρ τ ω) (Recorded ω τ)}
    {l' : Story (Store ρ τ ω) (Recorded ω τ)} {o : Outcome Result}
    (hb : (pool.watched.begin ctx).Exec .clock w l (.returned (.ok tx)) u)
    (hs : Pool.StepsCourse .clock pool.watched ctx grace k tx 0
      (watchSteps 0 (steps.map Step.writing)) u l' o v) :
    CallsAt w.state.published (l ++ l') ∧
      (∀ r, o = .returned r → v.state.published = w.state.published) ∧
      (o = .returned (.ok ()) → ∃ new : List (Nat × ω), InOrder 0 steps.length new ∧
        v.state.pending tx = new.map Prod.snd ∧ ∀ acc, writtenFrom acc (l ++ l') = new) := by
  obtain ⟨hcalls, hreset, hpub, hempty⟩ := publishes_begin hp hb
  obtain ⟨hcalls', hpub', hnew⟩ := publishes_steps hp hs
  rw [hpub _ rfl] at hcalls' hpub'
  refine ⟨hcalls.append hcalls', hpub', fun hr => ?_⟩
  obtain ⟨new, horder, hpend, hwritten⟩ := hnew hr
  refine ⟨new, horder, ?_, fun acc => ?_⟩
  · rw [hpend, hempty _ rfl, List.nil_append]
  · rw [writtenFrom_append, hreset, hwritten, List.nil_append]

/-- An attempt that succeeds publishes its own writes.  One that fails publishes nothing. -/
theorem publishes_attempt (hp : pool.Transactional) {steps : List (Step (Store ρ τ ω) ω τ)}
    {o : Outcome Result}
    (h : Pool.AttemptCourse .clock pool.watched ctx grace k
      (watchSteps 0 (steps.map Step.writing)) w l o v) : Publishes steps.length w l o v := by
  have hhead : ∀ {l' : Story (Store ρ τ ω) (Recorded ω τ)} (n : Nat),
      CallsAt w.state.published l' →
        CallsAt w.state.published ((w, .notice (.beginning k n)) :: l') :=
    fun n hl => (callsAt_notice _ w (.beginning k n)).append hl
  cases h with
  | lost hb ho =>
      obtain ⟨hcalls, _⟩ := publishes_begin hp hb
      exact publishes_unreturned ho.right (hhead _ hcalls)
  | unopened hb =>
      obtain ⟨hcalls, _, hpub, _⟩ := publishes_begin hp hb
      exact ⟨hhead _ hcalls, fun _ _ => hpub _ rfl, fun h => (nomatch h)⟩
  | undone hb hs hne =>
      obtain ⟨hcalls, hpub, _⟩ := publishes_opened hp hb hs
      exact ⟨hhead _ hcalls, fun _ he => hpub _ he, fun h => absurd h hne⟩
  | unfinished hb hs hc ho =>
      obtain ⟨hcalls, hpub, _⟩ := publishes_opened hp hb hs
      obtain ⟨hcalls', _⟩ := publishes_commit hp hc
      have hstart := hpub _ rfl
      rw [hstart] at hcalls'
      refine publishes_unreturned ho.right (hhead _ ?_)
      rw [← List.append_assoc]
      exact hcalls.append hcalls'
  | refused hb hs hc =>
      obtain ⟨hcalls, hpub, _⟩ := publishes_opened hp hb hs
      obtain ⟨hcalls', _, herror, _⟩ := publishes_commit hp hc
      have hstart := hpub _ rfl
      rw [hstart] at hcalls' herror
      refine ⟨hhead _ ?_, fun _ _ => herror _ rfl, fun h => (nomatch h)⟩
      rw [← List.append_assoc]
      exact hcalls.append hcalls'
  | committed hb hs hc =>
      obtain ⟨hcalls, hpub, hnew⟩ := publishes_opened hp hb hs
      obtain ⟨hcalls', hsame, _, hok⟩ := publishes_commit hp hc
      have hstart := hpub _ rfl
      rw [hstart] at hcalls' hok
      refine ⟨hhead _ ?_, fun e he => (nomatch he), fun _ => ?_⟩
      · rw [← List.append_assoc]
        exact hcalls.append (hcalls'.append (callsAt_notice _ _ _))
      · obtain ⟨new, horder, hpend, hwritten⟩ := hnew rfl
        refine ⟨new, horder, ?_, fun acc => ?_⟩
        · rw [← hpend]
          exact hok rfl
        · rw [← List.singleton_append, writtenFrom_append, ← List.append_assoc,
            writtenFrom_append, hwritten, writtenFrom_append, hsame]
          rfl

end Attempts

section Runs

variable [DecidableEq τ] {pool : Pool (Store ρ τ ω) ω τ} {ctx : ContextId} {grace : Duration}

/-- A run publishes what its last attempt publishes. -/
theorem publishes_course (hp : pool.Transactional) {p : RetryPolicy}
    {steps : List (Step (Store ρ τ ω) ω τ)} {left : Nat} {k m : UInt32}
    {w v : World (Store ρ τ ω) (Recorded ω τ)} {l : Story (Store ρ τ ω) (Recorded ω τ)}
    {o : Outcome Result}
    (h : p.Course .clock ctx
      (Executor.watchedAttempts pool ctx grace (steps.map Step.writing)) left k m w l o v) :
    Publishes steps.length w l o v := by
  have hwait : ∀ (k : UInt32) (e : Failure) (u : World (Store ρ τ ω) (Recorded ω τ)),
      CallsAt u.state.published (p.waitStory k e u) :=
    fun k e u => callsAt_iff.2 (atCalls_wait p k e u)
  induction h with
  | lost hf ho =>
      have hattempt := publishes_attempt hp (Pool.exec_attempt hf)
      exact publishes_unreturned ho.right hattempt.calls
  | succeeded hf => exact publishes_attempt hp (Pool.exec_attempt hf)
  | stopped hf _ =>
      have hattempt := publishes_attempt hp (Pool.exec_attempt hf)
      exact ⟨hattempt.calls.append (callsAt_notice _ _ _), fun _ _ => hattempt.error _ rfl,
        fun h => (nomatch h)⟩
  | exhausted hf _ =>
      have hattempt := publishes_attempt hp (Pool.exec_attempt hf)
      exact ⟨hattempt.calls, fun _ _ => hattempt.error _ rfl, fun h => (nomatch h)⟩
  | interrupted hf _ he =>
      have hattempt := publishes_attempt hp (Pool.exec_attempt hf)
      obtain ⟨t, _, rfl⟩ := he
      have hlast := hattempt.error _ rfl
      exact ⟨hattempt.calls.append (hlast ▸ hwait _ _ _), fun _ _ => hlast,
        fun h => (nomatch h)⟩
  | hung hf _ _ =>
      have hattempt := publishes_attempt hp (Pool.exec_attempt hf)
      have hlast := hattempt.error _ rfl
      exact ⟨hattempt.calls.append (hlast ▸ hwait _ _ _), fun _ h => (nomatch h),
        fun h => (nomatch h)⟩
  | @again left k m w u u' v l l' e o hf _ he _ ih =>
      have hattempt := publishes_attempt hp (Pool.exec_attempt hf)
      obtain ⟨t, _, rfl⟩ := he
      obtain ⟨hcalls, hpub, hnew⟩ := ih
      have hlast : u.state.published = w.state.published := hattempt.error _ rfl
      refine ⟨hattempt.calls.append ((hlast ▸ hwait _ _ _).append (hlast ▸ hcalls)),
        fun e' ho => ?_, fun ho => ?_⟩
      · rw [hpub e' ho]
        exact hlast
      · obtain ⟨new, horder, hpub', hwritten⟩ := hnew ho
        refine ⟨new, horder, ?_, fun acc => ?_⟩
        · rw [hpub']
          exact congrArg (· ++ new.map Prod.snd) hlast
        · rw [writtenFrom_append, writtenFrom_append, hwritten]

/-- **All or nothing, exactly once.**  Over a transactional pool, a run that succeeds has
published the writes of its last attempt behind what was there, each of them once and in
the order of the steps.  A run that fails has published nothing, and whenever a run calls
something, nothing has been published yet. -/
theorem run_publishes (x : Executor (Store ρ τ ω) ω τ)
    (hp : ∀ pool ∈ x.pool, pool.Transactional) (ctx : ContextId)
    (steps : List (Step (Store ρ τ ω) ω τ)) (w : World (Store ρ τ ω) ω) :
    (∀ v, (x.run ctx (steps.map Step.writing)).run w = (.returned (.ok ()), v) →
      v.state.published = w.state.published ++
        (written (x.record ctx (steps.map Step.writing) w)).map Prod.snd ∧
      InOrder 0 steps.length (written (x.record ctx (steps.map Step.writing) w))) ∧
    (∀ e v, (x.run ctx (steps.map Step.writing)).run w = (.returned (.error e), v) →
      v.state.published = w.state.published) ∧
    CallsAt w.state.published (x.record ctx (steps.map Step.writing) w) := by
  have hexec := x.exec_record ctx (steps.map Step.writing) w
  have hstate := (x.run_recorded ctx (steps.map Step.writing) w).2.state
  obtain ⟨pool, retry, grace⟩ := x
  cases pool with
  | none =>
      obtain ⟨hl, ho, hv⟩ := Async.exec_ret hexec
      refine ⟨fun v hv => ?_, fun e v hv => ?_, ?_⟩
      · cases hv
      · cases hv
        rfl
      · rw [hl]
        exact fun y hy => (nomatch hy)
  | some pool =>
      have hpool : pool.Transactional := hp pool rfl
      have hexec' : (retry.run ctx (Executor.watchedAttempts pool ctx grace
        (steps.map Step.writing)) 0).Exec .clock w.untraced _ _ _ := hexec
      rcases RetryPolicy.exec_run hexec' with ⟨c, _, hl, ho, hv⟩ | ⟨_, hcourse⟩
      · refine ⟨fun v hrun => ?_, fun e v hrun => ?_, ?_⟩
        · rw [hrun] at ho
          cases ho
        · rw [hrun, hv] at hstate
          rw [hstate]
          rfl
        · rw [hl]
          exact fun y hy => (nomatch hy)
      · obtain ⟨hcalls, herror, hok⟩ := publishes_course hpool hcourse
        refine ⟨fun v hrun => ?_, fun e v hrun => ?_, hcalls⟩
        · obtain ⟨new, horder, hpub, hwritten⟩ := hok (congrArg Prod.fst hrun)
          rw [hrun] at hstate
          rw [hstate, written, hwritten]
          exact ⟨hpub, horder⟩
        · rw [hrun] at hstate
          rw [hstate]
          exact herror e (congrArg Prod.fst hrun)

/-- A step that writes how many commits are still refused. -/
def Step.countdown : Step (Store Nat Unit Nat) Nat Unit := fun _ => do
  let s ← Async.get
  Async.mark s.rest
  return .ok ()

/-- Two attempts without a wait, of which the first is refused. -/
def Executor.refusedOnce : Executor (Store Nat Unit Nat) Nat Unit :=
  ⟨some Pool.refusing, RetryPolicy.every 2 Duration.zero, Duration.zero⟩

/-- A world with one live context and one published write. -/
def World.stocked : World (Store Nat Unit Nat) Nat :=
  { World.initial (fun _ => 0) ⟨1, [7], fun _ => []⟩ with
    timeline := Timeline.start.create Context.unbounded }

/-- The first of two attempts is refused, and only what the second wrote is published. -/
theorem run_publishes_refusedOnce :
    (∀ pool ∈ Executor.refusedOnce.pool, pool.Transactional) ∧
      ∃ v, (Executor.refusedOnce.run 0 ([Step.countdown, Step.countdown].map Step.writing)).run
          World.stocked = (.returned (.ok ()), v) ∧
        v.state.published = [7, 0, 0] := by
  have hp : ∀ pool ∈ Executor.refusedOnce.pool, pool.Transactional := by
    intro pool hpool
    cases hpool
    exact Pool.transactional_refusing
  have hpublished := (run_publishes Executor.refusedOnce hp 0 [Step.countdown, Step.countdown]
    World.stocked).1 _ rfl
  exact ⟨hp, _, rfl, hpublished.1⟩

end Runs

end TransactionAttempts
