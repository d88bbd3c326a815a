import Mathlib.Algebra.Ring.Nat
import TransactionAttempts.Proofs.Records
import TransactionAttempts.Proofs.Rounds

/-!
# What is shown of a wait

After a failed call that is neither final nor the last the run reports its wait, and then
waits.  What is reported is what the method has computed, and it is what the run waits for.

**Milliseconds.**  A report shows whole milliseconds.  Durations reach a thousand times
further than 64 bits of them, and of a longer wait only the low bits are shown.  The shown
number is then smaller than the real one by a multiple of `2 ^ 64`, and only by chance the
largest number of 64 bits.

Main facts:

* `shownMillis_eq_iff`, `shownMillis_lt_iff`: which waits are shown as they should be, and
  which are shown too short;
* `showsWait_course`, `failed_course`: a wait is reported exactly after the failed calls that
  are neither final nor the last, and the run waits for what was reported;
* `wait_shown`: what the reports of a run show;
* `long_wait_shown_short`: a wait of `2 ^ 64` milliseconds that is shown as none.
-/

namespace TransactionAttempts

section Milliseconds

/-- The whole milliseconds of a duration, or the largest number of 64 bits if they are more. -/
def Duration.millisIn64 (d : Duration) : Nat := min d.toMillis (2 ^ 64 - 1)

/-- Durations hold less than a thousand times as many milliseconds as 64 bits. -/
theorem Duration.toMillis_lt (d : Duration) : d.toMillis < 1000 * 2 ^ 64 := by
  have hle : d.nanos ≤ 18446744073709551615999999999 := d.nanos_le
  unfold toMillis
  omega

namespace Notice

/-- What is shown and what is lost make up the real number of milliseconds. -/
theorem toMillis_eq (d : Duration) :
    ∃ lost < 1000, d.toMillis = shownMillis d + lost * 2 ^ 64 := by
  have hlt := d.toMillis_lt
  refine ⟨d.toMillis / 2 ^ 64, by omega, ?_⟩
  unfold shownMillis
  omega

/-- The milliseconds are shown as they should be if 64 bits hold them all, or if those that
are shown happen to be as many as 64 bits hold. -/
theorem shownMillis_eq_iff (d : Duration) :
    shownMillis d = d.millisIn64 ↔ d.toMillis < 2 ^ 64 ∨ shownMillis d = 2 ^ 64 - 1 := by
  unfold shownMillis Duration.millisIn64
  omega

/-- A wait is shown too short exactly if 64 bits do not hold its milliseconds. -/
theorem shownMillis_lt_iff (d : Duration) :
    shownMillis d < d.toMillis ↔ 2 ^ 64 ≤ d.toMillis := by
  unfold shownMillis
  omega

end Notice

end Milliseconds

namespace RetryPolicy

variable {σ ε κ : Type} {E : Surroundings σ (Numbered ε)} {p : RetryPolicy} {ctx : ContextId}
  {f : κ → κ × Async σ ε Result} {w u v : World σ (Numbered ε)} {l : Story σ (Numbered ε)}
  {o : Outcome Result}

section Reports

/-- The event tells that a call has failed. -/
def failed (n : Nat) (e : Failure) : Event (Numbered ε) := .mark (.answered n (.error e : Result))

/-- The report of the wait that follows a failed call, in the world in which it is left. -/
def waitReport (p : RetryPolicy) (n : Nat) (e : Failure) (u : World σ (Numbered ε)) :
    World σ (Numbered ε) × Event (Numbered ε) :=
  (p.consulted (UInt32.ofNat n) (u.log (failed n e)),
    .notice (.retrying (UInt32.ofNat n) p.maxAttempts
      (p.waitIn (UInt32.ofNat n) (u.log (failed n e))) e))

/-- From a world on, the run waits for the end of the context and no longer than the given
time. -/
def WaitsFor (E : Surroundings σ (Numbered ε)) (ctx : ContextId) (d : Duration)
    (u : World σ (Numbered ε)) : Prop :=
  (∃ r v, E.ends (some ctx) (some d) u r v) ∨ E.lasts (some ctx) (some d) u

/-- A story shows the wait after a failed call, and the run waits as it was reported. -/
structure ShowsWait (E : Surroundings σ (Numbered ε)) (p : RetryPolicy) (ctx : ContextId)
    (l : Story σ (Numbered ε)) (n : Nat) (e : Failure) (u : World σ (Numbered ε)) : Prop where
  reported : p.waitReport n e u ∈ l
  waits : WaitsFor E ctx (p.waitIn (UInt32.ofNat n) (u.log (failed n e)))
    ((p.waitReport n e u).1.log (p.waitReport n e u).2)

theorem ShowsWait.mono {l' : Story σ (Numbered ε)} {n : Nat} {e : Failure}
    (h : p.ShowsWait E ctx l n e u) (hl : ∀ y ∈ l, y ∈ l') : p.ShowsWait E ctx l' n e u :=
  ⟨hl _ h.reported, h.waits⟩

/-- All that a call shows in front of its answer is left within the call. -/
theorem mem_call {s : Nat × κ} {y : World σ (Numbered ε) × Event (Numbered ε)}
    (h : (numbered f s).2.Exec E w l o v) (hy : y ∈ l) :
    (∃ m : Numbered ε, y.2 = .mark m) ∧
      ∀ n r, y.2 = .mark (.answered n r) →
        n = s.1 + 1 ∧ o = .returned r ∧ v = y.1.log (.mark (.answered n r)) := by
  have h' : (@Async.watch σ ε Nat (fun _ => Result) (s.1 + 1) (f s.2).2).Exec E w l o v := h
  have hwithin : ∀ {l' : Story σ (Numbered ε)},
      (∀ z ∈ l', ∃ e, z.2 = .mark (.within (s.1 + 1) e)) → y ∈ l' →
      (∃ m : Numbered ε, y.2 = .mark m) ∧ ∀ n r, y.2 ≠ .mark (.answered n r) := by
    intro l' hl' hmem
    obtain ⟨e, he⟩ := hl' y hmem
    exact ⟨⟨_, he⟩, fun n r hr => by cases he.symm.trans hr⟩
  rcases Async.exec_watch h' with ⟨r, u, l', hx, rfl, rfl, rfl⟩ | ⟨l', hx, _, rfl⟩
  · rcases List.mem_cons.1 hy with rfl | hy
    · exact ⟨⟨_, rfl⟩, nofun⟩
    · rcases List.mem_append.1 hy with hy | hy
      · obtain ⟨hmark, hne⟩ := hwithin (Async.exec_within hx) hy
        exact ⟨hmark, fun n r hr => absurd hr (hne n r)⟩
      · cases List.mem_singleton.1 hy
        refine ⟨⟨_, rfl⟩, fun n r hr => ?_⟩
        cases hr
        exact ⟨rfl, rfl, rfl⟩
  · rcases List.mem_cons.1 hy with rfl | hy
    · exact ⟨⟨_, rfl⟩, nofun⟩
    · obtain ⟨hmark, hne⟩ := hwithin (Async.exec_within hx) hy
      exact ⟨hmark, fun n r hr => absurd hr (hne n r)⟩

/-- A call that has failed tells of it in the end. -/
theorem failed_call {s : Nat × κ} {e : Failure}
    (h : (numbered f s).2.Exec E w l (.returned (.error e)) v) :
    ∃ u, (u, failed (s.1 + 1) e) ∈ l ∧ v = u.log (failed (s.1 + 1) e) := by
  have h' : (@Async.watch σ ε Nat (fun _ => Result) (s.1 + 1) (f s.2).2).Exec E w l
    (.returned (.error e)) v := h
  rcases Async.exec_watch h' with ⟨r, u, l', _, hr, rfl, rfl⟩ | ⟨_, _, ho, _⟩
  · cases hr
    exact ⟨u, by simp [failed], rfl⟩
  · cases ho

/-- After every failed call that is neither final nor the last, a course shows the wait. -/
theorem showsWait_course {left : Nat} {k : UInt32} {s : Nat × κ}
    (h : Course E p ctx (numbered f) left k s w l o v) (hk : k = UInt32.ofNat (s.1 + 1))
    (hleft : left + (s.1 + 1) = p.maxAttempts.toNat) {n : Nat} {e : Failure}
    (hmem : (u, failed n e) ∈ l) (hstop : e.isStop = false) (hn : n < p.maxAttempts.toNat) :
    p.ShowsWait E ctx l n e u := by
  -- nothing that is told of a wait is the failure of a call
  have hwait : ∀ (k : UInt32) (e' : Failure) (u' : World σ (Numbered ε)),
      (u, failed n e) ∉ p.waitStory k e' u' := by
    intro k e' u' hy
    simp [waitStory, failed] at hy
  induction h with
  | lost hf ho =>
      obtain ⟨_, rfl, _⟩ := (mem_call hf hmem).2 n _ rfl
      exact absurd rfl (ho.left _)
  | succeeded hf =>
      obtain ⟨_, hr, _⟩ := (mem_call hf hmem).2 n _ rfl
      cases hr
  | stopped hf hs =>
      rcases List.mem_append.1 hmem with hmem | hmem
      · obtain ⟨_, hr, _⟩ := (mem_call hf hmem).2 n _ rfl
        cases hr
        exact nomatch hstop.symm.trans hs
      · simp [failed] at hmem
  | exhausted hf _ =>
      obtain ⟨rfl, _, _⟩ := (mem_call hf hmem).2 n _ rfl
      omega
  | interrupted hf _ he =>
      subst hk
      rcases List.mem_append.1 hmem with hmem | hmem
      · obtain ⟨rfl, hr, rfl⟩ := (mem_call hf hmem).2 n _ rfl
        cases hr
        exact ⟨by simp [waitReport, waitStory, failed], Or.inl ⟨_, _, he⟩⟩
      · exact absurd hmem (hwait _ _ _)
  | hung hf _ hlast =>
      subst hk
      rcases List.mem_append.1 hmem with hmem | hmem
      · obtain ⟨rfl, hr, rfl⟩ := (mem_call hf hmem).2 n _ rfl
        cases hr
        exact ⟨by simp [waitReport, waitStory, failed], Or.inr hlast⟩
      · exact absurd hmem (hwait _ _ _)
  | @again left k s w u₁ u₂ v l l' e' o hf _ he _ ih =>
      subst hk
      rcases List.mem_append.1 hmem with hmem | hmem
      · obtain ⟨rfl, hr, rfl⟩ := (mem_call hf hmem).2 n _ rfl
        cases hr
        exact ⟨by simp [waitReport, waitStory, failed], Or.inl ⟨_, _, he⟩⟩
      · have hrest := (List.mem_append.1 hmem).resolve_left (hwait _ _ _)
        refine (ih (UInt32.ofNat_add _ _).symm ?_ hrest).mono (by simp +contextual)
        show left + (s.1 + 1 + 1) = _
        omega

/-- Every wait that a course reports follows a failed call that is neither final nor the last. -/
theorem failed_course {left : Nat} {k : UInt32} {s : Nat × κ}
    (h : Course E p ctx (numbered f) left k s w l o v) (hk : k = UInt32.ofNat (s.1 + 1))
    (hleft : left + (s.1 + 1) = p.maxAttempts.toNat) {j max : UInt32} {d : Duration} {e : Failure}
    (hmem : (u, .notice (.retrying j max d e)) ∈ l) :
    ∃ n u', (u', failed n e) ∈ l ∧ e.isStop = false ∧ n < p.maxAttempts.toNat ∧
      (u, .notice (.retrying j max d e)) = p.waitReport n e u' := by
  -- inside a call only marks are left
  have hcall : ∀ {s : Nat × κ} {w v : World σ (Numbered ε)} {l : Story σ (Numbered ε)}
      {o : Outcome Result}, (numbered f s).2.Exec E w l o v →
      (u, .notice (.retrying j max d e)) ∉ l := by
    intro s w v l o hf hy
    obtain ⟨⟨m, hm⟩, _⟩ := mem_call hf hy
    cases hm
  -- after a failed call the second event is the report, and no other one is told of a wait
  have hwait : ∀ {s : Nat × κ} {w u₁ : World σ (Numbered ε)} {l : Story σ (Numbered ε)}
      {e' : Failure}, (numbered f s).2.Exec E w l (.returned (.error e')) u₁ →
      e'.isStop = false → s.1 + 1 < p.maxAttempts.toNat →
      (u, .notice (.retrying j max d e)) ∈ p.waitStory (UInt32.ofNat (s.1 + 1)) e' u₁ →
      ∃ n u', (u', failed n e) ∈ l ∧ e.isStop = false ∧ n < p.maxAttempts.toNat ∧
        (u, .notice (.retrying j max d e)) = p.waitReport n e u' := by
    intro s w u₁ l e' hf hs hlt hy
    obtain ⟨u', hu', rfl⟩ := failed_call hf
    have hreport : (u, .notice (.retrying j max d e)) = p.waitReport (s.1 + 1) e' u' := by
      rcases List.mem_cons.1 hy with hy | hy
      · cases hy
      · exact List.mem_singleton.1 hy
    cases hreport
    exact ⟨s.1 + 1, u', hu', hs, hlt, rfl⟩
  induction h with
  | lost hf _ => exact absurd hmem (hcall hf)
  | succeeded hf => exact absurd hmem (hcall hf)
  | stopped hf _ =>
      rcases List.mem_append.1 hmem with hmem | hmem
      · exact absurd hmem (hcall hf)
      · simp at hmem
  | exhausted hf _ => exact absurd hmem (hcall hf)
  | interrupted hf hs _ =>
      subst hk
      have hmem := (List.mem_append.1 hmem).resolve_left (hcall hf)
      obtain ⟨n, u', hu', hrest⟩ := hwait hf hs (by omega) hmem
      exact ⟨n, u', List.mem_append_left _ hu', hrest⟩
  | hung hf hs _ =>
      subst hk
      have hmem := (List.mem_append.1 hmem).resolve_left (hcall hf)
      obtain ⟨n, u', hu', hrest⟩ := hwait hf hs (by omega) hmem
      exact ⟨n, u', List.mem_append_left _ hu', hrest⟩
  | @again left k s w u₁ u₂ v l l' e' o hf hs _ _ ih =>
      subst hk
      have hmem := (List.mem_append.1 hmem).resolve_left (hcall hf)
      rcases List.mem_append.1 hmem with hmem | hmem
      · obtain ⟨n, u', hu', hrest⟩ := hwait hf hs (by omega) hmem
        exact ⟨n, u', List.mem_append_left _ hu', hrest⟩
      · obtain ⟨n, u', hu', hrest⟩ := ih (UInt32.ofNat_add _ _).symm (by
          show left + (s.1 + 1 + 1) = _
          omega) hmem
        exact ⟨n, u', by simp [hu'], hrest⟩

end Reports

section Runs

/-- The text that a report shows for its wait. -/
theorem lookup_delay (j max : UInt32) (d : Duration) (e : Failure) :
    (Notice.retrying j max d e).fields.lookup "delay_ms" =
      some (toString (Notice.shownMillis d)) := rfl

/-- **What is shown of a wait.**  A run reports a wait after each failed call that is neither
final nor the last, and after no other.  What it reports is what the method gives for the number
of the call and the base delay, and that is what it then waits for.  Shown are the low 64 bits
of the whole milliseconds.  These are the real number, or the largest one of 64 bits where the
real one is too large for them, unless the real one is too large and they happen to be others;
and then they show less than is waited for. -/
theorem wait_shown (p : RetryPolicy) (ctx : ContextId) (f : κ → κ × Async σ ε Result) (m : κ)
    (h : (p.runNumbered ctx f m).Exec E w l o v) :
    (∀ n e u, (u, failed n e) ∈ l → e.isStop = false → n < p.maxAttempts.toNat →
      p.ShowsWait E ctx l n e u) ∧
    ∀ j max d e u, (u, .notice (.retrying j max d e)) ∈ l →
      (∃ n u', (u', failed n e) ∈ l ∧ e.isStop = false ∧ n < p.maxAttempts.toNat ∧
        (u, .notice (.retrying j max d e)) = p.waitReport n e u') ∧
      (∃ draw, d = p.method.wait j p.delay (pick (p.method.spread p.delay) draw)) ∧
      WaitsFor E ctx d (u.log (.notice (.retrying j max d e))) ∧
      ∃ shown, (Notice.retrying j max d e).fields.lookup "delay_ms" = some (toString shown) ∧
        (shown = d.millisIn64 ↔ d.toMillis < 2 ^ 64 ∨ shown = 2 ^ 64 - 1) ∧
        (shown < d.toMillis ↔ 2 ^ 64 ≤ d.toMillis) ∧
        ∃ lost < 1000, d.toMillis = shown + lost * 2 ^ 64 := by
  have hmax := p.one_le_maxAttempts
  have hleft : p.maxAttempts.toNat - 1 + (0 + 1) = p.maxAttempts.toNat := by omega
  rcases exec_run h with ⟨_, _, rfl, _, _⟩ | ⟨_, hcourse⟩
  · exact ⟨by simp, by simp⟩
  · have hshows := fun n e u => showsWait_course (n := n) (e := e) (u := u) hcourse rfl hleft
    refine ⟨hshows, fun j max d e u hmem => ?_⟩
    obtain ⟨n, u', hu', hs, hn, hreport⟩ := failed_course hcourse rfl hleft hmem
    have hwaits := (hshows n e u' hu' hs hn).waits
    refine ⟨⟨n, u', hu', hs, hn, hreport⟩, ?_, ?_, _, lookup_delay j max d e,
      Notice.shownMillis_eq_iff d, Notice.shownMillis_lt_iff d, Notice.toMillis_eq d⟩
    · cases hreport
      exact ⟨_, rfl⟩
    · cases hreport
      exact hwaits

/-- An operation that fails when it is called for the first time. -/
def failingOnce (before : Bool) : Bool × Async Unit Unit Result :=
  (true, .ret (if before then .ok () else .error (.other "boom")))

/-- Two attempts with a wait of `2 ^ 64` milliseconds between them. -/
def patient : RetryPolicy := RetryPolicy.every 2 (Duration.ofMillis (2 ^ 64))

/-- The first call of two fails, so its wait is reported, and too short. -/
theorem wait_shown_patient :
    ∃ l o v, (patient.runNumbered 0 failingOnce false).Exec .clock World.calm.untraced l o v ∧
      ∃ u d e, (u, .notice (.retrying 1 2 d e)) ∈ l ∧ d.toMillis = 2 ^ 64 ∧
        ∃ shown, (Notice.retrying 1 2 d e).fields.lookup "delay_ms" = some (toString shown) ∧
          shown < d.toMillis := by
  have hexec := Async.exec_run (patient.runNumbered 0 failingOnce false) World.calm.untraced
  have hfailed : (_, failed 1 (.other "boom")) ∈
      (patient.runNumbered 0 failingOnce false).story World.calm.untraced :=
    List.mem_of_getElem? (i := 1) rfl
  obtain ⟨hshows, hreports⟩ := wait_shown patient 0 failingOnce false hexec
  have hreported := (hshows 1 _ _ hfailed rfl (by decide)).reported
  obtain ⟨_, _, _, shown, hlookup, _, hless, _⟩ := hreports _ _ _ _ _ hreported
  exact ⟨_, _, _, hexec, _, _, _, hreported, rfl, shown, hlookup, hless.2 (by decide)⟩

/-- The wait after the first call, which takes as long as a sleep can, is shown as none at all.
The largest number of 64 bits would be right. -/
theorem long_wait_shown_short :
    ∃ d e, ((patient.run 0 failingOnce false).run World.calm).2.trace =
        [(0, .consulted 1 d), (0, .notice (.retrying 1 2 d e))] ∧
      ((patient.run 0 failingOnce false).run World.calm).2.now = Duration.longestSleep.nanos ∧
      (Notice.retrying 1 2 d e).fields.lookup "delay_ms" = some "0" ∧
      toString d.millisIn64 = "18446744073709551615" :=
  ⟨Duration.ofMillis (2 ^ 64), .other "boom", rfl, rfl, rfl, by decide⟩

end Runs

end RetryPolicy

end TransactionAttempts
