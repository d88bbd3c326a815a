import Mathlib.Algebra.Ring.Nat
import Mathlib.Data.List.TakeWhile
import TransactionAttempts.Json.Numeral

/-!
# How integers are written

A number is an integer from zero up if it is written with digits only: without a sign, a
fraction or an exponent, with no zero before other digits and below `2 ^ 64`.

Main fact: `read_integer_iff`, these are the only numbers that are read as such integers.
-/

namespace TransactionAttempts.Numeral

/-- Digits, with no zero before others. -/
structure Plain (ds : List Char) : Prop where
  ne_nil : ds ≠ []
  digit : ∀ c ∈ ds, c.isDigit = true
  no_zero : ∀ c cs, ds ≠ '0' :: c :: cs

/-- A text with which no number goes on. -/
def Ends (rest : List Char) : Prop :=
  ∀ c cs, rest = c :: cs → c.isDigit = false ∧ c ≠ '.' ∧ c ≠ 'e' ∧ c ≠ 'E'

theorem le_foldl (cs : List Char) (m : Nat) :
    m ≤ cs.foldl (fun n c => n * 10 + digitValue c) m := by
  induction cs generalizing m with
  | nil => exact Nat.le_refl m
  | cons c cs ih =>
      have hstep : m ≤ m * 10 + digitValue c := by omega
      exact Nat.le_trans hstep (ih _)

/-- All digits fit exactly if their value does. -/
theorem absorb_eq_iff {cs : List Char} {m n : Nat} (hm : m < 2 ^ 64) :
    absorb m cs = (n, 0) ↔ cs.foldl (fun n c => n * 10 + digitValue c) m = n ∧ n < 2 ^ 64 := by
  induction cs generalizing m with
  | nil =>
      rw [absorb, Prod.mk.injEq, List.foldl_nil]
      omega
  | cons c cs ih =>
      rw [absorb, List.foldl_cons]
      split
      · rename_i hfit
        exact ih hfit
      · rename_i hover
        have hle := le_foldl cs (m * 10 + digitValue c)
        rw [Prod.mk.injEq]
        omega

theorem number_eq_integer_iff {negative : Bool} {whole : List Char}
    {part : Option (List Char)} {e : Option Int} {n : Nat} :
    number negative whole part e = some (.integer n) ↔
      negative = false ∧ part = none ∧ e = none ∧ valueOf whole = n ∧ n < 2 ^ 64 := by
  have hfloat : ∀ (s : Nat) (p : Int),
      (scale s p).map (fun x => Number.real (signed negative x)) ≠ some (.integer n) := by
    intro s p
    cases scale s p <;> simp
  rw [valueOf, ← absorb_eq_iff (by decide)]
  unfold number
  cases part with
  | some ds => simp [hfloat]
  | none =>
      cases e with
      | some k => simp [hfloat]
      | none =>
          obtain ⟨m, raised⟩ := absorb 0 whole
          rcases Nat.eq_zero_or_pos raised with rfl | hpos
          · cases negative with
            | false => grind
            | true =>
                by_cases hm : 0 < m ∧ m ≤ 9223372036854775808
                · -- what is negative is below zero
                  have hne : (-m : Int) ≠ n := by omega
                  simp [hm, hne]
                · simp [hm, hfloat]
          · simp [hpos, hfloat, Nat.ne_of_gt hpos]

theorem fraction_none_iff {cs rest : List Char} :
    fraction cs = .ok (none, rest) ↔ cs = rest ∧ ∀ c ds, rest = c :: ds → c ≠ '.' := by
  unfold fraction
  split
  · split <;> grind
  · grind

theorem exponent_none_iff {cs rest : List Char} :
    exponent cs = .ok (none, rest) ↔
      cs = rest ∧ ∀ c ds, rest = c :: ds → c ≠ 'e' ∧ c ≠ 'E' := by
  have hdigits : ∀ negative ds, exponentDigits negative ds ≠ .ok (none, rest) := by
    intro negative ds
    unfold exponentDigits
    split <;> simp
  unfold exponent
  split
  · rename_i c cs
    split
    · rename_i hc
      have hne : c :: cs = rest → ¬ ∀ d ds, rest = d :: ds → d ≠ 'e' ∧ d ≠ 'E' :=
        fun h hends => hc.elim (hends c cs h.symm).1 (hends c cs h.symm).2
      split <;> grind
    · grind
  · grind

/-- The first digits of a text are these exactly if no other follows them. -/
theorem digits_eq_iff {cs ds rest : List Char} :
    digits cs = ds ∧ afterDigits cs = rest ↔
      cs = ds ++ rest ∧ (∀ c ∈ ds, c.isDigit = true) ∧
        ∀ c more, rest = c :: more → c.isDigit = false := by
  constructor
  · rintro ⟨rfl, rfl⟩
    refine ⟨(digits_append cs).symm, fun c hc => List.mem_takeWhile_imp hc, fun c more h => ?_⟩
    have hhead := List.head?_dropWhile_not Char.isDigit cs
    rw [show cs.dropWhile Char.isDigit = c :: more from h] at hhead
    exact hhead
  · rintro ⟨rfl, hdigit, hends⟩
    unfold digits afterDigits
    rw [List.takeWhile_append_of_pos hdigit, List.dropWhile_append_of_pos hdigit]
    cases rest with
    | nil => simp
    | cons c more => simp [hends c more rfl]

theorem plain_digits_iff {cs : List Char} :
    Plain (digits cs) ↔ digits cs ≠ [] ∧ ∀ c ds, digits cs ≠ '0' :: c :: ds :=
  ⟨fun h => ⟨h.ne_nil, h.no_zero⟩, fun h => ⟨h.1, fun _ hc => List.mem_takeWhile_imp hc, h.2⟩⟩

/-- A number without its sign has its digits, its fraction, its exponent and a value. -/
theorem readUnsigned_ok_iff {negative : Bool} {cs rest : List Char} {v : Number} :
    readUnsigned negative cs = .ok (v, rest) ↔
      Plain (digits cs) ∧ ∃ part after e, fraction (afterDigits cs) = .ok (part, after) ∧
        exponent after = .ok (e, rest) ∧ number negative (digits cs) part e = some v := by
  rw [plain_digits_iff]
  unfold readUnsigned
  simp only
  split
  · rename_i hnil
    simp [hnil, throw, throwThe, MonadExceptOf.throw]
  · rename_i c ds hzero
    simp [hzero, throw, throwThe, MonadExceptOf.throw]
  · rename_i hne hzero
    rw [and_iff_right ⟨fun h => hne h, hzero⟩]
    cases fraction (afterDigits cs) with
    | error fault => simp [bind, Except.bind]
    | ok found =>
        obtain ⟨part, after⟩ := found
        cases hexp : exponent after with
        | error fault => simp [bind, Except.bind, hexp]
        | ok found =>
            obtain ⟨e, rest'⟩ := found
            cases hn : number negative (digits cs) part e <;>
              simp [bind, Except.bind, pure, Except.pure, throw, throwThe, MonadExceptOf.throw,
                hexp] <;> grind

theorem readUnsigned_integer_iff {negative : Bool} {cs rest : List Char} {n : Nat} :
    readUnsigned negative cs = .ok (.integer n, rest) ↔
      negative = false ∧ ∃ ds, cs = ds ++ rest ∧ Plain ds ∧ Ends rest ∧
        valueOf ds = n ∧ n < 2 ^ 64 := by
  rw [readUnsigned_ok_iff]
  constructor
  · rintro ⟨hplain, part, after, e, hpart, he, hn⟩
    obtain ⟨rfl, rfl, rfl, hvalue, hlt⟩ := number_eq_integer_iff.1 hn
    obtain ⟨rfl, hpoint⟩ := fraction_none_iff.1 hpart
    obtain ⟨hrest, hexp⟩ := exponent_none_iff.1 he
    obtain ⟨hcs, -, hdigit⟩ := digits_eq_iff.1 ⟨rfl, hrest⟩
    refine ⟨rfl, digits cs, hcs, hplain, fun c more h => ?_, hvalue, hlt⟩
    exact ⟨hdigit c more h, hpoint c more (hrest.trans h), hexp c more h⟩
  · rintro ⟨rfl, ds, hcs, hplain, hends, hvalue, hlt⟩
    obtain ⟨hds, hrest⟩ := digits_eq_iff.2 ⟨hcs, hplain.digit, fun c more h => (hends c more h).1⟩
    rw [hds, hrest]
    refine ⟨hplain, none, rest, none, ?_, ?_, number_eq_integer_iff.2 ⟨rfl, rfl, rfl, hvalue, hlt⟩⟩
    · exact fraction_none_iff.2 ⟨rfl, fun c more h => (hends c more h).2.1⟩
    · exact exponent_none_iff.2 ⟨rfl, fun c more h => (hends c more h).2.2⟩

/-- **From zero up.**  A number is read as an integer from zero up exactly if it is written with
digits only. -/
theorem read_integer_iff {cs rest : List Char} {n : Nat} :
    read cs = .ok (.integer n, rest) ↔
      ∃ ds, cs = ds ++ rest ∧ Plain ds ∧ Ends rest ∧ valueOf ds = n ∧ n < 2 ^ 64 := by
  unfold read
  split
  · rename_i cs
    refine readUnsigned_integer_iff.trans ⟨fun h => (nomatch h.1), ?_⟩
    rintro ⟨ds, hcs, hplain, -⟩
    cases hds : ds with
    | nil => exact absurd hds hplain.ne_nil
    | cons c more =>
        subst hds
        cases hcs
        exact absurd (hplain.digit _ List.mem_cons_self) (by decide)
  · exact readUnsigned_integer_iff.trans (and_iff_right rfl)

end TransactionAttempts.Numeral
