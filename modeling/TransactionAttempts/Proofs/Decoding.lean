import Mathlib.Data.List.Pairwise
import Mathlib.Data.List.Perm.Basic
import TransactionAttempts.Config.Decoder
import TransactionAttempts.Proofs.Numerals

/-!
# What a configuration is decoded from

**Values.**  `Written f j s` says that the value `j` of the member `f` stands for the change
`s` of a configuration.  Numbers are taken as they are, and a number of milliseconds stands
for exactly that time.

**Encodings.**  `Encoded j given` says that `j` is an object whose keys are the names of
different members, or an array with as many values as there are first members, and that
`given` are these members with their values.

Main facts:

* `decodeField_ok_iff`: a member is decoded exactly if its value stands for a change;
* `members_ok_iff`, `items_eq_members`: what members are decoded to, and that items are decoded
  like members;
* `decode_ok_iff`: what a configuration is decoded from, and to what;
* `decode_perm`: the order of the members does not matter;
* `decode_exact`: all of this together, with the numbers that are meant.
-/

namespace TransactionAttempts

variable {φ : Type}

section Values

/-- A name as a text, or as the only key of an object with `null`. -/
inductive Json.Names (s : String) : Json φ → Prop
  | string : Names s (.string s)
  | key : Names s (.object [(s, .null)] .closed)

/-- The value of a member stands for a change of the configuration. -/
inductive Written : ConfigField → Json φ → Setting → Prop
  | attempts (n : UInt32) : Written .attempts (.number (.integer n.toNat)) (.attempts n)
  | delay {n : Nat} {d : Duration} :
      n < 2 ^ 64 → d.nanos = n * 1000000 → Written .delay (.number (.integer n)) (.delay d)
  | delayMethod {s : String} {m : DelayMethod} {j : Json φ} :
      (s, m) ∈ DelayMethod.named → j.Names s → Written .delayMethod j (.delayMethod m)
  | gracePeriod {n : Nat} {d : Duration} :
      n < 2 ^ 64 → d.nanos = n * 1000000 →
      Written .gracePeriod (.number (.integer n)) (.gracePeriod d)

namespace Config

section Results

variable {ε α β : Type}

theorem bind_ok_iff {x : Except ε α} {f : α → Except ε β} {b : β} :
    (x >>= f) = .ok b ↔ ∃ a, x = .ok a ∧ f a = .ok b := by
  cases x with
  | error e => exact ⟨fun h => (nomatch h), fun ⟨_, h, _⟩ => (nomatch h)⟩
  | ok a => exact ⟨fun h => ⟨a, rfl, h⟩, fun ⟨_, ha, h⟩ => Except.ok.inj ha ▸ h⟩

theorem map_ok_iff {x : Except ε α} {f : α → β} {b : β} :
    x.map f = .ok b ↔ ∃ a, x = .ok a ∧ f a = b := by
  cases x with
  | error e => exact ⟨fun h => (nomatch h), fun ⟨_, h, _⟩ => (nomatch h)⟩
  | ok a =>
      refine ⟨fun h => ⟨a, rfl, Except.ok.inj h⟩, fun ⟨_, ha, h⟩ => ?_⟩
      cases ha
      exact congrArg Except.ok h

end Results

theorem refuse_ne_ok {α : Type} (expected : String) (j : Json φ) (a : α) :
    refuse expected j ≠ .ok a := by
  unfold refuse
  split <;> exact fun h => nomatch h

theorem natural_ok_iff {expected : String} {bound n : Nat} {j : Json φ} :
    natural expected bound j = .ok n ↔ j = .number (.integer n) ∧ n ≤ bound := by
  unfold natural
  split
  · rename_i m
    constructor
    · intro h
      split at h
      · rename_i hm
        cases h
        have hnat : (m.toNat : Int) = m := Int.toNat_of_nonneg hm.1
        exact ⟨by rw [hnat], by omega⟩
      · cases h
    · rintro ⟨h, hn⟩
      cases h
      simp [hn]
  · rename_i hj
    exact ⟨fun h => absurd h (refuse_ne_ok expected j n), fun h => absurd h.1 (hj n)⟩

theorem word32_ok_iff {n : UInt32} {j : Json φ} :
    word32 j = .ok n ↔ j = .number (.integer n.toNat) := by
  unfold word32
  rw [map_ok_iff]
  constructor
  · rintro ⟨m, hm, rfl⟩
    obtain ⟨rfl, hle⟩ := natural_ok_iff.1 hm
    have hsize : m < UInt32.size := Nat.lt_succ_of_le hle
    rw [UInt32.toNat_ofNat_of_lt' hsize]
  · rintro rfl
    exact ⟨n.toNat, natural_ok_iff.2 ⟨rfl, Nat.le_of_lt_succ n.toNat_lt⟩, by simp⟩

/-- A number of milliseconds of 64 bits is a duration. -/
theorem nanos_ofMillis {n : Nat} (h : n < 2 ^ 64) : (Duration.ofMillis n).nanos = n * 1000000 := by
  rw [Duration.ofMillis, Duration.nanos_clamp, Duration.maxNanos]
  omega

theorem millis_ok_iff {d : Duration} {j : Json φ} :
    millis j = .ok d ↔
      ∃ n : Nat, j = .number (.integer n) ∧ n < 2 ^ 64 ∧ d.nanos = n * 1000000 := by
  unfold millis
  rw [map_ok_iff]
  constructor
  · rintro ⟨n, hn, rfl⟩
    obtain ⟨rfl, hle⟩ := natural_ok_iff.1 hn
    have hlt : n < 2 ^ 64 := Nat.lt_succ_of_le hle
    exact ⟨n, rfl, hlt, nanos_ofMillis hlt⟩
  · rintro ⟨n, rfl, hlt, hd⟩
    refine ⟨n, natural_ok_iff.2 ⟨rfl, Nat.le_of_lt_succ hlt⟩, Duration.ext ?_⟩
    rw [nanos_ofMillis hlt, hd]

theorem methodNamed_ok_iff {s : String} {m : DelayMethod} :
    (methodNamed s : Except (DecodeError φ) DelayMethod) = .ok m ↔
      (s, m) ∈ DelayMethod.named := by
  have hlookup : DelayMethod.ofName? s = some m ↔ (s, m) ∈ DelayMethod.named := by
    unfold DelayMethod.ofName? DelayMethod.named
    grind
  rw [← hlookup]
  unfold methodNamed
  split <;> simp_all

theorem method_ok_iff {m : DelayMethod} {j : Json φ} :
    method j = .ok m ↔ ∃ s, (s, m) ∈ DelayMethod.named ∧ j.Names s := by
  constructor
  · intro h
    unfold method at h
    split at h
    · exact ⟨_, methodNamed_ok_iff.1 h, .string⟩
    · obtain ⟨m', hm, h₁⟩ := bind_ok_iff.1 h
      obtain ⟨_, hv, h₂⟩ := bind_ok_iff.1 h₁
      unfold nothing at hv
      split at hv
      · split at h₂
        · cases h₂
          exact ⟨_, methodNamed_ok_iff.1 hm, .key⟩
        · cases h₂
        · cases h₂
      · exact absurd hv (refuse_ne_ok _ _ _)
    · obtain ⟨_, _, h₁⟩ := bind_ok_iff.1 h
      cases h₁
    all_goals cases h
  · rintro ⟨s, hs, hj⟩
    cases hj with
    | string => exact methodNamed_ok_iff.2 hs
    | key => exact bind_ok_iff.2 ⟨m, methodNamed_ok_iff.2 hs, rfl⟩

end Config

end Values

section Members

/-- The draft in which the member of a change has been given. -/
def ConfigDraft.give (d : ConfigDraft) : Setting → ConfigDraft
  | .attempts n => { d with attempts := some n }
  | .delay t => { d with delay := some t }
  | .delayMethod m => { d with delayMethod := some m }
  | .gracePeriod t => { d with gracePeriod := some t }
  | .policy _ => d
  | .retry _ _ => d

namespace Written

variable {f g : ConfigField} {j j' : Json φ} {s s' : Setting}

theorem config_give (h : Written f j s) (d : ConfigDraft) :
    (d.give s).config = d.config.apply s := by
  cases h <;> rfl

theorem has_give (h : Written f j s) (d : ConfigDraft) (g : ConfigField) :
    (d.give s).has g = (d.has g || decide (f = g)) := by
  cases h <;> cases g <;> simp [ConfigDraft.give, ConfigDraft.has]

/-- Changes of different members may be made in either order. -/
theorem comm (h : Written f j s) (h' : Written g j' s') (hne : f ≠ g) (c : Config) :
    (c.apply s).apply s' = (c.apply s').apply s := by
  cases h <;> cases h' <;> first | rfl | exact absurd rfl hne

/-- A method that is written is none of the caller's own. -/
theorem method_ne_custom (h : Written f j s) {c : Config}
    (hc : ∀ k, c.retry.method ≠ .custom k) : ∀ k, (c.apply s).retry.method ≠ .custom k := by
  cases h with
  | delayMethod hm _ =>
      intro k hk
      have hk' : _ = DelayMethod.custom k := hk
      subst hk'
      simp [DelayMethod.named] at hm
  | _ => exact hc

end Written

namespace Config

/-- A member is decoded exactly if its value stands for a change. -/
theorem decodeField_ok_iff {f : ConfigField} {j : Json φ} {d d' : ConfigDraft} :
    decodeField d j f = .ok d' ↔ ∃ s, Written f j s ∧ d.give s = d' := by
  cases f with
  | attempts =>
      refine bind_ok_iff.trans ⟨?_, ?_⟩
      · rintro ⟨n, hn, h⟩
        rw [word32_ok_iff.1 hn]
        exact ⟨_, .attempts n, Except.ok.inj h⟩
      · rintro ⟨s, hs, rfl⟩
        cases hs with
        | attempts n => exact ⟨n, word32_ok_iff.2 rfl, rfl⟩
  | delay =>
      refine bind_ok_iff.trans ⟨?_, ?_⟩
      · rintro ⟨t, ht, h⟩
        obtain ⟨n, rfl, hn, hd⟩ := millis_ok_iff.1 ht
        exact ⟨_, .delay hn hd, Except.ok.inj h⟩
      · rintro ⟨s, hs, rfl⟩
        cases hs with
        | delay hn hd => exact ⟨_, millis_ok_iff.2 ⟨_, rfl, hn, hd⟩, rfl⟩
  | delayMethod =>
      refine bind_ok_iff.trans ⟨?_, ?_⟩
      · rintro ⟨m, hm, h⟩
        obtain ⟨s, hs, hj⟩ := method_ok_iff.1 hm
        exact ⟨_, .delayMethod hs hj, Except.ok.inj h⟩
      · rintro ⟨s, hs, rfl⟩
        cases hs with
        | delayMethod hs hj => exact ⟨_, method_ok_iff.2 ⟨_, hs, hj⟩, rfl⟩
  | gracePeriod =>
      refine bind_ok_iff.trans ⟨?_, ?_⟩
      · rintro ⟨t, ht, h⟩
        obtain ⟨n, rfl, hn, hd⟩ := millis_ok_iff.1 ht
        exact ⟨_, .gracePeriod hn hd, Except.ok.inj h⟩
      · rintro ⟨s, hs, rfl⟩
        cases hs with
        | gracePeriod hn hd => exact ⟨_, millis_ok_iff.2 ⟨_, rfl, hn, hd⟩, rfl⟩

theorem ofName?_eq_some_iff {key : String} {f : ConfigField} :
    ConfigField.ofName? key = some f ↔ key = f.name := by
  constructor
  · intro h
    have hname := List.find?_some h
    exact (beq_iff_eq.1 hname).symm
  · rintro rfl
    exact ConfigField.ofName_name f

theorem nextField_ok_iff {d : ConfigDraft} {key : String} {f : ConfigField} :
    (nextField d key : Except (DecodeError φ) ConfigField) = .ok f ↔
      key = f.name ∧ d.has f = false := by
  rw [← ofName?_eq_some_iff]
  unfold nextField
  split
  · rename_i hnone
    simp [hnone]
  · rename_i g hg
    cases hhas : d.has g <;> simp [hg] <;> grind

end Config

end Members

section Encodings

/-- The members of a configuration with their values. -/
abbrev Given (φ : Type) := List (ConfigField × Json φ)

namespace Given

/-- The members under their names. -/
def named (given : Given φ) : List (String × Json φ) := given.map fun g => (g.1.name, g.2)

theorem named_injective : Function.Injective (named : Given φ → List (String × Json φ)) := by
  refine List.map_injective_iff.2 fun g g' h => ?_
  obtain ⟨hname, hvalue⟩ := Prod.mk.inj h
  have hfield : some g.1 = some g'.1 := by
    rw [← ConfigField.ofName_name, hname, ConfigField.ofName_name]
  exact Prod.ext (Option.some.inj hfield) hvalue

/-- The values stand for the changes, one by one. -/
def Means (given : Given φ) (changes : List Setting) : Prop :=
  List.Forall₂ (fun g s => Written g.1 g.2 s) given changes

/-- The members differ from one another and from those that a draft has. -/
def Fresh (d : ConfigDraft) (given : Given φ) : Prop :=
  (given.map Prod.fst).Nodup ∧ ∀ g ∈ given, d.has g.1 = false

theorem fresh_cons {d : ConfigDraft} {f : ConfigField} {j : Json φ} {s : Setting}
    {rest : Given φ} (h : Written f j s) :
    Fresh d ((f, j) :: rest) ↔ d.has f = false ∧ Fresh (d.give s) rest := by
  have hhas : ∀ g : ConfigField × Json φ,
      (d.give s).has g.1 = false ↔ d.has g.1 = false ∧ f ≠ g.1 := by
    intro g
    rw [h.has_give]
    simp
  have hnotin : f ∉ rest.map Prod.fst ↔ ∀ g ∈ rest, f ≠ g.1 := by
    simp only [List.mem_map, not_exists, not_and]
    exact ⟨fun hf g hg heq => hf g hg heq.symm, fun hf g hg heq => hf g hg heq.symm⟩
  simp only [Fresh, List.map_cons, List.nodup_cons, List.forall_mem_cons, hhas, hnotin]
  constructor
  · rintro ⟨⟨hne, hnodup⟩, hf, hrest⟩
    exact ⟨hf, hnodup, fun g hg => ⟨hrest g hg, hne g hg⟩⟩
  · rintro ⟨hf, hnodup, hrest⟩
    exact ⟨⟨fun g hg => (hrest g hg).2, hnodup⟩, hf, fun g hg => (hrest g hg).1⟩

/-- All changes made in a draft are made in its configuration. -/
theorem Means.config_foldl {given : Given φ} {changes : List Setting} (h : given.Means changes)
    (d : ConfigDraft) :
    (changes.foldl ConfigDraft.give d).config = d.config.applyAll changes := by
  induction h generalizing d with
  | nil => rfl
  | cons hs _ ih =>
      rw [List.foldl_cons, ih, hs.config_give]
      rfl

end Given

namespace Config

open Given

/-- What the members of an object are decoded to. -/
theorem members_ok_iff {ending : Ending φ} {members : List (String × Json φ)}
    {d d' : ConfigDraft} :
    decodeMembers ending d members = .ok d' ↔
      ending = .closed ∧ ∃ (given : Given φ) (changes : List Setting),
        members = given.named ∧ given.Fresh d ∧ given.Means changes ∧
          changes.foldl ConfigDraft.give d = d' := by
  induction members generalizing d with
  | nil =>
      constructor
      · intro h
        cases ending with
        | closed => exact ⟨rfl, [], [], rfl, ⟨List.nodup_nil, by simp⟩, .nil, Except.ok.inj h⟩
        | half key fault =>
            obtain ⟨_, _, h₁⟩ := bind_ok_iff.1 h
            cases h₁
        | cut fault => cases h
        | keyless fault => cases h
      · rintro ⟨rfl, given, changes, hnamed, _, hmeans, rfl⟩
        have hgiven : given = [] := List.map_eq_nil_iff.1 hnamed.symm
        subst hgiven
        cases hmeans
        rfl
  | cons m rest ih =>
      obtain ⟨key, value⟩ := m
      constructor
      · intro h
        obtain ⟨f, hf, h₁⟩ := bind_ok_iff.1 h
        obtain ⟨u, hu, h₂⟩ := bind_ok_iff.1 h₁
        obtain ⟨rfl, hhas⟩ := nextField_ok_iff.1 hf
        obtain ⟨s, hs, rfl⟩ := decodeField_ok_iff.1 hu
        obtain ⟨hend, given, changes, rfl, hfresh, hmeans, rfl⟩ := ih.1 h₂
        exact ⟨hend, (f, value) :: given, s :: changes, rfl, (fresh_cons hs).2 ⟨hhas, hfresh⟩,
          .cons hs hmeans, rfl⟩
      · rintro ⟨hend, given, changes, hnamed, hfresh, hmeans, rfl⟩
        cases hmeans with
        | nil => cases hnamed
        | @cons g s given changes hs hmeans =>
            obtain ⟨hhas, hfresh⟩ := (fresh_cons hs).1 hfresh
            cases hnamed
            refine bind_ok_iff.2 ⟨g.1, nextField_ok_iff.2 ⟨rfl, hhas⟩, ?_⟩
            refine bind_ok_iff.2 ⟨_, decodeField_ok_iff.2 ⟨s, hs, rfl⟩, ?_⟩
            exact ih.2 ⟨hend, given, changes, rfl, hfresh, hmeans, rfl⟩

/-- Items are decoded like members under the names of their places, errors included. -/
theorem items_eq_members {fields : List ConfigField} {items : List (Json φ)} {d : ConfigDraft}
    (hlen : items.length ≤ fields.length) (hnodup : fields.Nodup)
    (hfresh : ∀ f ∈ fields, d.has f = false) :
    decodeItems none d fields items = decodeMembers .closed d (named (fields.zip items)) := by
  induction items generalizing d fields with
  | nil => cases fields <;> rfl
  | cons value rest ih =>
      cases fields with
      | nil => cases hlen
      | cons f fields =>
          obtain ⟨hf, hnodup⟩ := List.nodup_cons.1 hnodup
          have hnext : (nextField d f.name : Except (DecodeError φ) ConfigField) = .ok f :=
            nextField_ok_iff.2 ⟨rfl, hfresh f List.mem_cons_self⟩
          show (decodeField d value f >>= fun d => decodeItems none d fields rest) =
            (nextField d f.name >>= fun g => decodeField d value g >>= fun d =>
              decodeMembers .closed d (named (fields.zip rest)))
          rw [hnext]
          show (decodeField d value f >>= _) = (decodeField d value f >>= _)
          cases hd : decodeField d value f with
          | error e => rfl
          | ok u =>
              obtain ⟨s, hs, rfl⟩ := decodeField_ok_iff.1 hd
              refine ih (Nat.le_of_succ_le_succ hlen) hnodup fun g hg => ?_
              rw [hs.has_give, hfresh g (List.mem_cons_of_mem f hg)]
              simpa using fun heq : f = g => hf (heq ▸ hg)

/-- An array that is decoded is whole and has no more items than there are members. -/
theorem items_ok {ending : Option φ} {fields : List ConfigField} {items : List (Json φ)}
    {d d' : ConfigDraft} (h : decodeItems ending d fields items = .ok d') :
    ending = none ∧ items.length ≤ fields.length := by
  induction items generalizing d fields with
  | nil =>
      cases ending with
      | none => exact ⟨rfl, Nat.zero_le _⟩
      | some fault => cases fields <;> cases h
  | cons value rest ih =>
      cases fields with
      | nil => cases h
      | cons f fields =>
          obtain ⟨u, _, h₁⟩ := bind_ok_iff.1 h
          obtain ⟨hend, hlen⟩ := ih h₁
          exact ⟨hend, Nat.succ_le_succ hlen⟩

end Config

theorem Given.keys_zip_sublist (fields : List ConfigField) (items : List (Json φ)) :
    ((fields.zip items).map Prod.fst).Sublist fields := by
  induction fields generalizing items with
  | nil => exact List.Sublist.slnil
  | cons f fields ih =>
      cases items with
      | nil => exact List.nil_sublist _
      | cons value rest => exact (ih rest).cons_cons f

/-- The members that a value gives, with their values. -/
inductive Encoded : Json φ → Given φ → Prop
  | object {given : Given φ} :
      (given.map Prod.fst).Nodup → Encoded (.object given.named .closed) given
  | array {items : List (Json φ)} :
      items.length ≤ ConfigField.all.length →
      Encoded (.array items none) (ConfigField.all.zip items)

namespace Config

open Given

theorem fresh_empty {given : Given φ} :
    given.Fresh ConfigDraft.empty ↔ (given.map Prod.fst).Nodup :=
  ⟨fun h => h.1, fun h => ⟨h, fun g _ => by cases g.1 <;> rfl⟩⟩

theorem decode_object_ok_iff {members : List (String × Json φ)} {ending : Ending φ}
    {c : Config} :
    decode (.object members ending) = .ok c ↔
      ending = .closed ∧ ∃ (given : Given φ) (changes : List Setting),
        members = given.named ∧ (given.map Prod.fst).Nodup ∧ given.Means changes ∧
          c = Config.default.applyAll changes := by
  refine bind_ok_iff.trans ⟨?_, ?_⟩
  · rintro ⟨d, hd, hc⟩
    obtain ⟨hend, given, changes, hnamed, hfresh, hmeans, rfl⟩ := members_ok_iff.1 hd
    refine ⟨hend, given, changes, hnamed, fresh_empty.1 hfresh, hmeans, ?_⟩
    rw [← Except.ok.inj hc, hmeans.config_foldl]
    rfl
  · rintro ⟨hend, given, changes, hnamed, hnodup, hmeans, rfl⟩
    refine ⟨_, members_ok_iff.2 ⟨hend, given, changes, hnamed, fresh_empty.2 hnodup, hmeans, rfl⟩,
      congrArg Except.ok ?_⟩
    rw [hmeans.config_foldl]
    rfl

/-- An array is decoded like the object with the names of its places. -/
theorem decode_array {items : List (Json φ)} (h : items.length ≤ ConfigField.all.length) :
    decode (.array items none) =
      decode (.object (named (ConfigField.all.zip items)) .closed) := by
  have hitems : decodeItems none ConfigDraft.empty ConfigField.all items = _ :=
    items_eq_members h (by decide) fun f _ => by cases f <;> rfl
  show (decodeItems none ConfigDraft.empty ConfigField.all items >>= _) = _
  rw [hitems]
  rfl

/-- The members of an array are different. -/
theorem nodup_keys_zip (items : List (Json φ)) :
    ((ConfigField.all.zip items).map Prod.fst).Nodup :=
  List.Nodup.sublist (keys_zip_sublist ConfigField.all items) (by decide)

theorem decode_ok_iff {j : Json φ} {c : Config} :
    decode j = .ok c ↔ ∃ (given : Given φ) (changes : List Setting),
      Encoded j given ∧ given.Means changes ∧ c = Config.default.applyAll changes := by
  constructor
  · intro h
    have hj := h
    unfold decode at hj
    split at hj
    · obtain ⟨rfl, given, changes, rfl, hnodup, hmeans, hc⟩ := decode_object_ok_iff.1 h
      exact ⟨given, changes, .object hnodup, hmeans, hc⟩
    · obtain ⟨d, hd, _⟩ := bind_ok_iff.1 hj
      obtain ⟨rfl, hlen⟩ := items_ok hd
      rw [decode_array hlen] at h
      obtain ⟨_, given, changes, hnamed, _, hmeans, hc⟩ := decode_object_ok_iff.1 h
      cases named_injective hnamed
      exact ⟨_, changes, .array hlen, hmeans, hc⟩
    · exact absurd hj (refuse_ne_ok _ _ c)
  · rintro ⟨given, changes, hj, hmeans, hc⟩
    cases hj with
    | object hnodup =>
        exact decode_object_ok_iff.2 ⟨rfl, given, changes, rfl, hnodup, hmeans, hc⟩
    | @array items hlen =>
        rw [decode_array hlen]
        exact decode_object_ok_iff.2 ⟨rfl, _, changes, rfl, nodup_keys_zip items, hmeans, hc⟩

end Config

end Encodings

section Order

/-- Two changes of a configuration that may be made in either order. -/
def Setting.Commutes (s s' : Setting) : Prop :=
  ∀ c : Config, (c.apply s).apply s' = (c.apply s').apply s

instance : Std.Symm Setting.Commutes := ⟨fun _ _ h c => (h c).symm⟩

namespace Given

variable {given given' : Given φ} {changes : List Setting}

theorem Means.exists_given (h : given.Means changes) {s : Setting} (hs : s ∈ changes) :
    ∃ g ∈ given, Written g.1 g.2 s := by
  obtain ⟨i, hi, rfl⟩ := List.mem_iff_getElem.1 hs
  have hi' : i < given.length := h.length_eq ▸ hi
  exact ⟨given[i], List.getElem_mem hi', h.get hi' hi⟩

/-- Changes of different members commute. -/
theorem Means.pairwise (h : given.Means changes) (hnodup : (given.map Prod.fst).Nodup) :
    changes.Pairwise Setting.Commutes := by
  induction h with
  | nil => exact List.Pairwise.nil
  | @cons g s given changes hs hmeans ih =>
      obtain ⟨hfst, hnodup⟩ := List.nodup_cons.1 hnodup
      refine List.Pairwise.cons (fun s' hs' => ?_) (ih hnodup)
      obtain ⟨g', hg', hwritten⟩ := Means.exists_given hmeans hs'
      exact hs.comm hwritten fun heq => hfst (heq ▸ List.mem_map_of_mem hg')

/-- Members in another order make the same changes, in that order. -/
theorem Means.perm (h : given.Means changes) (hnodup : (given.map Prod.fst).Nodup)
    (hperm : given'.Perm given) :
    ∃ changes', given'.Means changes' ∧
      Config.default.applyAll changes' = Config.default.applyAll changes := by
  obtain ⟨changes', hmeans, hchanges⟩ := List.perm_comp_forall₂ hperm h
  refine ⟨changes', hmeans, ?_⟩
  have hcomm := (h.pairwise hnodup).forall_of_forall fun s _ c => rfl
  refine hchanges.foldl_eq' (fun s hs s' hs' c => ?_) Config.default
  exact hcomm (hchanges.mem_iff.1 hs) (hchanges.mem_iff.1 hs') c

/-- Names and values in another order are those of the members in another order. -/
theorem named_perm {members : List (String × Json φ)} (h : members.Perm given.named) :
    ∃ given', members = named given' ∧ given'.Perm given := by
  have hnamed : List.Forall₂ (fun m (g : ConfigField × Json φ) => m = (g.1.name, g.2))
      given.named given := List.forall₂_map_right_iff.1 (List.forall₂_eq_eq_eq ▸ rfl)
  obtain ⟨given', heq, hperm⟩ := List.perm_comp_forall₂ h hnamed
  exact ⟨given', List.forall₂_eq_eq_eq ▸ List.forall₂_map_right_iff.2 heq, hperm⟩

end Given

namespace Config

/-- Members in another order are decoded to the same configuration. -/
theorem decode_perm {members members' : List (String × Json φ)} {c : Config}
    (hperm : members.Perm members') (h : decode (.object members .closed) = .ok c) :
    decode (.object members' .closed) = .ok c := by
  obtain ⟨_, given, changes, rfl, hnodup, hmeans, rfl⟩ := decode_object_ok_iff.1 h
  obtain ⟨given', rfl, hgiven⟩ := Given.named_perm hperm.symm
  obtain ⟨changes', hmeans', hchanges⟩ := hmeans.perm hnodup hgiven
  have hnodup' : (given'.map Prod.fst).Nodup := (hgiven.map Prod.fst).nodup_iff.2 hnodup
  exact decode_object_ok_iff.2 ⟨rfl, given', changes', rfl, hnodup', hmeans', hchanges.symm⟩

end Config

end Order

namespace Config

/-- No member makes the delays a function of the caller. -/
theorem applyAll_ne_custom {given : Given φ} {changes : List Setting}
    (h : given.Means changes) {c : Config} (hc : ∀ k, c.retry.method ≠ .custom k) :
    ∀ k, (c.applyAll changes).retry.method ≠ .custom k := by
  induction h generalizing c with
  | nil => exact hc
  | cons hs _ ih => exact ih (hs.method_ne_custom hc)

/-- **Decoding.**  A value is decoded exactly if it gives different members with values that stand
for changes, and then to the default configuration with these changes made.  An object may give
its members in any order, an array is decoded like the object with the first names, and the
method is never the caller's own.

Every number of milliseconds of 64 bits is a duration and the defaults are such durations; a
number is read as an integer from zero up if it is written with digits only. -/
theorem decode_exact (φ : Type) :
    (∀ (j : Json φ) (c : Config), decode j = .ok c ↔
      ∃ (given : Given φ) (changes : List Setting),
        Encoded j given ∧ given.Means changes ∧ c = Config.default.applyAll changes) ∧
    (∀ (members members' : List (String × Json φ)) (c : Config), members.Perm members' →
      decode (.object members .closed) = .ok c → decode (.object members' .closed) = .ok c) ∧
    (∀ items : List (Json φ), items.length ≤ ConfigField.all.length →
      decode (.array items none) =
        decode (.object ((ConfigField.all.map ConfigField.name).zip items) .closed)) ∧
    (∀ (j : Json φ) (c : Config), decode j = .ok c → ∀ k, c.retry.method ≠ .custom k) ∧
    (∀ n < 2 ^ 64, ∃ d : Duration, d.nanos = n * 1000000) ∧
    (∀ d ∈ [Config.default.retry.delay, Config.default.gracePeriod],
      Duration.ofMillis d.toMillis = d) ∧
    ∀ (cs rest : List Char) (n : Nat), Numeral.read cs = .ok (.integer n, rest) ↔
      ∃ ds, cs = ds ++ rest ∧ Numeral.Plain ds ∧ Numeral.Ends rest ∧
        Numeral.valueOf ds = n ∧ n < 2 ^ 64 := by
  refine ⟨fun _ _ => decode_ok_iff, fun _ _ _ => decode_perm, fun items hlen => ?array,
    fun j c h => ?method, fun n hn => ⟨_, nanos_ofMillis hn⟩, by decide,
    fun _ _ _ => Numeral.read_integer_iff⟩
  case array =>
    rw [decode_array hlen, List.zip_map_left]
    rfl
  case method =>
    obtain ⟨given, changes, _, hmeans, rfl⟩ := decode_ok_iff.1 h
    exact applyAll_ne_custom hmeans fun k hk => nomatch hk

/-- Two members in either order, and the method as an object. -/
example :
    (decode (.object [("grace_period_ms", .number (.integer 5)),
      ("delay_method", .object [("incremental", .null)] .closed)] .closed : Json Empty)) =
      .ok ⟨⟨1, Duration.zero, .incremental⟩, Duration.ofMillis 5⟩ := rfl

end Config

end TransactionAttempts
