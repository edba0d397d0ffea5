import Conform.Proofs.Configured
import Conform.Proofs.Seeking
import Mathlib.Logic.Relation
import Mathlib.Data.List.Pairwise
import Mathlib.Data.List.Perm.Basic

/-!
What a set of configurations means, whatever its order. The definitions of a set are its named configurations;
they are accepted when no two names are the same. The schema of a name is what its configuration
declares with the schemas of its references, themselves made so (`Makes`). A name has one such schema
(`Makes.unique`), and only a name from which no references lead back to it (`Makes.acc`).
-/

namespace Conform

/-! ### Keys -/

/-- Equality is an equivalence on some values, as it has to be on keys. -/
structure Value.Lawful (keys : Value → Prop) : Prop where
  refl {a} : keys a → a.same a = true
  symm {a b} : keys a → keys b → a.same b = true → b.same a = true
  trans {a b c} : keys a → keys b → keys c → a.same b = true → b.same c = true → a.same c = true

theorem Value.lawful_of_text {keys : Value → Prop} (text : ∀ v, keys v → ∃ s, v = .text s) : Value.Lawful keys where
  refl ha := by
    obtain ⟨s, rfl⟩ := text _ ha
    simp
  symm ha hb := by
    obtain ⟨s, rfl⟩ := text _ ha
    obtain ⟨t, rfl⟩ := text _ hb
    rw [same_text, same_text, beq_iff_eq, beq_iff_eq]
    exact Eq.symm
  trans ha hb hc := by
    obtain ⟨s, rfl⟩ := text _ ha
    obtain ⟨t, rfl⟩ := text _ hb
    obtain ⟨u, rfl⟩ := text _ hc
    simp +contextual

namespace Value
variable {α : Type} {key k : Value} {a : α} {entries : List (Value × α)}

theorem elemOf_iff {items : List Value} : elemOf key items = true ↔ ∃ w ∈ items, w.same key = true :=
  List.any_eq_true

theorem lookup?_some : ∀ {entries : List (Value × α)}, lookup? key entries = some a →
    ∃ k, (k, a) ∈ entries ∧ k.same key = true
  | (k, b) :: rest, h => by
    unfold lookup? at h
    split at h
    · next same =>
      cases h
      exact ⟨k, List.mem_cons_self, same⟩
    · obtain ⟨k', hm, same⟩ := lookup?_some h
      exact ⟨k', List.mem_cons_of_mem _ hm, same⟩

theorem isSome_lookup? : ∀ {entries : List (Value × α)},
    (lookup? key entries).isSome = true ↔ ∃ k a, (k, a) ∈ entries ∧ k.same key = true
  | [] => by simp [lookup?]
  | (k, b) :: rest => by
    unfold lookup?
    split
    · next same => simp only [Option.isSome_some, true_iff]; exact ⟨k, b, List.mem_cons_self, same⟩
    · next different =>
      rw [isSome_lookup?]
      constructor
      · rintro ⟨k', a, hm, same⟩
        exact ⟨k', a, List.mem_cons_of_mem _ hm, same⟩
      · rintro ⟨k', a, hm, same⟩
        rcases List.mem_cons.mp hm with hm | hm
        · cases hm
          exact (different same).elim
        · exact ⟨k', a, hm, same⟩

/-- Setting what stands under a key removes no key. -/
theorem mem_keys_assign {b : α} : ∀ {entries : List (Value × α)}, (k, b) ∈ entries → ∃ b, (k, b) ∈ assign key a entries
  | (k', b') :: rest, h => by
    unfold assign
    split <;> rcases List.mem_cons.mp h with h | h
    · cases h
      exact ⟨a, List.mem_cons_self⟩
    · exact ⟨b, List.mem_cons_of_mem _ h⟩
    · cases h
      exact ⟨b, List.mem_cons_self⟩
    · obtain ⟨b, h⟩ := mem_keys_assign h
      exact ⟨b, List.mem_cons_of_mem _ h⟩

/-- What was set under a key stands there. -/
theorem assign_mem : ∀ {entries : List (Value × α)}, ∃ k, (k, a) ∈ assign key a entries ∧ (k = key ∨ k.same key = true)
  | [] => ⟨key, List.mem_singleton_self _, .inl rfl⟩
  | (k, b) :: rest => by
    unfold assign
    split
    · next same => exact ⟨k, List.mem_cons_self, .inr same⟩
    · obtain ⟨k', hm, hk⟩ := @assign_mem rest
      exact ⟨k', List.mem_cons_of_mem _ hm, hk⟩

theorem isSome_lookup?_assign {n : Value} (h : (lookup? n entries).isSome = true) :
    (lookup? n (assign key a entries)).isSome = true := by
  obtain ⟨k, b, hm, same⟩ := isSome_lookup?.mp h
  obtain ⟨b', hm⟩ := mem_keys_assign hm
  exact isSome_lookup?.mpr ⟨k, b', hm, same⟩

end Value

namespace Factory

open Conform.Configuration

/-! ### The definitions of a set -/

/-- The definition that a configuration is, if it is named. -/
def definition? : Value → Option Definition
  | .mapping _ entries => (Value.lookup? (.text "name") entries).map fun name => (name, entries)
  | _ => none

/-- The definitions of the named configurations of a set. -/
def named (configs : List Value) : List Definition := configs.filterMap definition?

theorem mem_named {configs : List Value} {d : Definition} (hd : d ∈ named configs) :
    Value.lookup? (.text "name") d.2 = some d.1 := by
  obtain ⟨config, -, h⟩ := List.mem_filterMap.mp hd
  unfold definition? at h
  split at h
  · obtain ⟨name, hn, rfl⟩ := Option.map_eq_some_iff.mp h
    exact hn
  · cases h

theorem definitions_cons (config : Value) (rest : List Value) (done : List Definition) :
    definitions (config :: rest) done = match definition? config with
      | none => .error (refuse .unnamedDefinition [("config", config)])
      | some d => d.1.requireKey >>= fun _ =>
        if (Value.lookup? d.1 done).isSome then .error (refuse (.definedTwice d.1) [("schema", d.1)])
        else definitions rest (done ++ [d]) := by
  cases config with
  | mapping k entries =>
    rw [definitions, definition?]
    rcases Value.lookup? (.text "name") entries with _ | name
    · rfl
    · dsimp only [Option.map_some]
      rcases name.requireKey with e | u
      · rfl
      · dsimp only [bind, Except.bind]
        split <;> rfl
  | _ => rfl

/-- A set is accepted when all its configurations have names that can be keys and no two have the same. -/
theorem definitions_eq_ok : ∀ {configs : List Value} {done all : List Definition},
    definitions configs done = .ok all ↔
      (∀ config ∈ configs, ∃ d, definition? config = some d ∧ d.1.requireKey = .ok ()) ∧
      (named configs).Pairwise (fun d d' => d.1.same d'.1 = false) ∧
      (∀ d ∈ done, ∀ d' ∈ named configs, d.1.same d'.1 = false) ∧ all = done ++ named configs
  | [], done, all => by
    rw [definitions]
    simp [named, eq_comm (a := all)]
  | config :: rest, done, all => by
    rw [definitions_cons]
    cases hd : definition? config with
    | none => simp [hd]
    | some d =>
      dsimp only
      rcases hkey : d.1.requireKey with e | ⟨⟩
      · refine ⟨nofun, fun ⟨all, _⟩ => ?_⟩
        obtain ⟨d', hd', hkey'⟩ := all config List.mem_cons_self
        cases hd.symm.trans hd'
        cases hkey.symm.trans hkey'
      -- Only what was done before is looked up; the definitions that follow meet this one when they are reached.
      have absent : (Value.lookup? d.1 done).isSome = false ↔ ∀ d' ∈ done, d'.1.same d.1 = false := by
        rw [← Bool.not_eq_true, Value.isSome_lookup?]
        constructor
        · intro h d' hd'
          by_contra same
          exact h ⟨d'.1, d'.2, hd', by simpa using same⟩
        · rintro h ⟨k, c, hm, same⟩
          cases (h (k, c) hm).symm.trans same
      have names : named (config :: rest) = d :: named rest := by rw [named, List.filterMap_cons, hd]; rfl
      simp only [bind, Except.bind]
      split
      · next taken =>
        have : ¬ ∀ d' ∈ done, d'.1.same d.1 = false := fun h => by
          cases (absent.mpr h).symm.trans taken
        simp only [reduceCtorEq, false_iff, names, List.mem_cons, forall_eq_or_imp]
        rintro ⟨-, -, h, -⟩
        exact this fun d' hd' => (h d' hd').1
      · next free =>
        rw [definitions_eq_ok, names]
        simp only [List.mem_cons, forall_eq_or_imp, List.pairwise_cons, List.mem_append, List.not_mem_nil, or_false,
          List.append_assoc, List.singleton_append, hd]
        have free := absent.mp (by simpa using free)
        constructor
        · rintro ⟨all, pairs, apart, rfl⟩
          exact ⟨⟨⟨d, rfl, hkey⟩, all⟩, ⟨fun d' hd' => apart d (.inr rfl) d' hd', pairs⟩,
            fun d' hd' => ⟨free d' hd', apart d' (.inl hd')⟩, rfl⟩
        · rintro ⟨⟨-, all⟩, ⟨first, pairs⟩, apart, rfl⟩
          refine ⟨all, pairs, fun d' hd' => ?_, rfl⟩
          rcases hd' with hd' | rfl
          · exact (apart d' hd').2
          · exact first

/-! ### The schema of a name -/

/-- A name that a set of definitions gives, or refers to. -/
inductive Mentioned (all : List Definition) : Value → Prop where
  | name {d} (hd : d ∈ all) : Mentioned all d.1
  | reference {d refs r} (hd : d ∈ all) (hrefs : references d.2 = .ok refs) (hr : r ∈ refs) : Mentioned all r

/-- Definitions with names of their own, which the scan for references sees wherever a declaration asks for them. -/
structure Orderly (all : List Definition) : Prop where
  equal : Value.Lawful (Mentioned all)
  named {d} : d ∈ all → Value.lookup? (.text "name") d.2 = some d.1 ∧ d.1.requireKey = .ok ()
  distinct {d d'} : d ∈ all → d' ∈ all → d.1.same d'.1 = true → d = d'
  seen {d name} : d ∈ all → Needs false d.2 name → Value.elemOf name (all.map Prod.fst) = false

theorem elemOf_names_perm {all all' : List Definition} (perm : all.Perm all') (n : Value) :
    Value.elemOf n (all'.map Prod.fst) = Value.elemOf n (all.map Prod.fst) :=
  Bool.eq_iff_iff.mpr <| by simp only [Value.elemOf_iff, (perm.map Prod.fst).mem_iff]

theorem Mentioned.perm {all all' : List Definition} {v : Value} (perm : all.Perm all') : Mentioned all v → Mentioned all' v
  | .name hd => .name (perm.mem_iff.mp hd)
  | .reference hd hrefs hr => .reference (perm.mem_iff.mp hd) hrefs hr

theorem lawful_perm {all all' : List Definition} (perm : all.Perm all') (equal : Value.Lawful (Mentioned all)) :
    Value.Lawful (Mentioned all') where
  refl ha := equal.refl (ha.perm perm.symm)
  symm ha hb := equal.symm (ha.perm perm.symm) (hb.perm perm.symm)
  trans ha hb hc := equal.trans (ha.perm perm.symm) (hb.perm perm.symm) (hc.perm perm.symm)

theorem Orderly.perm {all all' : List Definition} (perm : all.Perm all') (orderly : Orderly all) : Orderly all' where
  equal := lawful_perm perm orderly.equal
  named hd := orderly.named (perm.mem_iff.mpr hd)
  distinct hd hd' := orderly.distinct (perm.mem_iff.mpr hd) (perm.mem_iff.mpr hd')
  seen hd needs := (elemOf_names_perm perm _).trans (orderly.seen (perm.mem_iff.mpr hd) needs)

/-- Two definitions whose names are not the same. -/
def Apart (d d' : Definition) : Prop := d.1.same d'.1 = false ∧ d'.1.same d.1 = false

instance : Std.Symm Apart := ⟨fun _ _ => And.symm⟩

/-- A set that is accepted: all its configurations have names that can be keys, and names of their own. -/
structure Accepted (configs : List Value) : Prop where
  given {config} : config ∈ configs → ∃ d, definition? config = some d ∧ d.1.requireKey = .ok ()
  apart : (named configs).Pairwise Apart

theorem Accepted.perm {configs configs' : List Value} (perm : configs.Perm configs') (accepted : Accepted configs) :
    Accepted configs' where
  given hc := accepted.given (perm.mem_iff.mpr hc)
  apart := (perm.filterMap definition?).pairwise accepted.apart And.symm

theorem definitions_accepted {configs : List Value} {all : List Definition}
    (equal : Value.Lawful (Mentioned (named configs))) :
    definitions configs [] = .ok all ↔ Accepted configs ∧ all = named configs := by
  rw [definitions_eq_ok]
  constructor
  · rintro ⟨given, pairs, -, rfl⟩
    refine ⟨⟨given _, pairs.imp_of_mem fun {d d'} hd hd' h => ⟨h, ?_⟩⟩, rfl⟩
    by_contra same
    cases h.symm.trans (equal.symm (.name hd') (.name hd) (by simpa using same))
  · rintro ⟨accepted, rfl⟩
    exact ⟨fun _ => accepted.given, accepted.apart.imp And.left, nofun, rfl⟩

/-- An accepted set is orderly when it is seen. -/
theorem Accepted.orderly {configs : List Value} (accepted : Accepted configs)
    (equal : Value.Lawful (Mentioned (named configs)))
    (seen : ∀ d ∈ named configs, ∀ name, Needs false d.2 name →
      Value.elemOf name ((named configs).map Prod.fst) = false) : Orderly (named configs) where
  equal := equal
  named {d} hd := by
    obtain ⟨config, hc, hdef⟩ := List.mem_filterMap.mp hd
    obtain ⟨d', hdef', key⟩ := accepted.given hc
    cases hdef.symm.trans hdef'
    exact ⟨mem_named hd, key⟩
  distinct hd hd' same := by
    by_contra different
    cases (accepted.apart.forall hd hd' different).1.symm.trans same
  seen hd := seen _ hd _

/-- The schema of a name in a set: what its configuration declares with the schemas of its references, and no others
of the set. -/
inductive Makes (h : Host) (t : FunctionTable) (all : List Definition) : Value → Schema → Prop where
  | mk {name config refs known b} {source : Value → Value} {made : Value → Schema}
    (defined : (name, config) ∈ all) (scanned : references config = .ok refs)
    (keys : ∀ r ∈ refs, r.requireKey = .ok ()) (sources : ∀ r ∈ refs, (source r).same r = true)
    (given : ∀ r ∈ refs, Makes h t all (source r) (made r))
    (found : ∀ r ∈ refs, Value.lookup? r known = some (made r))
    (others : ∀ n, Value.elemOf n (all.map Prod.fst) = false → Value.lookup? n known = none)
    (texts : requireArguments config = .ok ()) (declared : declare h t known name config = .ok b) :
    Makes h t all name (b.build 0).unnumbered

/-- One name of a set refers to another. -/
def Refers (all : List Definition) (target name : Value) : Prop :=
  ∃ config refs r, (name, config) ∈ all ∧ references config = .ok refs ∧ r ∈ refs ∧ target.same r = true ∧
    ∃ config', (target, config') ∈ all

section Making
variable {h : Host} {t t' : FunctionTable} {all all' : List Definition} {name : Value} {s s' : Schema}

theorem Makes.defined (makes : Makes h t all name s) : ∃ config, (name, config) ∈ all := by
  cases makes with
  | mk defined => exact ⟨_, defined⟩

theorem Makes.unnumbered (makes : Makes h t all name s) : s.unnumbered = s := by
  cases makes with
  | mk => exact Schema.unnumbered_unnumbered _

/-- What a name of a set means does not depend on the order of the set. -/
theorem Makes.perm (perm : all.Perm all') (makes : Makes h t all name s) : Makes h t all' name s := by
  induction makes with
  | mk defined scanned keys sources given found others texts declared ih =>
    exact .mk (perm.mem_iff.mp defined) scanned keys sources ih found
      (fun n hn => others n ((elemOf_names_perm perm n).symm.trans hn)) texts declared

variable (orderly : Orderly all)
include orderly

/-- The names of a set that are the same as a reference are one. -/
theorem Orderly.source_eq {d d' : Definition} {r : Value} (hd : d ∈ all) (hd' : d' ∈ all) (hr : Mentioned all r)
    (same : d.1.same r = true) (same' : d'.1.same r = true) : d = d' :=
  orderly.distinct hd hd' <| orderly.equal.trans (.name hd) hr (.name hd') same
    (orderly.equal.symm (.name hd') hr same')

/-- Declarations are alike when what is known agrees on the references and knows nothing else of the set. -/
theorem Orderly.declare_alike (fair : t.Impartial h) (ht : t'.functions = t.functions) {d : Definition} (hd : d ∈ all)
    {refs : List Value} (scanned : references d.2 = .ok refs) {known known' : KnownSchemas}
    (agree : ∀ n ∈ refs, Answers known known' n)
    (others : ∀ n, Value.elemOf n (all.map Prod.fst) = false → Answers known known' n) :
    declare h t' known' d.1 d.2 = (declare h t known d.1 d.2).map SchemaBuilder.unnumbered := by
  refine declare_unnumbered fair ht fun seen n needs => ?_
  cases seen with
  | false => exact others n (orderly.seen hd needs)
  | true => exact agree n (needs.mem_references scanned)

theorem Makes.unique (fair : t.Impartial h) (makes : Makes h t all name s) (makes' : Makes h t all name s') : s = s' := by
  induction makes generalizing s' with
  | @mk name config refs known b source made defined scanned keys sources given found others texts declared ih =>
    cases makes' with
    | @mk _ config' refs' known' b' source' made' defined' scanned' _ sources' given' found' others' _ declared' =>
      have same : (name, config) = (name, config') :=
        orderly.distinct defined defined' (orderly.equal.refl (.name defined))
      cases same
      cases scanned.symm.trans scanned'
      have one : ∀ r ∈ refs, made r = made' r := by
        intro r hr
        obtain ⟨c, hc⟩ := (given r hr).defined
        obtain ⟨c', hc'⟩ := (given' r hr).defined
        have one : source r = source' r := congrArg Prod.fst <|
          orderly.source_eq hc hc' (.reference defined scanned hr) (sources r hr) (sources' r hr)
        exact ih r hr (one ▸ given' r hr)
      have agree : ∀ n ∈ refs, Answers known known' n := fun n hn => by
        rw [Answers, found n hn, found' n hn, ← one n hn]
        exact congrArg some (given n hn).unnumbered.symm
      have alike := orderly.declare_alike fair rfl defined scanned agree fun n hn => by
        rw [Answers, others n hn, others' n hn]
        rfl
      rw [declared, declared'] at alike
      cases alike
      exact (SchemaBuilder.build_unnumbered ..).symm

/-- From a name that has a schema, references lead nowhere for ever. -/
theorem Makes.acc (makes : Makes h t all name s) : Acc (Refers all) name := by
  induction makes with
  | @mk name config refs known b source made defined scanned keys sources given found others texts declared ih =>
    refine .intro name fun target ⟨config', refs', r, defined', scanned', hr, same, config'', htarget⟩ => ?_
    have one : (name, config) = (name, config') :=
      orderly.distinct defined defined' (orderly.equal.refl (.name defined))
    cases one
    cases scanned.symm.trans scanned'
    obtain ⟨c, hc⟩ := (given r hr).defined
    have one : target = source r := congrArg Prod.fst <|
      orderly.source_eq htarget hc (.reference defined scanned hr) same (sources r hr)
    exact one ▸ ih r hr

end Making

end Factory
end Conform
