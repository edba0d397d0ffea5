import Conform.Proofs.Making
import Mathlib.Data.List.Nodup

/-!
The search that creates a set of schemas. Some configurations with names of their own are a graph, with an edge from each
name to each name that its configuration refers to. The search goes along the edges; written with a limit on how deep it
goes and nothing else that makes it end (`search`), it never meets the limit when that is more than the number of the
configurations (`createMany_eq_searchMany`).
-/

namespace Conform
namespace Factory

open Conform.Configuration

/-- Configurations that have texts for names, no two the same, and refer to texts. -/
structure WellFormed (configs : List Value) : Prop where
  given : ∀ config ∈ configs, ∃ name entries, definition? config = some (.text name, entries) ∧
    requireArguments entries = .ok () ∧ ∃ refs, references entries = .ok refs ∧ ∀ r ∈ refs, ∃ s, r = .text s
  distinct : ((named configs).map Prod.fst).Nodup

/-- An edge from a name to another that its configuration refers to. -/
def Edge (all : List Definition) (name target : Value) : Prop :=
  ∃ config refs, (name, config) ∈ all ∧ references config = .ok refs ∧ target ∈ refs

/-! ### The search with a limit -/

/-- Creates what a name refers to, if it is a name of the set; else it must be known. -/
def follow (names : List Value) (name : Value) (next : List (Value × Schema) → Value → Creation (List (Value × Schema)))
    (created : List (Value × Schema)) (r : Value) : Creation (List (Value × Schema)) := do
  create.liftExcept r.requireKey
  if Value.elemOf r names then next created r
  else if (Value.lookup? r (← get).schemas).isSome then return created
  else throw (Configuration.refuse (.unknownReference name r) [("schema", name), ("reference", r)])

/-- Creates the schema of a name after those that it refers to, unless they are deeper than a limit. -/
def search (h : Host) (all : List Definition) : (limit : Nat) → (visiting : List Value) → List (Value × Schema) → Value →
    Creation (List (Value × Schema))
  | 0, _, _, _ => throw (.raised "RecursionError" "maximum recursion depth exceeded")
  | limit + 1, visiting, created, name =>
    if (Value.lookup? name created).isSome then pure created
    else if Value.elemOf name visiting then throw (cycleFault name visiting)
    else match Value.lookup? name all with
      | none => throw (.missingKey name.repr)
      | some config => do
        let refs ← create.liftExcept (references config)
        let created ← refs.foldlM (follow (all.map Prod.fst) name (search h all limit (visiting ++ [name]))) created
        create.liftExcept (requireArguments config)
        let s ← create h config
        return Value.assign name s created

/-- Creates a set of schemas by searches with a limit. -/
def searchMany (h : Host) (limit : Nat) (configs : List Value) : Creation (List (Value × Schema)) := do
  let all ← create.liftExcept (definitions configs [])
  let created ← (all.map Prod.fst).foldlM (search h all limit []) []
  return all.filterMap fun d => (Value.lookup? d.1 created).map fun s => (d.1, s)

/-! ### Names that are texts -/

theorem elemOf_text {items : List Value} (texts : ∀ v ∈ items, ∃ s, v = .text s) (n : String) :
    Value.elemOf (.text n) items = true ↔ .text n ∈ items := by
  rw [Value.elemOf_iff]
  constructor
  · rintro ⟨w, hw, same⟩
    obtain ⟨s, rfl⟩ := texts w hw
    rw [Value.same_text, beq_iff_eq] at same
    exact same ▸ hw
  · intro h
    exact ⟨.text n, h, by simp⟩

/-- Definitions whose names are texts, no two the same. -/
structure Plain (all : List Definition) : Prop where
  named {d} : d ∈ all → Value.lookup? (.text "name") d.2 = some d.1 ∧ ∃ s, d.1 = .text s
  distinct : (all.map Prod.fst).Nodup
  scanned {d} : d ∈ all → ∃ refs, references d.2 = .ok refs ∧ ∀ r ∈ refs, ∃ s, r = .text s
  arguments {d} : d ∈ all → requireArguments d.2 = .ok ()

theorem WellFormed.plain {configs : List Value} (formed : WellFormed configs) : Plain (named configs) := by
  have each {d : Definition} (hd : d ∈ named configs) : (∃ s, d.1 = .text s) ∧ requireArguments d.2 = .ok () ∧
      ∃ refs, references d.2 = .ok refs ∧ ∀ r ∈ refs, ∃ s, r = .text s := by
    obtain ⟨config, hc, hdef⟩ := List.mem_filterMap.mp hd
    obtain ⟨name, entries, hdef', arguments, scanned⟩ := formed.given config hc
    cases hdef.symm.trans hdef'
    exact ⟨⟨name, rfl⟩, arguments, scanned⟩
  exact ⟨fun hd => ⟨mem_named hd, (each hd).1⟩, formed.distinct, fun hd => (each hd).2.2, fun hd => (each hd).2.1⟩

theorem WellFormed.definitions {configs : List Value} (formed : WellFormed configs) :
    definitions configs [] = .ok (named configs) := by
  refine definitions_eq_ok.mpr ⟨fun config hc => ?_, ?_, nofun, rfl⟩
  · obtain ⟨name, entries, hdef, -⟩ := formed.given config hc
    exact ⟨_, hdef, rfl⟩
  · have apart := List.pairwise_map.mp formed.distinct
    refine apart.imp_of_mem fun {d d'} hd hd' different => ?_
    obtain ⟨-, s, hs⟩ := formed.plain.named hd
    obtain ⟨-, s', hs'⟩ := formed.plain.named hd'
    rw [hs, hs', Value.same_text, beq_eq_false_iff_ne]
    rintro rfl
    exact different (hs.trans hs'.symm)

namespace Plain
variable {all : List Definition} {d d' : Definition} {name r : Value} {config : List (Value × Value)}

theorem names_texts (plain : Plain all) : ∀ v ∈ all.map Prod.fst, ∃ s, v = .text s := by
  intro v hv
  obtain ⟨d, hd, rfl⟩ := List.mem_map.mp hv
  exact (plain.named hd).2

theorem unique (plain : Plain all) (hd : d ∈ all) (hd' : d' ∈ all) (same : d.1 = d'.1) : d = d' :=
  List.inj_on_of_nodup_map plain.distinct hd hd' same

theorem lookup_of_mem (plain : Plain all) (hd : (name, config) ∈ all) : Value.lookup? name all = some config := by
  obtain ⟨-, s, hs⟩ := plain.named hd
  have there : (Value.lookup? name all).isSome = true := by
    refine Value.isSome_lookup?.mpr ⟨name, config, hd, ?_⟩
    rw [show name = .text s from hs]
    simp
  obtain ⟨config', found⟩ := Option.isSome_iff_exists.mp there
  obtain ⟨k, hk, same⟩ := Value.lookup?_some found
  obtain ⟨-, s', hs'⟩ := plain.named hk
  have one : k = name := by
    rw [show k = .text s' from hs', show name = .text s from hs, Value.same_text, beq_iff_eq] at same
    rw [show k = .text s' from hs', show name = .text s from hs, same]
  cases plain.unique hk hd one
  exact found

/-- An edge leads to one of the references that are found in the configuration of its name. -/
theorem mem_of_edge (plain : Plain all) (hd : (name, config) ∈ all) {refs : List Value} (scanned : references config = .ok refs)
    (edge : Edge all name r) : r ∈ refs := by
  obtain ⟨config', refs', hd', scanned', hr⟩ := edge
  cases plain.unique hd hd' rfl
  cases scanned.symm.trans scanned'
  exact hr

theorem text_of_edge (plain : Plain all) (edge : Edge all name r) : ∃ t, r = .text t := by
  obtain ⟨config, refs, hd, scanned, hr⟩ := edge
  obtain ⟨refs', scanned', texts⟩ := plain.scanned hd
  cases scanned.symm.trans scanned'
  exact texts r hr

end Plain

/-! ### The limit is not met -/

section Limit
variable {h : Host} {all : List Definition}

/-- The definitions that a search does not wait for. -/
structure Left (all : List Definition) (visiting : List Value) (pending : List Definition) : Prop where
  left {d} : d ∈ pending → d ∈ all
  waited {d} : d ∈ all → d ∈ pending ∨ d.1 ∈ visiting

/-- A name that is not waited for has its definition left. -/
theorem Left.takes {visiting : List Value} {pending : List Definition} {n : String}
    (left : Left all visiting pending) (listed : .text n ∈ all.map Prod.fst) (unseen : .text n ∉ visiting) :
    takeDefinition (.text n) pending ≠ none := by
  intro none
  obtain ⟨d, hd, hn⟩ := List.mem_map.mp listed
  rcases left.waited hd with hp | hv
  · have different := takeDefinition_none none d hp
    rw [hn, Value.same_text, beq_self_eq_true] at different
    cases different
  · exact unseen (hn ▸ hv)

/-- What is left when the definition of a name was taken, and its references are followed. -/
theorem Left.take (plain : Plain all) {visiting : List Value} {pending : List Definition} {n : String}
    {config : List (Value × Value)} {rest : { rest : List Definition // rest.length < pending.length }}
    (left : Left all visiting pending) (taken : takeDefinition (.text n) pending = some (config, rest)) :
    (.text n, config) ∈ all ∧ Left all (visiting ++ [.text n]) rest := by
  obtain ⟨k, hm, same, apart, back⟩ := takeDefinition_some taken
  have hd := left.left hm
  obtain ⟨-, s, hs⟩ := plain.named hd
  obtain rfl : k = .text n := by
    rw [show k = .text s from hs, Value.same_text, beq_iff_eq] at same
    rw [show k = .text s from hs, same]
  refine ⟨hd, fun hd => left.left (back _ hd), fun hd => ?_⟩
  rcases left.waited hd with hp | hv
  · rcases apart _ hp with rfl | hp
    · exact .inr (by simp)
    · exact .inl hp
  · exact .inr (List.mem_append_left _ hv)

theorem buildReferences_eq_foldlM (names visiting : List Value) (pending : List Definition) (name : Value)
    (refs : List Value) : ∀ created : List (Value × Schema),
    buildReferences h names visiting pending created name refs =
      refs.foldlM (follow names name (build h names visiting pending)) created := by
  induction refs with
  | nil =>
    intro created
    rw [buildReferences]
    rfl
  | cons r rest ih =>
    intro created
    rw [buildReferences, List.foldlM_cons, follow]
    simp only [bind_assoc]
    refine bind_congr fun _ => ?_
    split
    · exact bind_congr fun created => ih created
    · rw [bind_assoc]
      refine bind_congr fun f => ?_
      split
      · rw [pure_bind, ih]
      · rfl

theorem liftExcept_ok_bind {α β : Type} (a : α) (g : α → Creation β) : create.liftExcept (.ok a) >>= g = g a :=
  pure_bind a g

theorem foldlM_congr {α β : Type} {g g' : β → α → Creation β} {items : List α}
    (same : ∀ a ∈ items, ∀ b, g b a = g' b a) :
    ∀ b, items.foldlM g b = items.foldlM g' b := by
  induction items with
  | nil => exact fun _ => rfl
  | cons a rest ih =>
    intro b
    rw [List.foldlM_cons, List.foldlM_cons, same a List.mem_cons_self]
    exact bind_congr (ih fun a ha => same a (List.mem_cons_of_mem _ ha))

theorem follow_congr {names : List Value} {name r : Value}
    {next next' : List (Value × Schema) → Value → Creation (List (Value × Schema))}
    {created : List (Value × Schema)} (same : Value.elemOf r names = true → next created r = next' created r) :
    follow names name next created r = follow names name next' created r := by
  unfold follow
  refine bind_congr fun _ => ?_
  split
  · next listed => exact same listed
  · rfl

/-- A search with more limit than there are definitions that it does not wait for is the search without a limit. -/
theorem build_eq_search (plain : Plain all) (limit : Nat) : ∀ {visiting : List Value} {pending : List Definition}
    {name : Value} {created : List (Value × Schema)}, Left all visiting pending → name ∈ all.map Prod.fst →
      (∀ v ∈ visiting, ∃ s, v = .text s) → pending.length < limit →
      build h (all.map Prod.fst) visiting pending created name = search h all limit visiting created name := by
  induction limit with
  | zero => exact fun _ _ _ more => (Nat.not_lt_zero _ more).elim
  | succ limit ih =>
    intro visiting pending name created left listed waiting more
    obtain ⟨n, rfl⟩ := plain.names_texts name listed
    rw [build, search]
    split
    · rfl
    split
    · rfl
    next fresh =>
    have unseen : .text n ∉ visiting := fun seen => fresh ((elemOf_text waiting n).mpr seen)
    split
    · next none => exact (left.takes listed unseen none).elim
    · next config rest shorter taken =>
      obtain ⟨hd, deeper⟩ := left.take plain taken
      obtain ⟨refs, scanned, texts⟩ := plain.scanned hd
      have waiting' : ∀ v ∈ visiting ++ [.text n], ∃ s, v = .text s := by
        intro v hv
        rcases List.mem_append.mp hv with hv | hv
        · exact waiting v hv
        · exact ⟨n, List.mem_singleton.mp hv⟩
      have below (created : List (Value × Schema)) (r : Value) (hr : r ∈ all.map Prod.fst) :
          build h (all.map Prod.fst) (visiting ++ [.text n]) rest created r =
            search h all limit (visiting ++ [.text n]) created r :=
        ih deeper hr waiting' (by omega)
      rw [plain.lookup_of_mem hd]
      simp only [buildReferences_eq_foldlM, scanned, liftExcept_ok_bind]
      rw [foldlM_congr fun r hr created => follow_congr fun listed => ?_]
      obtain ⟨t, rfl⟩ := texts r hr
      exact below created _ ((elemOf_text plain.names_texts t).mp listed)

theorem buildAll_eq_foldlM (names : List Value) : ∀ created : List (Value × Schema),
    buildAll h all names created = names.foldlM (build h (all.map Prod.fst) [] all) created := by
  induction names with
  | nil => exact fun _ => rfl
  | cons name rest ih =>
    intro created
    rw [buildAll, List.foldlM_cons]
    exact bind_congr ih

/-- Creating a set of schemas is searching for each of its names, with any limit that is more than the number of the
names: no search goes deeper. -/
theorem createMany_eq_searchMany {configs : List Value} (formed : WellFormed configs) {limit : Nat}
    (more : configs.length < limit) (h : Host) : createMany h configs = searchMany h limit configs := by
  have fewer : (named configs).length < limit := Nat.lt_of_le_of_lt (List.length_filterMap_le _ _) more
  have plain := formed.plain
  have alike (names : List Value) (sub : ∀ name ∈ names, name ∈ (named configs).map Prod.fst) :
      ∀ created, names.foldlM (build h ((named configs).map Prod.fst) [] (named configs)) created =
        names.foldlM (search h (named configs) limit []) created := by
    induction names with
    | nil => exact fun _ => rfl
    | cons name rest ih =>
      intro created
      have whole : Left (named configs) [] (named configs) := ⟨id, .inl⟩
      rw [List.foldlM_cons, List.foldlM_cons, build_eq_search plain limit whole (sub name List.mem_cons_self) (by simp) fewer]
      exact bind_congr fun created => ih (fun name hn => sub name (List.mem_cons_of_mem _ hn)) created
  unfold createMany searchMany
  simp only [formed.definitions, liftExcept_ok_bind, buildAll_eq_foldlM, alike _ (fun _ => id)]

end Limit
end Factory
end Conform
