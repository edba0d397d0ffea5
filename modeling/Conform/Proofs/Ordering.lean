import Conform.Proofs.Making
import Mathlib.Logic.Relation

/-!
Creating sets of schemas in any order. A run creates a schema after those that it refers to, so what it
creates is what the names of the set mean (`Created`), and it succeeds if every name of the set has a
meaning (`createMany_ends`). Meanings do not depend on the order of a set, so neither does what is made
of it (`createMany_perm`).
-/

namespace Conform
namespace Factory

open Conform.Configuration Relation

section Many
variable {h : Host} {t : FunctionTable} {all : List Definition}

/-- What there is while a set is created: the functions of the table, and schemas that are what names of the set mean. -/
structure Created (h : Host) (t : FunctionTable) (all : List Definition) (f : Factory) (created : List (Value × Schema)) :
    Prop where
  functions : f.table.functions = t.functions
  known {k u} : (k, u) ∈ f.schemas → Makes h t all k u.unnumbered
  created {k u} : (k, u) ∈ created → Mentioned all k ∧
    ∃ name, name.same k = true ∧ Makes h t all name u.unnumbered ∧ ∃ u', (name, u') ∈ f.schemas

/-- Every name of a set has a schema. -/
def Feasible (h : Host) (t : FunctionTable) (all : List Definition) : Prop := ∀ d ∈ all, ∃ s, Makes h t all d.1 s

variable {f : Factory} {created : List (Value × Schema)}

theorem Created.others (state : Created h t all f created) {n : Value}
    (hn : Value.elemOf n (all.map Prod.fst) = false) : Value.lookup? n f.schemas = none := by
  by_contra found
  obtain ⟨u, hu⟩ := Option.ne_none_iff_exists'.mp found
  obtain ⟨k, hm, same⟩ := Value.lookup?_some hu
  obtain ⟨config, hd⟩ := (state.known hm).defined
  have : Value.elemOf n (all.map Prod.fst) = true :=
    Value.elemOf_iff.mpr ⟨k, List.mem_map_of_mem hd, same⟩
  cases hn.symm.trans this

variable (orderly : Orderly all)
include orderly

/-- What was created under a name is known under it. -/
theorem Created.lookup (state : Created h t all f created) {r : Value} (hr : Mentioned all r)
    (there : (Value.lookup? r created).isSome = true) :
    ∃ name u, name.same r = true ∧ Makes h t all name u.unnumbered ∧ Value.lookup? r f.schemas = some u := by
  obtain ⟨k, u, hm, same⟩ := Value.isSome_lookup?.mp there
  obtain ⟨hk, name, same', makes, u', hu'⟩ := state.created hm
  obtain ⟨config, hd⟩ := makes.defined
  have known : (Value.lookup? r f.schemas).isSome = true :=
    Value.isSome_lookup?.mpr ⟨name, u', hu', orderly.equal.trans (.name hd) hk hr same' same⟩
  obtain ⟨v, hv⟩ := Option.isSome_iff_exists.mp known
  obtain ⟨name', hv', same''⟩ := Value.lookup?_some hv
  exact ⟨name', v, same'', state.known hv', hv⟩

/-- Creating the schema of a definition whose references are there creates what its name means. -/
theorem create_ends (fair : t.Impartial h) (state : Created h t all f created) {name : Value}
    {config : List (Value × Value)} (hd : (name, config) ∈ all) {refs : List Value} (scanned : references config = .ok refs)
    (keys : ∀ r ∈ refs, r.requireKey = .ok ()) (there : ∀ r ∈ refs, (Value.lookup? r created).isSome = true)
    (texts : requireArguments config = .ok ()) :
    Ends (fun _ => ¬Feasible h t all) (create h config) f fun s f' =>
      Makes h t all name s.unnumbered ∧ f'.table.functions = t.functions ∧ f'.schemas = Value.assign name s f.schemas := by
  have hname : Value.lookup? (.text "name") config = some name := (orderly.named hd).1
  have hkey : name.requireKey = .ok () := (orderly.named hd).2
  have mentioned {r : Value} (hr : r ∈ refs) : Mentioned all r := .reference hd scanned hr
  choose! source made same makes found using fun r (hr : r ∈ refs) => state.lookup orderly (mentioned hr) (there r hr)
  have fair' : f.table.Impartial h := by rwa [FunctionTable.Impartial, state.functions]
  unfold Ends
  rw [create_run, hname]
  dsimp only [Option.getD_some]
  rcases declared : declare h f.table f.schemas name config with e | b
  -- If the set is feasible, the definition is accepted with schemas like those that are known here, so also with these.
  · rintro feasible
    obtain ⟨s, hs⟩ := feasible _ hd
    cases hs with
    | @mk _ config' refs' known b source' made' defined' scanned' _ sources' given' found' others' _ declared' =>
      cases orderly.distinct hd defined' (orderly.equal.refl (.name hd))
      cases scanned.symm.trans scanned'
      have agree : ∀ n ∈ refs, Answers f.schemas known n := by
        intro n hn
        obtain ⟨c, hc⟩ := (makes n hn).defined
        obtain ⟨c', hc'⟩ := (given' n hn).defined
        have one : source n = source' n := congrArg Prod.fst <|
          orderly.source_eq hc hc' (mentioned hn) (same n hn) (sources' n hn)
        rw [Answers, found n hn, found' n hn, Option.map_some]
        exact congrArg some <| (given' n hn).unique orderly fair (one ▸ makes n hn)
      have alike := orderly.declare_alike fair' state.functions.symm hd scanned agree fun n hn => by
        rw [Answers, others' n hn, state.others hn]
        rfl
      rw [declared, declared'] at alike
      cases alike
  · rw [hkey]
    refine ⟨?_, state.functions, rfl⟩
    have answers (n : Value) : Answers f.schemas _ n := Value.lookup?_map n Schema.unnumbered f.schemas
    have alike := orderly.declare_alike fair' state.functions.symm hd scanned (fun n _ => answers n) fun n _ => answers n
    rw [declared] at alike
    rw [← SchemaBuilder.build_unnumbered f.nextSerial 0]
    refine .mk hd scanned keys same makes (fun r hr => ?_) (fun n hn => ?_) texts alike
    · rw [answers r, found r hr, Option.map_some]
    · rw [answers n, state.others hn, Option.map_none]

/-- Remembering a schema that was created keeps what there is as it should be. -/
theorem Created.assign (state : Created h t all f created) {name n : Value} {s : Schema} {f' : Factory}
    (hn : Mentioned all n) (same : name.same n = true) (makes : Makes h t all name s.unnumbered)
    (functions : f'.table.functions = t.functions) (schemas : f'.schemas = Value.assign name s f.schemas) :
    Created h t all f' (Value.assign n s created) := by
  obtain ⟨config, hd⟩ := makes.defined
  -- A schema of the same name is replaced by one that means the same.
  have known {k : Value} {u : Schema} (hm : (k, u) ∈ Value.assign name s f.schemas) : Makes h t all k u.unnumbered := by
    rcases Value.mem_assign hm with hm | ⟨rfl, rfl | ⟨same', u', hm⟩⟩
    · exact state.known hm
    · exact makes
    · obtain ⟨config', hd'⟩ := (state.known hm).defined
      have one : k = name := congrArg Prod.fst (orderly.distinct hd' hd same')
      exact one ▸ makes
  have there : (name, s) ∈ Value.assign name s f.schemas := by
    obtain ⟨name', hm, rfl | same'⟩ := @Value.assign_mem _ name s f.schemas
    · exact hm
    · obtain ⟨config', hd'⟩ := (known hm).defined
      have one : name' = name := congrArg Prod.fst (orderly.distinct hd' hd same')
      exact one ▸ hm
  refine ⟨functions, fun hm => known (schemas ▸ hm), fun {k u} hm => ?_⟩
  rw [schemas]
  rcases Value.mem_assign hm with hm | ⟨rfl, rfl | ⟨same', u', hm⟩⟩
  · obtain ⟨hk, name', same', makes', u', hu'⟩ := state.created hm
    exact ⟨hk, name', same', makes', Value.mem_keys_assign hu'⟩
  · exact ⟨hn, name, same, makes, u, there⟩
  · obtain ⟨hk, -⟩ := state.created hm
    exact ⟨hk, name, orderly.equal.trans (.name hd) hn hk same (orderly.equal.symm hk hn same'), makes, u, there⟩

/-! ### Depth-first creation -/

/-- Where a run stands when it is asked for the schema of a name: the definitions of all names that it does not wait for
are left, and from each of those that it waits for references lead to the name. -/
structure Trail (all : List Definition) (visiting : List Value) (pending : List Definition) (name : Value) : Prop where
  mentioned : Mentioned all name
  waiting {v} : v ∈ visiting → Mentioned all v
  left {d} : d ∈ pending → d ∈ all
  pending {d} : d ∈ all → d ∈ pending ∨ ∃ v ∈ visiting, d.1.same v = true
  leads {v d} : v ∈ visiting → d ∈ all → d.1.same name = true →
    ∃ d' ∈ all, d'.1.same v = true ∧ TransGen (Refers all) d.1 d'.1

/-- No name that a run is asked for is one that it waits for, if all names have schemas. -/
theorem Trail.not_feasible {visiting : List Value} {pending : List Definition} {name : Value}
    (trail : Trail all visiting pending name) (own : Value.elemOf name (all.map Prod.fst) = true)
    (back : Value.elemOf name visiting = true) : ¬Feasible h t all := by
  intro feasible
  obtain ⟨v, hv, same⟩ := Value.elemOf_iff.mp back
  obtain ⟨w, hw, same'⟩ := Value.elemOf_iff.mp own
  obtain ⟨d, hd, rfl⟩ := List.mem_map.mp hw
  obtain ⟨d', hd', same'', cycle⟩ := trail.leads hv hd same'
  have one : d' = d := orderly.source_eq hd' hd trail.mentioned
    (orderly.equal.trans (.name hd') (trail.waiting hv) trail.mentioned same'' same) same'
  obtain ⟨s, makes⟩ := feasible d hd
  have accessible : Acc (TransGen (Refers all)) d.1 := acc_transGen_iff.mpr (makes.acc orderly)
  rw [one] at cycle
  exact (accessible.rec fun x _ ih hx => ih x hx hx : TransGen (Refers all) d.1 d.1 → False) cycle

/-- The definition of a name that a run does not wait for is left. -/
theorem Trail.take {visiting : List Value} {pending : List Definition} {name : Value}
    (trail : Trail all visiting pending name) (own : Value.elemOf name (all.map Prod.fst) = true)
    (fresh : Value.elemOf name visiting = false) : takeDefinition name pending ≠ none := by
  intro none
  obtain ⟨w, hw, same⟩ := Value.elemOf_iff.mp own
  obtain ⟨d, hd, rfl⟩ := List.mem_map.mp hw
  rcases trail.pending hd with hp | ⟨v, hv, same'⟩
  · cases (takeDefinition_none none d hp).symm.trans same
  · have back : v.same name = true := orderly.equal.trans (trail.waiting hv) (.name hd) trail.mentioned
      (orderly.equal.symm (.name hd) (trail.waiting hv) same') same
    cases fresh.symm.trans (Value.elemOf_iff.mpr ⟨v, hv, back⟩)

omit orderly in
/-- A name waits for its references. -/
theorem Trail.reference {visiting pending : _} {name r n : Value} {config : List (Value × Value)} {rest : List Definition}
    {refs : List Value} (trail : Trail all visiting pending name) (hm : (n, config) ∈ pending) (same : n.same name = true)
    (left : ∀ d ∈ pending, d = (n, config) ∨ d ∈ rest) (back : ∀ d ∈ rest, d ∈ pending)
    (scanned : references config = .ok refs) (hr : r ∈ refs) : Trail all (visiting ++ [name]) rest r where
  mentioned := .reference (trail.left hm) scanned hr
  waiting hv := by
    rcases List.mem_append.mp hv with hv | hv
    · exact trail.waiting hv
    · exact List.mem_singleton.mp hv ▸ trail.mentioned
  left hd := trail.left (back _ hd)
  pending {d} hd := by
    rcases trail.pending hd with hp | ⟨v, hv, same'⟩
    · rcases left d hp with rfl | hp
      · exact .inr ⟨name, by simp, same⟩
      · exact .inl hp
    · exact .inr ⟨v, List.mem_append_left _ hv, same'⟩
  leads {v d} hv hd same' := by
    have step : Refers all d.1 n := ⟨config, refs, r, trail.left hm, scanned, hr, same', d.2, hd⟩
    rcases List.mem_append.mp hv with hv | hv
    · obtain ⟨d', hd', same'', path⟩ := trail.leads hv (trail.left hm) same
      exact ⟨d', hd', same'', .head step path⟩
    · rw [List.mem_singleton.mp hv]
      exact ⟨(n, config), trail.left hm, same, .single step⟩

/-- What a definition needs to have a schema. -/
theorem Feasible.needs (feasible : Feasible h t all) {n : Value} {config : List (Value × Value)} (hd : (n, config) ∈ all) :
    ∃ refs, references config = .ok refs ∧ requireArguments config = .ok () ∧
      ∀ r ∈ refs, r.requireKey = .ok () ∧ Value.elemOf r (all.map Prod.fst) = true := by
  obtain ⟨s, makes⟩ := feasible _ hd
  cases makes with
  | @mk _ config' refs known b source made defined scanned keys sources given found others texts declared =>
    cases orderly.distinct hd defined (orderly.equal.refl (.name hd))
    refine ⟨refs, scanned, texts, fun r hr => ⟨keys r hr, Value.elemOf_iff.mpr ⟨source r, ?_, sources r hr⟩⟩⟩
    obtain ⟨c, hc⟩ := (given r hr).defined
    exact List.mem_map_of_mem hc

/-- What was there is there. -/
def Grown (created created' : List (Value × Schema)) : Prop :=
  ∀ n, (Value.lookup? n created).isSome = true → (Value.lookup? n created').isSome = true

mutual

/-- Asked for the schema of a name of the set, a run has it in the end. -/
theorem build_ends (fair : t.Impartial h) (visiting : List Value) (pending : List Definition)
    (created : List (Value × Schema)) (name : Value) (f : Factory) :
    Trail all visiting pending name → Value.elemOf name (all.map Prod.fst) = true → Created h t all f created →
      Ends (fun _ => ¬Feasible h t all) (build h (all.map Prod.fst) visiting pending created name) f fun created' f' =>
        Created h t all f' created' ∧ Grown created created' ∧ (Value.lookup? name created').isSome = true := by
  intro trail own state
  rw [build]
  split
  · next there => exact .pure ⟨state, fun _ => id, there⟩
  split
  · next back => exact .throw (trail.not_feasible orderly own back)
  next fresh =>
  split
  · next none => exact (trail.take orderly own (by simpa using fresh) none).elim
  · next config rest hrest taken =>
    obtain ⟨n, hm, same, left, back⟩ := takeDefinition_some taken
    have hd : (n, config) ∈ all := trail.left hm
    -- What fails here keeps the name from having a schema in any order.
    refine .bind (Q := fun refs f' => references config = .ok refs ∧ f' = f)
      (.liftExcept (fun refs scanned => ⟨scanned, rfl⟩) fun g failed feasible => ?_) ?_
    · obtain ⟨refs, scanned, -⟩ := feasible.needs orderly hd
      cases failed.symm.trans scanned
    rintro refs _ ⟨scanned, rfl⟩
    refine .bind (buildReferences_ends fair (visiting ++ [name]) rest created name refs _ hd scanned (List.Subset.refl _)
      (fun r hr => trail.reference hm same left back scanned hr) state) ?_
    rintro created' f' ⟨state', grown, there⟩
    refine .bind (Q := fun _ f'' => requireArguments config = .ok () ∧ f'' = f')
      (.liftExcept (fun _ texts => ⟨texts, rfl⟩) fun g failed feasible => ?_) ?_
    · obtain ⟨refs, -, texts, -⟩ := feasible.needs orderly hd
      cases failed.symm.trans texts
    rintro _ _ ⟨texts, rfl⟩
    refine .bind (create_ends orderly fair state' hd scanned (fun r hr => (there r hr).1) (fun r hr => (there r hr).2)
      texts) ?_
    rintro s f'' ⟨makes, functions, schemas⟩
    refine .pure ⟨state'.assign orderly trail.mentioned same makes functions schemas,
      fun n hn => Value.isSome_lookup?_assign (grown n hn), ?_⟩
    obtain ⟨k, hk, same'⟩ := @Value.assign_mem _ name s created'
    refine Value.isSome_lookup?.mpr ⟨k, s, hk, ?_⟩
    rcases same' with rfl | same'
    · exact orderly.equal.refl trail.mentioned
    · exact same'
termination_by (pending.length, 0)
decreasing_by
  simp only [Prod.lex_def]
  omega

theorem buildReferences_ends (fair : t.Impartial h) (visiting : List Value) (pending : List Definition)
    (created : List (Value × Schema)) (name : Value) (refs : List Value) (f : Factory) {n : Value}
    {config : List (Value × Value)} {found : List Value} (hd : (n, config) ∈ all) (scanned : references config = .ok found)
    (sub : refs ⊆ found) :
    (∀ r ∈ refs, Trail all visiting pending r) → Created h t all f created →
      Ends (fun _ => ¬Feasible h t all) (buildReferences h (all.map Prod.fst) visiting pending created name refs) f
        fun created' f' => Created h t all f' created' ∧ Grown created created' ∧
          ∀ r ∈ refs, r.requireKey = .ok () ∧ (Value.lookup? r created').isSome = true := by
  intro trails state
  cases refs with
  | nil =>
    rw [buildReferences]
    exact .pure ⟨state, fun _ => id, by simp⟩
  | cons r rest =>
    have reference := sub List.mem_cons_self
    rw [buildReferences]
    refine .bind (Q := fun _ f' => r.requireKey = .ok () ∧ f' = f)
      (.liftExcept (fun _ key => ⟨key, rfl⟩) fun g failed feasible => ?_) ?_
    · obtain ⟨refs, scanned', -, needs⟩ := feasible.needs orderly hd
      cases scanned.symm.trans scanned'
      cases failed.symm.trans (needs r reference).1
    rintro _ _ ⟨key, rfl⟩
    split
    · next own =>
      refine .bind (build_ends fair visiting pending created r _ (trails r List.mem_cons_self) own state) ?_
      rintro created' f' ⟨state', grown, there⟩
      refine Ends.imp (buildReferences_ends fair visiting pending created' name rest f' hd scanned
        (fun x hx => sub (List.mem_cons_of_mem _ hx)) (fun x hx => trails x (List.mem_cons_of_mem _ hx)) state') ?_
      rintro created'' f'' ⟨state'', grown', there'⟩
      refine ⟨state'', fun n hn => grown' n (grown n hn), fun x hx => ?_⟩
      rcases List.mem_cons.mp hx with rfl | hx
      · exact ⟨key, grown' x there⟩
      · exact there' x hx
    -- nothing but names of the set is known, so other references are refused
    · next foreign =>
      have unknown := state.others (by simpa using foreign)
      refine .bind (Q := fun known _ => known = _) (.get rfl) ?_
      rintro _ _ rfl
      rw [unknown]
      refine .throw fun feasible => ?_
      obtain ⟨refs, scanned', -, needs⟩ := feasible.needs orderly hd
      cases scanned.symm.trans scanned'
      exact foreign (needs r reference).2
termination_by (pending.length, refs.length + 1)

end

/-- Every name that a run goes through is created in the end. -/
theorem buildAll_ends (fair : t.Impartial h) : ∀ (names : List Value) (created : List (Value × Schema)) (f : Factory),
    names ⊆ all.map Prod.fst → Created h t all f created →
      Ends (fun _ => ¬Feasible h t all) (buildAll h all names created) f fun created' f' =>
        Created h t all f' created' ∧ Grown created created' ∧ ∀ n ∈ names, (Value.lookup? n created').isSome = true
  | [], created, f, _, state => .pure ⟨state, fun _ => id, by simp⟩
  | name :: rest, created, f, sub, state => by
    obtain ⟨d, hd, rfl⟩ := List.mem_map.mp (sub List.mem_cons_self)
    have own : Value.elemOf d.1 (all.map Prod.fst) = true :=
      Value.elemOf_iff.mpr ⟨d.1, List.mem_map_of_mem hd, orderly.equal.refl (.name hd)⟩
    have trail : Trail all [] all d.1 := ⟨.name hd, nofun, id, .inl, nofun⟩
    rw [buildAll]
    refine .bind (build_ends orderly fair [] all created d.1 f trail own state) ?_
    rintro created' f' ⟨state', grown, there⟩
    refine Ends.imp (buildAll_ends fair rest created' f' (fun x hx => sub (List.mem_cons_of_mem _ hx)) state') ?_
    rintro created'' f'' ⟨state'', grown', there'⟩
    refine ⟨state'', fun n hn => grown' n (grown n hn), fun n hn => ?_⟩
    rcases List.mem_cons.mp hn with rfl | hn
    · exact grown' _ there
    · exact there' n hn

end Many

section Sets
variable {h : Host} {t : FunctionTable} {configs configs' : List Value}

theorem firsts_filterMap {α β γ : Type} {all : List (α × β)} {g : α × β → Option (α × γ)}
    (found : ∀ d ∈ all, ∃ c, g d = some (d.1, c)) : (all.filterMap g).map Prod.fst = all.map Prod.fst := by
  induction all with
  | nil => rfl
  | cons d rest ih =>
    obtain ⟨c, hc⟩ := found d List.mem_cons_self
    rw [List.filterMap_cons, hc, List.map_cons, List.map_cons, ih fun x hx => found x (List.mem_cons_of_mem _ hx)]

/-- What is made of an accepted set: under each of its names, in the order of the set, what the name means. The set is
made if every name has a schema. -/
theorem createMany_ends (fair : t.Impartial h) (orderly : Orderly (named configs))
    (accepted : definitions configs [] = .ok (named configs)) (n : Nat) :
    Ends (fun _ => ¬Feasible h t (named configs)) (createMany h configs) ⟨t, [], n⟩ fun made _ =>
      made.map Prod.fst = (named configs).map Prod.fst ∧
        ∀ name s, (name, s) ∈ made → Makes h t (named configs) name s.unnumbered := by
  unfold createMany
  refine .bind (Q := fun all f => all = named configs ∧ f = ⟨t, [], n⟩) (.liftExcept (fun all hall => ?_) fun g failed => ?_) ?_
  · exact ⟨Except.ok.inj (hall.symm.trans accepted), rfl⟩
  · cases failed.symm.trans accepted
  rintro _ _ ⟨rfl, rfl⟩
  have start : Created h t (named configs) ⟨t, [], n⟩ [] := ⟨rfl, nofun, nofun⟩
  refine .bind (buildAll_ends orderly fair _ [] _ (List.Subset.refl _) start) ?_
  rintro created f ⟨state, -, there⟩
  refine .pure ⟨?_, fun name s hm => ?_⟩
  · refine firsts_filterMap fun d hd => ?_
    obtain ⟨s, hs⟩ := Option.isSome_iff_exists.mp (there d.1 (List.mem_map_of_mem hd))
    exact ⟨s, congrArg (Option.map fun s => (d.1, s)) hs⟩
  · obtain ⟨d, hd, heq⟩ := List.mem_filterMap.mp hm
    obtain ⟨u, hu, heq⟩ := Option.map_eq_some_iff.mp heq
    cases heq
    obtain ⟨k, hk, same⟩ := Value.lookup?_some hu
    obtain ⟨hmentioned, name, same', makes, -⟩ := state.created hk
    obtain ⟨c, hc⟩ := makes.defined
    have one : name = d.1 := congrArg Prod.fst <| orderly.distinct hc hd <|
      orderly.equal.trans (.name hc) hmentioned (.name hd) same' same
    exact one ▸ makes

theorem createMany_rejected {e : Fault} {f : Factory} (rejected : definitions configs [] = .error e) :
    ((createMany h configs).runWith f).1 = .error e := by
  unfold createMany
  rw [runWith_bind, runWith_liftExcept, rejected]

/-- Whether a set is made says whether all its names have schemas, and what is made is what they mean. -/
theorem createMany_cases (fair : t.Impartial h) (orderly : Orderly (named configs))
    (accepted : definitions configs [] = .ok (named configs)) (n : Nat) :
    (∃ made, ((createMany h configs).runWith ⟨t, [], n⟩).1 = .ok made ∧ Feasible h t (named configs) ∧
      made.map Prod.fst = (named configs).map Prod.fst ∧
        ∀ name s, (name, s) ∈ made → Makes h t (named configs) name s.unnumbered) ∨
    (∃ e, ((createMany h configs).runWith ⟨t, [], n⟩).1 = .error e) ∧ ¬Feasible h t (named configs) := by
  have ends := createMany_ends fair orderly accepted n
  unfold Ends at ends
  rcases hrun : (createMany h configs).runWith ⟨t, [], n⟩ with ⟨e | made, f⟩
  · rw [hrun] at ends
    exact .inr ⟨⟨e, rfl⟩, ends⟩
  · rw [hrun] at ends
    obtain ⟨names, makes⟩ := ends
    refine .inl ⟨made, rfl, fun d hd => ?_, names, makes⟩
    have there : d.1 ∈ made.map Prod.fst := names ▸ List.mem_map_of_mem hd
    obtain ⟨⟨name, s⟩, hm, hname⟩ := List.mem_map.mp there
    exact ⟨s.unnumbered, hname ▸ makes name s hm⟩

/-- Two outcomes of creating a set that nothing but its order tells apart: both fail, or the same names have schemas
that are the same without numbers, and so report the same of every value. -/
def Alike (h : Host) : Except Fault (List (Value × Schema)) → Except Fault (List (Value × Schema)) → Prop
  | .ok made, .ok made' =>
    (made.map fun (name, s) => (name, s.unnumbered)).Perm (made'.map fun (name, s) => (name, s.unnumbered)) ∧
      ∀ name s s', (name, s) ∈ made → (name, s') ∈ made' →
        s.unnumbered = s'.unnumbered ∧ ∀ v, s.validate h v = s'.validate h v
  | .error _, .error _ => True
  | _, _ => False

theorem map_unnumbered {made : List (Value × Schema)} {meaning : Value → Schema}
    (means : ∀ name s, (name, s) ∈ made → s.unnumbered = meaning name) :
    made.map (fun (name, s) => (name, s.unnumbered)) = (made.map Prod.fst).map fun name => (name, meaning name) := by
  rw [List.map_map]
  exact List.map_congr_left fun (name, s) hm => congrArg (name, ·) (means name s hm)

/-- What is made of a set of configurations does not depend on their order, if no name of the set stands where the scan
for references does not look. -/
theorem createMany_perm (perm : configs.Perm configs') (fair : t.Impartial h)
    (equal : Value.Lawful (Mentioned (named configs)))
    (seen : ∀ d ∈ named configs, ∀ name, Needs false d.2 name →
      Value.elemOf name ((named configs).map Prod.fst) = false) (n : Nat) :
    Alike h ((createMany h configs).runWith ⟨t, [], n⟩).1 ((createMany h configs').runWith ⟨t, [], n⟩).1 := by
  have perm' : (named configs).Perm (named configs') := perm.filterMap _
  by_cases accepted : Accepted configs
  · have orderly : Orderly (named configs) := accepted.orderly equal seen
    have orderly' : Orderly (named configs') := orderly.perm perm'
    have feasible : Feasible h t (named configs) ↔ Feasible h t (named configs') :=
      ⟨fun all d hd => (all d (perm'.mem_iff.mpr hd)).imp fun _ => Makes.perm perm',
        fun all d hd => (all d (perm'.mem_iff.mp hd)).imp fun _ => Makes.perm perm'.symm⟩
    rcases createMany_cases fair orderly ((definitions_accepted orderly.equal).mpr ⟨accepted, rfl⟩) n with
        ⟨made, hmade, can, names, makes⟩ | ⟨⟨e, he⟩, cannot⟩ <;>
      rcases createMany_cases fair orderly'
          ((definitions_accepted orderly'.equal).mpr ⟨accepted.perm perm, rfl⟩) n with
        ⟨made', hmade', can', names', makes'⟩ | ⟨⟨e', he'⟩, cannot'⟩
    -- Both orders make a schema for each name, and what a name means does not depend on the order.
    · have one (name : Value) (s s' : Schema) (hm : (name, s) ∈ made) (hm' : (name, s') ∈ made') :
          s.unnumbered = s'.unnumbered :=
        (makes name s hm).unique orderly fair ((makes' name s' hm').perm perm'.symm)
      obtain ⟨meaning, hmeaning⟩ : ∃ meaning : Value → Schema, ∀ name s, Makes h t (named configs) name s → s = meaning name :=
        ⟨fun name => Classical.epsilon (Makes h t (named configs) name),
          fun name s makes => makes.unique orderly fair (Classical.epsilon_spec ⟨s, makes⟩)⟩
      rw [hmade, hmade', Alike, map_unnumbered fun name s hm => hmeaning name _ (makes name s hm),
        map_unnumbered fun name s hm => hmeaning name _ ((makes' name s hm).perm perm'.symm), names, names']
      refine ⟨(perm'.map _).map _, fun name s s' hm hm' => ⟨one name s s' hm hm', fun v => ?_⟩⟩
      rw [← s.validate_unnumbered, one name s s' hm hm', s'.validate_unnumbered]
    · exact (cannot' (feasible.mp can)).elim
    · exact (cannot (feasible.mpr can')).elim
    · rw [he, he']
      trivial
  · have refused {configs : List Value} (equal : Value.Lawful (Mentioned (named configs))) (rejected : ¬Accepted configs) :
        ∃ e, ((createMany h configs).runWith ⟨t, [], n⟩).1 = .error e := by
      rcases hd : definitions configs [] with e | all
      · exact ⟨e, createMany_rejected hd⟩
      · exact (rejected ((definitions_accepted equal).mp hd).1).elim
    obtain ⟨e, he⟩ := refused equal accepted
    obtain ⟨e', he'⟩ := refused (lawful_perm perm' equal) fun accepted' => accepted (accepted'.perm perm.symm)
    rw [he, he']
    trivial

/-- A structure and what it refers to can be declared in either order. -/
theorem createMany_perm_of_pair :
    let fieldsOfA : Value := .list [.dict [(.text "name", .text "bs"),
      (.text "shape", .dict [(.text "kind", .text "nested"), (.text "schema", .text "b")])]]
    let fieldsOfB : Value := .list [.dict [(.text "name", .text "x"), (.text "type", .text "int")]]
    let a : Value := .dict [(.text "name", .text "a"), (.text "fields", fieldsOfA)]
    let b : Value := .dict [(.text "name", .text "b"), (.text "fields", fieldsOfB)]
    Alike .bare ((createMany .bare [a, b]).runWith ⟨.default, [], 0⟩).1 ((createMany .bare [b, a]).runWith ⟨.default, [], 0⟩).1 := by
  intro fieldsOfA fieldsOfB a b
  have names : named [a, b] = [(.text "a", [(.text "name", .text "a"), (.text "fields", fieldsOfA)]),
      (.text "b", [(.text "name", .text "b"), (.text "fields", fieldsOfB)])] := by
    simp [named, definition?, Value.lookup?, a, b]
  have refsOfA : references [(.text "name", .text "a"), (.text "fields", fieldsOfA)] = .ok [.text "b"] := by
    simp [references, setting, Value.lookup?, fieldReferences, shapeReferences, nestedReference, Value.truthy,
      Value.length?, Value.iterate?, Value.elements?, Value.str, Value.isAbsent, Value.asText?, bind, Except.bind, pure,
      Except.pure, fieldsOfA]
    decide
  have refsOfB : references [(.text "name", .text "b"), (.text "fields", fieldsOfB)] = .ok [] := by
    simp [references, setting, Value.lookup?, fieldReferences, shapeReferences, Value.truthy, Value.length?,
      Value.iterate?, Value.elements?, Value.asText?, bind, Except.bind, pure, Except.pure, fieldsOfB]
  have equal : Value.Lawful (Mentioned (named [a, b])) := by
    refine Value.lawful_of_text fun v hv => ?_
    rw [names] at hv
    cases hv with
    | name hd =>
      rcases List.mem_pair.mp hd with rfl | rfl
      · exact ⟨"a", rfl⟩
      · exact ⟨"b", rfl⟩
    | reference hd hrefs hr =>
      rcases List.mem_pair.mp hd with rfl | rfl
      · cases refsOfA.symm.trans hrefs
        exact ⟨"b", List.mem_singleton.mp hr⟩
      · cases refsOfB.symm.trans hrefs
        cases hr
  have seen : ∀ d ∈ named [a, b], ∀ name, Needs false d.2 name →
      Value.elemOf name ((named [a, b]).map Prod.fst) = false := by
    rw [names]
    rintro d hd name @⟨items, k, entries, shape, hf, hm, hs, hn⟩
    rcases List.mem_pair.mp hd with rfl | rfl
    · obtain rfl : items = _ := by simpa [Value.lookup?, fieldsOfA] using hf.symm
      obtain ⟨rfl, rfl⟩ : k = .plain ∧ entries = _ := by simpa using hm
      obtain rfl : shape = _ := by simpa [Value.lookup?] using hs.symm
      cases hn with
      | text ht => cases ht
      | @mapping _ _ _ kind _ hk hs =>
        have nested : kindNames.lookup (kindName [(.text "kind", .text "nested"), (.text "schema", .text "b")])
            = some .nested := by
          simp [kindName, Value.lookup?, Value.str]
          decide
        cases nested.symm.trans hk
        cases hs with
        | schema hn hseen =>
          subst hn
          simp [setting, Value.lookup?, Value.isAbsent] at hseen
        | inItems hk | inInner hk | inType hk => simp at hk
    · obtain rfl : items = _ := by simpa [Value.lookup?, fieldsOfB] using hf.symm
      obtain ⟨rfl, rfl⟩ : k = .plain ∧ entries = _ := by simpa using hm
      simp [Value.lookup?] at hs
  exact createMany_perm (.swap ..) FunctionTable.default_impartial equal seen 0

end Sets
end Factory
end Conform
