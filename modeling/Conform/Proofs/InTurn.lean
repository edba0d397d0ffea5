import Conform.Proofs.Dependencies
import Conform.Proofs.Likeness
import Conform.Proofs.Straying

/-!
A set of configurations at once, and one after another. When each of them can be created in its turn, all that it
refers to was created before it, and a run over the set that looks for no more than that finds it there and creates
the configurations in their turn too: it gives the very same schemas (`createMany_inTurn`). What the scan finds beyond
that, where it goes astray, is what may keep a set from being created at once.
-/

namespace Conform

/-- What stands first under a key is what is found. -/
theorem Value.lookup?_of_new {α : Type} {key : Value} (a : α) (later : List (Value × α)) : ∀ {entries : List (Value × α)},
    (∀ e ∈ entries, e.1.same key = false) → lookup? key (entries ++ (key, a) :: later) = some a
  | [], _ => by rw [List.nil_append, lookup?, if_pos (same_self key)]
  | (k, b) :: entries, new => by
    rw [List.cons_append, lookup?, if_neg (by simp [new (k, b) List.mem_cons_self])]
    exact lookup?_of_new a later fun e he => new e (List.mem_cons_of_mem _ he)

namespace Factory

open Conform.Configuration

/-- Creates schemas from configurations one after another, each by a call of its own. -/
def createInTurn (h : Host) : List (List (Value × Value)) → Creation (List Schema)
  | [] => pure []
  | config :: rest => do
    create.liftExcept (requireArguments config)
    let s ← create h config
    let later ← createInTurn h rest
    return s :: later

section InTurn
variable {h : Host} {f f' : Factory} {all done rest : List Definition} {d : Definition} {s : Schema} {made : List Schema}
  {created : List (Value × Schema)}

/-! ### One after another -/

theorem runWith_bind_eq_ok {α β : Type} {x : Creation α} {g : α → Creation β} {b : β} :
    (x >>= g).runWith f = (.ok b, f') ↔ ∃ a f₁, x.runWith f = (.ok a, f₁) ∧ (g a).runWith f₁ = (.ok b, f') := by
  rw [runWith_bind]
  rcases x.runWith f with ⟨e | a, f₁⟩ <;> simp

theorem createInTurn_cons {config : List (Value × Value)} {configs : List (List (Value × Value))} :
    (createInTurn h (config :: configs)).runWith f = (.ok made, f') ↔
      ∃ s f₁ later, requireArguments config = .ok () ∧ (create h config).runWith f = (.ok s, f₁) ∧
        (createInTurn h configs).runWith f₁ = (.ok later, f') ∧ made = s :: later := by
  simp only [createInTurn, runWith_bind_eq_ok, runWith_liftExcept, Prod.mk.injEq]
  constructor
  · rintro ⟨u, _, ⟨arguments, rfl⟩, s, f₂, one, later, f₃, others, result⟩
    cases result
    exact ⟨s, f₂, later, arguments, one, others, rfl⟩
  · rintro ⟨s, f₁, later, arguments, one, others, rfl⟩
    exact ⟨(), f, ⟨arguments, rfl⟩, s, f₁, one, later, f', others, rfl⟩

/-- What is declared can be created, under a name that can be a key. -/
theorem create_of_declared {b : SchemaBuilder} (called : Value.lookup? (.text "name") d.2 = some d.1)
    (declared : declare h f.table f.schemas d.1 d.2 = .ok b) (key : d.1.requireKey = .ok ()) :
    ∃ s f', (create h d.2).runWith f = (.ok s, f') ∧ f'.schemas = Value.assign d.1 s f.schemas := by
  rw [create_run, called]
  dsimp only [Option.getD_some]
  rw [declared]
  dsimp only
  rw [key]
  exact ⟨_, _, rfl, rfl⟩

/-- What was created was declared, and is known by its name from then on. -/
theorem create_ok (called : Value.lookup? (.text "name") d.2 = some d.1) (one : (create h d.2).runWith f = (.ok s, f')) :
    (∃ b, declare h f.table f.schemas d.1 d.2 = .ok b) ∧ d.1.requireKey = .ok () ∧
      f'.schemas = Value.assign d.1 s f.schemas := by
  rw [create_run, called] at one
  dsimp only [Option.getD_some] at one
  split at one
  · cases one
  · next b declared =>
    split at one
    · cases one
    · next u key =>
      cases one
      exact ⟨⟨b, declared⟩, key, rfl⟩

/-! ### The same in a run over the set -/

/-- References to what was created already change nothing. -/
theorem buildReferences_present {visiting : List Value} {name : Value} {refs : List Value}
    (listed : ∀ e ∈ created, e.1 ∈ all.map Prod.fst) (present : ∀ r ∈ refs, Present created r) :
    (buildReferences h (all.map Prod.fst) visiting rest created name refs).runWith f = (.ok created, f) := by
  induction refs with
  | nil =>
    rw [buildReferences]
    rfl
  | cons r refs ih =>
    obtain ⟨key, there⟩ := present r List.mem_cons_self
    have own : Value.elemOf r (all.map Prod.fst) = true := by
      obtain ⟨k, s, hm, same⟩ := Value.isSome_lookup?.mp there
      exact Value.elemOf_iff.mpr ⟨k, listed _ hm, same⟩
    rw [buildReferences, key, liftExcept_ok_bind, if_pos own, build, if_pos there, pure_bind]
    exact ih fun r hr => present r (List.mem_cons_of_mem _ hr)

/-- The definition of a name that stands first for it is the one that is taken. -/
theorem takeDefinition_of_new (rest : List Definition) : ∀ {done : List Definition}, (∀ d' ∈ done, d'.1.same d.1 = false) →
    ∃ others, takeDefinition d.1 (done ++ d :: rest) = some (d.2, others)
  | [], _ => by
    rw [List.nil_append, takeDefinition, if_pos (Value.same_self d.1)]
    exact ⟨_, rfl⟩
  | d' :: done, new => by
    obtain ⟨others, taken⟩ := takeDefinition_of_new rest fun x hx => new x (List.mem_cons_of_mem d' hx)
    rw [List.cons_append, takeDefinition, if_neg (by simp [new d' List.mem_cons_self]), taken]
    exact ⟨_, rfl⟩

theorem apart_of_names (names : created.map Prod.fst = done.map Prod.fst) (new : ∀ d' ∈ done, d'.1.same d.1 = false) :
    ∀ e ∈ created, e.1.same d.1 = false := by
  intro e he
  obtain ⟨d', hd', same⟩ := List.mem_map.mp (names ▸ List.mem_map_of_mem he)
  exact same ▸ new d' hd'

/-- Asked for a definition that can be created now, a run creates it and nothing else. -/
theorem build_next (rest : List Definition) (called : Value.lookup? (.text "name") d.2 = some d.1)
    (new : ∀ d' ∈ done, d'.1.same d.1 = false)
    (known : f.schemas = created) (names : created.map Prod.fst = done.map Prod.fst) (straight : ¬Misled d.2)
    (arguments : requireArguments d.2 = .ok ()) (one : (create h d.2).runWith f = (.ok s, f')) :
    (build h ((done ++ d :: rest).map Prod.fst) [] (done ++ d :: rest) created d.1).runWith f =
      (.ok (created ++ [(d.1, s)]), f') := by
  have fresh := apart_of_names names new
  have missing : Value.lookup? d.1 created = none := by
    rw [← Option.not_isSome_iff_eq_none, Value.isSome_lookup?]
    rintro ⟨k, u, hm, same⟩
    cases (fresh _ hm).symm.trans same
  have listed : ∀ e ∈ created, e.1 ∈ (done ++ d :: rest).map Prod.fst := by
    intro e he
    rw [List.map_append, ← names]
    exact List.mem_append_left _ (List.mem_map_of_mem he)
  obtain ⟨⟨b, declared⟩, -, -⟩ := create_ok called one
  obtain ⟨refs, scanned, present⟩ := declare_scanned declared straight
  obtain ⟨others, taken⟩ := takeDefinition_of_new rest new
  rw [build, missing, taken]
  simp only [Option.isSome_none, Bool.false_eq_true, if_false, Value.elemOf, List.any_nil]
  rw [scanned, liftExcept_ok_bind, runWith_bind, buildReferences_present listed (known ▸ present)]
  dsimp only
  rw [arguments, liftExcept_ok_bind, runWith_bind, one]
  dsimp only
  rw [Value.assign_fresh fresh]
  rfl

/-- A run over the rest of a set creates in turn what can be created in turn. -/
theorem buildAll_inTurn : ∀ (rest done : List Definition) {created : List (Value × Schema)} {f : Factory}
    {made : List Schema},
    (∀ d ∈ rest, Value.lookup? (.text "name") d.2 = some d.1) →
    (done ++ rest).Pairwise (fun d d' => d.1.same d'.1 = false) → (∀ d ∈ rest, ¬Misled d.2) →
    f.schemas = created → created.map Prod.fst = done.map Prod.fst →
    (createInTurn h (rest.map Prod.snd)).runWith f = (.ok made, f') →
      (buildAll h (done ++ rest) (rest.map Prod.fst) created).runWith f = (.ok (created ++ (rest.map Prod.fst).zip made), f')
  | [], done, created, f, made, _, _, _, _, _, turns => by
    cases turns
    rw [List.map_nil, buildAll, List.zip_nil_left, List.append_nil]
    rfl
  | d :: rest, done, created, f, made, called, apart, straight, known, names, turns => by
    obtain ⟨s, f₁, later, arguments, one, others, rfl⟩ := createInTurn_cons.mp turns
    obtain ⟨-, -, schemas⟩ := create_ok (called d List.mem_cons_self) one
    have new : ∀ d' ∈ done, d'.1.same d.1 = false := fun d' hd' =>
      (List.pairwise_append.mp apart).2.2 d' hd' d List.mem_cons_self
    have here := build_next rest (called d List.mem_cons_self) new known names (straight d List.mem_cons_self)
      arguments one
    have known' : f₁.schemas = created ++ [(d.1, s)] := by
      rw [schemas, known, Value.assign_fresh (apart_of_names names new)]
    have names' : (created ++ [(d.1, s)]).map Prod.fst = (done ++ [d]).map Prod.fst := by simp [names]
    have split : done ++ d :: rest = (done ++ [d]) ++ rest := by simp
    rw [List.map_cons, buildAll, runWith_bind, here]
    dsimp only
    rw [split, buildAll_inTurn rest (done ++ [d]) (fun x hx => called x (List.mem_cons_of_mem _ hx)) (split ▸ apart)
      (fun x hx => straight x (List.mem_cons_of_mem _ hx)) known' names' others]
    simp

/-- What a run over a set gives: each of its names with the schema that was created for it. -/
theorem filterMap_lookup_zip : ∀ (rest done : List Definition) (created : List (Value × Schema)) {made : List Schema},
    (done ++ rest).Pairwise (fun d d' => d.1.same d'.1 = false) → created.map Prod.fst = done.map Prod.fst →
    rest.length = made.length →
      (rest.filterMap fun d => (Value.lookup? d.1 (created ++ (rest.map Prod.fst).zip made)).map fun s => (d.1, s)) =
        (rest.map Prod.fst).zip made
  | [], done, created, made, _, _, _ => by simp
  | d :: rest, done, created, s :: made, apart, names, length => by
    have new : ∀ d' ∈ done, d'.1.same d.1 = false := fun d' hd' =>
      (List.pairwise_append.mp apart).2.2 d' hd' d List.mem_cons_self
    have names' : (created ++ [(d.1, s)]).map Prod.fst = (done ++ [d]).map Prod.fst := by simp [names]
    have later := filterMap_lookup_zip rest (done ++ [d]) (created ++ [(d.1, s)]) (by simpa using apart) names'
      (Nat.succ.inj length)
    have found := Value.lookup?_of_new s ((rest.map Prod.fst).zip made) (apart_of_names names new)
    rw [List.append_assoc, List.singleton_append] at later
    rw [List.map_cons, List.zip_cons_cons, List.filterMap_cons, found, Option.map_some, later]

theorem createInTurn_length : ∀ {configs : List (List (Value × Value))} {f : Factory} {made : List Schema},
    (createInTurn h configs).runWith f = (.ok made, f') → configs.length = made.length
  | [], f, made, turns => by
    cases turns
    rfl
  | config :: configs, f, made, turns => by
    obtain ⟨s, f₁, later, -, -, others, rfl⟩ := createInTurn_cons.mp turns
    rw [List.length_cons, List.length_cons, createInTurn_length others]

/-- The names of what was created in turn can be keys. -/
theorem requireKey_of_inTurn : ∀ {rest : List Definition} {f : Factory} {made : List Schema},
    (∀ d ∈ rest, Value.lookup? (.text "name") d.2 = some d.1) →
    (createInTurn h (rest.map Prod.snd)).runWith f = (.ok made, f') → ∀ d ∈ rest, d.1.requireKey = .ok ()
  | [], _, _, _, _ => by simp
  | d :: rest, f, made, called, turns => by
    obtain ⟨s, f₁, later, -, one, others, rfl⟩ := createInTurn_cons.mp turns
    obtain ⟨-, key, -⟩ := create_ok (called d List.mem_cons_self) one
    have keys := requireKey_of_inTurn (fun x hx => called x (List.mem_cons_of_mem _ hx)) others
    exact List.forall_mem_cons.mpr ⟨key, keys⟩

/-- What can be created in turn can be created at once, and is the same then: with configurations that have names, no
two the same, of which each can be created after those before it, and where the scan for references is not misled, a
factory that knows nothing yet creates the set, with the same schemas under their names, and ends as it does when they
are created in turn. -/
theorem createMany_inTurn {configs : List Value} (fresh : f.schemas = [])
    (given : ∀ config ∈ configs, (definition? config).isSome)
    (distinct : (named configs).Pairwise fun d d' => d.1.same d'.1 = false) (straight : ∀ d ∈ named configs, ¬Misled d.2)
    (turns : (createInTurn h ((named configs).map Prod.snd)).runWith f = (.ok made, f')) :
    (createMany h configs).runWith f = (.ok (((named configs).map Prod.fst).zip made), f') := by
  have called : ∀ d ∈ named configs, Value.lookup? (.text "name") d.2 = some d.1 := fun d hd => mem_named hd
  have keys := requireKey_of_inTurn called turns
  have accepted : definitions configs [] = .ok (named configs) := by
    refine definitions_eq_ok.mpr ⟨fun config hc => ?_, distinct, by simp, rfl⟩
    obtain ⟨d, hd⟩ := Option.isSome_iff_exists.mp (given config hc)
    exact ⟨d, hd, keys d (List.mem_filterMap.mpr ⟨config, hc, hd⟩)⟩
  have built := buildAll_inTurn (named configs) [] called distinct straight fresh rfl turns
  have length : (named configs).length = made.length := by
    have := createInTurn_length turns
    rwa [List.length_map] at this
  have answers := filterMap_lookup_zip (named configs) [] [] distinct rfl length
  rw [List.nil_append] at built answers
  rw [createMany, accepted, liftExcept_ok_bind, runWith_bind, built]
  dsimp only
  rw [List.nil_append, answers]
  rfl

end InTurn

theorem straight_fieldless (name : String) : ¬Misled (fieldless name) := by
  rintro ⟨hf, -⟩
  simp [fieldless, Value.lookup?] at hf

/-- The scan takes from a structure that nests another one what building it asks for. -/
theorem straight_nesting (name target : String) : ¬Misled (nesting name target) := by
  have unset {key : String} (hk : key ≠ "kind") (hs : key ≠ "schema") : setting (nestedShape target) key = .absent := by
    simp [nestedShape, setting, Value.lookup?, hk.symm, hs.symm]
  have straight : ¬Astray (.dict (nestedShape target)) := by
    rintro ⟨hk, h⟩
    cases kindName_nestedShape.symm.trans hk
    cases h with
    | @setting _ _ key hs unread found =>
      refine found ?_
      have absent : setting (nestedShape target) key = .absent := by
        refine unset ?_ ?_ <;> rintro rfl <;> simp [searched] at hs
      rw [absent, shapeReferences.eq_def]
      rfl
    | choice unread found =>
      refine found ?_
      rw [choiceReferences, unset (by decide) (by decide)]
      rfl
    | inside hs hr h => simp [opened] at hr
  rintro ⟨hf, hm, hs, h⟩
  have listed : Value.lookup? (.text "fields") (nesting name target) = some (.list [.dict (nestingField target)]) := by
    simp [nesting, Value.lookup?]
  have given : Value.lookup? (.text "shape") (nestingField target) = some (.dict (nestedShape target)) := by
    simp [nestingField, Value.lookup?]
  cases listed.symm.trans hf
  cases List.mem_singleton.mp hm
  cases given.symm.trans hs
  exact straight h

/-- A structure is created at once, with one that it nests, as it can be created after it. -/
theorem createMany_inTurn_of_two :
    ∃ made f', (createInTurn .bare [fieldless "b", nesting "a" "b"]).runWith ⟨.default, [], 0⟩ = (.ok made, f') ∧
      (createMany .bare [.dict (fieldless "b"), .dict (nesting "a" "b")]).runWith ⟨.default, [], 0⟩ =
        (.ok ([.text "b", .text "a"].zip made), f') := by
  have names : named [.dict (fieldless "b"), .dict (nesting "a" "b")]
      = [(.text "b", fieldless "b"), (.text "a", nesting "a" "b")] := by
    simp [named, definition_nesting, definition_fieldless]
  have straight : ∀ d ∈ named [.dict (fieldless "b"), .dict (nesting "a" "b")], ¬Misled d.2 := by
    simp [names, straight_fieldless, straight_nesting]
  -- The first is created with nothing known, the second with the first.
  obtain ⟨b, declared⟩ : ∃ b, declare .bare .default [] (.text "b") (fieldless "b") = .ok b := declare_fieldless
  obtain ⟨s, f₁, one, schemas⟩ : ∃ s f₁, (create .bare (fieldless "b")).runWith ⟨.default, [], 0⟩ = (.ok s, f₁) ∧
      f₁.schemas = Value.assign (.text "b") s [] :=
    create_of_declared (d := (.text "b", fieldless "b")) (mem_named (names ▸ List.mem_cons_self)) declared rfl
  have found : Value.lookup? (.text "b") f₁.schemas = some s := by simp [schemas, Value.assign, Value.lookup?]
  obtain ⟨b', declared'⟩ : ∃ b, declare .bare f₁.table f₁.schemas (.text "a") (nesting "a" "b") = .ok b :=
    declare_nesting found
  obtain ⟨s', f₂, other, -⟩ : ∃ s' f₂, (create .bare (nesting "a" "b")).runWith f₁ = (.ok s', f₂) ∧
      f₂.schemas = Value.assign (.text "a") s' f₁.schemas :=
    create_of_declared (d := (.text "a", nesting "a" "b")) (mem_named (names ▸ List.mem_cons_of_mem _ List.mem_cons_self))
      declared' rfl
  have turns : (createInTurn .bare [fieldless "b", nesting "a" "b"]).runWith ⟨.default, [], 0⟩ = (.ok [s, s'], f₂) := by
    refine createInTurn_cons.mpr ⟨s, f₁, [s'], requireArguments_fieldless, one, ?_, rfl⟩
    exact createInTurn_cons.mpr ⟨s', f₂, [], requireArguments_nesting, other, rfl, rfl⟩
  refine ⟨[s, s'], f₂, turns, ?_⟩
  have together : (createMany .bare [.dict (fieldless "b"), .dict (nesting "a" "b")]).runWith ⟨.default, [], 0⟩ =
      (.ok (((named [.dict (fieldless "b"), .dict (nesting "a" "b")]).map Prod.fst).zip [s, s']), f₂) :=
    createMany_inTurn rfl (by simp [definition_nesting, definition_fieldless]) (by simp [names]) straight (by rwa [names])
  rwa [names] at together

end Factory
end Conform
