import Conform.Proofs.Inventory
import Conform.Proofs.Ordering
import Conform.Proofs.Searching
import Mathlib.Data.List.Chain
import Mathlib.Data.List.Perm.Subperm

/-!
Dependencies first. However creating a set of schemas ends, some of the configurations were created, one after another,
each once and after all that it refers to, and the factory holds what it held with these schemas (`Progress`). It fails
for a reason only: edges that lead back to where they start, an edge to a name that is found nowhere, or a configuration
that cannot be created although all that it refers to is there (`Complaint`). The search makes progress from any point on
(`search_proceeds`, by induction on the limit), so the whole run does.
-/

namespace Conform
namespace Factory

open Conform.Configuration Relation

/-! ### What was created, and why a run fails -/

/-- Configurations that are created with a factory one after another, with their schemas. -/
inductive Creates (h : Host) (f : Factory) : List (Definition × Schema) → Factory → Prop
  | nil : Creates h f [] f
  | snoc {made : List (Definition × Schema)} {f' f'' : Factory} {d : Definition} {s : Schema} (before : Creates h f made f')
      (created : (create h d.2).runWith f' = (.ok s, f'')) : Creates h f (made ++ [(d, s)]) f''

/-- Schemas by name, updated with those that were created. -/
def updated (schemas : List (Value × Schema)) (made : List (Definition × Schema)) : List (Value × Schema) :=
  made.foldl (fun schemas x => Value.assign x.1.1 x.2 schemas) schemas

/-- A name is there for a run when it was created, or stands outside the set and was known before. -/
def There (f : Factory) (all : List Definition) (made : List (Definition × Schema)) (r : Value) : Prop :=
  r ∈ made.map (·.1.1) ∨ r ∉ all.map Prod.fst ∧ (Value.lookup? r f.schemas).isSome = true

/-- Where a run stands after some configurations were created. -/
structure Progress (h : Host) (f : Factory) (all : List Definition) (made : List (Definition × Schema)) (f' : Factory) :
    Prop where
  runs : Creates h f made f'
  listed : ∀ x ∈ made, x.1 ∈ all
  once : (made.map Prod.fst).Nodup
  first : ∀ before x after, made = before ++ x :: after → ∀ r, Edge all x.1.1 r → There f all before r
  schemas : f'.schemas = updated f.schemas made

/-- Why a run fails after some configurations were created. -/
inductive Complaint (h : Host) (f : Factory) (all : List Definition) (made : List (Definition × Schema)) (f' : Factory) :
    Fault → Prop
  | cycle {names : List String} (steps : 2 ≤ names.length) (closed : names.head? = names.getLast?)
      (walk : (names.map Value.text).IsChain (Edge all)) :
    Complaint h f all made f' (refuse (.cycle names) [("cycle", .list (names.map .text))])
  | unknown {name r : Value} (edge : Edge all name r) (unlisted : r ∉ all.map Prod.fst)
      (absent : Value.lookup? r f.schemas = none) :
    Complaint h f all made f' (refuse (.unknownReference name r) [("schema", name), ("reference", r)])
  | own {d : Definition} {e : Fault} (hd : d ∈ all) (fresh : d ∉ made.map Prod.fst)
      (ready : ∀ r, Edge all d.1 r → (Value.lookup? r f'.schemas).isSome = true)
      (failed : (create h d.2).runWith f' = (.error e, f')) : Complaint h f all made f' e

/-- The schemas that were created, by name. -/
def entries (made : List (Definition × Schema)) : List (Value × Schema) := made.map fun x => (x.1.1, x.2)

section Texts
variable {α : Type} {items : List (Value × α)} {schemas : List (Value × Schema)} {made : List (Definition × Schema)}
  {n : String}

theorem isSome_lookup_text (texts : ∀ e ∈ items, ∃ s, e.1 = .text s) :
    (Value.lookup? (.text n) items).isSome = true ↔ .text n ∈ items.map Prod.fst := by
  rw [Value.isSome_lookup?]
  constructor
  · rintro ⟨k, a, hm, same⟩
    obtain ⟨s, hs⟩ := texts _ hm
    rw [show k = .text s from hs, Value.same_text, beq_iff_eq] at same
    subst same
    exact List.mem_map.mpr ⟨(k, a), hm, hs⟩
  · intro h
    obtain ⟨e, hm, he⟩ := List.mem_map.mp h
    exact ⟨e.1, e.2, hm, by simp [he]⟩

theorem isSome_lookup_assign {m : String} {s : Schema} :
    (Value.lookup? (.text n) (Value.assign (.text m) s schemas)).isSome = true ↔
      (Value.lookup? (.text n) schemas).isSome = true ∨ m = n := by
  constructor
  · intro h
    obtain ⟨k, u, hm, same⟩ := Value.isSome_lookup?.mp h
    rcases Value.mem_assign hm with hm | ⟨-, rfl | ⟨-, u', hm⟩⟩
    · exact .inl (Value.isSome_lookup?.mpr ⟨k, u, hm, same⟩)
    · exact .inr (by simpa using same)
    · exact .inl (Value.isSome_lookup?.mpr ⟨k, u', hm, same⟩)
  · rintro (h | rfl)
    · exact Value.isSome_lookup?_assign h
    · obtain ⟨k, hm, rfl | same⟩ := @Value.assign_mem _ (.text m) s schemas
      · exact Value.isSome_lookup?.mpr ⟨.text m, s, hm, by simp⟩
      · exact Value.isSome_lookup?.mpr ⟨k, s, hm, same⟩

theorem isSome_lookup_updated : ∀ {made : List (Definition × Schema)} {schemas : List (Value × Schema)},
    (∀ x ∈ made, ∃ s, x.1.1 = .text s) →
      ((Value.lookup? (.text n) (updated schemas made)).isSome = true ↔
        (Value.lookup? (.text n) schemas).isSome = true ∨ .text n ∈ made.map (·.1.1))
  | [], schemas, _ => by simp [updated]
  | x :: made, schemas, texts => by
    obtain ⟨m, hm⟩ := texts x List.mem_cons_self
    have rest := @isSome_lookup_updated made (Value.assign x.1.1 x.2 schemas)
      fun y hy => texts y (List.mem_cons_of_mem _ hy)
    rw [updated, List.foldl_cons]
    rw [updated] at rest
    rw [rest, hm, isSome_lookup_assign, List.map_cons, List.mem_cons, hm, Value.text.injEq, or_assoc, eq_comm (a := m)]

end Texts

/-! ### Cycles -/

theorem namesFrom_text {n : String} : ∀ {names : List String}, n ∈ names →
    ∃ before after, names = before ++ n :: after ∧ namesFrom (.text n) (names.map .text) = (n :: after).map .text
  | m :: names, hn => by
    rw [List.map_cons, namesFrom, Value.same_text]
    by_cases same : m = n
    · subst same
      exact ⟨[], names, rfl, by simp⟩
    · obtain ⟨before, after, rfl, found⟩ := namesFrom_text ((List.mem_cons.mp hn).resolve_left (Ne.symm same))
      refine ⟨m :: before, after, rfl, ?_⟩
      rw [if_neg (by simpa using same), found]

theorem mapM_zipIdx_text {g : Value × Nat → Except Fault String} (reads : ∀ s i, g (.text s, i) = .ok s)
    (names : List String) :
    ∀ k, ((names.map Value.text).zipIdx k).mapM g = .ok names := by
  induction names with
  | nil => exact fun _ => rfl
  | cons n names ih =>
    intro k
    rw [List.map_cons, List.zipIdx_cons, List.mapM_cons, reads, ih]
    rfl

/-- References that lead back to a name that is waited for are a closed walk. -/
theorem cycleFault_complains {h : Host} {f f' : Factory} {all : List Definition} {made : List (Definition × Schema)}
    {visiting : List String} {n : String} (back : n ∈ visiting)
    (path : ((visiting ++ [n]).map Value.text).IsChain (Edge all)) :
    Complaint h f all made f' (cycleFault (.text n) (visiting.map .text)) := by
  obtain ⟨before, after, rfl, found⟩ := namesFrom_text back
  have cycle : namesFrom (.text n) ((before ++ n :: after).map .text) ++ [.text n] = (n :: (after ++ [n])).map .text := by
    rw [found]
    simp
  have walk : ((n :: (after ++ [n])).map Value.text).IsChain (Edge all) := by
    rw [List.append_assoc, List.map_append] at path
    exact path.right_of_append
  have reported : cycleFault (.text n) ((before ++ n :: after).map .text) =
      refuse (.cycle (n :: (after ++ [n]))) [("cycle", .list ((n :: (after ++ [n])).map .text))] := by
    unfold cycleFault
    dsimp only
    rw [cycle, mapM_zipIdx_text (fun _ _ => rfl)]
  rw [reported]
  exact .cycle (by simp) (by simp [List.getLast?_cons]) walk

/-! ### Progress -/

section Progress
variable {h : Host} {f₀ f f' : Factory} {all : List Definition} {made more : List (Definition × Schema)} {d : Definition}
  {s : Schema} {visiting : List Value} {Q R : List (Definition × Schema) → Prop}

theorem Progress.start (h : Host) (f : Factory) (all : List Definition) : Progress h f all [] f where
  runs := .nil
  listed := nofun
  once := List.nodup_nil
  first before x after split := by simp at split
  schemas := rfl

theorem Progress.snoc (progress : Progress h f₀ all made f) (hd : d ∈ all) (fresh : d ∉ made.map Prod.fst)
    (ready : ∀ r, Edge all d.1 r → There f₀ all made r)
    (created : (create h d.2).runWith f = (.ok s, f')) (schemas : f'.schemas = Value.assign d.1 s f.schemas) :
    Progress h f₀ all (made ++ [(d, s)]) f' where
  runs := .snoc progress.runs created
  listed x hx := by
    rcases List.mem_append.mp hx with hx | hx
    · exact progress.listed x hx
    · exact List.mem_singleton.mp hx ▸ hd
  once := by
    rw [List.map_append, List.nodup_append]
    exact ⟨progress.once, by simp, by simpa using fun x hx (same : x = d) => fresh (same ▸ hx)⟩
  first before x after split r edge := by
    rcases List.eq_nil_or_concat after with rfl | ⟨after', y, rfl⟩
    · obtain ⟨rfl, same⟩ := List.append_inj' split rfl
      cases same
      exact ready r edge
    · rw [List.concat_eq_append, ← List.cons_append, ← List.append_assoc] at split
      obtain ⟨split, -⟩ := List.append_inj' split rfl
      exact progress.first before x after' split r edge
  schemas := by
    rw [schemas, progress.schemas, updated, updated, List.foldl_append]
    rfl

/-- None of some names was created. -/
def Clear (visiting : List Value) (made : List (Definition × Schema)) : Prop := ∀ y ∈ made, y.1.1 ∉ visiting

theorem clear_append {names : List Value} : Clear (visiting ++ names) made ↔ Clear visiting made ∧ Clear names made := by
  simp only [Clear, List.mem_append, not_or]
  exact ⟨fun clear => ⟨fun y hy => (clear y hy).1, fun y hy => (clear y hy).2⟩,
    fun clear y hy => ⟨clear.1 y hy, clear.2 y hy⟩⟩

theorem clear_singleton {name : Value} : Clear [name] made ↔ name ∉ made.map (·.1.1) := by
  simp only [Clear, List.mem_singleton, List.mem_map, not_exists, not_and]

theorem Clear.append (clear : Clear visiting made) (clear' : Clear visiting more) : Clear visiting (made ++ more) :=
  fun y hy => (List.mem_append.mp hy).elim (clear y) (clear' y)

theorem There.append {r : Value} (there : There f₀ all made r) (more : List (Definition × Schema)) :
    There f₀ all (made ++ more) r := by
  refine there.imp_left fun hr => ?_
  rw [List.map_append]
  exact List.mem_append_left _ hr

/-- A computation goes on from where a run stands, creates nothing that is waited for, and gives what is created in the
end, or fails for a reason. -/
def Proceeds (h : Host) (f₀ : Factory) (all : List Definition) (visiting : List Value) (made : List (Definition × Schema))
    (f : Factory) (x : Creation (List (Value × Schema))) (Q : List (Definition × Schema) → Prop) : Prop :=
  ∃ more f', Progress h f₀ all (made ++ more) f' ∧ Clear visiting more ∧
    (x.runWith f = (.ok (entries (made ++ more)), f') ∧ Q (made ++ more) ∨
      ∃ e, x.runWith f = (.error e, f') ∧ Complaint h f₀ all (made ++ more) f' e)

theorem Proceeds.pure (progress : Progress h f₀ all made f) (hQ : Q made) :
    Proceeds h f₀ all visiting made f (Pure.pure (entries made)) Q :=
  ⟨[], f, by simpa using progress, nofun, .inl ⟨by rw [List.append_nil]; rfl, by simpa using hQ⟩⟩

theorem Proceeds.throw {e : Fault} (progress : Progress h f₀ all made f) (complaint : Complaint h f₀ all made f e) :
    Proceeds h f₀ all visiting made f (MonadExcept.throw e) Q :=
  ⟨[], f, by simpa using progress, nofun, .inr ⟨e, rfl, by simpa using complaint⟩⟩

theorem Proceeds.get {g : Factory → Creation (List (Value × Schema))} (hg : Proceeds h f₀ all visiting made f (g f) Q) :
    Proceeds h f₀ all visiting made f (MonadState.get >>= g) Q := by
  have run : (MonadState.get >>= g : Creation (List (Value × Schema))).runWith f = (g f).runWith f := by
    rw [runWith_bind, runWith_get]
  unfold Proceeds
  rwa [run]

theorem Proceeds.bind {x : Creation (List (Value × Schema))} {g : List (Value × Schema) → Creation (List (Value × Schema))}
    (hx : Proceeds h f₀ all visiting made f x Q)
    (hg : ∀ more f', Progress h f₀ all (made ++ more) f' → Clear visiting more → Q (made ++ more) →
      Proceeds h f₀ all visiting (made ++ more) f' (g (entries (made ++ more))) R) :
    Proceeds h f₀ all visiting made f (x >>= g) R := by
  obtain ⟨more, f', progress, clear, ⟨ran, hQ⟩ | ⟨e, ran, complaint⟩⟩ := hx
  · obtain ⟨more', f'', progress', clear', result⟩ := hg more f' progress clear hQ
    refine ⟨more ++ more', f'', by rwa [← List.append_assoc], clear.append clear', ?_⟩
    rw [runWith_bind, ran, ← List.append_assoc]
    exact result
  · refine ⟨more, f', progress, clear, .inr ⟨e, ?_, complaint⟩⟩
    rw [runWith_bind, ran]

/-- What creates nothing of more names than are waited for leaves these names as they are. -/
theorem Proceeds.narrow {x : Creation (List (Value × Schema))} {names : List Value} (clear : Clear names made)
    (hx : Proceeds h f₀ all (visiting ++ names) made f x Q) :
    Proceeds h f₀ all visiting made f x fun made' => Q made' ∧ Clear names made' := by
  obtain ⟨more, f', progress, clear', result⟩ := hx
  obtain ⟨before, here⟩ := clear_append.mp clear'
  exact ⟨more, f', progress, before, result.imp_left fun ran => ⟨ran.1, ran.2, clear.append here⟩⟩

/-- Computations in turn, each of which goes on from where the one before stands. -/
theorem Proceeds.foldlM {step : List (Value × Schema) → Value → Creation (List (Value × Schema))}
    {P : Value → List (Definition × Schema) → Prop} (grows : ∀ r made more, P r made → P r (made ++ more))
    {items : List Value}
    (each : ∀ r ∈ items, ∀ made f, Progress h f₀ all made f → Clear visiting made →
      Proceeds h f₀ all visiting made f (step (entries made) r) (P r)) :
    ∀ {made f}, Progress h f₀ all made f → Clear visiting made →
      Proceeds h f₀ all visiting made f (items.foldlM step (entries made)) fun made' => ∀ r ∈ items, P r made' := by
  induction items with
  | nil =>
    intro made f progress _
    exact .pure progress nofun
  | cons r rest ih =>
    intro made f progress clear
    rw [List.foldlM_cons]
    refine .bind (each r List.mem_cons_self made f progress clear) fun more f₁ progress₁ clear₁ here => ?_
    obtain ⟨more', f₂, progress₂, clear₂, result⟩ :=
      ih (fun r hr => each r (List.mem_cons_of_mem _ hr)) progress₁ (clear.append clear₁)
    refine ⟨more', f₂, progress₂, clear₂, result.imp_left fun made => ⟨made.1, fun x hx => ?_⟩⟩
    rcases List.mem_cons.mp hx with rfl | hx
    · exact grows x _ _ here
    · exact made.2 x hx

theorem Progress.texts (plain : Plain all) (progress : Progress h f₀ all made f) : ∀ x ∈ made, ∃ s, x.1.1 = .text s :=
  fun x hx => (plain.named (progress.listed x hx)).2

theorem Progress.isSome_lookup (plain : Plain all) (progress : Progress h f₀ all made f) {n : String} :
    (Value.lookup? (.text n) f.schemas).isSome = true ↔
      (Value.lookup? (.text n) f₀.schemas).isSome = true ∨ .text n ∈ made.map (·.1.1) := by
  rw [progress.schemas]
  exact isSome_lookup_updated (progress.texts plain)

theorem Progress.isSome_entries (plain : Plain all) (progress : Progress h f₀ all made f) {n : String} :
    (Value.lookup? (.text n) (entries made)).isSome = true ↔ .text n ∈ made.map (·.1.1) := by
  have texts : ∀ e ∈ entries made, ∃ s, e.1 = .text s := by
    intro e he
    obtain ⟨x, hx, rfl⟩ := List.mem_map.mp he
    exact progress.texts plain x hx
  rw [isSome_lookup_text texts, entries, List.map_map]
  rfl

theorem Progress.entries_snoc (plain : Plain all) (progress : Progress h f₀ all made f) {n : String}
    {config : List (Value × Value)} (fresh : .text n ∉ made.map (·.1.1)) :
    Value.assign (.text n) s (entries made) = entries (made ++ [((.text n, config), s)]) := by
  have apart : ∀ e ∈ entries made, e.1.same (.text n) = false := by
    intro e he
    obtain ⟨x, hx, rfl⟩ := List.mem_map.mp he
    obtain ⟨t, ht⟩ := progress.texts plain x hx
    rw [show x.1.1 = .text t from ht, Value.same_text, beq_eq_false_iff_ne]
    rintro rfl
    exact fresh (List.mem_map.mpr ⟨x, hx, ht⟩)
  rw [Value.assign_fresh apart, entries, entries, List.map_append]
  rfl

theorem Progress.names_subset (progress : Progress h f₀ all made f) {r : Value} (hr : r ∈ made.map (·.1.1)) :
    r ∈ all.map Prod.fst := by
  obtain ⟨x, hx, rfl⟩ := List.mem_map.mp hr
  exact List.mem_map_of_mem (progress.listed x hx)

/-- What creating a configuration does when all that it refers to is there: it creates its schema, or nothing. -/
theorem create_proceeds (plain : Plain all) (progress : Progress h f₀ all made f) (hd : d ∈ all)
    (fresh : d.1 ∉ made.map (·.1.1))
    (ready : ∀ r, Edge all d.1 r → There f₀ all made r) :
    (∃ s f', (create h d.2).runWith f = (.ok s, f') ∧ Progress h f₀ all (made ++ [(d, s)]) f') ∨
      ∃ e, (create h d.2).runWith f = (.error e, f) ∧ Complaint h f₀ all made f e := by
  obtain ⟨hname, n, hn⟩ := plain.named hd
  have unmade : d ∉ made.map Prod.fst := by
    intro hm
    obtain ⟨x, hx, rfl⟩ := List.mem_map.mp hm
    exact fresh (List.mem_map.mpr ⟨x, hx, rfl⟩)
  have run := create_run h d.2 f
  rw [hname] at run
  dsimp only [Option.getD_some] at run
  rcases declared : declare h f.table f.schemas d.1 d.2 with e | b
  · rw [declared] at run
    refine .inr ⟨e, run, .own hd unmade (fun r edge => ?_) run⟩
    obtain ⟨t, rfl⟩ := plain.text_of_edge edge
    rw [progress.isSome_lookup plain]
    exact (ready _ edge).elim .inr fun known => .inl known.2
  · have key : d.1.requireKey = .ok () := by
      rw [hn]
      rfl
    rw [declared] at run
    dsimp only at run
    rw [key] at run
    exact .inl ⟨_, _, run, progress.snoc hd unmade ready run rfl⟩

/-- Following an edge goes on if the search for a name of the set does. -/
theorem follow_proceeds (plain : Plain all) (progress : Progress h f₀ all made f) {name r : Value} (edge : Edge all name r)
    {next : List (Value × Schema) → Value → Creation (List (Value × Schema))}
    (searched : r ∈ all.map Prod.fst →
      Proceeds h f₀ all visiting made f (next (entries made) r) fun made' => r ∈ made'.map (·.1.1)) :
    Proceeds h f₀ all visiting made f (follow (all.map Prod.fst) name next (entries made) r)
      fun made' => There f₀ all made' r := by
  obtain ⟨t, rfl⟩ := plain.text_of_edge edge
  have key : (Value.text t).requireKey = .ok () := rfl
  rw [follow, key, liftExcept_ok_bind]
  by_cases listed : .text t ∈ all.map Prod.fst
  · rw [if_pos ((elemOf_text plain.names_texts t).mpr listed)]
    obtain ⟨more, f₁, progress₁, clear₁, result⟩ := searched listed
    exact ⟨more, f₁, progress₁, clear₁, result.imp_left fun made => ⟨made.1, .inl made.2⟩⟩
  · rw [if_neg fun found => listed ((elemOf_text plain.names_texts t).mp found)]
    have same : (Value.lookup? (.text t) f.schemas).isSome = true ↔ (Value.lookup? (.text t) f₀.schemas).isSome = true := by
      rw [progress.isSome_lookup plain]
      exact or_iff_left fun made => listed (progress.names_subset made)
    refine .get ?_
    by_cases known : (Value.lookup? (.text t) f.schemas).isSome = true
    · rw [if_pos known]
      exact .pure progress (.inr ⟨listed, same.mp known⟩)
    · rw [if_neg known]
      have absent : Value.lookup? (.text t) f₀.schemas = none := by
        rw [same] at known
        simpa using known
      exact .throw progress (.unknown edge listed absent)

/-- Creating a configuration when all that it refers to is there, and filing its schema under its name. -/
theorem file_proceeds (plain : Plain all) (progress : Progress h f₀ all made f) {n : String}
    {config : List (Value × Value)} (hd : (.text n, config) ∈ all) (fresh : .text n ∉ made.map (·.1.1))
    (unseen : .text n ∉ visiting) (ready : ∀ r, Edge all (.text n) r → There f₀ all made r) :
    Proceeds h f₀ all visiting made f (create h config >>= fun s => pure (Value.assign (.text n) s (entries made)))
      fun made' => .text n ∈ made'.map (·.1.1) := by
  rcases create_proceeds plain progress hd fresh ready with ⟨s, f', created, progress'⟩ | ⟨e, failed, complaint⟩
  · have clear : Clear visiting [((.text n, config), s)] := fun y hy => List.mem_singleton.mp hy ▸ unseen
    refine ⟨[((.text n, config), s)], f', progress', clear, .inl ⟨?_, by simp⟩⟩
    rw [runWith_bind, created, ← progress.entries_snoc plain fresh]
    rfl
  · refine ⟨[], f, by rwa [List.append_nil], nofun, .inr ⟨e, ?_, by rwa [List.append_nil]⟩⟩
    rw [runWith_bind, failed]

/-- Different names of a set that are waited for, each of which refers to the next one, and the last to a name. -/
structure Descent (all : List Definition) (names : List String) (n : String) : Prop where
  different : names.Nodup
  listed : ∀ v ∈ names, .text v ∈ all.map Prod.fst
  path : ((names ++ [n]).map Value.text).IsChain (Edge all)

namespace Descent
variable {names : List String} {n : String}

theorem start (all : List Definition) (n : String) : Descent all [] n where
  different := .nil
  listed := nofun
  path := List.isChain_singleton _

theorem step (descent : Descent all names n) (unseen : n ∉ names) (listed : .text n ∈ all.map Prod.fst) {t : String}
    (edge : Edge all (.text n) (.text t)) : Descent all (names ++ [n]) t where
  different := List.nodup_append.mpr
    ⟨descent.different, by simp, by simpa using fun v hv (same : v = n) => unseen (same ▸ hv)⟩
  listed v hv := by
    rcases List.mem_append.mp hv with hv | hv
    · exact descent.listed v hv
    · exact List.mem_singleton.mp hv ▸ listed
  path := by
    rw [List.map_append, List.isChain_append]
    exact ⟨descent.path, List.isChain_singleton _, by simpa using edge⟩

/-- No more names are waited for than the set has. -/
theorem length_le (descent : Descent all names n) : names.length ≤ all.length := by
  have distinct : (names.map Value.text).Nodup := descent.different.map fun _ _ => Value.text.inj
  have sub : names.map Value.text ⊆ all.map Prod.fst := by
    intro v hv
    obtain ⟨s, hs, rfl⟩ := List.mem_map.mp hv
    exact descent.listed s hs
  have few := (distinct.subperm sub).length_le
  rwa [List.length_map, List.length_map] at few

end Descent

/-- The search for a name of the set goes on from any point on, and creates it. -/
theorem search_proceeds (plain : Plain all) (limit : Nat) : ∀ {names : List String} {made : List (Definition × Schema)}
    {f : Factory} {n : String}, Progress h f₀ all made f → Clear (names.map .text) made → .text n ∈ all.map Prod.fst →
      Descent all names n → all.length < limit + names.length →
      Proceeds h f₀ all (names.map .text) made f (search h all limit (names.map .text) (entries made) (.text n))
        fun made' => .text n ∈ made'.map (·.1.1) := by
  induction limit with
  | zero =>
    intro names made f n _ _ _ descent more
    have few := descent.length_le
    omega
  | succ limit ih =>
    intro names made f n progress clear listed descent more
    have waiting : ∀ v ∈ names.map Value.text, ∃ s, v = .text s := by
      intro v hv
      obtain ⟨s, -, rfl⟩ := List.mem_map.mp hv
      exact ⟨s, rfl⟩
    rw [search]
    by_cases there : .text n ∈ made.map (·.1.1)
    · rw [if_pos ((progress.isSome_entries plain).mpr there)]
      exact .pure progress there
    rw [if_neg fun found => there ((progress.isSome_entries plain).mp found)]
    by_cases back : n ∈ names
    · rw [if_pos ((elemOf_text waiting n).mpr (List.mem_map_of_mem back))]
      exact .throw progress (cycleFault_complains back descent.path)
    have unseen : .text n ∉ names.map Value.text := by simpa using back
    rw [if_neg fun seen => unseen ((elemOf_text waiting n).mp seen)]
    obtain ⟨⟨_, config⟩, hd, rfl⟩ := List.mem_map.mp listed
    obtain ⟨refs, scanned, -⟩ := plain.scanned hd
    rw [plain.lookup_of_mem hd]
    dsimp only
    rw [scanned, liftExcept_ok_bind, plain.arguments hd]
    -- The references in turn are created, or known to the factory and outside the set.
    have here : Clear [.text n] made := clear_singleton.mpr there
    have inside : Proceeds h f₀ all (names.map .text ++ [.text n]) made f
        (refs.foldlM (follow (all.map Prod.fst) (.text n) (search h all limit (names.map .text ++ [.text n]))) (entries made))
        fun made' => ∀ r ∈ refs, There f₀ all made' r := by
      have deeper : names.map Value.text ++ [.text n] = (names ++ [n]).map .text := by simp
      refine .foldlM (fun r made more there => there.append more) (fun r hr made₁ f₁ progress₁ clear₁ => ?_) progress
        (clear_append.mpr ⟨clear, here⟩)
      have edge : Edge all (.text n) r := ⟨config, refs, hd, scanned, hr⟩
      refine follow_proceeds plain progress₁ edge fun listed₁ => ?_
      obtain ⟨t, rfl⟩ := plain.text_of_edge edge
      rw [deeper] at clear₁ ⊢
      refine ih progress₁ clear₁ listed₁ (descent.step back listed edge) ?_
      rw [List.length_append, List.length_singleton]
      omega
    refine .bind (inside.narrow here) fun more₁ f₁ progress₁ _ created => ?_
    rw [liftExcept_ok_bind]
    refine file_proceeds plain progress₁ hd (clear_singleton.mp created.2) unseen fun r edge => ?_
    exact created.1 r (plain.mem_of_edge hd scanned edge)

end Progress

/-! ### Order and cycles -/

section Order
variable {h : Host} {f f' : Factory} {all : List Definition} {made : List (Definition × Schema)}

/-- From a name that was created, edges lead nowhere for ever. -/
theorem Progress.acc (progress : Progress h f all made f') (before : List (Definition × Schema)) :
    ∀ after, made = before ++ after → ∀ x ∈ before, Acc (fun target name => Edge all name target) x.1.1 := by
  induction before using List.reverseRecOn with
  | nil => exact fun _ _ => nofun
  | append_singleton init y ih =>
    intro after split x hx
    have split' : made = init ++ y :: after := by simpa using split
    rcases List.mem_append.mp hx with hx | hx
    · exact ih (y :: after) split' x hx
    rw [List.mem_singleton.mp hx]
    refine .intro _ fun r edge => ?_
    rcases progress.first init y after split' r edge with hr | ⟨unlisted, -⟩
    · obtain ⟨z, hz, rfl⟩ := List.mem_map.mp hr
      exact ih (y :: after) split' z hz
    · refine .intro _ fun target edge' => ?_
      obtain ⟨config, -, hd, -⟩ := edge'
      exact (unlisted (List.mem_map.mpr ⟨_, hd, rfl⟩)).elim

/-- When a whole set was created, no edges lead back to where they start. -/
theorem Progress.acyclic (progress : Progress h f all made f') (whole : ∀ d ∈ all, d ∈ made.map Prod.fst) (n : Value) :
    ¬TransGen (Edge all) n n := by
  intro cycle
  obtain ⟨_, ⟨config, -, hd, -⟩, -⟩ := TransGen.head'_iff.mp cycle
  obtain ⟨x, hx, same⟩ := List.mem_map.mp (whole _ hd)
  have accessible : Acc (fun target name => Edge all name target) n := by
    have := progress.acc made [] (List.append_nil _).symm x hx
    rwa [same] at this
  have back : TransGen (fun target name => Edge all name target) n n := transGen_swap.mpr cycle
  exact ((acc_transGen_iff.mpr accessible).rec fun x _ ih hx => ih x hx hx :
    TransGen (fun target name => Edge all name target) n n → False) back

theorem transGen_of_isChain {α : Type} {r : α → α → Prop} : ∀ {a : α} {l : List α} (more : l ≠ []),
    (a :: l).IsChain r → TransGen r a (l.getLast more)
  | a, [b], _, chain => .single (List.isChain_cons_cons.mp chain).1
  | a, b :: c :: l, _, chain => by
    obtain ⟨first, rest⟩ := List.isChain_cons_cons.mp chain
    exact .head first (transGen_of_isChain (List.cons_ne_nil c l) rest)

end Order

/-! ### Sets -/

section Sets
variable {h : Host} {f f' : Factory} {configs : List Value} {made : List (Definition × Schema)}

/-- What a run gives when a whole set was created: its schemas, in the order of the set. -/
theorem Progress.result {all : List Definition} (plain : Plain all) (progress : Progress h f all made f')
    (whole : ∀ d ∈ all, d.1 ∈ made.map (·.1.1)) :
    (made.map Prod.fst).Perm all ∧
      (all.filterMap fun d => (Value.lookup? d.1 (entries made)).map fun s => (d.1, s)).map Prod.fst = all.map Prod.fst ∧
      ∀ x ∈ all.filterMap fun d => (Value.lookup? d.1 (entries made)).map fun s => (d.1, s),
        ∃ d, (d, x.2) ∈ made ∧ d.1 = x.1 := by
  have created {d : Definition} (hd : d ∈ all) : d ∈ made.map Prod.fst := by
    obtain ⟨x, hx, same⟩ := List.mem_map.mp (whole d hd)
    exact plain.unique (progress.listed x hx) hd same ▸ List.mem_map_of_mem hx
  refine ⟨?_, firsts_filterMap fun d hd => ?_, fun x hx => ?_⟩
  · refine (List.perm_ext_iff_of_nodup progress.once plain.distinct.of_map).mpr fun d => ⟨fun hd => ?_, created⟩
    obtain ⟨x, hx, rfl⟩ := List.mem_map.mp hd
    exact progress.listed x hx
  · obtain ⟨n, hn⟩ := (plain.named hd).2
    have there : (Value.lookup? d.1 (entries made)).isSome = true := by
      rw [hn, progress.isSome_entries plain, ← hn]
      exact whole d hd
    obtain ⟨s, hs⟩ := Option.isSome_iff_exists.mp there
    exact ⟨s, by rw [hs]; rfl⟩
  · obtain ⟨d, hd, found⟩ := List.mem_filterMap.mp hx
    obtain ⟨s, hs, rfl⟩ := Option.map_eq_some_iff.mp found
    obtain ⟨k, hk, same⟩ := Value.lookup?_some hs
    obtain ⟨y, hy, rest⟩ := List.mem_map.mp hk
    cases rest
    obtain ⟨t, ht⟩ := progress.texts plain y hy
    obtain ⟨n, hn⟩ := (plain.named hd).2
    rw [ht, hn, Value.same_text, beq_iff_eq] at same
    exact ⟨y.1, hy, by rw [ht, hn, same]⟩

/-- However creating a set ends, it made progress: it created the whole set, or it fails for a reason. -/
theorem createMany_progress (formed : WellFormed configs) (h : Host) (f : Factory) :
    ∃ made f', Progress h f (named configs) made f' ∧
      ((∃ result, (createMany h configs).runWith f = (.ok result, f') ∧ (made.map Prod.fst).Perm (named configs) ∧
          result.map Prod.fst = (named configs).map Prod.fst ∧ ∀ x ∈ result, ∃ d, (d, x.2) ∈ made ∧ d.1 = x.1) ∨
        ∃ e, (createMany h configs).runWith f = (.error e, f') ∧ Complaint h f (named configs) made f' e) := by
  have plain := formed.plain
  obtain ⟨limit, more⟩ : ∃ limit, configs.length < limit := ⟨_, Nat.lt_succ_self _⟩
  have fewer : (named configs).length < limit + ([] : List String).length :=
    Nat.lt_of_le_of_lt (List.length_filterMap_le _ _) more
  rw [createMany_eq_searchMany formed more h, searchMany, formed.definitions, liftExcept_ok_bind]
  -- Each name in turn is searched for from where the searches before stopped.
  have searched : Proceeds h f (named configs) [] [] f
      (((named configs).map Prod.fst).foldlM (search h (named configs) limit []) [])
      fun made => ∀ r ∈ (named configs).map Prod.fst, r ∈ made.map (·.1.1) := by
    have grows (r : Value) (made more : List (Definition × Schema)) (hr : r ∈ made.map (·.1.1)) :
        r ∈ (made ++ more).map (·.1.1) := by
      rw [List.map_append]
      exact List.mem_append_left _ hr
    refine Proceeds.foldlM grows (fun r hr made f₁ progress clear => ?_) (.start h f _) nofun
    obtain ⟨n, rfl⟩ := plain.names_texts r hr
    have clear' : Clear (([] : List String).map .text) made := clear
    exact search_proceeds plain limit progress clear' hr (.start _ n) fewer
  obtain ⟨made, f', progress, -, ⟨ran, whole⟩ | ⟨e, ran, complaint⟩⟩ := searched
  · refine ⟨made, f', progress, .inl ⟨_, ?_, progress.result plain fun d hd => whole _ (List.mem_map_of_mem hd)⟩⟩
    rw [runWith_bind, ran]
    rfl
  · refine ⟨made, f', progress, .inr ⟨e, ?_, complaint⟩⟩
    rw [runWith_bind, ran]

/-- Every configuration of a set can be created once what it refers to is there. -/
def Creatable (h : Host) (f : Factory) (all : List Definition) : Prop :=
  ∀ made f', Creates h f made f' → (∀ x ∈ made, x.1 ∈ all) → ∀ d ∈ all,
    (∀ r, Edge all d.1 r → (Value.lookup? r f'.schemas).isSome = true) → ∃ s f'', (create h d.2).runWith f' = (.ok s, f'')

/-- If each configuration can be created, a set is created exactly when no edges lead back to where they start, and
every edge leads to a name of the set or to one that the factory knows. -/
theorem createMany_ok_iff (formed : WellFormed configs) (creatable : Creatable h f (named configs)) :
    (∃ result f', (createMany h configs).runWith f = (.ok result, f')) ↔
      (∀ n, ¬TransGen (Edge (named configs)) n n) ∧ ∀ n r, Edge (named configs) n r →
        r ∈ (named configs).map Prod.fst ∨ (Value.lookup? r f.schemas).isSome = true := by
  obtain ⟨made, f', progress, ⟨result, ran, whole, -⟩ | ⟨e, ran, complaint⟩⟩ := createMany_progress formed h f
  · refine ⟨fun _ => ⟨progress.acyclic fun d hd => whole.mem_iff.mpr hd, fun n r edge => ?_⟩,
      fun _ => ⟨result, f', ran⟩⟩
    obtain ⟨config, refs, hd, scanned, hr⟩ := edge
    obtain ⟨x, hx, same⟩ := List.mem_map.mp (whole.mem_iff.mpr hd)
    obtain ⟨before, after, split⟩ := List.append_of_mem hx
    have edge : Edge (named configs) x.1.1 r := ⟨config, refs, by rw [same]; exact hd, scanned, hr⟩
    rcases progress.first before x after split r edge with made | known
    · obtain ⟨y, hy, rfl⟩ := List.mem_map.mp made
      have there : y ∈ before ++ x :: after := List.mem_append_left _ hy
      exact .inl (List.mem_map_of_mem (progress.listed y (split ▸ there)))
    · exact .inr known.2
  · refine ⟨fun ⟨result, f'', made⟩ => ?_, fun ⟨acyclic, closed⟩ => ?_⟩
    · cases ran.symm.trans made
    · exfalso
      cases complaint with
      | @cycle names steps closedWalk walk =>
        rcases names with _ | ⟨a, _ | ⟨b, names⟩⟩
        · simp at steps
        · simp at steps
        · have back : (b :: names).getLast (List.cons_ne_nil _ _) = a := by
            rw [List.head?_cons, List.getLast?_cons_cons, List.getLast?_eq_some_getLast (List.cons_ne_nil _ _)] at closedWalk
            exact (Option.some.inj closedWalk).symm
          have round := transGen_of_isChain (List.cons_ne_nil _ _) walk
          have last : ((b :: names).map Value.text).getLast (List.cons_ne_nil _ _) = .text a := by
            rw [List.getLast_map, back]
          exact acyclic _ (last ▸ round)
      | unknown edge unlisted absent =>
        rcases closed _ _ edge with listed | known
        · exact unlisted listed
        · rw [absent] at known
          cases known
      | own hd fresh ready failed =>
        obtain ⟨s, f'', created⟩ := creatable made f' progress.runs progress.listed _ hd ready
        cases failed.symm.trans created

/-! ### Structures that nest others -/

section Nesting
variable {h : Host} {t : FunctionTable} {known : List (Value × Schema)} {s : Schema} {name target : String}

def nestedShape (target : String) : List (Value × Value) := [(.text "kind", .text "nested"), (.text "schema", .text target)]

def nestingField (target : String) : List (Value × Value) :=
  [(.text "name", .text "inner"), (.text "shape", .dict (nestedShape target))]

/-- The configuration of a structure whose one field is another structure. -/
def nesting (name target : String) : List (Value × Value) :=
  [(.text "name", .text name), (.text "fields", .list [.dict (nestingField target)])]

/-- The configuration of a structure without fields. -/
def fieldless (name : String) : List (Value × Value) := [(.text "name", .text name)]

theorem kindName_nestedShape : kindNames.lookup (kindName (nestedShape target)) = some .nested := by
  simp [kindName, nestedShape, Value.lookup?, Value.str]
  decide

theorem references_nesting : references (nesting name target) = .ok [.text target] := by
  simp [nesting, nestingField, nestedShape, references, setting, Value.lookup?, fieldReferences, shapeReferences, nestedReference,
    Value.truthy, Value.length?, Value.iterate?, Value.elements?, Value.str, Value.isAbsent, Value.asText?, bind, Except.bind,
    pure, Except.pure]
  decide

theorem shape_nestedShape (found : Value.lookup? (.text target) known = some s) (context : Context) :
    shape known context (.dict (nestedShape target)) = .ok (.nested (.schema s) []) := by
  have bare : declaredRules context (setting (nestedShape target) "rules") = .ok [] := by
    simp [nestedShape, setting, Value.lookup?, declaredRules, Value.truthy]
  have referred : setting (nestedShape target) "schema" = .text target := by simp [nestedShape, setting, Value.lookup?]
  rw [shape, kindName_nestedShape]
  dsimp only
  rw [shapeOfKind, bare, referred, knownSchema, found]
  rfl

theorem addField_nesting (found : Value.lookup? (.text target) known = some s) :
    ∃ b, addField h t known (builder (.text name) .absent) (.dict (nestingField target)) = .ok b := by
  have called : Value.lookup? (.text "name") (nestingField target) = some (.text "inner") := by
    simp [nestingField, Value.lookup?]
  have given : Value.lookup? (.text "shape") (nestingField target) = some (.dict (nestedShape target)) := by
    simp [nestingField, Value.lookup?]
  have required : (setting (nestingField target) "optional").truthy = false := by
    simp [nestingField, setting, Value.lookup?, Value.truthy]
  have bare : setting (nestingField target) "rules" = .absent := by simp [nestingField, setting, Value.lookup?]
  have shaped (context : Context) : fieldShape known context (nestingField target) = .ok (.nested (.schema s) []) := by
    rw [fieldShape, given, required]
    dsimp only
    rw [shape_nestedShape found]
    rfl
  unfold addField
  dsimp only
  rw [called]
  dsimp only
  rw [shaped, bare]
  exact ⟨_, rfl⟩

theorem declare_nesting (found : Value.lookup? (.text target) known = some s) :
    ∃ b, declare h t known (.text name) (nesting name target) = .ok b := by
  have unsaid : setting (nesting name target) "description" = .absent := by simp [nesting, setting, Value.lookup?]
  have unchecked : (setting (nesting name target) "checks").truthy = false := by
    simp [nesting, setting, Value.lookup?, Value.truthy]
  have listed : Value.lookup? (.text "fields") (nesting name target) = some (.list [.dict (nestingField target)]) := by
    simp [nesting, Value.lookup?]
  obtain ⟨b, added⟩ : ∃ b, addField h t known (builder (.text name) .absent) (.dict (nestingField target)) = .ok b :=
    addField_nesting found
  rw [declare, listed, unsaid, unchecked]
  simp only [pure_bind, List.foldlM_cons, List.foldlM_nil, added]
  exact ⟨b, rfl⟩

theorem references_fieldless : references (fieldless name) = .ok [] := by
  simp [fieldless, references, setting, Value.lookup?, Value.truthy]

theorem declare_fieldless : ∃ b, declare h t known (.text name) (fieldless name) = .ok b := by
  have unsaid : setting (fieldless name) "description" = .absent := by simp [fieldless, setting, Value.lookup?]
  have unchecked : (setting (fieldless name) "checks").truthy = false := by simp [fieldless, setting, Value.lookup?, Value.truthy]
  have unlisted : Value.lookup? (.text "fields") (fieldless name) = none := by simp [fieldless, Value.lookup?]
  rw [declare, unlisted, unsaid, unchecked]
  exact ⟨_, rfl⟩

theorem definition_nesting : definition? (.dict (nesting name target)) = some (.text name, nesting name target) := by
  simp [definition?, nesting, Value.lookup?]

theorem definition_fieldless : definition? (.dict (fieldless name)) = some (.text name, fieldless name) := by
  simp [definition?, fieldless, Value.lookup?]

theorem requireArguments_nesting : requireArguments (nesting name target) = .ok () := by
  simp [requireArguments, nesting, Value.lookup?, Value.asText?]

theorem requireArguments_fieldless : requireArguments (fieldless name) = .ok () := by
  simp [requireArguments, fieldless, Value.lookup?, Value.asText?]

/-- Configurations that can be declared once what they refer to is known can be created then. -/
theorem creatable_of_declares {f : Factory} {all : List Definition} (plain : Plain all)
    (declares : ∀ t known, ∀ d ∈ all, (∀ r, Edge all d.1 r → (Value.lookup? r known).isSome = true) →
      ∃ b, declare h t known d.1 d.2 = .ok b) : Creatable h f all := by
  intro made f' _ _ d hd ready
  obtain ⟨called, n, hn⟩ := plain.named hd
  obtain ⟨b, declared⟩ := declares f'.table f'.schemas d hd ready
  have run := create_run h d.2 f'
  rw [called] at run
  dsimp only [Option.getD_some] at run
  rw [declared, hn] at run
  exact ⟨_, _, run⟩

end Nesting

/-- Creating a set ends with any limit on depth that is more than the number of the configurations. What each
configuration refers to is created first, or there already; a failure keeps what was created, and is there for a reason.
If only references can keep a configuration from being created, the set is created exactly when none leads back to where
it starts and each is to a name of the set or to one that the factory knows. -/
theorem createMany_dependencies_first (formed : WellFormed configs) (h : Host) (f : Factory) :
    (∀ limit, configs.length < limit → createMany h configs = searchMany h limit configs) ∧
      (∃ made f', Progress h f (named configs) made f' ∧
        ((∃ result, (createMany h configs).runWith f = (.ok result, f') ∧ (made.map Prod.fst).Perm (named configs) ∧
            result.map Prod.fst = (named configs).map Prod.fst ∧ ∀ x ∈ result, ∃ d, (d, x.2) ∈ made ∧ d.1 = x.1) ∨
          ∃ e, (createMany h configs).runWith f = (.error e, f') ∧ Complaint h f (named configs) made f' e)) ∧
      (Creatable h f (named configs) →
        ((∃ result f', (createMany h configs).runWith f = (.ok result, f')) ↔
          (∀ n, ¬TransGen (Edge (named configs)) n n) ∧ ∀ n r, Edge (named configs) n r →
            r ∈ (named configs).map Prod.fst ∨ (Value.lookup? r f.schemas).isSome = true)) :=
  ⟨fun _ more => createMany_eq_searchMany formed more h, createMany_progress formed h f, createMany_ok_iff formed⟩

/-- A structure can be created with one that it nests; two that nest each other cannot. -/
theorem createMany_dependencies_first_of_two :
    (∃ result f', (createMany .bare [.dict (nesting "a" "b"), .dict (fieldless "b")]).runWith ⟨.default, [], 0⟩
        = (.ok result, f')) ∧
      ¬∃ result f', (createMany .bare [.dict (nesting "a" "b"), .dict (nesting "b" "a")]).runWith ⟨.default, [], 0⟩
        = (.ok result, f') := by
  constructor
  · have names : named [.dict (nesting "a" "b"), .dict (fieldless "b")]
        = [(.text "a", nesting "a" "b"), (.text "b", fieldless "b")] := by
      simp [named, definition_nesting, definition_fieldless]
    have formed : WellFormed [.dict (nesting "a" "b"), .dict (fieldless "b")] := by
      refine ⟨fun config hc => ?_, by simp [names]⟩
      rcases List.mem_pair.mp hc with rfl | rfl
      · exact ⟨_, _, definition_nesting, requireArguments_nesting, _, references_nesting, by simp⟩
      · exact ⟨_, _, definition_fieldless, requireArguments_fieldless, _, references_fieldless, by simp⟩
    have edges {n r : Value} (edge : Edge (named [.dict (nesting "a" "b"), .dict (fieldless "b")]) n r) :
        n = .text "a" ∧ r = .text "b" := by
      rw [names] at edge
      obtain ⟨config, refs, hd, scanned, hr⟩ := edge
      rcases List.mem_pair.mp hd with hd | hd <;> cases hd
      · cases references_nesting.symm.trans scanned
        exact ⟨rfl, List.mem_singleton.mp hr⟩
      · cases references_fieldless.symm.trans scanned
        cases hr
    have creatable : Creatable .bare ⟨.default, [], 0⟩ (named [.dict (nesting "a" "b"), .dict (fieldless "b")]) := by
      refine creatable_of_declares formed.plain fun t known d hd ready => ?_
      rw [names] at hd
      rcases List.mem_pair.mp hd with rfl | rfl
      · have known : (Value.lookup? (.text "b") known).isSome = true :=
          ready _ ⟨_, _, names ▸ List.mem_cons_self, references_nesting, List.mem_singleton_self _⟩
        obtain ⟨s, found⟩ := Option.isSome_iff_exists.mp known
        exact declare_nesting found
      · exact declare_fieldless
    refine ((createMany_dependencies_first formed .bare _).2.2 creatable).mpr ⟨fun n cycle => ?_, fun n r edge => ?_⟩
    · obtain ⟨r, edge, rest⟩ := TransGen.head'_iff.mp cycle
      obtain ⟨rfl, rfl⟩ := edges edge
      rcases rest.cases_head with same | ⟨r, edge', -⟩
      · simp at same
      · simpa using (edges edge').1
    · obtain ⟨rfl, rfl⟩ := edges edge
      exact .inl (by simp [names])
  · have names : named [.dict (nesting "a" "b"), .dict (nesting "b" "a")]
        = [(.text "a", nesting "a" "b"), (.text "b", nesting "b" "a")] := by
      simp [named, definition_nesting]
    have formed : WellFormed [.dict (nesting "a" "b"), .dict (nesting "b" "a")] := by
      refine ⟨fun config hc => ?_, by simp [names]⟩
      rcases List.mem_pair.mp hc with rfl | rfl
      · exact ⟨_, _, definition_nesting, requireArguments_nesting, _, references_nesting, by simp⟩
      · exact ⟨_, _, definition_nesting, requireArguments_nesting, _, references_nesting, by simp⟩
    rintro ⟨result, f', made⟩
    obtain ⟨-, ⟨created, f'', progress, ⟨-, -, whole, -⟩ | ⟨e, failed, -⟩⟩, -⟩ :=
      createMany_dependencies_first formed .bare ⟨.default, [], 0⟩
    · have there : Edge (named [.dict (nesting "a" "b"), .dict (nesting "b" "a")]) (.text "a") (.text "b") :=
        ⟨_, _, names ▸ List.mem_cons_self, references_nesting, List.mem_singleton_self _⟩
      have back : Edge (named [.dict (nesting "a" "b"), .dict (nesting "b" "a")]) (.text "b") (.text "a") :=
        ⟨_, _, names ▸ List.mem_cons_of_mem _ List.mem_cons_self, references_nesting, List.mem_singleton_self _⟩
      exact progress.acyclic (fun d hd => whole.mem_iff.mpr hd) _ (.tail (.single there) back)
    · cases failed.symm.trans made

end Sets
end Factory
end Conform
