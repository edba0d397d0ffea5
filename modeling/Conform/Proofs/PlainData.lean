import Conform.Proofs.Escaping
import Conform.Proofs.Making

/-!
Plain data: what JSON texts show. A setting of plain data stands in it (`Settings`), plain values have an order unless
their types have none (`IsJson.lt_fails`), and the engine's own functions check plain parameters of the classes that
configurations name, all but patterns that cannot be read (`ParameterCheck.run_plain`).
-/

namespace Conform

namespace Value

/-- Data of the kinds that JSON texts have. -/
inductive IsJson : Value → Prop where
  | absent : IsJson .absent
  | bool (b : Bool) : IsJson (.bool b)
  | int (n : Int) : IsJson (.int n)
  | float (x : Binary64) : IsJson (.float x)
  | text (s : String) : IsJson (.text s)
  | list {items} (each : ∀ v ∈ items, IsJson v) : IsJson (.list items)
  | mapping {kind entries} (keys : ∀ k v, (k, v) ∈ entries → ∃ s, k = .text s)
    (each : ∀ k v, (k, v) ∈ entries → IsJson v) : IsJson (.mapping kind entries)

/-- A value stands somewhere in another one, or is it. -/
inductive Part (source : Value) : Value → Prop where
  | here : Part source source
  | item {items v} (part : Part source (.list items)) (hm : v ∈ items) : Part source v
  | entry {kind entries k v} (part : Part source (.mapping kind entries)) (hm : (k, v) ∈ entries) : Part source v

/-- Some mapping in a value has an entry. -/
def HasEntry (source : Value) (key : String) (v : Value) : Prop :=
  ∃ kind entries, Part source (.mapping kind entries) ∧ (.text key, v) ∈ entries

theorem HasEntry.part {source v : Value} {key : String} (has : source.HasEntry key v) : Part source v := by
  obtain ⟨kind, entries, part, hm⟩ := has
  exact part.entry hm

theorem Part.isJson {source v : Value} (json : source.IsJson) (part : Part source v) : v.IsJson := by
  induction part with
  | here => exact json
  | item _ hm ih =>
    cases ih with
    | list each => exact each _ hm
  | entry _ hm ih =>
    cases ih with
    | mapping keys each => exact each _ _ hm

theorem HasEntry.isJson {source v : Value} {key : String} (json : source.IsJson) (has : source.HasEntry key v) :
    v.IsJson := has.part.isJson json

/-- What is given in plain data, or left out, is plain. -/
theorem isJson_of_given {source v : Value} {key : String} (json : source.IsJson) (given : v = .absent ∨ source.HasEntry key v) :
    v.IsJson := by
  rcases given with rfl | has
  · exact .absent
  · exact has.isJson json

namespace IsJson
variable {v w : Value}

theorem asText_eq_some {s : String} (json : v.IsJson) (h : v.asText? = some s) : v = .text s := by
  cases json with
  | text t => exact congrArg Value.text (Option.some.inj h)
  | _ => cases h

/-- Numbers of plain data have an order. -/
theorem numberLt_ok {x y : Magnitude} (hv : v.IsJson) (hw : w.IsJson) : numberLt v w x y = .ok (x.below y) := by
  cases hv <;> cases hw <;> rfl

theorem scalarLt_fails (hv : v.IsJson) (hw : w.IsJson) : FailsWith (fun f => f.isTypeFault = true) (scalarLt v w) := by
  have unordered : FailsWith (fun f => f.isTypeFault = true) (.error (unorderedFault v w) : Except Fault Bool) :=
    .error (unorderedFault_isTypeFault v w)
  unfold scalarLt
  split
  · rw [numberLt_ok hv hw]
    exact .ok
  · split
    · cases hv
    · cases hv
    · cases hv
    · cases hv
    · split
      · exact .ok
      · exact unordered

mutual

/-- A question of order about plain data fails for the types of its sides only. -/
theorem lt_fails : ∀ {v w : Value}, v.IsJson → w.IsJson → FailsWith (fun f => f.isTypeFault = true) (lt v w)
  | .sequence k xs, w, hv, hw => by
    rw [lt.eq_def]
    dsimp only
    split
    · cases hv with
      | list each =>
        refine .ite _ ?_ (.error (unorderedFault_isTypeFault _ _))
        cases hw with
        | list each' => exact ltItems_fails each each'
    · exact .error (unorderedFault_isTypeFault _ _)
  | .absent, w, hv, hw | .bool _, w, hv, hw | .int _, w, hv, hw | .float _, w, hv, hw | .text _, w, hv, hw
  | .mapping _ _, w, hv, hw => by
    rw [lt]
    · exact scalarLt_fails hv hw
    · nofun

theorem ltItems_fails : ∀ {xs ys : List Value}, (∀ v ∈ xs, v.IsJson) → (∀ v ∈ ys, v.IsJson) →
    FailsWith (fun f => f.isTypeFault = true) (ltItems xs ys)
  | _, [], _, _ => by
    rw [ltItems]
    exact .ok
  | [], _ :: _, _, _ => by
    rw [ltItems]
    exact .ok
  | x :: xs, y :: ys, hx, hy => by
    rw [ltItems]
    split
    · exact ltItems_fails (fun v hv => hx v (List.mem_cons_of_mem _ hv)) fun v hv => hy v (List.mem_cons_of_mem _ hv)
    · exact lt_fails (hx x List.mem_cons_self) (hy y List.mem_cons_self)

end

theorem lt_ne_undefined (hv : v.IsJson) (hw : w.IsJson) : v.lt w ≠ .error .undefinedDecimal := by
  intro h
  cases lt_fails hv hw _ h

/-- Going through plain data meets a mapping in a list only. -/
theorem list_of_mapping_mem {items : List Value} {kind : MappingKind} {entries : List (Value × Value)} (json : v.IsJson)
    (hi : v.iterate? = some items) (hm : .mapping kind entries ∈ items) : v = .list items := by
  cases json with
  | list each =>
    cases hi
    rfl
  | text s =>
    cases hi
    simp at hm
  | mapping keys each =>
    cases hi
    obtain ⟨⟨k, w⟩, hkw, rfl⟩ := List.mem_map.mp hm
    obtain ⟨s, hs⟩ := keys _ _ hkw
    cases hs
  | _ => cases hi

end IsJson

/-- The types of scalars that configurations name: none, or a class that every program has. -/
def IsNamedType (type : Value) : Prop := type = .absent ∨ ∃ c, type = .cls (.builtin c) []

end Value

/-! ### Settings -/

namespace Configuration

/-- Entries of which each is an entry of some mapping in a value. -/
def Settings (source : Value) (entries : List (Value × Value)) : Prop :=
  ∀ k v, (k, v) ∈ entries → ∃ s, k = .text s ∧ source.HasEntry s v

variable {source v : Value} {entries : List (Value × Value)}

theorem Settings.nil : Settings source [] := nofun

theorem Settings.of_part {kind : MappingKind} (json : source.IsJson) (part : source.Part (.mapping kind entries)) :
    Settings source entries := by
  intro k v hm
  cases part.isJson json with
  | mapping keys each =>
    obtain ⟨s, rfl⟩ := keys k v hm
    exact ⟨s, rfl, kind, entries, part, hm⟩

theorem Settings.lookup (settings : Settings source entries) {key : String} (h : Value.lookup? (.text key) entries = some v) :
    source.HasEntry key v := by
  obtain ⟨k, hm, same⟩ := Value.lookup?_some h
  obtain ⟨s, rfl, has⟩ := settings k v hm
  rw [Value.same_text, beq_iff_eq] at same
  exact same ▸ has

theorem Settings.setting (settings : Settings source entries) (key : String) :
    Configuration.setting entries key = .absent ∨ source.HasEntry key (Configuration.setting entries key) := by
  unfold Configuration.setting
  cases hv : Value.lookup? (.text key) entries with
  | none => exact .inl rfl
  | some v => exact .inr (settings.lookup hv)

theorem Settings.part (settings : Settings source entries) (key : String) :
    Configuration.setting entries key = .absent ∨ source.Part (Configuration.setting entries key) :=
  (settings.setting key).imp_right Value.HasEntry.part

/-- What a wrapper contains stands in the data that its settings are from. -/
theorem Settings.contents (settings : Settings source entries) :
    Configuration.contents entries = .absent ∨ source.Part (Configuration.contents entries) := by
  unfold Configuration.contents
  split
  · next hv => exact .inr (settings.lookup hv).part
  · split
    · next hv => exact .inr (settings.lookup hv).part
    · exact settings.part "type"

end Configuration

/-! ### Parameters -/

/-- Where types are named ones and cases are named by texts, nothing is uncaught but for its parameters. -/
theorem Uncaught.absurd_of_named {types names : List Value} {f : Fault} (uncaught : Uncaught types names [] f)
    (ht : ∀ type ∈ types, type.IsNamedType) (hn : ∀ name ∈ names, ∃ s, name = .text s) : False := by
  cases uncaught with
  | noClass h present hc =>
    obtain rfl | ⟨c, rfl⟩ := ht _ h
    · exact present rfl
    · exact hc _ _ rfl
  | anyClass h =>
    obtain h | ⟨c, h⟩ := ht _ h
    · cases h
    · cases h
  | nameless h present hd =>
    obtain rfl | ⟨c, rfl⟩ := ht _ h
    · exact present rfl
    · cases hd
  | caseName position h hd =>
    obtain ⟨s, rfl⟩ := hn _ h
    cases hd
  | undefinedBound h => cases h
  | unreadable h => cases h

/-- The failure to read a parameter as a pattern at all. -/
def PatternCrash (param : Value) (f : Fault) : Prop :=
  ∃ source e, param.asText? = some source ∧ Regex.compile source.toList {} = .error e ∧ e.crash?.isSome = true ∧
    f = Check.regexFault source e

namespace ParameterCheck
variable {param type : Value} {shape : Shape} {P : Fault → Prop}

theorem suits_named (named : type.IsNamedType) : FailsWith P (suits param type) := by
  have fails : FailsWith (Uncaught [type] [] []) (suits param type) := suits_fails (.inr (List.mem_singleton_self _))
  exact fails.imp fun f uncaught => (uncaught.absurd_of_named (by simpa using named) nofun).elim

theorem isTextClass_named (named : type.IsNamedType) : FailsWith P (isTextClass type) := by
  have fails : FailsWith (Uncaught [type] [] []) (isTextClass type) := isTextClass_fails (.inr (List.mem_singleton_self _))
  exact fails.imp fun f uncaught => (uncaught.absurd_of_named (by simpa using named) nofun).elim

theorem checkLength_named (named : shape.declaredType.IsNamedType) : FailsWith P (checkLength param shape) := by
  have fails : FailsWith (Uncaught [shape.declaredType] [] []) (checkLength param shape) :=
    checkLength_fails (.inr (List.mem_singleton_self _))
  exact fails.imp fun f uncaught => (uncaught.absurd_of_named (by simpa using named) nofun).elim

theorem checkOrdinal_plain (named : shape.declaredType.IsNamedType) (json : param.IsJson) :
    FailsWith P (checkOrdinal param shape) := by
  unfold checkOrdinal
  refine .ite _ .ok ((suits_named named).bind fun suited _ => .ite _ .ok ?_)
  split
  · exact .ok
  · next f hlt =>
    split
    · exact .ok
    · next hf => exact (hf (json.lt_fails json f hlt)).elim

theorem checkPattern_named (named : shape.declaredType.IsNamedType) :
    FailsWith (PatternCrash param) (checkPattern param shape) :=
  checkPattern_fails_of (isTextClass_named named) fun source e hs hr he => ⟨source, e, hs, hr, he, rfl⟩

/-- A check of the engine says what is wrong with a plain parameter on a named type, unless it is a pattern that cannot
be read. What is called is asked no order. -/
theorem run_plain {h : Host} {c : ParameterCheck} (engine : ∀ g, c ≠ .custom g) (named : shape.declaredType.IsNamedType)
    (plain : param.IsJson ∨ c = .predicate) : FailsWith (fun f => c = .pattern ∧ PatternCrash param f) (c.run h param shape) := by
  unfold run answer
  refine FailsWith.map ?_
  cases c with
  | ordinal => exact (checkOrdinal_plain named (plain.resolve_right nofun)).map
  | equal =>
    unfold checkEqual
    exact ((suits_named named).bind fun suited _ => .ite _ .ok .ok).map
  | length => exact (checkLength_named named).map
  | pattern => exact ((checkPattern_named named).imp fun f crash => ⟨rfl, crash⟩).map
  | predicate | oneOf => exact .ok
  | custom g => exact (engine g rfl).elim

end ParameterCheck
end Conform
