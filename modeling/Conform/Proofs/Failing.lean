import Conform.Proofs.Compiled
import Conform.Proofs.Places

/-!
When validation fails. It fails exactly when it reaches a place whose survey, or the value of one of whose
branches, cannot be told (`Level.findings_fails_iff`). Where every node can be what the builder makes, the
places that validation gets stuck at are few, and `Gap` lists them.
-/

namespace Conform

/-! ### Failing and being stuck -/

namespace Value

theorem isInstance?_eq_none {v : Value} {c : ClassRef} : v.isInstance? c = none ↔ c = .any := by
  cases c <;> cases v <;> simp [isInstance?]

end Value

/-- A level with nothing but what the builder makes. -/
def Level.Sound : Level → Prop
  | .node n => n.Sound
  | .schema s => s.Sound

/-- A program whose classes carry sound schemas. -/
def Host.Sound (h : Host) : Prop := ∀ c s, h.classSchema c = some s → s.Sound

theorem Schema.Sound.field {s : Schema} (hs : s.Sound) {name : Value} {n : Node} (hf : (name, n) ∈ s.fields) :
    n.Sound := by
  cases hs with
  | mk h => exact h name n hf

theorem Target.Sound.schemaOf {h : Host} (hh : h.Sound) {target : Target} {s : Schema} (ht : target.Sound)
    (hs : h.targetSchema? target = some s) : s.Sound := by
  cases ht with
  | schema hsound =>
    cases hs
    exact hsound
  | @cls c attributes =>
    cases c with
    | declared d => exact hh d s hs
    | builtin | any | enumeration => cases hs

/-- A step from a sound level goes to a sound node. -/
theorem Level.Step.sound {h : Host} (hh : h.Sound) {level : Level} {v x : Value} {p : Path} {m : Node}
    (step : Level.Step h level v p m x) (hl : level.Sound) : m.Sound := by
  cases step with
  | node step =>
    cases step with
    | optional | element | entry => cases hl with
      | wrapper hi hk => exact hi _ rfl
    | key => cases hl with
      | wrapper hi hk => exact hk _ rfl
    | field hv hs hold hf hx => cases hl with
      | nested ht => exact (ht.schemaOf hh hs).field hf
    | payload hv hs => cases hl with
      | variants hn hc =>
        obtain ⟨n, hn⟩ := selectCase_mem hs
        exact hc n _ hn
  | field hv hf hx => exact Schema.Sound.field hl hf

/-- Validation reaches sound levels only. -/
theorem Leads.sound {h : Host} (hh : h.Sound) {a b : Level} {v x : Value} {p : Path} (leads : Leads h a v p b x)
    (ha : a.Sound) : b.Sound := by
  induction leads with
  | here => exact ha
  | there step _ ih => exact ih (step.sound hh ha)

/-! ### Gaps -/

theorem bind_ok {α β : Type} {e : Except Fault α} {f : α → Except Fault β} (he : ∃ a, e = .ok a)
    (hf : ∀ a, ∃ b, f a = .ok b) : ∃ b, e >>= f = .ok b := by
  obtain ⟨a, ha⟩ := he
  obtain ⟨b, hb⟩ := hf a
  exact ⟨b, Except.bind_eq_ok.mpr ⟨a, ha, hb⟩⟩

theorem mapM_ok {α β : Type} {f : α → Except Fault β} : ∀ {xs : List α}, (∀ x ∈ xs, ∃ y, f x = .ok y) →
    ∃ ys, xs.mapM f = .ok ys
  | [], _ => ⟨[], rfl⟩
  | x :: xs, h => by
    obtain ⟨y, hy⟩ := h x List.mem_cons_self
    obtain ⟨ys, hys⟩ := mapM_ok fun z hz => h z (List.mem_cons_of_mem _ hz)
    exact ⟨y :: ys, by rw [List.mapM_cons, hy, hys]; rfl⟩

/-- Texts can be joined. -/
theorem joinTexts_ok (separator : String) {items : List Value} (h : ∀ x ∈ items, ∃ s, x = .text s) :
    ∃ t, joinTexts separator items = .ok t := by
  refine bind_ok (mapM_ok fun (x, i) hx => ?_) fun texts => ⟨_, rfl⟩
  obtain ⟨s, rfl⟩ := h x (List.fst_mem_of_mem_zipIdx hx)
  exact ⟨s, rfl⟩

/-- Which variant a value is, or that it is none, can be told when the names of the cases are texts. -/
theorem Violation.wrongVariant_ok {cases : List (Value × Option Node)} (actual problem : String)
    (h : ∀ name node, (name, node) ∈ cases → ∃ s, name = .text s) :
    ∃ e, wrongVariant cases actual problem = .ok e := by
  have texts : ∀ x ∈ cases.map Prod.fst, ∃ s, x = .text s := fun x hx => by
    obtain ⟨⟨name, node⟩, hm, rfl⟩ := List.mem_map.mp hx
    exact h name node hm
  obtain ⟨t, ht⟩ := joinTexts_ok ", " texts
  exact ⟨_, by rw [wrongVariant, ht]; rfl⟩

end Conform
