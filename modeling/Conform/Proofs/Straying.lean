import Conform.Proofs.Scalars
import Conform.Proofs.Seeking

/-!
Where the scan for references reads too much. Building a shape goes into the settings that its kind has a use for, one
of `items` and `inner` among them; the scan goes into all settings that could hold a shape. It goes astray where it
finds something in a setting that building leaves alone (`Astray`). Where it does not go astray, what it finds in the
configuration of a shape that can be built are schemas that are known (`shape_scanned`), and so it is for whole
declarations (`declare_scanned`).
-/

namespace Conform

/-! ### Names of classes and kinds -/

/-- A dot stays a dot in lower case. -/
theorem dot_mem_lowerChars : ∀ {cs : List Char} (wordBefore : Bool), '.' ∈ cs → '.' ∈ lowerChars wordBefore cs
  | c :: cs, wordBefore, h => by
    have same : lowerChar '.' = '.' := by decide
    rw [lowerChars]
    rcases List.mem_cons.mp h with rfl | h
    · simp [same]
    · exact List.mem_append_right _ (dot_mem_lowerChars _ h)

namespace Configuration

/-- No class of scalars has a name with a dot. -/
theorem typeNamed?_of_dot {name : String} (h : '.' ∈ name.toList) : typeNamed? name = none := by
  have dotless : ∀ p ∈ typeNames, '.' ∉ p.1.toList := by decide
  unfold typeNamed?
  rw [List.lookup_eq_none_iff]
  intro p hp
  rw [bne_iff_ne]
  intro same
  refine dotless p hp ?_
  rw [← same, lowerText, String.toList_ofList]
  exact dot_mem_lowerChars false h

/-- A text that names a class of scalars is reserved: a member of an enumeration reads as more than its text, so it
names none. -/
theorem isReserved_of_scalarType {context : Context} {config type : Value} {name : String} (ht : config.asText? = some name)
    (h : scalarType context config = .ok type) : isReserved name = true := by
  have named : (typeNamed? config.str).isSome = true := by
    unfold scalarType at h
    split at h
    · cases ht
    · split at h <;> simp_all
  unfold Value.asText? at ht
  split at ht
  · cases ht
    rw [Value.str] at named
    rw [isReserved, named, Bool.or_true]
  · next e member s =>
    split at ht
    · next text =>
      have dotted : '.' ∈ (Value.member e member (.text s)).str.toList := by simp [Value.str, text]
      rw [typeNamed?_of_dot dotted] at named
      cases named
    · cases ht
  · cases ht

/-! ### What is read, and what is not -/

/-- The settings of a shape in which the scan looks for other shapes. -/
def searched : List String := ["items", "inner", "values", "keys"]

/-- The settings of a shape of a kind that building it makes other shapes of. -/
def opened (entries : List (Value × Value)) : FieldKind → List String
  | .optional | .sequence => if (Value.lookup? (.text "items") entries).isSome then ["items"] else ["inner"]
  | .mapping => ["values", "keys"]
  | _ => []

/-- What the scan finds in the cases of a choice; what is no mapping of cases must be nothing. -/
def choiceReferences (entries : List (Value × Value)) : Except Fault (List Value) :=
  match setting entries "variants" with
  | .mapping _ cases => caseReferences cases
  | v => if v.truthy then .error (.lacking v "values") else .ok []

mutual

/-- In the configuration of a shape, or of one that building it makes too, the scan goes astray. -/
inductive Astray : Value → Prop where
  | mapping {k entries kind} (hk : kindNames.lookup (kindName entries) = some kind) (h : AstrayOf kind entries) :
    Astray (.mapping k entries)

/-- Among the settings of a shape of a kind the scan goes astray: a setting that building leaves alone does not come out
empty. -/
inductive AstrayOf : FieldKind → List (Value × Value) → Prop where
  | setting {kind entries key} (hs : key ∈ searched) (unread : key ∉ opened entries kind)
    (found : shapeReferences false (setting entries key) ≠ .ok []) : AstrayOf kind entries
  | choice {kind entries} (unread : kind ≠ .enum) (found : choiceReferences entries ≠ .ok []) : AstrayOf kind entries
  | inside {kind entries key} (hs : key ∈ searched) (hr : key ∈ opened entries kind) (h : Astray (setting entries key)) :
    AstrayOf kind entries
  | case {entries k cases name payload} (hv : setting entries "variants" = .mapping k cases) (hm : (name, payload) ∈ cases)
    (h : Astray payload) : AstrayOf .enum entries

end

/-- In the shape of a field that a configuration declares the scan goes astray. -/
inductive Misled (config : List (Value × Value)) : Prop where
  | mk {items k entries shape} (hf : Value.lookup? (.text "fields") config = some (.list items))
    (hm : Value.mapping k entries ∈ items) (hs : Value.lookup? (.text "shape") entries = some shape) (h : Astray shape)

/-! ### What the scan finds is known -/

/-- A name that one of some schemas is known by. -/
def Present (known : KnownSchemas) (r : Value) : Prop :=
  r.requireKey = .ok () ∧ (Value.lookup? r known).isSome = true

/-- A scan ends, and finds names of some schemas only. -/
def Finds (known : KnownSchemas) (scan : Except Fault (List Value)) : Prop :=
  ∃ refs, scan = .ok refs ∧ ∀ r ∈ refs, Present known r

section Finds
variable {known : KnownSchemas} {scan : Except Fault (List Value)} {entries : List (Value × Value)}

theorem Finds.nil : Finds known (.ok []) := ⟨[], rfl, nofun⟩

theorem Finds.of_eq_nil (h : scan = .ok []) : Finds known scan := h ▸ .nil

theorem Finds.one {r : Value} (hr : Present known r) : Finds known (.ok [r]) :=
  ⟨[r], rfl, fun _ h => List.mem_singleton.mp h ▸ hr⟩

theorem shapeReferences_of_text {config : Value} {name : String} (ht : config.asText? = some name) (inVariant : Bool) :
    shapeReferences inVariant config = .ok (if inVariant && !isReserved name then [config] else []) := by
  rw [shapeReferences.eq_def]
  split
  · cases ht
  · rw [ht]

theorem shapeReferences_settings (inVariant : Bool) (k : MappingKind) (entries : List (Value × Value)) :
    shapeReferences inVariant (.mapping k entries) =
      shapeReferences false (setting entries "items") >>= fun items =>
        shapeReferences false (setting entries "inner") >>= fun inner =>
          shapeReferences false (setting entries "values") >>= fun values =>
            shapeReferences false (setting entries "keys") >>= fun keys =>
              choiceReferences entries >>= fun cases =>
                .ok (nestedReference entries ++ items ++ inner ++ values ++ keys ++ cases) := by
  rw [shapeReferences, choiceReferences]
  refine bind_congr fun items => bind_congr fun inner => bind_congr fun values => bind_congr fun keys => ?_
  dsimp only
  split
  · next hv =>
    rw [hv]
    rfl
  · split
    · next h => simp_all [bind, Except.bind]
    · next h => simp_all [bind, Except.bind, pure, Except.pure]

theorem finds_absent (inVariant : Bool) : Finds known (shapeReferences inVariant .absent) := by
  rw [shapeReferences.eq_def]
  exact .nil

/-- The scan of a shape finds known schemas only if the scans of its settings do. -/
theorem Finds.mapping {inVariant : Bool} {k : MappingKind} (target : ∀ r ∈ nestedReference entries, Present known r)
    (settings : ∀ key ∈ searched, Finds known (shapeReferences false (setting entries key)))
    (choice : Finds known (choiceReferences entries)) : Finds known (shapeReferences inVariant (.mapping k entries)) := by
  obtain ⟨items, hitems, items_known⟩ := settings "items" (by simp [searched])
  obtain ⟨inner, hinner, inner_known⟩ := settings "inner" (by simp [searched])
  obtain ⟨values, hvalues, values_known⟩ := settings "values" (by simp [searched])
  obtain ⟨keys, hkeys, keys_known⟩ := settings "keys" (by simp [searched])
  obtain ⟨cases, hcases, cases_known⟩ := choice
  refine ⟨nestedReference entries ++ items ++ inner ++ values ++ keys ++ cases, ?_, fun r hr => ?_⟩
  · rw [shapeReferences_settings, hitems, hinner, hvalues, hkeys, hcases]
    rfl
  · simp only [List.mem_append] at hr
    rcases hr with ((((hr | hr) | hr) | hr) | hr) | hr
    · exact target r hr
    · exact items_known r hr
    · exact inner_known r hr
    · exact values_known r hr
    · exact keys_known r hr
    · exact cases_known r hr

theorem caseReferences_finds : ∀ {cases : List (Value × Value)},
    (∀ c ∈ cases, Finds known (shapeReferences true c.2)) → Finds known (caseReferences cases)
  | [], _ => by
    rw [caseReferences]
    exact .nil
  | (name, payload) :: rest, each => by
    obtain ⟨here, hhere, here_known⟩ := each _ List.mem_cons_self
    obtain ⟨later, hlater, later_known⟩ := caseReferences_finds fun c hc => each c (List.mem_cons_of_mem _ hc)
    refine ⟨here ++ later, ?_, fun r hr => (List.mem_append.mp hr).elim (here_known r) (later_known r)⟩
    rw [caseReferences, hhere, hlater]
    rfl

end Finds

section Shapes
variable {known : KnownSchemas} {entries : List (Value × Value)}

theorem eq_absent {v : Value} (h : v.isAbsent = true) : v = .absent := by
  cases v <;> first | rfl | cases h

theorem present_of_knownSchema {context : Context} {name : Value} {s : Schema}
    (h : knownSchema known context name = .ok s) :
    Present known name := by
  unfold knownSchema at h
  obtain ⟨u, key, h⟩ := Except.bind_eq_ok.mp h
  refine ⟨key, ?_⟩
  split at h
  · next found => rw [found, Option.isSome_some]
  · cases h

theorem present_of_variantSchema? {payload : Value} {s : Schema} (h : variantSchema? known payload = some s) :
    Present known payload ∧ ∃ name, payload.asText? = some name := by
  unfold variantSchema? at h
  split at h
  · next name ht =>
    refine ⟨⟨?_, by rw [h, Option.isSome_some]⟩, name, ht⟩
    rcases Value.asText?_cases ht with rfl | ⟨e, n, rfl, -⟩ <;> rfl
  · cases h

/-- The schema that a nested shape asks for, if the scan takes it for a reference, is its setting. -/
theorem mem_nestedReference {r : Value} (hr : r ∈ nestedReference entries) :
    kindNames.lookup (kindName entries) = some .nested ∧ r = setting entries "schema" := by
  unfold nestedReference at hr
  dsimp only at hr
  split at hr
  · next given =>
    obtain ⟨nested, -⟩ := Bool.and_eq_true_iff.mp given
    refine ⟨?_, List.mem_singleton.mp hr⟩
    have kind : kindName entries = "nested" := by
      unfold kindName
      cases hk : Value.lookup? (.text "kind") entries with
      | none => simp [hk, lowerText, lowerChars] at nested
      | some v => simpa [hk] using nested
    rw [kind]
    rfl
  · cases hr

/-- What a wrapper contains is what it is opened for, unless that is missing. -/
theorem contents_of_opened {kind : FieldKind} (hk : kind = .optional ∨ kind = .sequence) {key : String}
    (hr : key ∈ opened entries kind) : contents entries = setting entries key ∨ setting entries key = .absent := by
  have hr : key ∈ if (Value.lookup? (.text "items") entries).isSome then ["items"] else ["inner"] := by
    rcases hk with rfl | rfl <;> exact hr
  unfold contents setting
  cases hi : Value.lookup? (.text "items") entries with
  | some v =>
    rw [hi] at hr
    obtain rfl : key = "items" := by simpa using hr
    simp [hi]
  | none =>
    rw [hi] at hr
    obtain rfl : key = "inner" := by simpa using hr
    cases hj : Value.lookup? (.text "inner") entries <;> simp

/-- What building a shape of a kind has made when it comes to an end. -/
theorem shapeOfKind_opens {context : Context} {kind : FieldKind} {s : Shape}
    (h : shapeOfKind known context kind entries = .ok s) :
    (kind = .optional ∨ kind = .sequence → ∃ s, shape known context (contents entries) = .ok s) ∧
      (kind = .mapping → (∃ s, shape known context (setting entries "values") = .ok s) ∧
        (setting entries "keys" = .absent ∨ ∃ s, shape known context (setting entries "keys") = .ok s)) ∧
      (kind = .nested → ∃ s, knownSchema known context (setting entries "schema") = .ok s) ∧
      (kind = .enum → ∃ k entry cases all, setting entries "variants" = .mapping k (entry :: cases) ∧
        shapeCases known context (entry :: cases) [] = .ok all) := by
  rw [shapeOfKind.eq_def] at h
  obtain ⟨rules, -, h⟩ := Except.bind_eq_ok.mp h
  cases kind with
  | scalar => simp
  | optional | sequence =>
    obtain ⟨inner, hinner, -⟩ := Except.bind_eq_ok.mp h
    simp [hinner]
  | mapping =>
    obtain ⟨inner, hinner, h⟩ := Except.bind_eq_ok.mp h
    dsimp only at h
    split at h
    · next nothing =>
      simp [hinner, eq_absent nothing]
    · obtain ⟨_, hkeys, -⟩ := Except.bind_eq_ok.mp h
      obtain ⟨k, hk, rfl⟩ := Except.map_eq_ok.mp hkeys
      simp [hinner, hk]
  | nested =>
    obtain ⟨target, htarget, -⟩ := Except.bind_eq_ok.mp h
    simp [htarget]
  | enum =>
    dsimp only at h
    split at h
    · next k entry cases hv =>
      obtain ⟨all, hall, -⟩ := Except.bind_eq_ok.mp h
      exact ⟨by simp, by simp, by simp, fun _ => ⟨k, entry, cases, all, hv, hall⟩⟩
    · cases h

/-- The scans of a shape's settings find what is known, where they do not go astray, if those that building makes
shapes of do. -/
theorem finds_settings {kind : FieldKind} (straight : ¬AstrayOf kind entries)
    (inside : ∀ key ∈ opened entries kind, ¬Astray (setting entries key) →
      Finds known (shapeReferences false (setting entries key))) :
    ∀ key ∈ searched, Finds known (shapeReferences false (setting entries key)) := by
  intro key hs
  by_cases hr : key ∈ opened entries kind
  · exact inside key hr fun h => straight (.inside hs hr h)
  · refine .of_eq_nil (by_contra fun found => straight (.setting hs hr found))

/-- A straight scan of the configuration of a kind finds known schemas when it does in the shapes inside. -/
theorem shapeOfKind_scanned {context : Context} {kind : FieldKind} {entries : List (Value × Value)} {s : Shape}
    (made : shapeOfKind known context kind entries = .ok s) (straight : ¬AstrayOf kind entries)
    (inside : ∀ s, shape known context (contents entries) = .ok s → ¬Astray (contents entries) →
      ∀ inVariant, Finds known (shapeReferences inVariant (contents entries)))
    (values : ∀ s, shape known context (setting entries "values") = .ok s → ¬Astray (setting entries "values") →
      ∀ inVariant, Finds known (shapeReferences inVariant (setting entries "values")))
    (keys : ∀ s, shape known context (setting entries "keys") = .ok s → ¬Astray (setting entries "keys") →
      ∀ inVariant, Finds known (shapeReferences inVariant (setting entries "keys")))
    (variants : ∀ k entry cases, setting entries "variants" = .mapping k (entry :: cases) →
      ∀ all, shapeCases known context (entry :: cases) [] = .ok all → (∀ c ∈ entry :: cases, ¬Astray c.2) →
        ∀ c ∈ entry :: cases, Finds known (shapeReferences true c.2)) :
    (kind = .nested → Present known (setting entries "schema")) ∧
      (∀ key ∈ searched, Finds known (shapeReferences false (setting entries key))) ∧
        Finds known (choiceReferences entries) := by
  obtain ⟨wrapped, mapped, nested, chosen⟩ := shapeOfKind_opens made
  refine ⟨fun hk => ?_, finds_settings straight fun key hr clear => ?_, ?_⟩
  · obtain ⟨target, found⟩ := nested hk
    exact present_of_knownSchema found
  · cases kind with
    | optional | sequence =>
      obtain ⟨inner, built⟩ := wrapped (by simp)
      rcases contents_of_opened (by simp) hr with same | missing
      · rw [← same] at clear ⊢
        exact inside inner built clear false
      · rw [missing]
        exact finds_absent false
    | mapping =>
      obtain ⟨⟨inner, built⟩, built'⟩ := mapped rfl
      rcases List.mem_pair.mp hr with rfl | rfl
      · exact values inner built clear false
      · rcases built' with missing | ⟨k, built'⟩
        · rw [missing]
          exact finds_absent false
        · exact keys k built' clear false
    | _ => cases hr
  · by_cases hk : kind = .enum
    · subst hk
      obtain ⟨k, entry, cases, all, hv, built⟩ := chosen rfl
      rw [choiceReferences, hv]
      exact caseReferences_finds (variants k entry cases hv all built fun c hc h => straight (.case hv hc h))
    · exact .of_eq_nil (by_contra fun found => straight (.choice hk found))

/-- Where the scan does not go astray, it ends, and all that it finds in the configuration of a shape that was built
are names of schemas that are known. -/
theorem shape_scanned (context : Context) (config : Value) : ∀ s, shape known context config = .ok s → ¬Astray config →
    ∀ inVariant, Finds known (shapeReferences inVariant config) := by
  refine shape.induct known
    (fun context config => ∀ s, shape known context config = .ok s → ¬Astray config →
      ∀ inVariant, Finds known (shapeReferences inVariant config))
    (fun context kind entries => ∀ s, shapeOfKind known context kind entries = .ok s → ¬AstrayOf kind entries →
      (kind = .nested → Present known (setting entries "schema")) ∧
        (∀ key ∈ searched, Finds known (shapeReferences false (setting entries key))) ∧
          Finds known (choiceReferences entries))
    (fun context cases done => ∀ all, shapeCases known context cases done = .ok all → (∀ c ∈ cases, ¬Astray c.2) →
      ∀ c ∈ cases, Finds known (shapeReferences true c.2))
    ?absent ?kind ?noKind ?noText ?named ?scalar ?ofKind ?done ?nothing ?schema ?payload context config
  case absent => exact fun _ _ _ _ => finds_absent
  case kind =>
    intro context k entries kind hk ih s made straight inVariant
    rw [shape, hk] at made
    obtain ⟨target, settings, choice⟩ := ih s made fun h => straight (.mapping hk h)
    refine .mapping (fun r hr => ?_) settings choice
    obtain ⟨nested, rfl⟩ := mem_nestedReference hr
    exact target (Option.some.inj (hk.symm.trans nested))
  case noKind =>
    intro context kind entries hk s made
    rw [shape, hk] at made
    cases made
  case noText =>
    intro context config ha hm ht s made
    rw [shape_of_noText ha hm ht] at made
    cases made
  case named =>
    intro context config ha hm name ht kind hk ih s made straight inVariant
    have reserved : isReserved name = true := by simp [isReserved, hk]
    rw [shapeReferences_of_text ht, reserved]
    simpa using Finds.nil
  case scalar =>
    intro context config ha hm name ht hk s made straight inVariant
    rw [shape_of_text ha hm ht, hk] at made
    obtain ⟨type, typed, -⟩ := Except.map_eq_ok.mp made
    rw [shapeReferences_of_text ht, isReserved_of_scalarType ht typed]
    simpa using Finds.nil
  case ofKind =>
    intro context kind entries inside values keys variants s made straight
    exact shapeOfKind_scanned made straight inside values keys variants
  case done =>
    intro context done all _ _ c hc
    cases hc
  case nothing =>
    intro context done name payload rest hp ih all made straight
    rw [shapeCases] at made
    simp only [hp, if_true] at made
    have here : Finds known (shapeReferences true payload) := by
      rw [eq_absent hp]
      exact finds_absent true
    exact List.forall_mem_cons.mpr ⟨here, ih _ all made fun c hc => straight c (List.mem_cons_of_mem _ hc)⟩
  case schema =>
    intro context done name payload rest hp s hs ih all made straight
    rw [shapeCases] at made
    simp only [hp, hs] at made
    obtain ⟨present, text, ht⟩ := present_of_variantSchema? hs
    have here : Finds known (shapeReferences true payload) := by
      rw [shapeReferences_of_text ht]
      split
      · exact .one present
      · exact .nil
    exact List.forall_mem_cons.mpr ⟨here, ih _ all made fun c hc => straight c (List.mem_cons_of_mem _ hc)⟩
  case payload =>
    intro context done name payload rest hp hs ih shape all made straight
    rw [shapeCases] at made
    simp only [hp, hs] at made
    obtain ⟨p, built, made⟩ := Except.bind_eq_ok.mp made
    obtain ⟨s, made', rfl⟩ := Except.map_eq_ok.mp built
    have here := shape s made' (straight _ List.mem_cons_self) true
    exact List.forall_mem_cons.mpr ⟨here, ih _ all made fun c hc => straight c (List.mem_cons_of_mem _ hc)⟩

end Shapes

theorem fieldReferences_finds {known : KnownSchemas} : ∀ {items : List Value},
    (∀ k entries, .mapping k entries ∈ items → Finds known (shapeReferences false (setting entries "shape"))) →
      Finds known (fieldReferences items)
  | [], _ => by
    rw [fieldReferences]
    exact .nil
  | item :: rest, each => by
    have later := fieldReferences_finds fun k entries hm => each k entries (List.mem_cons_of_mem _ hm)
    cases item with
    | mapping k entries =>
      obtain ⟨here, hhere, here_known⟩ := each k entries List.mem_cons_self
      obtain ⟨later, hlater, later_known⟩ := later
      refine ⟨here ++ later, ?_, fun r hr => (List.mem_append.mp hr).elim (here_known r) (later_known r)⟩
      rw [fieldReferences, hhere, hlater]
      rfl
    | _ =>
      rw [fieldReferences]
      · exact later
      · intro k entries same
        cases same

end Configuration

namespace Factory

open Conform.Configuration

section Declare
variable {h : Host} {t : FunctionTable} {known : KnownSchemas}

/-- The shape that a declared field was given was built. -/
theorem built_of_addField {b b' : SchemaBuilder} {k : MappingKind} {entries : List (Value × Value)} {shape : Value}
    (hs : Value.lookup? (.text "shape") entries = some shape) (added : addField h t known b (.mapping k entries) = .ok b') :
    ∃ context s, Configuration.shape known context shape = .ok s := by
  cases hn : Value.lookup? (.text "name") entries with
  | none => simp [addField, hn, throw, throwThe, MonadExceptOf.throw] at added
  | some name =>
    rw [addField_eq b hn] at added
    obtain ⟨s, shaped, -⟩ := Except.bind_eq_ok.mp added
    rw [fieldShape, hs] at shaped
    obtain ⟨s, built, -⟩ := Except.bind_eq_ok.mp shaped
    exact ⟨_, s, built⟩

/-- Where the scan is not misled, it ends, and all that it finds in a configuration that can be declared are names of
schemas that are known. -/
theorem declare_scanned {name : Value} {config : List (Value × Value)} {b : SchemaBuilder}
    (declared : declare h t known name config = .ok b) (straight : ¬Misled config) : Finds known (references config) := by
  rw [declare_eq] at declared
  split at declared
  · next hf =>
    have absent : setting config "fields" = .absent := by rw [setting, hf]; rfl
    rw [references, absent]
    exact .nil
  · next items hf =>
    have fields : setting config "fields" = .list items := by rw [setting, hf]; rfl
    obtain ⟨b', added, -⟩ := Except.bind_eq_ok.mp declared
    rw [references, fields]
    split
    · exact .nil
    · refine fieldReferences_finds fun k entries hm => ?_
      cases hs : Value.lookup? (.text "shape") entries with
      | none =>
        rw [setting, hs]
        exact finds_absent false
      | some shape =>
        have built : ∃ context s, Configuration.shape known context shape = .ok s :=
          foldlM_reaches (I := fun _ => True) (P := fun _ => ∃ context s, Configuration.shape known context shape = .ok s)
            (fun _ _ _ _ => ⟨id, id⟩) (fun b b' _ => built_of_addField hs) hm trivial added
        obtain ⟨context, s, built⟩ := built
        rw [setting, hs]
        exact shape_scanned context shape s built (fun h => straight ⟨hf, hm, hs, h⟩) false
  · cases declared

end Declare
end Factory
end Conform
