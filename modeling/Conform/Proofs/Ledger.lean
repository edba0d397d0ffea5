import Conform.Proofs.Requests
import Conform.Session.Tables
import Mathlib.Logic.Function.Basic

/-!
Tables as insertion-ordered maps. A ledger holds functions under keys, in the order in which the keys came, with a flag
that closes it to changes. Ledgers answer the calls that tables and builders answer, and a session in which numbers are
used once and tables name each function once (`Session.Tabled`) answers every call as its ledgers do
(`TableCall.perform_agrees`, `TableCall.run_agrees`).
-/

namespace Conform

/-- An insertion-ordered map of functions, with a flag that closes it to changes. -/
structure Ledger where
  name : String
  entries : List (String × ConstraintFunction)
  frozen : Bool

namespace Ledger

def keys (l : Ledger) : List String := l.entries.map Prod.fst

def at? (l : Ledger) (key : String) : Option ConstraintFunction := l.entries.lookup key

/-- Puts a function under a key: in the place that the key has, or behind all others. -/
def set (l : Ledger) (key : String) (f : ConstraintFunction) : Ledger :=
  if key ∈ l.keys then { l with entries := l.entries.map fun e => if e.1 = key then (key, f) else e }
  else { l with entries := l.entries ++ [(key, f)] }

def remove (l : Ledger) (key : String) : Ledger := { l with entries := l.entries.filter fun e => e.1 != key }

def register (l : Ledger) (f : ConstraintFunction) (overwrite : Bool) : Except Fault Ledger :=
  if l.frozen then .error (.refused (.frozenTable l.name (some (.text f.name))))
  else if overwrite = false ∧ f.name ∈ l.keys then .error (.refused (.alreadyRegistered l.name f.name))
  else .ok (l.set f.name f)

/-- An open ledger with functions under their names, each name once. -/
def make (name : String) (fs : List ConstraintFunction) : Except Fault Ledger :=
  fs.foldlM (fun l f => l.register f false) ⟨name, [], false⟩

def unregister (l : Ledger) (key : Value) : Except Fault (ConstraintFunction × Ledger) := do
  if l.frozen then throw (.refused (.frozenTable l.name (some key)))
  match (← FunctionTable.keyName key).bind l.at? with
  | some f => return (f, l.remove f.name)
  | none => throw (.refused (.missingEntry l.name key))

def clear (l : Ledger) : Except Fault Ledger :=
  if l.frozen then .error (.refused (.frozenTable l.name none)) else .ok { l with entries := [] }

def get (l : Ledger) (key : Value) : Except Fault ConstraintFunction := do
  match (← FunctionTable.keyName key).bind l.at? with
  | some f => return f
  | none => throw (.refused (.unknownConstraint key l.keys [("table", .text l.name)]))

def freeze (l : Ledger) : Ledger := { l with frozen := true }

/-- An open ledger with the same entries. -/
def copy (l : Ledger) (name : String) : Ledger := ⟨if name.isEmpty then l.name else name, l.entries, false⟩

end Ledger

/-- Ledgers by number, builders with the numbers of their ledgers, and the next number. -/
@[ext]
structure Ledgers where
  tables : Nat → Option Ledger
  builders : Nat → Option (SchemaBuilder × Nat)
  next : Nat

namespace Ledgers

/-- The shared ledger alone, which is closed. -/
def start : Ledgers where
  tables := Function.update (fun _ => none) Session.sharedTable
    (some ⟨"builtins", FunctionTable.builtins.map fun f => (f.name, f), true⟩)
  builders := fun _ => none
  next := Session.sharedTable + 1

def change (w : Ledgers) (n : Nat) (l : Ledger) : Ledgers := { w with tables := Function.update w.tables n (some l) }

def add (w : Ledgers) (l : Ledger) : Ledgers := { w.change w.next l with next := w.next + 1 }

/-- The answer of the ledger of a number to a request, with what the request leaves. -/
def ask (w : Ledgers) (n : Nat) (l : Ledger) : TableRequest → Except Fault (TableAnswer × Ledgers)
  | .register f overwrite => (l.register f overwrite).map fun l => (.nothing, w.change n l)
  | .define f overwrite => (l.register f.described overwrite).map fun l => (.function f.described, w.change n l)
  | .decorate given func options overwrite => do
    let f ← ConstraintFunction.decorated given func options
    (l.register f overwrite).map fun l => (.value func, w.change n l)
  | .unregister key => (l.unregister key).map fun r => (.function r.1, w.change n r.2)
  | .clear => l.clear.map fun l => (.nothing, w.change n l)
  | .freeze => .ok (.object n, w.change n l.freeze)
  | .get key => (l.get key).map fun f => (.function f, w)
  | .copy name => .ok (.object w.next, w.add (l.copy name))

/-- The answer to a call, with what the call leaves. -/
def turn (w : Ledgers) : TableCall → Except Fault (TableAnswer × Ledgers)
  | .create name fs => (Ledger.make name fs).map fun l => (.object w.next, w.add l)
  | .builder b table =>
    .ok (.object w.next, { w with builders := Function.update w.builders w.next (some (b, table)), next := w.next + 1 })
  | .build n => match w.builders n with
    | none => .error (.undefinedName (toString n))
    | some b => match w.tables b.2 with
      | none => .error (.undefinedName (toString b.2))
      | some l => .ok (.value (b.1.build w.next).toObject, { w.change b.2 l.freeze with next := w.next + 1 })
  | .ask n r => match w.tables n with
    | none => .error (.undefinedName (toString n))
    | some l => w.ask n l r

/-- What a call leaves; a call that fails leaves everything. -/
def after (w : Ledgers) (c : TableCall) : Ledgers :=
  match w.turn c with
  | .error _ => w
  | .ok r => r.2

def run : List TableCall → Ledgers → List (Except Fault TableAnswer) × Ledgers
  | [], w => ([], w)
  | c :: rest, w =>
    let later := run rest (w.after c)
    ((w.turn c).map Prod.fst :: later.1, later.2)

end Ledgers

/-! ### Tables and their ledgers -/

namespace FunctionTable

/-- A table as a map from the names of its functions. -/
def ledger (t : FunctionTable) : Ledger := ⟨t.name, t.functions.map fun f => (f.name, f), t.frozen⟩

variable {t t' : FunctionTable}

theorem ledger_keys (t : FunctionTable) : t.ledger.keys = t.names := by
  simp [ledger, Ledger.keys, names]

theorem ledger_at? (t : FunctionTable) (key : String) : t.ledger.at? key = t.find? key := by
  rcases t with ⟨name, fs, frozen⟩
  simp only [ledger, Ledger.at?, find?]
  induction fs with
  | nil => rfl
  | cons f fs ih =>
    simp only [List.map_cons, List.lookup_cons, List.find?_cons]
    by_cases h : f.name = key
    · simp [h]
    · have h₁ : (key == f.name) = false := beq_false_of_ne (Ne.symm h)
      have h₂ : (f.name == key) = false := beq_false_of_ne h
      simp only [h₁, h₂, ih]

theorem has_iff (t : FunctionTable) (key : String) : t.has key = true ↔ key ∈ t.names := by
  simp [has, find?, names, List.find?_isSome]

/-- The names of a list in which a function was put. -/
theorem names_put (f : ConstraintFunction) (fs : List ConstraintFunction) :
    (put f fs).map ConstraintFunction.name =
      if f.name ∈ fs.map ConstraintFunction.name then fs.map ConstraintFunction.name
      else fs.map ConstraintFunction.name ++ [f.name] := by
  split
  · next h => exact names_put_of_mem h
  · next h =>
    induction fs with
    | nil => rfl
    | cons g fs ih =>
      simp only [List.map_cons, List.mem_cons, not_or] at h
      simp [put, Ne.symm h.1, ih h.2]

theorem names_put_nodup {f : ConstraintFunction} {fs : List ConstraintFunction}
    (distinct : (fs.map ConstraintFunction.name).Nodup) : ((put f fs).map ConstraintFunction.name).Nodup := by
  rw [names_put]
  split
  · exact distinct
  · next fresh =>
    exact List.nodup_append.mpr ⟨distinct, by simp, by simpa using fresh⟩

theorem map_put (f : ConstraintFunction) : ∀ {fs : List ConstraintFunction}, (fs.map ConstraintFunction.name).Nodup →
    (put f fs).map (fun g => (g.name, g)) =
      if f.name ∈ fs.map ConstraintFunction.name then
        (fs.map fun g => (g.name, g)).map fun e => if e.1 = f.name then (f.name, f) else e
      else (fs.map fun g => (g.name, g)) ++ [(f.name, f)]
  | [], _ => rfl
  | g :: fs, distinct => by
    obtain ⟨fresh, distinct⟩ := List.nodup_cons.mp distinct
    have ih := map_put f distinct
    by_cases h : g.name = f.name
    · -- No other function has the name, so the rest stays.
      have rest : (fs.map fun g => (g.name, g)).map (fun e => if e.1 = f.name then (f.name, f) else e) =
          fs.map fun g => (g.name, g) := by
        rw [List.map_map]
        refine List.map_congr_left fun k hk => ?_
        have other : k.name ≠ f.name := fun same => fresh (h ▸ same ▸ List.mem_map_of_mem hk)
        simp [other]
      simp [put, h, rest]
    · simp only [put, h, if_false, List.map_cons, ih, List.mem_cons, Ne.symm h, false_or]
      split <;> simp

/-- Putting a function among others sets it under its name. -/
theorem ledger_put (distinct : t.names.Nodup) (f : ConstraintFunction) :
    ledger { t with functions := put f t.functions } = t.ledger.set f.name f := by
  have entries := map_put f distinct
  unfold Ledger.set
  rw [ledger_keys, names]
  split
  · next h =>
    rw [if_pos h] at entries
    simp only [ledger, entries]
  · next h =>
    rw [if_neg h] at entries
    simp only [ledger, entries]

theorem register_open (opened : t.frozen = false) (f : ConstraintFunction) (overwrite : Bool) :
    t.register f overwrite =
      if overwrite = false ∧ f.name ∈ t.names then .error (.refused (.alreadyRegistered t.name f.name))
      else .ok { t with functions := put f t.functions } := by
  have taken : (!overwrite && t.has f.name) = true ↔ overwrite = false ∧ f.name ∈ t.names := by
    rw [Bool.and_eq_true, has_iff, Bool.not_eq_true']
  simp only [register, opened, taken, Bool.false_eq_true, if_false]

theorem register_ledger (distinct : t.names.Nodup) (f : ConstraintFunction) (overwrite : Bool) :
    t.ledger.register f overwrite = (t.register f overwrite).map ledger := by
  have same : t.ledger.frozen = t.frozen := rfl
  unfold Ledger.register
  rw [ledger_keys, same]
  cases frozen : t.frozen with
  | true =>
    rw [register_frozen frozen]
    rfl
  | false =>
    rw [register_open frozen]
    simp only [Bool.false_eq_true, if_false]
    split
    · rfl
    · rw [← ledger_put distinct]
      rfl

theorem register_distinct {f : ConstraintFunction} {overwrite : Bool} (distinct : t.names.Nodup)
    (made : t.register f overwrite = .ok t') : t'.names.Nodup := by
  unfold register at made
  split at made
  · cases made
  · split at made
    · cases made
    · cases made
      exact names_put_nodup distinct

theorem registerAll_ledger (fs : List ConstraintFunction) : ∀ {t : FunctionTable}, t.names.Nodup →
    fs.foldlM (fun l f => l.register f false) t.ledger = (t.registerAll fs).map ledger := by
  induction fs with
  | nil =>
    intro t _
    rfl
  | cons f fs ih =>
    intro t distinct
    unfold registerAll
    rw [List.foldlM_cons, List.foldlM_cons, register_ledger distinct]
    rcases made : t.register f false with e | t'
    · rfl
    · exact ih (register_distinct distinct made)

theorem registerAll_distinct {fs : List ConstraintFunction} : ∀ {t t' : FunctionTable}, t.names.Nodup →
    t.registerAll fs = .ok t' → t'.names.Nodup := by
  induction fs with
  | nil =>
    intro t t' distinct made
    cases made
    exact distinct
  | cons f fs ih =>
    intro t t' distinct made
    unfold registerAll at made
    rw [List.foldlM_cons] at made
    obtain ⟨t₁, registered, made⟩ := Except.bind_eq_ok.mp made
    exact ih (register_distinct distinct registered) made

theorem put_fresh {f : ConstraintFunction} : ∀ {fs : List ConstraintFunction},
    f.name ∉ fs.map ConstraintFunction.name → put f fs = fs ++ [f]
  | [], _ => rfl
  | g :: fs, fresh => by
    simp only [List.map_cons, List.mem_cons, not_or] at fresh
    simp [put, Ne.symm fresh.1, put_fresh fresh.2]

/-- Functions of which none has the name of another, or of a function of the table, come behind those. -/
theorem registerAll_append (fs : List ConstraintFunction) : ∀ {t : FunctionTable}, t.frozen = false →
    (t.names ++ fs.map ConstraintFunction.name).Nodup →
      t.registerAll fs = .ok { t with functions := t.functions ++ fs } := by
  induction fs with
  | nil =>
    intro t _ _
    rw [List.append_nil]
    rfl
  | cons f fs ih =>
    intro t opened distinct
    have fresh : f.name ∉ t.names := fun h => (List.nodup_append.mp distinct).2.2 _ h _ List.mem_cons_self rfl
    have registered : t.register f false = .ok { t with functions := t.functions ++ [f] } := by
      rw [register_open opened, if_neg (fun h => fresh h.2), put_fresh fresh]
    have later := ih (t := { t with functions := t.functions ++ [f] }) opened (by simpa [names] using distinct)
    rw [registerAll, List.foldlM_cons, registered]
    exact later.trans (by simp)

theorem copy_eq (distinct : t.names.Nodup) (name : String) :
    t.copy name = .ok ⟨if name.isEmpty then t.name else name, t.functions, false⟩ := by
  unfold copy
  rw [registerAll_append t.functions rfl (by simpa [empty, names] using distinct)]
  simp [empty]

theorem ledger_remove (t : FunctionTable) (name : String) :
    ledger { t with functions := t.functions.filter fun g => g.name != name } = t.ledger.remove name := by
  simp [ledger, Ledger.remove, List.filter_map, Function.comp_def]

theorem unregister_ledger (t : FunctionTable) (key : Value) :
    t.ledger.unregister key = (t.unregister key).map fun r => (r.1, r.2.ledger) := by
  have found : t.ledger.at? = t.find? := funext t.ledger_at?
  have same : t.ledger.frozen = t.frozen := rfl
  unfold Ledger.unregister unregister
  rw [found, same]
  split
  · rfl
  · rcases keyName key with e | k
    · rfl
    · simp only [bind, Except.bind, pure, Except.pure]
      rcases k.bind t.find? with _ | f
      · rfl
      · exact congrArg (fun l => Except.ok (f, l)) (ledger_remove t f.name).symm

theorem unregister_distinct {key : Value} {r : ConstraintFunction × FunctionTable} (distinct : t.names.Nodup)
    (removed : t.unregister key = .ok r) : r.2.names.Nodup := by
  unfold unregister at removed
  split at removed
  · cases removed
  · obtain ⟨k, -, removed⟩ := Except.bind_eq_ok.mp removed
    split at removed
    · cases removed
      exact distinct.sublist (List.filter_sublist.map _)
    · cases removed

theorem clear_distinct (cleared : t.clear = .ok t') : t'.names.Nodup := by
  unfold clear at cleared
  split at cleared
  · cases cleared
  · cases cleared
    exact List.nodup_nil

theorem clear_ledger (t : FunctionTable) : t.ledger.clear = t.clear.map ledger := by
  unfold Ledger.clear clear
  change (if t.frozen = true then _ else _) = _
  split <;> rfl

theorem get_ledger (t : FunctionTable) (key : Value) : t.ledger.get key = t.get key := by
  have found : t.ledger.at? = t.find? := funext t.ledger_at?
  unfold Ledger.get get getOptional
  rw [found, ledger_keys]
  rcases keyName key with e | k <;> rfl

end FunctionTable

/-! ### Sessions and their ledgers -/

namespace Session

def ledgers (s : Session) : Ledgers where
  tables n := match s.objects.lookup n with
    | some (.table t) => some t.ledger
    | _ => none
  builders n := match s.objects.lookup n with
    | some (.builder b table) => some (b, table)
    | _ => none
  next := s.nextSerial

/-- Numbers are used once, and no table names a function twice. -/
structure Tabled (s : Session) : Prop where
  fresh : ∀ n, s.nextSerial ≤ n → s.objects.lookup n = none
  distinct : ∀ n t, s.objects.lookup n = some (.table t) → t.names.Nodup

/-- The session after an object was made. -/
def withNew (s : Session) (o : LiveObject) : Session :=
  { s with nextSerial := s.nextSerial + 1, objects := (s.nextSerial, o) :: s.objects }

variable {s s' : Session} {n k : Nat} {t t' : FunctionTable} {o : LiveObject}

theorem ledgers_tables (found : s.objects.lookup n = some (.table t)) : s.ledgers.tables n = some t.ledger := by
  simp only [ledgers, found]

theorem ledgers_tables_eq_some {l : Ledger} (h : s.ledgers.tables n = some l) :
    ∃ t, s.objects.lookup n = some (.table t) ∧ t.ledger = l := by
  unfold ledgers at h
  dsimp only at h
  split at h
  · next t found =>
    cases h
    exact ⟨t, found, rfl⟩
  · cases h

theorem ledgers_builders_eq_some {b : SchemaBuilder} (h : s.ledgers.builders n = some (b, k)) :
    s.objects.lookup n = some (.builder b k) := by
  unfold ledgers at h
  dsimp only at h
  split at h
  · next found =>
    cases h
    exact found
  · cases h

theorem lookup_withNew_self : (s.withNew o).objects.lookup s.nextSerial = some o := by
  simp [withNew]

theorem lookup_withNew_other (h : k ≠ s.nextSerial) : (s.withNew o).objects.lookup k = s.objects.lookup k := by
  simp [withNew, List.lookup_cons, beq_false_of_ne h]

theorem ledgers_withTable (found : s.objects.lookup n = some (.table t)) (t' : FunctionTable) :
    (s.withObject n (.table t')).ledgers = s.ledgers.change n t'.ledger := by
  refine Ledgers.ext (funext fun k => ?_) (funext fun k => ?_) rfl
  · by_cases h : k = n
    · subst h
      simp [ledgers, withObject, Ledgers.change, lookup_assign_self]
    · simp [ledgers, withObject, Ledgers.change, lookup_assign_other h, Function.update_of_ne h]
  · by_cases h : k = n
    · subst h
      simp [ledgers, withObject, Ledgers.change, lookup_assign_self, found]
    · simp [ledgers, withObject, Ledgers.change, lookup_assign_other h]

namespace Tabled

theorem ledgers_newTable (tabled : s.Tabled) (t : FunctionTable) :
    (s.withNew (.table t)).ledgers = s.ledgers.add t.ledger := by
  have fresh := tabled.fresh s.nextSerial (Nat.le_refl _)
  refine Ledgers.ext (funext fun k => ?_) (funext fun k => ?_) rfl
  · by_cases h : k = s.nextSerial
    · subst h
      simp [ledgers, lookup_withNew_self, Ledgers.add, Ledgers.change]
    · simp [ledgers, lookup_withNew_other h, Ledgers.add, Ledgers.change, Function.update_of_ne h]
  · by_cases h : k = s.nextSerial
    · subst h
      simp [ledgers, lookup_withNew_self, Ledgers.add, Ledgers.change, fresh]
    · simp [ledgers, lookup_withNew_other h, Ledgers.add, Ledgers.change]

theorem ledgers_newBuilder (tabled : s.Tabled) (b : SchemaBuilder) (table : Nat) :
    (s.withNew (.builder b table)).ledgers = { s.ledgers with
      builders := Function.update s.ledgers.builders s.nextSerial (some (b, table))
      next := s.nextSerial + 1 } := by
  have fresh := tabled.fresh s.nextSerial (Nat.le_refl _)
  refine Ledgers.ext (funext fun k => ?_) (funext fun k => ?_) rfl
  · by_cases h : k = s.nextSerial
    · subst h
      simp [ledgers, lookup_withNew_self, fresh]
    · simp [ledgers, lookup_withNew_other h]
  · by_cases h : k = s.nextSerial
    · subst h
      simp [ledgers, lookup_withNew_self]
    · simp [ledgers, lookup_withNew_other h, Function.update_of_ne h]

theorem withTable (tabled : s.Tabled) (found : s.objects.lookup n = some (.table t)) (distinct : t'.names.Nodup) :
    (s.withObject n (.table t')).Tabled where
  fresh k hk := by
    have other : k ≠ n := by
      rintro rfl
      rw [tabled.fresh k hk] at found
      cases found
    exact (lookup_assign_other other ..).trans (tabled.fresh k hk)
  distinct k u hu := by
    by_cases h : k = n
    · subst h
      rw [withObject, lookup_assign_self] at hu
      cases hu
      exact distinct
    · rw [withObject, lookup_assign_other h] at hu
      exact tabled.distinct k u hu

theorem withNew (tabled : s.Tabled) (distinct : ∀ t, o = .table t → t.names.Nodup) : (s.withNew o).Tabled where
  fresh k hk := by
    have later : s.nextSerial < k := hk
    rw [lookup_withNew_other (Nat.ne_of_gt later)]
    exact tabled.fresh k (Nat.le_of_lt later)
  distinct k u hu := by
    by_cases h : k = s.nextSerial
    · subst h
      rw [lookup_withNew_self] at hu
      exact distinct u (Option.some.inj hu)
    · rw [lookup_withNew_other h] at hu
      exact tabled.distinct k u hu

theorem remember (tabled : s.Tabled) (schemas : List (Nat × Schema)) :
    Tabled { s with schemas, nextSerial := s.nextSerial + 1 } where
  fresh k hk := tabled.fresh k (Nat.le_of_succ_le hk)
  distinct := tabled.distinct

theorem start : Session.start.Tabled where
  fresh n hn := by
    have other : n ≠ sharedTable := Nat.ne_of_gt (Nat.lt_of_lt_of_le (Nat.lt_succ_self _) hn)
    simp [Session.start, List.lookup_cons, beq_false_of_ne other]
  distinct n t ht := by
    by_cases h : n = sharedTable
    · subst h
      cases ht
      decide
    · simp [Session.start, List.lookup_cons, beq_false_of_ne h] at ht

end Tabled

/-- A session at the start holds the shared table, and no other. -/
theorem ledgers_start : Session.start.ledgers = Ledgers.start := by
  refine Ledgers.ext (funext fun n => ?_) (funext fun n => ?_) rfl
  · by_cases h : n = sharedTable
    · subst h
      rfl
    · simp [ledgers, Session.start, Ledgers.start, List.lookup_cons, beq_false_of_ne h, Function.update_of_ne h]
  · by_cases h : n = sharedTable
    · subst h
      rfl
    · simp [ledgers, Session.start, Ledgers.start, List.lookup_cons, beq_false_of_ne h]

end Session

/-! ### Calls -/

/-- A call has the answer of the ledgers and leaves a session with the ledgers that they leave; one that fails leaves
the session as it was. -/
inductive TableCall.Agrees (s : Session) : Except Fault (TableAnswer × Ledgers) → Except Fault TableAnswer × Session → Prop
  | failed (f : Fault) : Agrees s (.error f) (.error f, s)
  | made {s' : Session} (a : TableAnswer) (tabled : s'.Tabled) : Agrees s (.ok (a, s'.ledgers)) (.ok a, s')

namespace Action
variable {s : Session} {n : Nat} {t : FunctionTable}

theorem runWith_place (o : LiveObject) (s : Session) : (place o).runWith s = (.ok s.nextSerial, s.withNew o) := rfl

theorem requireTable_ok (found : s.objects.lookup n = some (.table t)) : (requireTable n).runWith s = (.ok t, s) := by
  unfold requireTable
  rw [runWith_get_bind, found]
  rfl

theorem requireTable_error (missing : s.ledgers.tables n = none) :
    (requireTable n).runWith s = (.error (.undefinedName (toString n)), s) := by
  unfold requireTable
  rw [runWith_get_bind]
  split
  · next found =>
    rw [Session.ledgers_tables found] at missing
    cases missing
  · rfl

theorem requireBuilder_ok {b : SchemaBuilder} {table : Nat} (found : s.objects.lookup n = some (.builder b table)) :
    (requireBuilder n).runWith s = (.ok (b, table), s) := by
  unfold requireBuilder
  rw [runWith_get_bind, found]
  rfl

theorem requireBuilder_error (missing : s.ledgers.builders n = none) :
    (requireBuilder n).runWith s = (.error (.undefinedName (toString n)), s) := by
  unfold requireBuilder
  rw [runWith_get_bind]
  split
  · next found =>
    simp [Session.ledgers, found] at missing
  · rfl

end Action

namespace TableCall
variable {s : Session} {n : Nat} {t : FunctionTable}

theorem agrees_put (tabled : s.Tabled) (found : s.objects.lookup n = some (.table t)) {t' : FunctionTable}
    (distinct : t'.names.Nodup) (a : TableAnswer) :
    Agrees s (.ok (a, s.ledgers.change n t'.ledger)) (.ok a, s.withObject n (.table t')) := by
  rw [← Session.ledgers_withTable found]
  exact .made a (tabled.withTable found distinct)

theorem agrees_add (tabled : s.Tabled) {t' : FunctionTable} (distinct : t'.names.Nodup) :
    Agrees s (.ok (.object s.nextSerial, s.ledgers.add t'.ledger)) (.ok (.object s.nextSerial), s.withNew (.table t')) := by
  rw [← tabled.ledgers_newTable]
  refine .made _ (tabled.withNew fun u same => ?_)
  cases same
  exact distinct

theorem agrees_register (tabled : s.Tabled) (found : s.objects.lookup n = some (.table t)) (f : ConstraintFunction)
    (overwrite : Bool) (a : TableAnswer) :
    Agrees s ((t.ledger.register f overwrite).map fun l => (a, s.ledgers.change n l))
      ((do let _ ← Action.register n f overwrite; return a : Action TableAnswer).runWith s) := by
  have distinct := tabled.distinct n t found
  have here : s.table n = t := by rw [Session.table, found]
  rw [Action.runWith_bind, Action.register, Action.runWith_changeTable, here, FunctionTable.register_ledger distinct]
  rcases registered : t.register f overwrite with e | t'
  · exact .failed e
  · exact agrees_put tabled found (FunctionTable.register_distinct distinct registered) a

/-- A request is answered as the ledger of the table answers it. -/
theorem agrees_request (tabled : s.Tabled) (found : s.objects.lookup n = some (.table t)) (r : TableRequest) :
    Agrees s (s.ledgers.ask n t.ledger r) ((r.perform n).runWith s) := by
  have distinct := tabled.distinct n t found
  have here : s.table n = t := by rw [Session.table, found]
  cases r with
  | register f overwrite => exact agrees_register tabled found f overwrite .nothing
  | define f overwrite => exact agrees_register tabled found f.described overwrite (.function f.described)
  | decorate given func options overwrite =>
    rw [TableRequest.perform, Ledgers.ask, Action.runWith_bind, Action.runWith_lift]
    rcases ConstraintFunction.decorated given func options with e | f
    · exact .failed e
    · exact agrees_register tabled found f overwrite (.value func)
  | unregister key =>
    rw [TableRequest.perform, Ledgers.ask, Action.runWith_bind, Action.runWith_changeTable, here,
      FunctionTable.unregister_ledger]
    rcases removed : t.unregister key with e | r
    · exact .failed e
    · exact agrees_put tabled found (FunctionTable.unregister_distinct distinct removed) (.function r.1)
  | clear =>
    rw [TableRequest.perform, Ledgers.ask, Action.runWith_bind, Action.runWith_changeTable, here,
      FunctionTable.clear_ledger]
    rcases cleared : t.clear with e | t'
    · exact .failed e
    · exact agrees_put tabled found (FunctionTable.clear_distinct cleared) .nothing
  | freeze =>
    have frozen : t.freeze.names.Nodup := distinct
    rw [TableRequest.perform, Action.runWith_bind, Action.runWith_freeze, here]
    exact agrees_put tabled found frozen (.object n)
  | get key =>
    rw [TableRequest.perform, Action.runWith_bind, Action.requireTable_ok found]
    dsimp only
    rw [Action.runWith_bind, Action.runWith_lift, Ledgers.ask, FunctionTable.get_ledger]
    rcases t.get key with e | f
    · exact .failed e
    · exact .made (.function f) tabled
  | copy name =>
    rw [TableRequest.perform, Action.runWith_bind, Action.requireTable_ok found]
    dsimp only
    rw [Action.runWith_bind, Action.runWith_lift, FunctionTable.copy_eq distinct name]
    dsimp only
    rw [Action.runWith_bind, Action.runWith_place]
    have copied : FunctionTable.names ⟨if name.isEmpty then t.name else name, t.functions, false⟩ |>.Nodup := distinct
    exact agrees_add tabled copied

/-- A session answers a call as its ledgers do. -/
theorem perform_agrees (tabled : s.Tabled) (c : TableCall) : Agrees s (s.ledgers.turn c) (c.perform.runWith s) := by
  cases c with
  | create name fs =>
    have bare : (FunctionTable.empty name).names.Nodup := List.nodup_nil
    have made : Ledger.make name fs = ((FunctionTable.empty name).registerAll fs).map FunctionTable.ledger :=
      FunctionTable.registerAll_ledger fs bare
    rw [perform, Ledgers.turn, Action.runWith_bind, Action.runWith_lift, made]
    rcases registered : (FunctionTable.empty name).registerAll fs with e | t
    · exact .failed e
    · exact agrees_add tabled (FunctionTable.registerAll_distinct bare registered)
  | builder b table =>
    rw [perform, Ledgers.turn, Action.runWith_bind, Action.runWith_place]
    have agrees := Agrees.made (s := s) (.object s.nextSerial) (tabled.withNew (o := .builder b table) (by
      intro t same
      cases same))
    rw [tabled.ledgers_newBuilder] at agrees
    exact agrees
  | build n =>
    rw [perform, Ledgers.turn, Action.runWith_bind]
    cases hb : s.ledgers.builders n with
    | none =>
      rw [Action.requireBuilder_error hb]
      exact .failed _
    | some held =>
      rcases held with ⟨b, table⟩
      rw [Action.requireBuilder_ok (Session.ledgers_builders_eq_some hb)]
      dsimp only
      rw [Action.runWith_bind]
      cases ht : s.ledgers.tables table with
      | none =>
        rw [Action.requireTable_error ht]
        exact .failed _
      | some l =>
        obtain ⟨t, found, rfl⟩ := Session.ledgers_tables_eq_some ht
        have holds : s.Holds n table b t := ⟨Session.ledgers_builders_eq_some hb, found⟩
        rw [Action.requireTable_ok found]
        dsimp only
        rw [Action.runWith_bind, Action.runWith_buildSchema holds]
        have frozen : (s.withObject table (.table t.freeze)).Tabled := tabled.withTable found (tabled.distinct table t found)
        have agrees := Agrees.made (s := s) (.value (b.build s.nextSerial).toObject)
          (frozen.remember (Session.assign s.nextSerial (b.build s.nextSerial) s.schemas))
        have left := congrArg (fun w => { w with next := s.nextSerial + 1 }) (Session.ledgers_withTable found t.freeze)
        exact left ▸ agrees
  | ask n r =>
    rw [perform, Ledgers.turn, Action.runWith_bind]
    cases h : s.ledgers.tables n with
    | none =>
      rw [Action.requireTable_error h]
      exact .failed _
    | some l =>
      obtain ⟨t, found, rfl⟩ := Session.ledgers_tables_eq_some h
      rw [Action.requireTable_ok found]
      exact agrees_request tabled found r

/-- Calls in turn are answered as the ledgers answer them. -/
theorem run_agrees (calls : List TableCall) : ∀ {s : Session}, s.Tabled →
    (run calls s).1 = (Ledgers.run calls s.ledgers).1 ∧ (run calls s).2.ledgers = (Ledgers.run calls s.ledgers).2 ∧
      (run calls s).2.Tabled := by
  induction calls with
  | nil =>
    intro s tabled
    exact ⟨rfl, rfl, tabled⟩
  | cons c rest ih =>
    intro s tabled
    have agrees := perform_agrees tabled c
    unfold run Ledgers.run Ledgers.after
    generalize s.ledgers.turn c = turned at agrees
    generalize c.perform.runWith s = made at agrees
    cases agrees with
    | failed f =>
      obtain ⟨answers, left, after⟩ := ih tabled
      exact ⟨congrArg _ answers, left, after⟩
    | made a later =>
      obtain ⟨answers, left, after⟩ := ih later
      exact ⟨congrArg _ answers, left, after⟩

end TableCall
end Conform
