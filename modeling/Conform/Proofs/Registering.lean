import Conform.Proofs.Ledger

/-!
What tables keep. Their ledgers hold every function under its own name; a call that fails leaves everything as it was,
and one that succeeds touches one ledger at most, which is open. What a table gives for a name is read off the calls that
were made: the function registered last and not removed since (`TableCall.latest`).
-/

namespace Conform

/-- The function that a request registers, and whether it may take the place of another. -/
def TableRequest.registers? : TableRequest → Option (ConstraintFunction × Bool)
  | .register f overwrite => some (f, overwrite)
  | .define f overwrite => some (f.described, overwrite)
  | .decorate given func options overwrite =>
    (ConstraintFunction.decorated given func options).toOption.map fun f => (f, overwrite)
  | _ => none

/-- A request that would change the functions of its table. -/
def TableRequest.Changes : TableRequest → Prop
  | .register .. | .define .. | .decorate .. | .unregister _ | .clear => True
  | .freeze | .get _ | .copy _ => False

/-- The ledger that a call is about: the one that it asks, or the one of the builder that builds. -/
def Ledgers.subject? (w : Ledgers) : TableCall → Option Nat
  | .create .. | .builder .. => none
  | .build n => (w.builders n).map Prod.snd
  | .ask n _ => some n

/-! ### Ledgers one by one -/

namespace Ledger
variable {l l' : Ledger} {key k name : String} {f : ConstraintFunction} {overwrite : Bool}

/-- Every function stands under its own name, and no name has two. -/
structure Lawful (l : Ledger) : Prop where
  own : ∀ e ∈ l.entries, e.1 = e.2.name
  distinct : l.keys.Nodup

theorem lookup_map_set (entries : List (String × ConstraintFunction)) :
    (entries.map fun e => if e.1 = key then (key, f) else e).lookup k =
      if k = key ∧ key ∈ entries.map Prod.fst then some f else entries.lookup k := by
  induction entries with
  | nil => simp
  | cons e entries ih =>
    rcases e with ⟨name, g⟩
    by_cases hn : name = key
    · by_cases hk : k = key
      · simp [hn, hk]
      · have off : (k == key) = false := beq_false_of_ne hk
        simp [hn, hk, List.lookup_cons, off, ih]
    · by_cases hk : k = key
      · have off : (key == name) = false := beq_false_of_ne (Ne.symm hn)
        subst hk
        simp only [List.map_cons, hn, if_false, List.lookup_cons, off, ih, List.mem_cons, Ne.symm hn, false_or]
      · simp [hn, hk, List.lookup_cons, ih]

theorem at?_set : (l.set key f).at? k = if k = key then some f else l.at? k := by
  unfold set at?
  split
  · next h =>
    have here : key ∈ l.entries.map Prod.fst := h
    simp [lookup_map_set, here]
  · next h =>
    by_cases hk : k = key
    · subst hk
      have none : l.entries.lookup k = none := by
        rw [List.lookup_eq_none_iff]
        intro e he
        rw [bne_iff_ne]
        rintro rfl
        exact h (List.mem_map_of_mem he)
      simp [List.lookup_append, none]
    · have off : (k == key) = false := beq_false_of_ne hk
      simp [List.lookup_append, List.lookup_cons, off, hk]

theorem at?_remove : (l.remove key).at? k = if k = key then none else l.at? k := by
  rcases l with ⟨name, entries, frozen⟩
  simp only [remove, at?]
  induction entries with
  | nil => simp
  | cons e entries ih =>
    rcases e with ⟨n, g⟩
    by_cases hn : n = key
    · by_cases hk : k = key
      · simpa [hn, hk] using ih
      · have off : (k == key) = false := beq_false_of_ne hk
        simpa [hn, hk, off, List.lookup_cons] using ih
    · by_cases hk : k = key
      · have off : (key == n) = false := beq_false_of_ne (Ne.symm hn)
        simpa [hn, hk, off, List.lookup_cons] using ih
      · simp only [List.filter_cons, bne_iff_ne, ne_eq, hn, not_false_eq_true, if_true, List.lookup_cons]
        rw [if_neg hk] at ih ⊢
        rw [ih]

theorem register_ok (registered : l.register f overwrite = .ok l') : l.frozen = false ∧ l' = l.set f.name f := by
  unfold register at registered
  split at registered
  · cases registered
  · next opened =>
    split at registered
    · cases registered
    · cases registered
      exact ⟨by simpa using opened, rfl⟩

theorem unregister_ok {value : Value} {r : ConstraintFunction × Ledger} (removed : l.unregister value = .ok r) :
    l.frozen = false ∧ ∃ key, FunctionTable.keyName value = .ok (some key) ∧ l.at? key = some r.1 ∧
      r.2 = l.remove r.1.name := by
  unfold unregister at removed
  split at removed
  · cases removed
  · next opened =>
    obtain ⟨named, hkey, removed⟩ := Except.bind_eq_ok.mp removed
    split at removed
    · next f found =>
      cases removed
      obtain ⟨key, rfl, found⟩ := Option.bind_eq_some_iff.mp found
      exact ⟨by simpa using opened, key, hkey, found, rfl⟩
    · cases removed

theorem clear_ok (cleared : l.clear = .ok l') : l.frozen = false ∧ l' = { l with entries := [] } := by
  unfold clear at cleared
  split at cleared
  · cases cleared
  · next opened =>
    cases cleared
    exact ⟨by simpa using opened, rfl⟩

/-- A function that takes no other's place comes behind all others. -/
theorem register_fresh (registered : l.register f false = .ok l') : l' = { l with entries := l.entries ++ [(f.name, f)] } := by
  unfold register at registered
  split at registered
  · cases registered
  · split at registered
    · cases registered
    · next fresh =>
      cases registered
      exact if_neg fun taken => fresh ⟨rfl, taken⟩

theorem foldlM_register {fs : List ConstraintFunction} : ∀ {l l' : Ledger},
    fs.foldlM (fun l f => l.register f false) l = .ok l' → l' = { l with entries := l.entries ++ fs.map fun f => (f.name, f) } := by
  induction fs with
  | nil =>
    intro l l' made
    cases made
    simp
  | cons f fs ih =>
    intro l l' made
    rw [List.foldlM_cons] at made
    obtain ⟨l₁, registered, made⟩ := Except.bind_eq_ok.mp made
    rw [ih made, register_fresh registered]
    simp

theorem make_ok {fs : List ConstraintFunction} (made : make name fs = .ok l) :
    l = ⟨name, fs.map fun f => (f.name, f), false⟩ := by
  simpa using foldlM_register made

/-! ### Registering -/

/-- On an open ledger a function is refused exactly when its name is taken and may not be given to another. -/
theorem register_refused_iff (opened : l.frozen = false) :
    (∃ e, l.register f overwrite = .error e) ↔ overwrite = false ∧ f.name ∈ l.keys := by
  simp only [register, opened, Bool.false_eq_true, if_false]
  split
  · next taken => simp [taken]
  · next free => simp [free]

end Ledger

/-! ### All ledgers -/

namespace Ledgers
variable {w w' : Ledgers} {n : Nat} {l : Ledger} {c : TableCall} {r : TableRequest} {a : TableAnswer}

/-- Every ledger is lawful, and none stands under a number that is to come. -/
structure Sound (w : Ledgers) : Prop where
  fresh : ∀ n, w.next ≤ n → w.tables n = none
  lawful : ∀ n l, w.tables n = some l → l.Lawful

theorem Sound.of_tabled {s : Session} (tabled : s.Tabled) : s.ledgers.Sound where
  fresh n hn := by
    have none : s.objects.lookup n = none := tabled.fresh n hn
    simp [Session.ledgers, none]
  lawful n l hl := by
    obtain ⟨t, found, rfl⟩ := Session.ledgers_tables_eq_some hl
    refine ⟨fun e he => ?_, t.ledger_keys ▸ tabled.distinct n t found⟩
    obtain ⟨f, -, rfl⟩ := List.mem_map.mp he
    rfl

/-- All that a call can do when it succeeds. -/
inductive Turns (w : Ledgers) : TableCall → TableAnswer → Ledgers → Prop
  | create (name : String) (fs : List ConstraintFunction) :
    Turns w (.create name fs) (.object w.next) (w.add ⟨name, fs.map fun f => (f.name, f), false⟩)
  | builder (b : SchemaBuilder) (table : Nat) :
    Turns w (.builder b table) (.object w.next)
      { w with builders := Function.update w.builders w.next (some (b, table)), next := w.next + 1 }
  | build {n table : Nat} {b : SchemaBuilder} {l : Ledger} (held : w.builders n = some (b, table))
      (found : w.tables table = some l) (a : TableAnswer) :
    Turns w (.build n) a { w.change table l.freeze with next := w.next + 1 }
  | register {n : Nat} {l : Ledger} {r : TableRequest} {f : ConstraintFunction} {overwrite : Bool}
      (found : w.tables n = some l) (opened : l.frozen = false) (registers : r.registers? = some (f, overwrite))
      (a : TableAnswer) :
    Turns w (.ask n r) a (w.change n (l.set f.name f))
  | unregister {n : Nat} {l : Ledger} {f : ConstraintFunction} (found : w.tables n = some l) (opened : l.frozen = false)
      (key : Value) :
    Turns w (.ask n (.unregister key)) (.function f) (w.change n (l.remove f.name))
  | clear {n : Nat} {l : Ledger} (found : w.tables n = some l) (opened : l.frozen = false) :
    Turns w (.ask n .clear) .nothing (w.change n { l with entries := [] })
  | freeze {n : Nat} {l : Ledger} (found : w.tables n = some l) : Turns w (.ask n .freeze) (.object n) (w.change n l.freeze)
  | get {n : Nat} (key : Value) (a : TableAnswer) : Turns w (.ask n (.get key)) a w
  | copy {n : Nat} {l : Ledger} (found : w.tables n = some l) (name : String) :
    Turns w (.ask n (.copy name)) (.object w.next) (w.add (l.copy name))

theorem ask_ok (found : w.tables n = some l) (made : w.ask n l r = .ok (a, w')) : Turns w (.ask n r) a w' := by
  cases r with
  | register f overwrite =>
    obtain ⟨l', registered, same⟩ := Except.map_eq_ok.mp made
    obtain ⟨opened, rfl⟩ := Ledger.register_ok registered
    cases same
    exact .register found opened rfl _
  | define f overwrite =>
    obtain ⟨l', registered, same⟩ := Except.map_eq_ok.mp made
    obtain ⟨opened, rfl⟩ := Ledger.register_ok registered
    cases same
    exact .register found opened rfl _
  | decorate given func options overwrite =>
    obtain ⟨f, named, made⟩ := Except.bind_eq_ok.mp made
    obtain ⟨l', registered, same⟩ := Except.map_eq_ok.mp made
    obtain ⟨opened, rfl⟩ := Ledger.register_ok registered
    cases same
    have registers : TableRequest.registers? (.decorate given func options overwrite) = some (f, overwrite) := by
      rw [TableRequest.registers?, named]
      rfl
    exact .register found opened registers _
  | unregister key =>
    obtain ⟨removed, unregistered, same⟩ := Except.map_eq_ok.mp made
    obtain ⟨opened, -, -, -, left⟩ := Ledger.unregister_ok unregistered
    rw [left] at same
    cases same
    exact .unregister found opened key
  | clear =>
    obtain ⟨l', cleared, same⟩ := Except.map_eq_ok.mp made
    obtain ⟨opened, rfl⟩ := Ledger.clear_ok cleared
    cases same
    exact .clear found opened
  | freeze =>
    cases made
    exact .freeze found
  | get key =>
    obtain ⟨f, -, same⟩ := Except.map_eq_ok.mp made
    cases same
    exact .get key _
  | copy name =>
    cases made
    exact .copy found name

theorem turn_ok (made : w.turn c = .ok (a, w')) : Turns w c a w' := by
  cases c with
  | create name fs =>
    obtain ⟨l, filled, same⟩ := Except.map_eq_ok.mp made
    obtain rfl := Ledger.make_ok filled
    cases same
    exact .create name fs
  | builder b table =>
    cases made
    exact .builder b table
  | build n =>
    rw [turn] at made
    split at made
    · cases made
    · next held hb =>
      split at made
      · cases made
      · next l found =>
        cases made
        exact .build hb found _
  | ask n r =>
    rw [turn] at made
    split at made
    · cases made
    · next l found => exact ask_ok found made

theorem change_of_ne {k : Nat} (h : k ≠ n) : (w.change n l).tables k = w.tables k := Function.update_of_ne h _ _

theorem change_self : (w.change n l).tables n = some l := Function.update_self ..

theorem add_of_some (sound : w.Sound) {l' : Ledger} (found : w.tables n = some l) : (w.add l').tables n = some l := by
  have other : n ≠ w.next := by
    rintro rfl
    rw [sound.fresh _ (Nat.le_refl _)] at found
    cases found
  exact (Function.update_of_ne other _ _).trans found

def at? (w : Ledgers) (n : Nat) (key : String) : Option ConstraintFunction := (w.tables n).bind fun l => l.at? key

theorem at?_of_some (found : w.tables n = some l) (key : String) : w.at? n key = l.at? key := by rw [at?, found]; rfl

theorem at?_change (w : Ledgers) (n k : Nat) (l : Ledger) (key : String) :
    (w.change n l).at? k key = if k = n then l.at? key else w.at? k key := by
  unfold at?
  by_cases h : k = n
  · subst h
    rw [change_self, if_pos rfl]
    rfl
  · rw [change_of_ne h, if_neg h]

theorem at?_add (w : Ledgers) (k : Nat) (l : Ledger) (key : String) :
    (w.add l).at? k key = if k = w.next then l.at? key else w.at? k key := at?_change w w.next k l key

theorem at?_freeze (found : w.tables n = some l) {k : Nat} {key : String} :
    (w.change n l.freeze).at? k key = w.at? k key := by
  rw [at?_change]
  split
  · next h =>
    subst h
    exact (at?_of_some found key).symm
  · rfl

/-- A call leaves every ledger but the one that it is about. -/
theorem Turns.apart (turns : Turns w c a w') (sound : w.Sound) (found : w.tables n = some l)
    (other : w.subject? c ≠ some n) : w'.tables n = some l := by
  cases turns with
  | create | copy => exact add_of_some sound found
  | builder | get => exact found
  | build held =>
    rw [subject?, held] at other
    exact (change_of_ne fun same => other (congrArg some same.symm)).trans found
  | register | unregister | clear | freeze => exact (change_of_ne fun same => other (congrArg some same.symm)).trans found

/-- A closed ledger stays as it is. -/
theorem Turns.frozen (turns : Turns w c a w') (sound : w.Sound) (found : w.tables n = some l) (frozen : l.frozen = true) :
    w'.tables n = some l := by
  -- Closing a closed ledger gives it back.
  have again : l.freeze = l := by rw [Ledger.freeze, ← frozen]
  by_cases about : w.subject? c = some n
  · cases turns with
    | create | builder => cases about
    | build held here =>
      rw [subject?, held] at about
      cases about
      rw [found] at here
      cases here
      exact change_self.trans (congrArg some again)
    | register here opened | unregister here opened | clear here opened =>
      cases about
      rw [found] at here
      cases here
      rw [frozen] at opened
      cases opened
    | freeze here =>
      cases about
      rw [found] at here
      cases here
      exact change_self.trans (congrArg some again)
    | get => exact found
    | copy => exact add_of_some sound found
  · exact turns.apart sound found about

end Ledgers

namespace TableCall

/-- What was registered last under a name in the table of a number and not removed since, read off the calls that were
made with their answers, the latest first. -/
def latest (key : String) : List (TableCall × Except Fault TableAnswer) → Nat → Option ConstraintFunction
  | [], n => if n = Session.sharedTable then FunctionTable.default.find? key else none
  | (c, .ok a) :: older, n => match c, a with
    | .create _ fs, .object m => if n = m then fs.find? fun f => f.name == key else latest key older n
    | .ask m (.copy _), .object copied => latest key older (if n = copied then m else n)
    | .ask m .clear, _ => if n = m then none else latest key older n
    | .ask m (.unregister _), .function f => if n = m ∧ f.name = key then none else latest key older n
    | .ask m r, _ => match r.registers? with
      | some (f, _) => if n = m ∧ f.name = key then some f else latest key older n
      | none => latest key older n
    | _, _ => latest key older n
  | (_, .error _) :: older, n => latest key older n

/-- The ledgers hold what the calls say that they hold. -/
def Recalled (log : List (TableCall × Except Fault TableAnswer)) (w : Ledgers) : Prop :=
  ∀ key n, latest key log n = w.at? n key

variable {log : List (TableCall × Except Fault TableAnswer)} {w w' : Ledgers} {c : TableCall} {a : TableAnswer}

theorem latest_registers {key : String} {n m : Nat} {r : TableRequest} {f : ConstraintFunction} {overwrite : Bool}
    (registers : r.registers? = some (f, overwrite)) :
    latest key ((.ask m r, .ok a) :: log) n = if n = m ∧ f.name = key then some f else latest key log n := by
  cases r with
  | register | define | decorate => simp [latest, registers]
  | unregister | clear | freeze | get | copy => cases registers

theorem Recalled.turn (recalled : Recalled log w) (turns : w.Turns c a w') :
    Recalled ((c, .ok a) :: log) w' := by
  intro key n
  cases turns with
  | create name fs =>
    have entries : Ledger.at? ⟨name, fs.map fun f => (f.name, f), false⟩ key = fs.find? fun f => f.name == key :=
      FunctionTable.ledger_at? ⟨name, fs, false⟩ key
    rw [latest, Ledgers.at?_add, entries, recalled]
  | builder | get => exact recalled key n
  | @build m table b l held found =>
    have same : (w.change table l.freeze).at? n key = w.at? n key := Ledgers.at?_freeze found
    exact (recalled key n).trans same.symm
  | @register m l r f overwrite found opened registers =>
    rw [latest_registers registers, Ledgers.at?_change, Ledger.at?_set, recalled]
    by_cases here : n = m
    · subst here
      by_cases named : f.name = key
      · simp [named]
      · simp [named, Ne.symm named, Ledgers.at?_of_some found]
    · simp [here]
  | @unregister m l f found opened value =>
    rw [latest, Ledgers.at?_change, Ledger.at?_remove, recalled]
    by_cases here : n = m
    · subst here
      by_cases named : f.name = key
      · simp [named]
      · simp [named, Ne.symm named, Ledgers.at?_of_some found]
    · simp [here]
  | clear found =>
    rw [latest, Ledgers.at?_change, recalled]
    rfl
  | freeze found => exact (recalled key n).trans (Ledgers.at?_freeze found).symm
  | @copy m l found name =>
    rw [latest, Ledgers.at?_add, recalled]
    split
    · exact Ledgers.at?_of_some found key
    · rfl

/-! ### Runs -/

variable {s s' : Session} {n : Nat} {l : Ledger}

theorem perform_ok (tabled : s.Tabled) (made : c.perform.runWith s = (.ok a, s')) :
    s.ledgers.Turns c a s'.ledgers ∧ s'.Tabled := by
  have agrees := perform_agrees tabled c
  generalize hturn : s.ledgers.turn c = turned at agrees
  rw [made] at agrees
  cases agrees with
  | made a later => exact ⟨Ledgers.turn_ok hturn, later⟩

theorem perform_error {f : Fault} (tabled : s.Tabled) (failed : c.perform.runWith s = (.error f, s')) : s' = s := by
  have agrees := perform_agrees tabled c
  generalize s.ledgers.turn c = turned at agrees
  rw [failed] at agrees
  cases agrees
  rfl

/-- After a call numbers are still used once, and a ledger is as it was if it is closed or not what the call is about. -/
theorem perform_keeps (tabled : s.Tabled) (c : TableCall) : (c.perform.runWith s).2.Tabled ∧
    ∀ n l, s.ledgers.tables n = some l → l.frozen = true ∨ s.ledgers.subject? c ≠ some n →
      (c.perform.runWith s).2.ledgers.tables n = some l := by
  rcases made : c.perform.runWith s with ⟨f | a, s'⟩
  · obtain rfl := perform_error tabled made
    exact ⟨tabled, fun n l found _ => found⟩
  · obtain ⟨turns, later⟩ := perform_ok tabled made
    refine ⟨later, fun n l found unmoved => ?_⟩
    rcases unmoved with frozen | other
    · exact turns.frozen (.of_tabled tabled) found frozen
    · exact turns.apart (.of_tabled tabled) found other

theorem run_frozen (found : s.ledgers.tables n = some l) (frozen : l.frozen = true) (more : List TableCall) :
    s.Tabled → (run more s).2.ledgers.tables n = some l := by
  induction more generalizing s with
  | nil => exact fun _ => found
  | cons c rest ih =>
    intro tabled
    obtain ⟨later, kept⟩ := perform_keeps tabled c
    exact ih (kept n l found (.inl frozen)) later

/-- None of some calls is about the table of a number. -/
def Spares (n : Nat) : List TableCall → Session → Prop
  | [], _ => True
  | c :: rest, s => s.ledgers.subject? c ≠ some n ∧ Spares n rest (c.perform.runWith s).2

theorem run_spares (found : s.ledgers.tables n = some l) (more : List TableCall) :
    s.Tabled → Spares n more s → (run more s).2.ledgers.tables n = some l := by
  induction more generalizing s with
  | nil => exact fun _ _ => found
  | cons c rest ih =>
    rintro tabled ⟨other, spares⟩
    obtain ⟨later, kept⟩ := perform_keeps tabled c
    exact ih (kept n l found (.inr other)) later spares

theorem run_recalled (calls : List TableCall) : ∀ {s : Session} {log : List (TableCall × Except Fault TableAnswer)},
    s.Tabled → Recalled log s.ledgers →
      Recalled ((calls.zip (run calls s).1).reverse ++ log) (run calls s).2.ledgers := by
  induction calls with
  | nil => exact fun _ recalled => recalled
  | cons c rest ih =>
    intro s log tabled recalled
    rw [run, List.zip_cons_cons, List.reverse_cons, List.append_assoc]
    rcases made : c.perform.runWith s with ⟨f | a, s'⟩
    · obtain rfl := perform_error tabled made
      exact ih tabled fun key n => recalled key n
    · obtain ⟨turns, later⟩ := perform_ok tabled made
      exact ih later (recalled.turn turns)

theorem recalled_start : Recalled [] Ledgers.start := by
  intro key n
  by_cases h : n = Session.sharedTable
  · subst h
    exact (FunctionTable.ledger_at? .default key).symm
  · simp [latest, h, Ledgers.at?, Ledgers.start]

/-! ### What tables keep -/

/-- A request that registers a function is answered as the ledger answers the registration. -/
theorem ask_registers {r : TableRequest} {f : ConstraintFunction} {overwrite : Bool}
    (registers : r.registers? = some (f, overwrite)) (w : Ledgers) (n : Nat) (l : Ledger) :
    ∃ a, w.ask n l r = (l.register f overwrite).map fun l => (a, w.change n l) := by
  cases r with
  | register | define =>
    cases registers
    exact ⟨_, rfl⟩
  | decorate given func options o =>
    rw [TableRequest.registers?] at registers
    rw [Ledgers.ask]
    rcases named : ConstraintFunction.decorated given func options with e | g
    · rw [named] at registers
      cases registers
    · rw [named] at registers
      cases registers
      exact ⟨_, rfl⟩
  | unregister | clear | freeze | get | copy => cases registers

theorem decorated_error {given : String} {func : Value} {options : ConstraintFunction} {f : Fault}
    (failed : ConstraintFunction.decorated given func options = .error f) : given = "" ∧ func.requireName = .error f := by
  unfold ConstraintFunction.decorated at failed
  split at failed
  · next bare =>
    refine ⟨String.isEmpty_iff.mp bare, ?_⟩
    rcases named : func.requireName with e | name
    · rw [named] at failed
      cases failed
      rfl
    · rw [named] at failed
      cases failed
  · cases failed

theorem register_closed (frozen : l.frozen = true) (f : ConstraintFunction) (overwrite : Bool) :
    l.register f overwrite = .error (.refused (.frozenTable l.name (some (.text f.name)))) := by
  rw [Ledger.register, if_pos frozen]

theorem ask_closed (frozen : l.frozen = true) {r : TableRequest} (changes : r.Changes) (w : Ledgers) (n : Nat) :
    (∃ key, w.ask n l r = .error (.refused (.frozenTable l.name key))) ∨
      ∃ func options overwrite f, r = .decorate "" func options overwrite ∧ func.requireName = .error f ∧
        w.ask n l r = .error f := by
  cases r with
  | register f overwrite =>
    left
    refine ⟨some (.text f.name), ?_⟩
    rw [Ledgers.ask, register_closed frozen]
    rfl
  | define f overwrite =>
    left
    refine ⟨some (.text f.described.name), ?_⟩
    rw [Ledgers.ask, register_closed frozen]
    rfl
  | decorate given func options overwrite =>
    rw [Ledgers.ask]
    rcases named : ConstraintFunction.decorated given func options with e | f
    · right
      obtain ⟨rfl, lacking⟩ := decorated_error named
      exact ⟨func, options, overwrite, e, rfl, lacking, rfl⟩
    · left
      refine ⟨some (.text f.name), ?_⟩
      change ((l.register f overwrite).map _ : Except Fault (TableAnswer × Ledgers)) = _
      rw [register_closed frozen]
      rfl
  | unregister key =>
    left
    refine ⟨some key, ?_⟩
    rw [Ledgers.ask, Ledger.unregister, if_pos frozen]
    rfl
  | clear =>
    left
    refine ⟨none, ?_⟩
    rw [Ledgers.ask, Ledger.clear, if_pos frozen]
    rfl
  | freeze | get | copy => exact changes.elim

theorem perform_of_error {f : Fault} (tabled : s.Tabled) (refused : s.ledgers.turn c = .error f) :
    c.perform.runWith s = (.error f, s) := by
  have agrees := perform_agrees tabled c
  rw [refused] at agrees
  generalize c.perform.runWith s = made at agrees
  cases agrees
  rfl

theorem perform_of_ok (tabled : s.Tabled) (turned : s.ledgers.turn c = .ok (a, w)) :
    ∃ s', c.perform.runWith s = (.ok a, s') ∧ s'.ledgers = w ∧ s'.Tabled := by
  have agrees := perform_agrees tabled c
  rw [turned] at agrees
  generalize c.perform.runWith s = made at agrees
  cases agrees with
  | made a later => exact ⟨_, rfl, rfl, later⟩

theorem turn_ask (found : s.ledgers.tables n = some l) (r : TableRequest) :
    s.ledgers.turn (.ask n r) = s.ledgers.ask n l r := by
  rw [Ledgers.turn, found]

theorem perform_get {t : FunctionTable} (found : s.objects.lookup n = some (.table t)) (key : Value) :
    (ask n (.get key)).perform.runWith s = ((t.get key).map .function, s) := by
  rw [perform, Action.runWith_bind, Action.requireTable_ok found]
  dsimp only
  rw [TableRequest.perform, Action.runWith_bind, Action.requireTable_ok found]
  dsimp only
  rw [Action.runWith_bind, Action.runWith_lift]
  rcases t.get key with e | f <;> rfl

/-- What holds of the tables of a session where some calls were made, whatever is called next. -/
structure Keeps (log : List (TableCall × Except Fault TableAnswer)) (s : Session) : Prop where
  /-- Every function is stored under its own name. -/
  lawful : ∀ n l, s.ledgers.tables n = some l → l.Lawful
  /-- A call that fails changes nothing. -/
  failed : ∀ (c : TableCall) f s', c.perform.runWith s = (.error f, s') → s' = s
  /-- A frozen table keeps its name, its functions and their order, and stays frozen. -/
  frozen : ∀ n l, s.ledgers.tables n = some l → l.frozen = true → ∀ more, (run more s).2.ledgers.tables n = some l
  /-- A frozen table refuses every change; a function that has no name and is given none is found lacking before. -/
  refuses : ∀ n l, s.ledgers.tables n = some l → l.frozen = true → ∀ r : TableRequest, r.Changes →
    (∃ key, (ask n r).perform.runWith s = (.error (.refused (.frozenTable l.name key)), s)) ∨
      ∃ func options overwrite f, r = .decorate "" func options overwrite ∧ func.requireName = .error f ∧
        (ask n r).perform.runWith s = (.error f, s)
  /-- An open table refuses a function exactly when the name is taken and may not be overwritten. -/
  registers : ∀ n l, s.ledgers.tables n = some l → l.frozen = false → ∀ (r : TableRequest) f overwrite,
    r.registers? = some (f, overwrite) →
      ((∃ e, ((ask n r).perform.runWith s).1 = .error e) ↔ overwrite = false ∧ f.name ∈ l.keys)
  /-- A table gives the function that was registered last under a name and not removed since. -/
  gets : ∀ n l, s.ledgers.tables n = some l → ∀ key k, FunctionTable.keyName key = .ok (some k) →
    (ask n (.get key)).perform.runWith s =
      ((latest k log n).elim (.error (.refused (.unknownConstraint key l.keys [("table", .text l.name)])))
        fun f => .ok (.function f), s)
  /-- A copy is a new open table with the same functions in the same order; what is done with one of the two tables
  later does not show in the other. -/
  copies : ∀ n l, s.ledgers.tables n = some l → ∀ name, ∃ m s',
    (ask n (.copy name)).perform.runWith s = (.ok (.object m), s') ∧ s.ledgers.tables m = none ∧
      s'.ledgers.tables m = some ⟨if name.isEmpty then l.name else name, l.entries, false⟩ ∧
      s'.ledgers.tables n = some l ∧
      ∀ more, (Spares n more s' → (run more s').2.ledgers.tables n = s'.ledgers.tables n) ∧
        (Spares m more s' → (run more s').2.ledgers.tables m = s'.ledgers.tables m)
  /-- A table that no call is about stays as it is. -/
  spared : ∀ n l, s.ledgers.tables n = some l → ∀ more, Spares n more s → (run more s).2.ledgers.tables n = some l

theorem keeps {log : List (TableCall × Except Fault TableAnswer)} (tabled : s.Tabled) (recalled : Recalled log s.ledgers) :
    Keeps log s where
  lawful n l found := (Ledgers.Sound.of_tabled tabled).lawful n l found
  failed c f s' failed := perform_error tabled failed
  frozen n l found frozen more := run_frozen found frozen more tabled
  refuses n l found frozen r changes := by
    rcases ask_closed frozen changes s.ledgers n with ⟨key, refused⟩ | ⟨func, options, overwrite, f, rfl, lacking, refused⟩
    · exact .inl ⟨key, perform_of_error tabled ((turn_ask found r).trans refused)⟩
    · exact .inr ⟨func, options, overwrite, f, rfl, lacking, perform_of_error tabled ((turn_ask found _).trans refused)⟩
  registers n l found opened r f overwrite registers := by
    obtain ⟨a, asked⟩ := ask_registers registers s.ledgers n l
    have turned := (turn_ask found r).trans asked
    rw [← Ledger.register_refused_iff opened]
    rcases registered : l.register f overwrite with e | l'
    · rw [registered] at turned
      rw [perform_of_error tabled turned]
      simp
    · rw [registered] at turned
      obtain ⟨s', made, -⟩ := perform_of_ok tabled turned
      rw [made]
      simp
  gets n l found key k named := by
    obtain ⟨t, held, rfl⟩ := Session.ledgers_tables_eq_some found
    have said : latest k log n = t.find? k := by
      rw [recalled k n, Ledgers.at?_of_some found, FunctionTable.ledger_at?]
    rw [perform_get held, said, FunctionTable.ledger_keys, FunctionTable.get, FunctionTable.getOptional, named]
    rcases known : t.find? k with _ | f
    · simp [Except.map, known]
      rfl
    · simp [Except.map, known]
      rfl
  copies n l found name := by
    have sound := Ledgers.Sound.of_tabled tabled
    obtain ⟨s', made, left, later⟩ := perform_of_ok tabled (turn_ask found (.copy name))
    have copied : s'.ledgers.tables s.nextSerial = some (l.copy name) := left ▸ Ledgers.change_self
    have original : s'.ledgers.tables n = some l := left ▸ Ledgers.add_of_some sound found
    refine ⟨s.nextSerial, s', made, sound.fresh _ (Nat.le_refl _), copied, original, fun more => ⟨fun spares => ?_, fun spares => ?_⟩⟩
    · rw [original]
      exact run_spares original more later spares
    · rw [copied]
      exact run_spares copied more later spares
  spared n l found more spares := run_spares found more tabled spares

/-- Tables are insertion-ordered maps with a flag: whatever calls are made, a session answers them as such maps do and
holds what they hold, and so its tables keep their functions. -/
theorem tables_refine_ledgers (calls : List TableCall) :
    let made := run calls .start
    made.1 = (Ledgers.run calls .start).1 ∧ made.2.ledgers = (Ledgers.run calls .start).2 ∧
      Keeps (calls.zip made.1).reverse made.2 := by
  obtain ⟨answers, left, tabled⟩ := run_agrees calls Session.Tabled.start
  rw [Session.ledgers_start] at answers left
  have fresh : Recalled [] Session.start.ledgers := by
    rw [Session.ledgers_start]
    exact recalled_start
  have recalled := run_recalled calls .start fresh
  rw [List.append_nil] at recalled
  exact ⟨answers, left, keeps tabled recalled⟩

/-- A function without a name that decorates a frozen table: the name is asked for before the table refuses. -/
theorem nameless_decoration :
    let anonymous : Value := .function ⟨"anonymous", none, "", "function"⟩
    let call : TableCall := .ask Session.sharedTable (.decorate "" anonymous { name := "", check := .custom anonymous } false)
    (Session.start.table Session.sharedTable).frozen = true ∧
      ∃ f, call.perform.runWith .start = (.error f, .start) ∧ f.kind ≠ RefusalKind.registration.name :=
  ⟨rfl, .noAttribute "function" "__name__", rfl, by decide⟩

end TableCall
end Conform
