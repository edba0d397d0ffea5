import Conform.Proofs.Compiled
import Conform.Session.Requests

/-!
What requests do. A request changes the session when it succeeds, and only then (`Request.perform_atomic`); what it
makes of the builder and of the table follows from these two alone (`Request.turn`), whatever else is in the session.
-/

namespace Conform

/-! ### Objects by number -/

namespace Session
variable {α : Type}

theorem lookup_assign_self (n : Nat) (a : α) : ∀ l : List (Nat × α), (assign n a l).lookup n = some a
  | [] => by simp [assign]
  | (m, b) :: l => by
    by_cases hm : m = n
    · simp [assign, hm]
    · have hn : (n == m) = false := beq_false_of_ne (Ne.symm hm)
      simp [assign, hm, List.lookup_cons, hn, lookup_assign_self n a l]

theorem lookup_assign_other {n k : Nat} (hk : k ≠ n) (a : α) : ∀ l : List (Nat × α), (assign n a l).lookup k = l.lookup k
  | [] => by
    have hn : (k == n) = false := beq_false_of_ne hk
    simp [assign, List.lookup_cons, hn]
  | (m, b) :: l => by
    by_cases hm : m = n
    · have hn : (k == n) = false := beq_false_of_ne hk
      subst hm
      simp [assign, List.lookup_cons, hn]
    · cases hkm : k == m <;> simp [assign, hm, List.lookup_cons, hkm, lookup_assign_other hk a l]

/-- The session after the object of a number was changed. -/
def withObject (s : Session) (n : Nat) (o : LiveObject) : Session := { s with objects := assign n o s.objects }

/-- A session in which a builder stands under one number, and the table of its functions under another. -/
structure Holds (s : Session) (builder table : Nat) (b : SchemaBuilder) (t : FunctionTable) : Prop where
  builder : s.objects.lookup builder = some (.builder b table)
  table : s.objects.lookup table = some (.table t)

namespace Holds
variable {s s' : Session} {builder table : Nat} {b b' : SchemaBuilder} {t t' : FunctionTable}

theorem table_eq (holds : s.Holds builder table b t) : s.table table = t := by
  rw [Session.table, holds.table]

theorem apart (holds : s.Holds builder table b t) : builder ≠ table := by
  rintro rfl
  have same := holds.builder.symm.trans holds.table
  simp at same

theorem unique (holds : s.Holds builder table b t) (holds' : s.Holds builder table b' t') : b = b' ∧ t = t' := by
  have hb := holds.builder.symm.trans holds'.builder
  have ht := holds.table.symm.trans holds'.table
  simp only [Option.some.injEq, LiveObject.builder.injEq, LiveObject.table.injEq, and_true] at hb ht
  exact ⟨hb, ht⟩

theorem of_objects (holds : s.Holds builder table b t) (same : s'.objects = s.objects) : s'.Holds builder table b t :=
  ⟨same ▸ holds.builder, same ▸ holds.table⟩

theorem withBuilder (holds : s.Holds builder table b t) (b' : SchemaBuilder) :
    (s.withObject builder (.builder b' table)).Holds builder table b' t where
  builder := lookup_assign_self ..
  table := (lookup_assign_other holds.apart.symm ..).trans holds.table

theorem withTable (holds : s.Holds builder table b t) (t' : FunctionTable) :
    (s.withObject table (.table t')).Holds builder table b t' where
  builder := (lookup_assign_other holds.apart ..).trans holds.builder
  table := lookup_assign_self ..

end Holds

/-- A session after another: numbers are not used again, and the schemas under numbers that were used stay. -/
structure Later (s s' : Session) : Prop where
  serials : s.nextSerial ≤ s'.nextSerial
  schemas : ∀ n < s.nextSerial, s'.schema? n = s.schema? n

theorem Later.refl (s : Session) : s.Later s := ⟨Nat.le_refl _, fun _ _ => rfl⟩

theorem Later.trans {s s' s'' : Session} (first : s.Later s') (next : s'.Later s'') : s.Later s'' where
  serials := Nat.le_trans first.serials next.serials
  schemas n hn := (next.schemas n (Nat.lt_of_lt_of_le hn first.serials)).trans (first.schemas n hn)

end Session

/-! ### Running -/

namespace Action
variable {α β : Type}

theorem runWith_bind (x : Action α) (g : α → Action β) (s : Session) :
    (x >>= g).runWith s = match x.runWith s with
      | (.ok a, s') => (g a).runWith s'
      | (.error e, s') => (.error e, s') := by
  unfold runWith
  change ((x.run s : Except Fault α × Session) |> fun r => ExceptT.bindCont g r.1 r.2) = _
  rcases x.run s with ⟨_ | _, _⟩ <;> rfl

theorem runWith_lift (e : Except Fault α) (s : Session) : (lift e).runWith s = (e, s) := rfl

theorem runWith_get (s : Session) : (get : Action Session).runWith s = (.ok s, s) := rfl

/-- What is done after looking at the session is done with the session as it is. -/
theorem runWith_get_bind (g : Session → Action β) (s : Session) : (get >>= g).runWith s = (g s).runWith s := by
  rw [runWith_bind, runWith_get]

theorem runWith_put (n : Nat) (o : LiveObject) (s : Session) : (put n o).runWith s = (.ok ⟨⟩, s.withObject n o) := rfl

theorem runWith_freeze (n : Nat) (s : Session) :
    (freeze n).runWith s = (.ok ⟨⟩, s.withObject n (.table (s.table n).freeze)) := rfl

/-- Changing a table changes it under its number, or fails and changes nothing. -/
theorem runWith_changeTable (n : Nat) (change : FunctionTable → Except Fault (α × FunctionTable)) (s : Session) :
    (changeTable n change).runWith s = match change (s.table n) with
      | .error f => (.error f, s)
      | .ok r => (.ok r.1, s.withObject n (.table r.2)) := by
  unfold changeTable
  rw [runWith_get_bind, runWith_bind, runWith_lift]
  rcases change (s.table n) with f | r <;> rfl

section
variable {s : Session} {builder table : Nat} {b : SchemaBuilder} {t : FunctionTable}

theorem runWith_declare (holds : s.Holds builder table b t)
    (change : SchemaBuilder → FunctionTable → Except Fault SchemaBuilder) :
    (declare builder change).runWith s = match change b t with
      | .error f => (.error f, s)
      | .ok b' => (.ok ((s.withObject builder (.builder b' table)).toValue builder), s.withObject builder (.builder b' table)) := by
  unfold declare
  rw [runWith_get_bind, holds.builder]
  dsimp only
  rw [runWith_get_bind, holds.table_eq, runWith_bind, runWith_lift]
  rcases change b t with f | b' <;> rfl

theorem runWith_compileShape (holds : s.Holds builder table b t) (h : Host) (shape : ShapeSpelling) :
    (compileShape h builder shape).runWith s = match b.compileShape h t shape with
      | .error f => (.error f, s)
      | .ok n => (.ok (n.toObject.numbered s.nextSerial), { s with nextSerial := s.nextSerial + 1 }) := by
  unfold compileShape
  rw [runWith_get_bind, holds.builder]
  dsimp only
  rw [runWith_get_bind, holds.table_eq, runWith_bind, runWith_lift]
  rcases b.compileShape h t shape with f | n <;> rfl

/-- Building freezes the table, and remembers the schema under a new number. -/
theorem runWith_buildSchema (holds : s.Holds builder table b t) :
    (buildSchema builder).runWith s = (.ok (b.build s.nextSerial).toObject,
      { s.withObject table (.table t.freeze) with
        schemas := Session.assign s.nextSerial (b.build s.nextSerial) s.schemas
        nextSerial := s.nextSerial + 1 }) := by
  unfold buildSchema
  rw [runWith_get_bind, holds.builder]
  dsimp only
  rw [runWith_bind, runWith_freeze, holds.table_eq]
  rfl

theorem declare_ok (holds : s.Holds builder table b t) {s' : Session} {v : Value}
    {change : SchemaBuilder → FunctionTable → Except Fault SchemaBuilder}
    (made : (declare builder change).runWith s = (.ok v, s')) :
    ∃ b', change b t = .ok b' ∧ s'.Holds builder table b' t ∧ s.Later s' := by
  rw [runWith_declare holds] at made
  split at made
  · cases made
  · next b' hb' =>
    cases made
    exact ⟨b', hb', holds.withBuilder b', Nat.le_refl _, fun _ _ => rfl⟩

theorem changeTable_ok (holds : s.Holds builder table b t) {s' : Session} {a : α}
    {change : FunctionTable → Except Fault (α × FunctionTable)} (made : (changeTable table change).runWith s = (.ok a, s')) :
    ∃ t', change t = .ok (a, t') ∧ s'.Holds builder table b t' ∧ s.Later s' := by
  rw [runWith_changeTable, holds.table_eq] at made
  split at made
  · cases made
  · next r hr =>
    cases made
    exact ⟨r.2, hr, holds.withTable r.2, Nat.le_refl _, fun _ _ => rfl⟩

end

/-! ### All or nothing -/

/-- An action that leaves the session as it was when it fails. -/
def Atomic (x : Action α) : Prop := ∀ (s s' : Session) (f : Fault), x.runWith s = (.error f, s') → s' = s

/-- An action that does not fail. -/
def Total (x : Action α) : Prop := ∀ s, (x.runWith s).1.isOk = true

theorem Total.atomic {x : Action α} (total : Total x) : Atomic x := by
  intro s s' f failed
  have made := total s
  rw [failed] at made
  cases made

theorem atomic_lift (e : Except Fault α) : Atomic (lift e) := by
  intro s s' f failed
  rw [runWith_lift] at failed
  cases failed
  rfl

/-- Looking at the session first changes nothing. -/
theorem Atomic.get {g : Session → Action α} (rest : ∀ s, Atomic (g s)) : Atomic (MonadState.get >>= g) := by
  intro s s' f failed
  rw [runWith_get_bind] at failed
  exact rest s _ _ _ failed

/-- What can fail comes first, and what follows it does not fail. -/
theorem Atomic.bind {x : Action α} {g : α → Action β} (first : Atomic x) (rest : ∀ a, Total (g a)) : Atomic (x >>= g) := by
  intro s s' f failed
  rw [runWith_bind] at failed
  rcases ran : x.runWith s with ⟨e | a, s₁⟩
  · rw [ran] at failed
    cases failed
    exact first _ _ _ ran
  · rw [ran] at failed
    have made := rest a s₁
    rw [show (g a).runWith s₁ = _ from failed] at made
    cases made

theorem atomic_changeTable (n : Nat) (change : FunctionTable → Except Fault (α × FunctionTable)) :
    Atomic (changeTable n change) :=
  .get fun _ => .bind (atomic_lift _) fun _ _ => rfl

theorem atomic_declare (n : Nat) (change : SchemaBuilder → FunctionTable → Except Fault SchemaBuilder) :
    Atomic (declare n change) := by
  refine .get fun s => ?_
  split
  · exact .get fun _ => .bind (atomic_lift _) fun _ _ => rfl
  · exact Total.atomic fun _ => rfl

theorem atomic_compileShape (h : Host) (n : Nat) (shape : ShapeSpelling) : Atomic (compileShape h n shape) := by
  refine .get fun s => ?_
  split
  · exact .get fun _ => .bind (atomic_lift _) fun _ _ => rfl
  · exact Total.atomic fun _ => rfl

theorem atomic_buildSchema (n : Nat) : Atomic (buildSchema n) := by
  refine .get fun s => ?_
  split <;> exact Total.atomic fun _ => rfl

end Action

/-! ### What a request does -/

namespace Request
variable {h : Host} {r : Request} {s s' : Session} {builder table : Nat} {b b' : SchemaBuilder} {t t' : FunctionTable}

/-- What a request makes of a builder and of the table of its functions. -/
def turn (h : Host) (b : SchemaBuilder) (t : FunctionTable) : Request → Except Fault (SchemaBuilder × FunctionTable)
  | .field name shape rules named => (b.field h t name shape rules named).map fun b' => (b', t)
  | .check rules named => (b.check h t rules named).map fun b' => (b', t)
  | .describe description => .ok (b.withDescription description, t)
  | .compileShape shape => (b.compileShape h t shape).map fun _ => (b, t)
  | .build => .ok (b, t.freeze)
  | .register f overwrite => (t.register f overwrite).map fun t' => (b, t')
  | .define f overwrite => (t.register f.described overwrite).map fun t' => (b, t')
  | .unregister key => (t.unregister key).map fun removed => (b, removed.2)
  | .clear => t.clear.map fun t' => (b, t')
  | .freeze => .ok (b, t.freeze)

/-- The requests that declare rules. -/
def Declares : Request → Prop
  | .field .. | .check .. => True
  | _ => False

/-- A turn declares a field or checks, with the table as it is, or makes nothing of the builder but its description. -/
theorem turn_cases (turned : r.turn h b t = .ok (b', t')) :
    (∃ name shape rules named, r = .field name shape rules named ∧ b.field h t name shape rules named = .ok b' ∧ t' = t) ∨
      (∃ rules named, r = .check rules named ∧ b.check h t rules named = .ok b' ∧ t' = t) ∨
      ¬r.Declares ∧ ∃ description, b' = { b with description } := by
  cases r with
  | field name shape rules named =>
    obtain ⟨b₁, hb₁, heq⟩ := Except.map_eq_ok.mp turned
    cases heq
    exact .inl ⟨name, shape, rules, named, rfl, hb₁, rfl⟩
  | check rules named =>
    obtain ⟨b₁, hb₁, heq⟩ := Except.map_eq_ok.mp turned
    cases heq
    exact .inr (.inl ⟨rules, named, rfl, hb₁, rfl⟩)
  | describe description =>
    cases turned
    exact .inr (.inr ⟨not_false, description, rfl⟩)
  | build | freeze =>
    cases turned
    exact .inr (.inr ⟨not_false, b.description, rfl⟩)
  | compileShape | register | define | unregister | clear =>
    obtain ⟨_, _, heq⟩ := Except.map_eq_ok.mp turned
    cases heq
    exact .inr (.inr ⟨not_false, b.description, rfl⟩)

/-- Whatever can fail comes before the one change that a request makes. -/
theorem perform_atomic (h : Host) (r : Request) (builder table : Nat) : Action.Atomic (r.perform h builder table) := by
  cases r with
  | field | check | describe =>
    rw [perform]
    exact Action.atomic_declare builder _
  | compileShape shape =>
    rw [perform]
    exact Action.atomic_compileShape h builder shape
  | build =>
    rw [perform]
    exact Action.atomic_buildSchema builder
  | register f overwrite =>
    rw [perform, Action.register]
    exact Action.atomic_changeTable table _
  | define f overwrite =>
    rw [perform, Action.define, Action.register]
    exact Action.atomic_changeTable table _
  | unregister key =>
    rw [perform]
    exact .bind (Action.atomic_changeTable table _) fun _ _ => rfl
  | clear =>
    rw [perform]
    exact Action.atomic_changeTable table _
  | freeze => exact Action.Total.atomic fun _ => rfl

/-- A request that fails leaves the session as it was. -/
theorem perform_error {f : Fault} (failed : (r.perform h builder table).runWith s = (.error f, s')) : s' = s :=
  perform_atomic h r builder table _ _ _ failed

/-- A request that succeeds makes its turn. -/
theorem perform_ok (holds : s.Holds builder table b t) {v : Value}
    (made : (r.perform h builder table).runWith s = (.ok v, s')) :
    ∃ b' t', r.turn h b t = .ok (b', t') ∧ s'.Holds builder table b' t' ∧ s.Later s' := by
  cases r with
  | field name shape rules named =>
    rw [perform] at made
    obtain ⟨b', hb', holds'⟩ := Action.declare_ok holds made
    exact ⟨b', t, by rw [turn, hb']; rfl, holds'⟩
  | check rules named =>
    rw [perform] at made
    obtain ⟨b', hb', holds'⟩ := Action.declare_ok holds made
    exact ⟨b', t, by rw [turn, hb']; rfl, holds'⟩
  | describe description =>
    rw [perform] at made
    obtain ⟨b', hb', holds'⟩ := Action.declare_ok holds made
    cases hb'
    exact ⟨_, t, rfl, holds'⟩
  | compileShape shape =>
    rw [perform, Action.runWith_compileShape holds] at made
    split at made
    · cases made
    · next n hn =>
      cases made
      exact ⟨b, t, by rw [turn, hn]; rfl, holds.of_objects rfl, Nat.le_succ _, fun _ _ => rfl⟩
  | build =>
    rw [perform, Action.runWith_buildSchema holds] at made
    cases made
    exact ⟨b, t.freeze, rfl, (holds.withTable t.freeze).of_objects rfl, Nat.le_succ _,
      fun n hn => Session.lookup_assign_other (Nat.ne_of_lt hn) ..⟩
  | register f overwrite =>
    rw [perform, Action.register] at made
    obtain ⟨t', ht', holds'⟩ := Action.changeTable_ok holds made
    obtain ⟨_, registered, same⟩ := Except.map_eq_ok.mp ht'
    cases same
    exact ⟨b, t', by rw [turn, registered]; rfl, holds'⟩
  | define f overwrite =>
    rw [perform, Action.define, Action.register] at made
    obtain ⟨t', ht', holds'⟩ := Action.changeTable_ok holds made
    obtain ⟨_, registered, same⟩ := Except.map_eq_ok.mp ht'
    cases same
    exact ⟨b, t', by rw [turn, registered]; rfl, holds'⟩
  | unregister key =>
    rw [perform, Action.runWith_bind] at made
    split at made
    · next g s'' hrun =>
      cases made
      obtain ⟨t', ht', holds'⟩ := Action.changeTable_ok holds hrun
      exact ⟨b, t', by rw [turn, ht']; rfl, holds'⟩
    · cases made
  | clear =>
    rw [perform] at made
    obtain ⟨t', ht', holds'⟩ := Action.changeTable_ok holds made
    obtain ⟨_, cleared, same⟩ := Except.map_eq_ok.mp ht'
    cases same
    exact ⟨b, t', by rw [turn, cleared]; rfl, holds'⟩
  | freeze =>
    rw [perform, Action.runWith_bind, Action.runWith_freeze, holds.table_eq] at made
    cases made
    exact ⟨b, t.freeze, rfl, holds.withTable t.freeze, Nat.le_refl _, fun _ _ => rfl⟩

/-- Building never fails. The schema is remembered under its number, which is new, and the table is frozen. -/
theorem build_ok (holds : s.Holds builder table b t) (h : Host) :
    ∃ final, (Request.build.perform h builder table).runWith s = (.ok (b.build s.nextSerial).toObject, final) ∧
      final.Holds builder table b t.freeze ∧ final.schema? s.nextSerial = some (b.build s.nextSerial) ∧
      final.nextSerial = s.nextSerial + 1 :=
  ⟨_, Action.runWith_buildSchema holds, (holds.withTable t.freeze).of_objects rfl, Session.lookup_assign_self .., rfl⟩

/-- Whether it succeeds or fails, a request leaves a builder and a table: those of its turn, or those before it. -/
theorem perform_cases (holds : s.Holds builder table b t) (h : Host) (r : Request) :
    (∃ f, (r.perform h builder table).runWith s = (.error f, s)) ∨
      ∃ v s' b' t', (r.perform h builder table).runWith s = (.ok v, s') ∧ r.turn h b t = .ok (b', t') ∧
        s'.Holds builder table b' t' ∧ s.Later s' := by
  rcases made : (r.perform h builder table).runWith s with ⟨f | v, s'⟩
  · cases perform_error made
    exact .inl ⟨f, rfl⟩
  · obtain ⟨b', t', turned, holds', later⟩ := perform_ok holds made
    exact .inr ⟨v, s', b', t', rfl, turned, holds', later⟩

end Request

/-! ### Scripts -/

namespace Script
variable {builder table : Nat}

/-- Each request of a script succeeds with its turn, or is as good as not made. -/
theorem run_cases {s : Session} {b : SchemaBuilder} {t : FunctionTable} (holds : s.Holds builder table b t) (h : Host)
    (r : Request) (rest : Script) :
    (Script.run builder table ((h, r) :: rest) s).2 = (Script.run builder table rest s).2 ∧
        Script.succeeding builder table ((h, r) :: rest) s = Script.succeeding builder table rest s ∨
      ∃ s' b' t', r.turn h b t = .ok (b', t') ∧ s'.Holds builder table b' t' ∧ s.Later s' ∧
        (Script.run builder table ((h, r) :: rest) s).2 = (Script.run builder table rest s').2 ∧
        Script.succeeding builder table ((h, r) :: rest) s = (h, r) :: Script.succeeding builder table rest s' := by
  rcases Request.perform_cases holds h r with ⟨f, failed⟩ | ⟨v, s', b', t', made, turned, holds', later⟩
  · have not : ¬(Except.error f : Except Fault Value).isOk = true := Bool.false_ne_true
    exact .inl ⟨by simp only [run, failed], by simp only [succeeding, failed, if_neg not]⟩
  · have passed : (Except.ok v : Except Fault Value).isOk = true := rfl
    exact .inr ⟨s', b', t', turned, holds', later, by simp only [run, made],
      by simp only [succeeding, made, if_pos passed]⟩

/-- A script leaves a builder and a table where there were some, and every schema that was made before. -/
theorem run_holds : ∀ (script : Script) {s : Session} {b : SchemaBuilder} {t : FunctionTable}, s.Holds builder table b t →
    ∃ b' t', (Script.run builder table script s).2.Holds builder table b' t' ∧ s.Later (Script.run builder table script s).2
  | [], s, b, t, holds => ⟨b, t, holds, .refl s⟩
  | (h, r) :: rest, s, b, t, holds => by
    rcases run_cases holds h r rest with ⟨same, -⟩ | ⟨s', b', t', -, holds', later, same, -⟩
    · rw [same]
      exact run_holds rest holds
    · rw [same]
      obtain ⟨b'', t'', holds'', later'⟩ := run_holds rest holds'
      exact ⟨b'', t'', holds'', later.trans later'⟩

/-- A script gives the same answers, and leaves the same session, without the requests that fail. -/
theorem run_succeeding : ∀ (script : Script) (s : Session), Script.run builder table (script.succeeding builder table s) s =
    ((Script.run builder table script s).1.filter Except.isOk, (Script.run builder table script s).2)
  | [], s => rfl
  | (h, r) :: rest, s => by
    have ih := run_succeeding rest ((r.perform h builder table).runWith s).2
    rcases made : (r.perform h builder table).runWith s with ⟨f | v, s'⟩
    · -- The rest of the script meets the session as if the request had not been made.
      cases Request.perform_error made
      rw [made] at ih
      have failed : ¬(Except.error f : Except Fault Value).isOk = true := Bool.false_ne_true
      simp only [run, succeeding, made, if_neg failed, List.filter_cons_of_neg failed, ih]
    · rw [made] at ih
      have passed : (Except.ok v : Except Fault Value).isOk = true := rfl
      simp only [run, succeeding, made, if_pos passed, List.filter_cons_of_pos passed, ih]

end Script
end Conform
