import Conform.Proofs.Configured
import Conform.Proofs.Levels
import Conform.Proofs.Requests

/-!
Refused requests leave no trace. A script might as well be made of the requests that succeed: the answers to these, and
the whole session in the end, are the same. What a schema was built from is not shared with its builder, so
nothing that is asked of the builder later changes it; and a factory remembers no schema whose creation fails.
-/

namespace Conform

/-! ### Factories -/

/-- A creation that fails adds no schema to those of the factory, whether it fails before the schema is built or after. -/
theorem Factory.create_error {h : Host} {config : List (Value × Value)} {f f' : Factory} {e : Fault}
    (failed : (create h config).runWith f = (.error e, f')) : f'.schemas = f.schemas := by
  rw [create_run] at failed
  dsimp only at failed
  split at failed
  · cases failed
    rfl
  · split at failed
    · cases failed
      rfl
    · cases failed

namespace Action

/-- Remembering schemas never fails. -/
theorem runWith_rememberAll : ∀ (schemas : List (Value × Schema)) (s : Session),
    ∃ s', (schemas.forM fun e => discard (remember e.2)).runWith s = (.ok ⟨⟩, s')
  | [], s => ⟨s, rfl⟩
  | e :: rest, s => by
    change ∃ s', ((discard (remember e.2)) >>= fun _ => rest.forM fun e => discard (remember e.2)).runWith s = _
    rw [runWith_bind]
    exact runWith_rememberAll rest { s with schemas := Session.assign e.2.serial e.2 s.schemas }

theorem runWith_creating {α : Type} (schemas : List (Value × Schema)) (table : Nat) (creation : Creation α) (s : Session) :
    let made := creation.runWith ⟨s.table table, schemas, s.nextSerial⟩
    ∃ s', (creating schemas table creation).runWith s = (.ok (made.1, made.2.schemas), s') := by
  intro made
  obtain ⟨s', remembered⟩ := runWith_rememberAll made.2.schemas
    ({ s with nextSerial := made.2.nextSerial }.withObject table (.table made.2.table))
  refine ⟨s', ?_⟩
  unfold creating
  rw [runWith_get_bind]
  change ((made.2.schemas.forM fun e => discard (remember e.2)) >>= fun _ => pure (made.1, made.2.schemas)).runWith
    ({ s with nextSerial := made.2.nextSerial }.withObject table (.table made.2.table)) = _
  rw [runWith_bind, remembered]
  rfl

/-- A factory whose creation fails has the schemas that it had. -/
theorem create_error {factory table : Nat} {schemas : List (Value × Schema)} {s s' : Session} {h : Host}
    {config : List (Value × Value)} {f : Fault} (found : s.objects.lookup factory = some (.factory schemas table))
    (failed : (create factory (Factory.create h config)).runWith s = (.error f, s')) :
    s'.objects.lookup factory = some (.factory schemas table) := by
  unfold create at failed
  rw [runWith_get_bind, found] at failed
  dsimp only at failed
  obtain ⟨s₁, ran⟩ := runWith_creating schemas table (Factory.create h config) s
  rw [runWith_bind, ran] at failed
  dsimp only at failed
  rw [runWith_bind, runWith_put] at failed
  dsimp only at failed
  rw [runWith_lift] at failed
  rcases made : (Factory.create h config).runWith ⟨s.table table, schemas, s.nextSerial⟩ with ⟨e | u, f'⟩
  · rw [made] at failed
    cases failed
    have same : f'.schemas = schemas := Factory.create_error made
    rw [same]
    exact Session.lookup_assign_self ..
  · rw [made] at failed
    cases failed

end Action

/-! ### Builders -/

namespace Script
variable {builder table : Nat} {s : Session} {b : SchemaBuilder} {t : FunctionTable}

/-- What is refused leaves no trace: in the answers to what is not refused, in the session, in schemas that were built
before, and in factories. What is not refused is done with the declaration that it makes: nothing that comes after
the declaration, such as describing the new node, can fail. -/
theorem refused_leave_no_trace (holds : s.Holds builder table b t) (script : Script) :
    Script.run builder table (script.succeeding builder table s) s =
      ((Script.run builder table script s).1.filter Except.isOk, (Script.run builder table script s).2) ∧
    (∀ (h : Host) (r : Request) (f : Fault) (s₁ : Session), (r.perform h builder table).runWith s = (.error f, s₁) → s₁ = s) ∧
    (∀ h, ∃ built, (Request.build.perform h builder table).runWith s = (.ok (b.build s.nextSerial).toObject, built) ∧
      (Script.run builder table script built).2.schema? s.nextSerial = some (b.build s.nextSerial)) ∧
    (∀ h name shape rules named b', b.field h t name shape rules named = .ok b' →
      ∃ (n : Node) (d : Value), b'.fields = b.fields ++ [(name, n)] ∧ n.describe = .ok d) ∧
    ∀ (factory : Nat) (schemas : List (Value × Schema)) (numbered : Nat) (h : Host) (config : List (Value × Value))
      (f : Fault) (s₁ : Session), s.objects.lookup factory = some (.factory schemas numbered) →
      (Action.create factory (Factory.create h config)).runWith s = (.error f, s₁) →
      s₁.objects.lookup factory = some (.factory schemas numbered) := by
  refine ⟨run_succeeding script s, fun h r f s₁ => Request.perform_error, fun h => ?_, fun h name shape rules named b' hf => ?_,
    fun factory schemas numbered h config f s₁ => Action.create_error⟩
  · obtain ⟨built, ran, holdsBuilt, remembered, used⟩ := Request.build_ok holds h
    obtain ⟨-, -, -, later⟩ := script.run_holds holdsBuilt
    have old : s.nextSerial < built.nextSerial := by omega
    exact ⟨built, ran, (later.schemas _ old).trans remembered⟩
  · obtain ⟨-, site, placed, n, hn, rfl⟩ := SchemaBuilder.field_cases hf
    obtain ⟨d, hd⟩ := Workshop.describe_ok (Workshop.compile_levels site placed hn)
    exact ⟨n, d, rfl, hd⟩

/-- Two declarations of a field, a check that no table knows, and a shape: the second and the third are refused. -/
theorem refused_leave_no_trace_of_twice :
    let s := ((Action.make (.builder { name := .text "order" } Session.sharedTable)).runWith .start).2
    let count : Request := .field (.text "count") (.value (.cls (.builtin .int) [])) [] [("max", .int 9)]
    let script : Script := [(.bare, count), (.bare, count), (.bare, .check [.value (.text "even")] []),
      (.bare, .compileShape (.value .absent))]
    s.Holds 2 1 { name := .text "order" } .default ∧ (script.run 2 1 s).1.map Except.isOk = [true, false, false, true] ∧
      (script.succeeding 2 1 s).length = 2 ∧
      Script.run 2 1 (script.succeeding 2 1 s) s = ((script.run 2 1 s).1.filter Except.isOk, (script.run 2 1 s).2) := by
  intro s count script
  have holds : s.Holds 2 1 { name := .text "order" } .default := ⟨rfl, rfl⟩
  exact ⟨holds, by decide +kernel, by decide +kernel, (refused_leave_no_trace holds script).1⟩

end Script
end Conform
