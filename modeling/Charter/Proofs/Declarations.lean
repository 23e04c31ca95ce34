import Charter.Proofs.Ordered

/-!
What the documents of declarations tell of them. The order of keys counts nowhere; the order of everything else
counts, and so does every field.
-/

namespace Charter

theorem Modifier.word_inj {a b : Modifier} : a.word = b.word ↔ a = b := by cases a <;> cases b <;> decide

theorem RelationshipKind.word_inj {a b : RelationshipKind} : a.word = b.word ↔ a = b := by
  cases a <;> cases b <;> decide

theorem Enforcement.word_inj {a b : Enforcement} : a.word = b.word ↔ a = b := by cases a <;> cases b <;> decide

theorem ActionKind.word_inj {a b : ActionKind} : a.word = b.word ↔ a = b := by cases a <;> cases b <;> decide

theorem PolicyAction.word_inj {a b : PolicyAction} : a.word = b.word ↔ a = b := by cases a <;> cases b <;> decide

namespace Ir
open Json

theorem typeJson_eq (type : TypeRef) : typeJson type = record [
    ("name", some (.string type.name)), ("generic", type.generic.map typeJson),
    ("nullable", some (.boolean type.nullable))] := by
  obtain ⟨name, generic, nullable⟩ := type
  cases generic <;> simp [typeJson, record]

theorem tells_type : (type other : TypeRef) → Tells typeJson id type other
  | ⟨name, generic, nullable⟩, ⟨name', generic', nullable'⟩ => by
    have generics : (generic.map typeJson).map canonical = (generic'.map typeJson).map canonical ↔
        generic.map id = generic'.map id :=
      tells_option fun inner _ other _ => tells_type inner other
    rw [Tells, typeJson_eq, typeJson_eq, canonical_record_iff]
    · simp at generics
      simp [generics]
    · simp [Fields.Distinct, Fields.keys]
    · rfl

theorem type_iff {type other : TypeRef} : (typeJson type).canonical = (typeJson other).canonical ↔ type = other :=
  tells_type type other

theorem textOption_iff {text other : Option String} :
    (text.map Json.string).map canonical = (other.map Json.string).map canonical ↔ text = other := by
  cases text <;> cases other <;> simp

theorem plain_type : (type : TypeRef) → (typeJson type).Plain
  | ⟨name, none, nullable⟩ => .object (by simp [Plain.string, Plain.boolean])
  | ⟨name, some generic, nullable⟩ => .object (by simp [Plain.string, Plain.boolean, plain_type generic])

theorem tells_module (m n : Module) : Tells Module.json id m n := by
  rw [Tells, Module.json, Module.json, canonical_fields_iff]
  · cases m
    cases n
    simp [names_iff]
  · simp [Fields.Distinct, Fields.keys]
  · rfl

theorem plain_module (m : Module) : m.json.Plain := .object (by simp [Plain.string, plain_names])

theorem tells_relationship (r q : Relationship) : Tells Relationship.json id r q := by
  rw [Tells, Relationship.json, Relationship.json, canonical_record_iff]
  · cases r
    cases q
    simp [-Option.map_map, textOption_iff, RelationshipKind.word_inj]
  · simp [Fields.Distinct, Fields.keys]
  · rfl

theorem plain_relationship (r : Relationship) : r.json.Plain := plain_record (by simp [Plain.string])

theorem tells_eventField (f g : EventField) : Tells EventField.json id f g := by
  rw [Tells, EventField.json, EventField.json, canonical_fields_iff]
  · cases f
    cases g
    simp [type_iff]
  · simp [Fields.Distinct, Fields.keys]
  · rfl

theorem plain_eventField (f : EventField) : f.json.Plain := .object (by simp [Plain.string, plain_type])

theorem tells_event (e f : Event) : Tells Event.json id e f := by
  rw [Tells, Event.json, Event.json, canonical_fields_iff]
  · cases e
    cases f
    simp [list_iff tells_eventField]
  · simp [Fields.Distinct, Fields.keys]
  · rfl

theorem plain_event (e : Event) : e.json.Plain :=
  .object (by simp [Plain.string, plain_list plain_eventField])

namespace Property

def isProper (p : Property) : Bool := p.default?.all Constant.isProper

def ordered (p : Property) : Property :=
  { p with default? := p.default?.map Constant.ordered }

theorem faithful : Faithful isProper json ordered := by
  intro p q proper proper'
  have defaults := Constant.faithful.option proper proper'
  have words : p.modifiers.map (·.word) = q.modifiers.map (·.word) ↔ p.modifiers = q.modifiers :=
    List.map_inj_right fun _ _ => Modifier.word_inj.mp
  rw [Tells, Property.json, Property.json, canonical_record_iff]
  · simp [-Option.map_map, ordered, type_iff, names_iff, defaults, words]
  · simp [Fields.Distinct, Fields.keys]
  · rfl

theorem plain (p : Property) : p.json.Plain :=
  plain_record (by simp [Plain.string, plain_type, plain_names, Constant.plain])

end Property

namespace Computed

def isProper (c : Computed) : Bool := c.expression.isProper

def ordered (c : Computed) : Computed :=
  { c with expression := c.expression.ordered }

theorem faithful : Faithful isProper json ordered := by
  intro c d proper proper'
  have expressions := Expression.faithful.iff proper proper'
  rw [Tells, Computed.json, Computed.json, canonical_fields_iff]
  · simp [ordered, type_iff, names_iff, expressions]
  · simp [Fields.Distinct, Fields.keys]
  · rfl

theorem plain (c : Computed) : c.json.Plain :=
  .object (by simp [Plain.string, plain_type, plain_names, Expression.plain])

end Computed

namespace Constraint

def isProper (c : Constraint) : Bool := c.expression.isProper && isProperMap Expression.isProper c.details

def ordered (c : Constraint) : Constraint :=
  { c with expression := c.expression.ordered, details := arrange Expression.ordered c.details }

theorem faithful : Faithful isProper json ordered := by
  intro c d proper proper'
  obtain ⟨properExpression, properDetails⟩ := Bool.and_eq_true_iff.mp proper
  obtain ⟨properExpression', properDetails'⟩ := Bool.and_eq_true_iff.mp proper'
  have expressions := Expression.faithful.iff properExpression properExpression'
  have details : (unlessEmpty expressionsJson c.details).map canonical =
      (unlessEmpty expressionsJson d.details).map canonical ↔
      arrange Expression.ordered c.details = arrange Expression.ordered d.details :=
    Expression.faithful.nonemptyMap properDetails properDetails'
  rw [Tells, Constraint.json, Constraint.json, canonical_record_iff]
  · simp [-Option.map_map, ordered, expressions, details, textOption_iff, Enforcement.word_inj]
  · simp [Fields.Distinct, Fields.keys]
  · rfl

theorem plain (c : Constraint) : c.json.Plain := by
  have details : ∀ document ∈ unlessEmpty expressionsJson c.details, document.Plain :=
    plain_unlessEmpty (plain_map Expression.plain) c.details
  exact plain_record (by simpa [Plain.string, Plain.boolean, Expression.plain] using details)

end Constraint

namespace Transition

def isProper (t : Transition) : Bool := t.source.isProper && t.targets.all Constant.isProper

def ordered (t : Transition) : Transition :=
  { t with source := t.source.ordered, targets := t.targets.map Constant.ordered }

theorem faithful : Faithful isProper json ordered := by
  intro t u proper proper'
  obtain ⟨properSource, properTargets⟩ := Bool.and_eq_true_iff.mp proper
  obtain ⟨properSource', properTargets'⟩ := Bool.and_eq_true_iff.mp proper'
  have sources := Constant.faithful.iff properSource properSource'
  have targets := Constant.faithful.list.iff properTargets properTargets'
  rw [Tells, Transition.json, Transition.json, canonical_fields_iff]
  · simp [ordered, sources, targets]
  · simp [Fields.Distinct, Fields.keys]
  · rfl

theorem plain (t : Transition) : t.json.Plain :=
  .object (by simp [Plain.string, Constant.plain, plain_list Constant.plain])

end Transition

namespace Entity

def isProper (e : Entity) : Bool :=
  e.properties.all Property.isProper && e.computed.all Computed.isProper && e.constraints.all Constraint.isProper &&
    e.transitions.all Transition.isProper

def ordered (e : Entity) : Entity :=
  { e with
    properties := e.properties.map Property.ordered
    computed := e.computed.map Computed.ordered
    constraints := e.constraints.map Constraint.ordered
    transitions := e.transitions.map Transition.ordered }

theorem faithful : Faithful isProper json ordered := by
  intro e f proper proper'
  simp only [isProper, Bool.and_eq_true] at proper proper'
  obtain ⟨⟨⟨properProperties, properComputed⟩, properConstraints⟩, properTransitions⟩ := proper
  obtain ⟨⟨⟨properProperties', properComputed'⟩, properConstraints'⟩, properTransitions'⟩ := proper'
  have properties := Property.faithful.list.iff properProperties properProperties'
  have computed := Computed.faithful.list.iff properComputed properComputed'
  have constraints := Constraint.faithful.list.iff properConstraints properConstraints'
  have transitions := Transition.faithful.nonemptyList properTransitions properTransitions'
  rw [Tells, Entity.json, Entity.json, canonical_record_iff]
  · simp [-Option.map_map, ordered, names_iff, textOption_iff, properties, computed, list_iff tells_relationship,
      constraints, transitions]
  · simp [Fields.Distinct, Fields.keys]
  · rfl

theorem plain (e : Entity) : e.json.Plain := by
  have transitions := plain_unlessEmpty (plain_list Transition.plain) e.transitions
  exact plain_record (by
    simpa [Plain.string, plain_names, plain_list Property.plain, plain_list Computed.plain,
      plain_list plain_relationship, plain_list Constraint.plain] using transitions)

end Entity

namespace Parameter

def isProper (p : Parameter) : Bool := p.default?.all Constant.isProper

def ordered (p : Parameter) : Parameter :=
  { p with default? := p.default?.map Constant.ordered }

theorem faithful : Faithful isProper json ordered := by
  intro p q proper proper'
  have defaults := Constant.faithful.option proper proper'
  rw [Tells, Parameter.json, Parameter.json, canonical_record_iff]
  · simp [-Option.map_map, ordered, type_iff, defaults]
  · simp [Fields.Distinct, Fields.keys]
  · rfl

theorem plain (p : Parameter) : p.json.Plain :=
  plain_record (by simp [Plain.string, Plain.boolean, plain_type, Constant.plain])

end Parameter

namespace Action

def isProper (a : Action) : Bool := a.expression.isProper

def ordered (a : Action) : Action :=
  { a with expression := a.expression.ordered }

theorem faithful : Faithful isProper json ordered := by
  intro a b proper proper'
  have expressions := Expression.faithful.iff proper proper'
  rw [Tells, Action.json, Action.json, canonical_record_iff]
  · simp [-Option.map_map, ordered, textOption_iff, ActionKind.word_inj, expressions]
  · simp [Fields.Distinct, Fields.keys]
  · rfl

theorem plain (a : Action) : a.json.Plain := plain_record (by simp [Plain.string, Expression.plain])

end Action

namespace Command

def isProper (c : Command) : Bool :=
  c.parameters.all Parameter.isProper && c.guards.all Expression.isProper && c.constraints.all Constraint.isProper &&
    c.actions.all Action.isProper

def ordered (c : Command) : Command :=
  { c with
    parameters := c.parameters.map Parameter.ordered
    guards := c.guards.map Expression.ordered
    constraints := c.constraints.map Constraint.ordered
    actions := c.actions.map Action.ordered }

theorem faithful : Faithful isProper json ordered := by
  intro c d proper proper'
  simp only [isProper, Bool.and_eq_true] at proper proper'
  obtain ⟨⟨⟨properParameters, properGuards⟩, properConstraints⟩, properActions⟩ := proper
  obtain ⟨⟨⟨properParameters', properGuards'⟩, properConstraints'⟩, properActions'⟩ := proper'
  have parameters := Parameter.faithful.list.iff properParameters properParameters'
  have guards := Expression.faithful.list.iff properGuards properGuards'
  have constraints := Constraint.faithful.nonemptyList properConstraints properConstraints'
  have actions := Action.faithful.list.iff properActions properActions'
  have returns : (c.returns.map typeJson).map canonical = (d.returns.map typeJson).map canonical ↔
      c.returns.map id = d.returns.map id := tells_option fun one _ other _ => tells_type one other
  simp only [Option.map_id_fun, id] at returns
  rw [Tells, Command.json, Command.json, canonical_record_iff]
  · simp [-Option.map_map, ordered, names_iff, textOption_iff, parameters, guards, constraints, actions, returns]
  · simp [Fields.Distinct, Fields.keys]
  · rfl

theorem plain (c : Command) : c.json.Plain := by
  have constraints := plain_unlessEmpty (plain_list Constraint.plain) c.constraints
  exact plain_record (by
    simpa [Plain.string, plain_names, plain_type, plain_list Parameter.plain, plain_list Expression.plain,
      plain_list Action.plain] using constraints)

end Command

namespace Policy

def isProper (p : Policy) : Bool := p.expression.isProper

def ordered (p : Policy) : Policy :=
  { p with expression := p.expression.ordered }

theorem faithful : Faithful isProper json ordered := by
  intro p q proper proper'
  have expressions := Expression.faithful.iff proper proper'
  rw [Tells, Policy.json, Policy.json, canonical_record_iff]
  · simp [-Option.map_map, ordered, textOption_iff, PolicyAction.word_inj, expressions]
  · simp [Fields.Distinct, Fields.keys]
  · rfl

theorem plain (p : Policy) : p.json.Plain := plain_record (by simp [Plain.string, Expression.plain])

end Policy

namespace Store

def isProper (s : Store) : Bool := isProperMap Constant.isProper s.config

def ordered (s : Store) : Store :=
  { s with config := arrange Constant.ordered s.config }

theorem faithful : Faithful isProper json ordered := by
  intro s t proper proper'
  have configs : (unlessEmpty constantsJson s.config).map canonical = (unlessEmpty constantsJson t.config).map canonical ↔
      arrange Constant.ordered s.config = arrange Constant.ordered t.config :=
    Constant.faithful.nonemptyMap proper proper'
  rw [Tells, Store.json, Store.json, canonical_record_iff]
  · simp [-Option.map_map, ordered, configs]
  · simp [Fields.Distinct, Fields.keys]
  · rfl

theorem plain (s : Store) : s.json.Plain := by
  have config : ∀ document ∈ unlessEmpty constantsJson s.config, document.Plain :=
    plain_unlessEmpty (plain_map Constant.plain) s.config
  exact plain_record (by simpa [Plain.string] using config)

end Store

end Ir
end Charter
