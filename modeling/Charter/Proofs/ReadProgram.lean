import Charter.Proofs.Fingerprint
import Charter.Proofs.ReadExpression

/-!
Programs are read back from their documents. What comes back is the program, up to the order of the keys in maps,
so it has the same hash.
-/

namespace Charter.Ir
open Json

theorem modifiers_read :
    ReadsSame (list? (choice? Modifier.ofWord?)) fun modifiers => namesJson (modifiers.map (·.word)) := by
  have words : ReadsSame (choice? Modifier.ofWord?) fun m : Modifier => Json.string m.word :=
    word_reads fun m => by cases m <;> rfl
  intro modifiers proper document keyed same
  refine words.list modifiers proper document keyed ?_
  rw [same]
  simp only [namesJson, listJson, List.map_map]
  rfl

theorem Property.reads : ReadsBack isProper ofJson? json ordered := by
  intro p proper document keyed same
  have shows := shows_record keyed same (by simp) ["name", "type", "defaultValue", "modifiers"]
  have default? := (Constant.reads false).optional proper Constant.json_ne_null (shows "defaultValue")
  refine text_reads.required (shows "name") ?_
  refine type_reads.required (shows "type") ?_
  refine default?.bind fun default' properDefault seen => ?_
  refine modifiers_read.required (shows "modifiers") ?_
  exact ⟨_, rfl, properDefault, by rw [ordered, ordered, seen]⟩

theorem Property.keyed : WritesKeyed isProper json := by
  intro p proper
  have default? := Constant.keyed.optional proper
  exact keyed_record (by simp) (by simpa using default?)

theorem Computed.reads : ReadsBack isProper ofJson? json ordered := by
  intro c proper document keyed same
  have shows := shows_object keyed same (by simp) ["name", "type", "expression", "dependencies"]
  refine text_reads.required (shows "name") ?_
  refine type_reads.required (shows "type") ?_
  refine (Expression.reads false _ proper).required (shows "expression") fun expression' properExpression seen => ?_
  refine names_read.required (shows "dependencies") ?_
  exact ⟨_, rfl, properExpression, by rw [ordered, ordered, seen]⟩

theorem Computed.keyed : WritesKeyed isProper json := fun c proper =>
  .object (by simp) (by simp [Expression.keyed c.expression proper])

theorem relationship_reads : ReadsSame Relationship.ofJson? Relationship.json := by
  intro r _ document keyed same
  have kind : ReadsSame (choice? RelationshipKind.ofWord?) fun kind : RelationshipKind => Json.string kind.word :=
    word_reads fun kind => by cases kind <;> rfl
  have shows := shows_record keyed same (by simp) ["name", "kind", "target", "through", "foreignKey"]
  refine text_reads.required (shows "name") ?_
  refine kind.required (shows "kind") ?_
  refine text_reads.required (shows "target") ?_
  refine text_reads.optional text_ne_null (shows "through") ?_
  refine text_reads.optional text_ne_null (shows "foreignKey") ?_
  exact ⟨_, rfl, rfl, rfl⟩

@[simp] theorem keyed_relationship (r : Relationship) : r.json.Keyed :=
  keyed_record (by simp) (by simp)

theorem Constraint.reads : ReadsBack isProper ofJson? json ordered := by
  intro c proper document keyed same
  obtain ⟨properExpression, properDetails⟩ := Bool.and_eq_true_iff.mp proper
  have severity : ReadsSame (choice? Enforcement.ofWord?) fun severity : Enforcement => Json.string severity.word :=
    word_reads fun severity => by cases severity <;> rfl
  have shows := shows_record keyed same (by simp)
    ["name", "code", "expression", "severity", "message", "details", "overrideable", "overridePolicyRef"]
  have details := (Expression.reads false).map c.details properDetails
  refine text_reads.required (shows "name") ?_
  refine text_reads.required (shows "code") ?_
  refine (Expression.reads false _ properExpression).required (shows "expression") fun expression' proper' seen => ?_
  refine severity.required (shows "severity") ?_
  refine text_reads.optional text_ne_null (shows "message") ?_
  refine (details.orEmpty properDetails (shows "details")).bind fun details' properDetails' seen' => ?_
  refine flag_reads.required (shows "overrideable") ?_
  refine text_reads.optional text_ne_null (shows "overridePolicyRef") ?_
  exact ⟨_, rfl, Bool.and_eq_true_iff.mpr ⟨proper', properDetails'⟩, by rw [ordered, ordered, seen, seen']⟩

theorem Constraint.keyed : WritesKeyed isProper json := by
  intro c proper
  obtain ⟨properExpression, properDetails⟩ := Bool.and_eq_true_iff.mp proper
  have details : ∀ document ∈ unlessEmpty expressionsJson c.details, document.Keyed :=
    Expression.keyed.map.unlessEmpty properDetails
  exact keyed_record (by simp) (by simpa [Expression.keyed c.expression properExpression] using details)

theorem Transition.reads : ReadsBack isProper ofJson? json ordered := by
  intro t proper document keyed same
  obtain ⟨properSource, properTargets⟩ := Bool.and_eq_true_iff.mp proper
  have shows := shows_object keyed same (by simp) ["property", "from", "to"]
  have targets := (Constant.reads false).list t.targets properTargets
  refine text_reads.required (shows "property") ?_
  refine (Constant.reads false _ properSource).required (shows "from") fun source' proper' seen => ?_
  refine targets.required (shows "to") fun targets' properTargets' seen' => ?_
  exact ⟨_, rfl, Bool.and_eq_true_iff.mpr ⟨proper', properTargets'⟩, by rw [ordered, ordered, seen, seen']⟩

theorem Transition.keyed : WritesKeyed isProper json := by
  intro t proper
  obtain ⟨properSource, properTargets⟩ := Bool.and_eq_true_iff.mp proper
  exact .object (by simp) (by simp [Constant.keyed t.source properSource, Constant.keyed.list t.targets properTargets])

theorem Entity.reads : ReadsBack isProper ofJson? json ordered := by
  intro e proper document keyed same
  simp only [isProper, Bool.and_eq_true] at proper
  obtain ⟨⟨⟨properProperties, properComputed⟩, properConstraints⟩, properTransitions⟩ := proper
  have shows := shows_record keyed same (by simp)
    ["name", "module", "properties", "computedProperties", "relationships", "commands", "constraints", "policies",
      "versionProperty", "versionAtProperty", "transitions"]
  have transitions := (Transition.reads.list e.transitions properTransitions).orEmpty properTransitions
    (shows "transitions")
  refine text_reads.required (shows "name") ?_
  refine text_reads.optional text_ne_null (shows "module") ?_
  refine (Property.reads.list _ properProperties).required (shows "properties") fun properties' proper₁ seen₁ => ?_
  refine (Computed.reads.list _ properComputed).required (shows "computedProperties") fun computed' proper₂ seen₂ => ?_
  refine relationship_reads.list.required (shows "relationships") ?_
  refine names_read.required (shows "commands") ?_
  refine (Constraint.reads.list _ properConstraints).required (shows "constraints") fun constraints' proper₃ seen₃ => ?_
  refine names_read.required (shows "policies") ?_
  refine text_reads.optional text_ne_null (shows "versionProperty") ?_
  refine text_reads.optional text_ne_null (shows "versionAtProperty") ?_
  refine transitions.bind fun transitions' proper₄ seen₄ => ?_
  refine ⟨_, rfl, by simp only [isProper, proper₁, proper₂, proper₃, proper₄, Bool.and_true], ?_⟩
  rw [ordered, ordered, seen₁, seen₂, seen₃, seen₄]

theorem Entity.keyed : WritesKeyed isProper json := by
  intro e proper
  simp only [isProper, Bool.and_eq_true] at proper
  obtain ⟨⟨⟨properProperties, properComputed⟩, properConstraints⟩, properTransitions⟩ := proper
  have transitions := Transition.keyed.list.unlessEmpty properTransitions
  exact keyed_record (by simp)
    (by simpa [Property.keyed.list e.properties properProperties, Computed.keyed.list e.computed properComputed,
      keyed_list keyed_relationship, Constraint.keyed.list e.constraints properConstraints] using transitions)

theorem Parameter.reads : ReadsBack isProper ofJson? json ordered := by
  intro p proper document keyed same
  have shows := shows_record keyed same (by simp) ["name", "type", "required", "defaultValue"]
  have default? := (Constant.reads false).optional proper Constant.json_ne_null (shows "defaultValue")
  refine text_reads.required (shows "name") ?_
  refine type_reads.required (shows "type") ?_
  refine flag_reads.required (shows "required") ?_
  refine default?.bind fun default' properDefault seen => ?_
  exact ⟨_, rfl, properDefault, by rw [ordered, ordered, seen]⟩

theorem Parameter.keyed : WritesKeyed isProper json := by
  intro p proper
  have default? := Constant.keyed.optional proper
  exact keyed_record (by simp) (by simpa using default?)

theorem Action.reads : ReadsBack isProper ofJson? json ordered := by
  intro a proper document keyed same
  have kind : ReadsSame (choice? ActionKind.ofWord?) fun kind : ActionKind => Json.string kind.word :=
    word_reads fun kind => by cases kind <;> rfl
  have shows := shows_record keyed same (by simp) ["kind", "target", "expression"]
  refine kind.required (shows "kind") ?_
  refine text_reads.optional text_ne_null (shows "target") ?_
  refine (Expression.reads false _ proper).required (shows "expression") fun expression' properExpression seen => ?_
  exact ⟨_, rfl, properExpression, by rw [ordered, ordered, seen]⟩

theorem Action.keyed : WritesKeyed isProper json := fun a proper =>
  keyed_record (by simp) (by simp [Expression.keyed a.expression proper])

theorem Command.reads : ReadsBack isProper ofJson? json ordered := by
  intro c proper document keyed same
  simp only [isProper, Bool.and_eq_true] at proper
  obtain ⟨⟨⟨properParameters, properGuards⟩, properConstraints⟩, properActions⟩ := proper
  have shows := shows_record keyed same (by simp)
    ["name", "module", "entity", "parameters", "guards", "constraints", "actions", "emits", "returns"]
  have guards := (Expression.reads false).list c.guards properGuards
  have constraints := (Constraint.reads.list c.constraints properConstraints).orEmpty properConstraints
    (shows "constraints")
  refine text_reads.required (shows "name") ?_
  refine text_reads.optional text_ne_null (shows "module") ?_
  refine text_reads.optional text_ne_null (shows "entity") ?_
  refine (Parameter.reads.list _ properParameters).required (shows "parameters") fun parameters' proper₁ seen₁ => ?_
  refine guards.required (shows "guards") fun guards' proper₂ seen₂ => ?_
  refine constraints.bind fun constraints' proper₃ seen₃ => ?_
  refine (Action.reads.list _ properActions).required (shows "actions") fun actions' proper₄ seen₄ => ?_
  refine names_read.required (shows "emits") ?_
  refine type_reads.optional type_ne_null (shows "returns") ?_
  refine ⟨_, rfl, by simp only [isProper, proper₁, proper₂, proper₃, proper₄, Bool.and_true], ?_⟩
  rw [ordered, ordered, seen₁, seen₂, seen₃, seen₄]

theorem Command.keyed : WritesKeyed isProper json := by
  intro c proper
  simp only [isProper, Bool.and_eq_true] at proper
  obtain ⟨⟨⟨properParameters, properGuards⟩, properConstraints⟩, properActions⟩ := proper
  have constraints := Constraint.keyed.list.unlessEmpty properConstraints
  exact keyed_record (by simp)
    (by simpa [Parameter.keyed.list c.parameters properParameters, Expression.keyed.list c.guards properGuards,
      Action.keyed.list c.actions properActions] using constraints)

theorem Policy.reads : ReadsBack isProper ofJson? json ordered := by
  intro p proper document keyed same
  have action : ReadsSame (choice? PolicyAction.ofWord?) fun action : PolicyAction => Json.string action.word :=
    word_reads fun action => by cases action <;> rfl
  have shows := shows_record keyed same (by simp) ["name", "module", "entity", "action", "expression", "message"]
  refine text_reads.required (shows "name") ?_
  refine text_reads.optional text_ne_null (shows "module") ?_
  refine text_reads.optional text_ne_null (shows "entity") ?_
  refine action.required (shows "action") ?_
  refine (Expression.reads false _ proper).required (shows "expression") fun expression' properExpression seen => ?_
  refine text_reads.optional text_ne_null (shows "message") ?_
  exact ⟨_, rfl, properExpression, by rw [ordered, ordered, seen]⟩

theorem Policy.keyed : WritesKeyed isProper json := fun p proper =>
  keyed_record (by simp) (by simp [Expression.keyed p.expression proper])

theorem Store.reads : ReadsBack isProper ofJson? json ordered := by
  intro s proper document keyed same
  have shows := shows_record keyed same (by simp) ["entity", "target", "config"]
  have config := (Constant.reads false).map s.config proper
  refine text_reads.required (shows "entity") ?_
  refine text_reads.required (shows "target") ?_
  refine (config.orEmpty proper (shows "config")).bind fun config' properConfig seen => ?_
  exact ⟨_, rfl, properConfig, by rw [ordered, ordered, seen]⟩

theorem Store.keyed : WritesKeyed isProper json := by
  intro s proper
  have config : ∀ document ∈ unlessEmpty constantsJson s.config, document.Keyed :=
    Constant.keyed.map.unlessEmpty proper
  exact keyed_record (by simp) (by simpa using config)

theorem eventField_reads : ReadsSame EventField.ofJson? EventField.json := by
  intro f _ document keyed same
  have shows := shows_object keyed same (by simp) ["name", "type"]
  refine text_reads.required (shows "name") ?_
  refine type_reads.required (shows "type") ?_
  exact ⟨_, rfl, rfl, rfl⟩

@[simp] theorem keyed_eventField (f : EventField) : f.json.Keyed :=
  .object (by simp) (by simp)

theorem event_reads : ReadsSame Event.ofJson? Event.json := by
  intro e _ document keyed same
  have shows := shows_object keyed same (by simp) ["name", "channel", "payload"]
  refine text_reads.required (shows "name") ?_
  refine text_reads.required (shows "channel") ?_
  refine eventField_reads.list.required (shows "payload") ?_
  exact ⟨_, rfl, rfl, rfl⟩

@[simp] theorem keyed_event (e : Event) : e.json.Keyed :=
  .object (by simp) (by simp [keyed_list keyed_eventField])

theorem provenance_reads : ReadsSame Provenance.ofJson? Provenance.json := by
  intro p _ document keyed same
  have shows := shows_object keyed same (by simp)
    ["contentHash", "irHash", "compilerVersion", "schemaVersion", "compiledAt"]
  refine text_reads.required (shows "contentHash") ?_
  refine text_reads.required (shows "irHash") ?_
  refine text_reads.required (shows "compilerVersion") ?_
  refine text_reads.required (shows "schemaVersion") ?_
  refine text_reads.required (shows "compiledAt") ?_
  exact ⟨_, rfl, rfl, rfl⟩

@[simp] theorem keyed_provenance (p : Provenance) : p.json.Keyed :=
  .object (by simp) (by simp)

theorem module_reads : ReadsSame Module.ofJson? Module.json := by
  intro m _ document keyed same
  have shows := shows_object keyed same (by simp) ["name", "entities", "commands", "stores", "events", "policies"]
  refine text_reads.required (shows "name") ?_
  refine names_read.required (shows "entities") ?_
  refine names_read.required (shows "commands") ?_
  refine names_read.required (shows "stores") ?_
  refine names_read.required (shows "events") ?_
  refine names_read.required (shows "policies") ?_
  exact ⟨_, rfl, rfl, rfl⟩

@[simp] theorem keyed_module (m : Module) : m.json.Keyed :=
  .object (by simp) (by simp)

-- A program is read back from any document that is its own up to the order of keys.
theorem reads : ReadsBack isProper ofJson? json ordered := by
  intro ir proper document keyed same
  simp only [isProper, Bool.and_eq_true] at proper
  obtain ⟨⟨⟨properEntities, properStores⟩, properCommands⟩, properPolicies⟩ := proper
  have shows := shows_object keyed same (by simp)
    ["version", "provenance", "modules", "entities", "stores", "events", "commands", "policies"]
  refine text_reads.required (shows "version") ?_
  refine provenance_reads.required (shows "provenance") ?_
  refine module_reads.list.required (shows "modules") ?_
  refine (Entity.reads.list _ properEntities).required (shows "entities") fun entities' proper₁ seen₁ => ?_
  refine (Store.reads.list _ properStores).required (shows "stores") fun stores' proper₂ seen₂ => ?_
  refine event_reads.list.required (shows "events") ?_
  refine (Command.reads.list _ properCommands).required (shows "commands") fun commands' proper₃ seen₃ => ?_
  refine (Policy.reads.list _ properPolicies).required (shows "policies") fun policies' proper₄ seen₄ => ?_
  refine ⟨_, rfl, by simp only [isProper, proper₁, proper₂, proper₃, proper₄, Bool.and_true], ?_⟩
  rw [ordered, ordered, seen₁, seen₂, seen₃, seen₄]

theorem keyed : WritesKeyed isProper json := by
  intro ir proper
  simp only [isProper, Bool.and_eq_true] at proper
  obtain ⟨⟨⟨properEntities, properStores⟩, properCommands⟩, properPolicies⟩ := proper
  exact .object (by simp)
    (by simp [keyed_list keyed_module, Entity.keyed.list ir.entities properEntities,
      Store.keyed.list ir.stores properStores, keyed_list keyed_event, Command.keyed.list ir.commands properCommands,
      Policy.keyed.list ir.policies properPolicies])

end Charter.Ir
