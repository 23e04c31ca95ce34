import Charter.Json
import Charter.Source

/-!
The JSON form of a source tree. Every part that a node may lack is written as null.
-/

namespace Charter.Source

def optional {α : Type} (write : α → Json) : Option α → Json
  | some value => write value
  | none => .null

def listed {α : Type} (write : α → Json) (items : List α) : Json := .array (items.map write)

def optionalText : Option String → Json := optional .string

def texts : List String → Json := listed .string

def positionJson (p : Position) : Json := .object [("line", .integer p.line), ("column", .integer p.column)]

def typeJson : TypeRef → Json
  | ⟨name, generic, nullable⟩ =>
    let argument := match generic with
      | some inner => typeJson inner
      | none => .null
    .object [("name", .string name), ("generic", argument), ("nullable", .boolean nullable)]

namespace Literal

def json : Literal → Json
  | .string value => .object [("string", .string value)]
  | .number value => .object [("number", .ofNumber value)]
  | .boolean value => .object [("boolean", .boolean value)]
  | .null => .string "null"

end Literal

namespace Expression

def json : Expression → Json
  | .literal value => .object [("literal", value.json)]
  | .identifier name => .object [("identifier", .string name)]
  | .member target property =>
    .object [("memberAccess", .object [("object", json target), ("property", .string property)])]
  | .index target key => .object [("index", .object [("object", json target), ("index", json key)])]
  | .binary operator left right =>
    .object [("binaryOp",
      .object [("operator", .string operator.spelling), ("left", json left), ("right", json right)])]
  | .unary operator operand =>
    .object [("unaryOp", .object [("operator", .string operator.spelling), ("operand", json operand)])]
  | .call callee arguments =>
    .object [("call", .object [("callee", json callee), ("arguments", .array (items arguments))])]
  | .conditional condition consequent alternate =>
    .object [("conditional", .object [("condition", json condition), ("consequent", json consequent),
      ("alternate", json alternate)])]
  | .array elements => .object [("array", .array (items elements))]
  | .object entries => .object [("object", .array (pairs entries))]
  | .lambda params body => .object [("lambda", .object [("params", texts params), ("body", json body)])]
where
  items : List Expression → List Json
    | [] => []
    | item :: rest => json item :: items rest
  pairs : List (String × Expression) → List Json
    | [] => []
    | (key, value) :: rest => .array [.string key, json value] :: pairs rest

end Expression

def entriesJson : List (String × Expression) → Json :=
  listed fun (key, value) => .array [.string key, value.json]

def Property.json (p : Property) : Json := .object [
  ("name", .string p.name), ("data_type", typeJson p.type),
  ("default_value", optional Expression.json p.default?),
  ("modifiers", texts (p.modifiers.map (·.word))), ("position", positionJson p.position)]

def Computed.json (c : Computed) : Json := .object [
  ("name", .string c.name), ("data_type", typeJson c.type), ("expression", c.expression.json),
  ("position", positionJson c.position)]

def relationshipKindName : RelationshipKind → String
  | .hasMany => "HasMany"
  | .hasOne => "HasOne"
  | .belongsTo => "BelongsTo"
  | .ref => "Ref"

def Relationship.json (r : Relationship) : Json := .object [
  ("name", .string r.name), ("kind", .string (relationshipKindName r.kind)), ("target", .string r.target),
  ("through", optionalText r.through), ("foreign_key", optionalText r.foreignKey),
  ("position", positionJson r.position)]

def Constraint.json (c : Constraint) : Json := .object [
  ("name", .string c.name), ("code", optionalText c.code), ("expression", c.expression.json),
  ("severity", optionalText (c.severity.map (·.word))), ("message", optionalText c.message),
  ("details", entriesJson c.details), ("overrideable", .boolean c.overrideable),
  ("override_policy", optionalText c.overridePolicy), ("position", positionJson c.position)]

def Parameter.json (p : Parameter) : Json := .object [
  ("name", .string p.name), ("data_type", typeJson p.type), ("required", .boolean p.required),
  ("default_value", optional Expression.json p.default?), ("position", positionJson p.position)]

def actionKindName : ActionKind → String
  | .mutate => "Mutate"
  | .compute => "Compute"
  | .effect => "Effect"
  | .publish => "Publish"
  | .persist => "Persist"

def Action.json (a : Action) : Json := .object [
  ("kind", .string (actionKindName a.kind)), ("target", optionalText a.target),
  ("expression", a.expression.json), ("position", positionJson a.position)]

def Command.json (c : Command) : Json := .object [
  ("name", .string c.name), ("parameters", listed Parameter.json c.parameters),
  ("guards", listed Expression.json c.guards), ("constraints", listed Constraint.json c.constraints),
  ("actions", listed Action.json c.actions), ("emits", texts c.emits),
  ("returns", optional typeJson c.returns), ("position", positionJson c.position)]

def Policy.json (p : Policy) : Json := .object [
  ("name", .string p.name), ("action", .string p.action.word), ("expression", p.expression.json),
  ("message", optionalText p.message), ("position", positionJson p.position)]

def Store.json (s : Store) : Json := .object [
  ("entity", .string s.entity), ("target", .string s.target), ("config", entriesJson s.config),
  ("position", positionJson s.position)]

def Transition.json (t : Transition) : Json := .object [
  ("property", .string t.property), ("from", t.source.json), ("to", listed Literal.json t.targets),
  ("position", positionJson t.position)]

def Entity.json (e : Entity) : Json := .object [
  ("name", .string e.name), ("properties", listed Property.json e.properties),
  ("computed_properties", listed Computed.json e.computed),
  ("relationships", listed Relationship.json e.relationships),
  ("commands", listed Command.json e.commands), ("constraints", listed Constraint.json e.constraints),
  ("policies", listed Policy.json e.policies), ("store", optional Store.json e.store),
  ("version_property", optionalText e.versionProperty),
  ("version_at_property", optionalText e.versionAtProperty),
  ("transitions", listed Transition.json e.transitions), ("position", positionJson e.position)]

def EventField.json (f : EventField) : Json := .object [
  ("name", .string f.name), ("data_type", typeJson f.type)]

def Event.json (e : Event) : Json := .object [
  ("name", .string e.name), ("channel", optionalText e.channel),
  ("payload", listed EventField.json e.payload), ("position", positionJson e.position)]

def FlowStep.json (s : FlowStep) : Json := .object [
  ("name", .string s.name), ("expression", s.expression.json)]

def Flow.json (f : Flow) : Json := .object [
  ("name", .string f.name), ("parameters", listed Parameter.json f.parameters),
  ("returns", optional typeJson f.returns), ("steps", listed FlowStep.json f.steps),
  ("position", positionJson f.position)]

def Effect.json (e : Effect) : Json := .object [
  ("name", .string e.name), ("kind", .string e.kind), ("config", entriesJson e.config),
  ("position", positionJson e.position)]

def Exposure.json (e : Exposure) : Json := .object [
  ("entity", .string e.entity), ("protocol", .string e.protocol), ("operations", texts e.operations),
  ("position", positionJson e.position)]

def Connection.json (c : Connection) : Json := .object [
  ("from", .string c.source), ("to", .string c.target)]

def Composition.json (c : Composition) : Json := .object [
  ("name", .string c.name), ("components", texts c.components),
  ("connections", listed Connection.json c.connections), ("position", positionJson c.position)]

def Module.json (m : Module) : Json := .object [
  ("name", .string m.name), ("entities", listed Entity.json m.entities),
  ("commands", listed Command.json m.commands), ("policies", listed Policy.json m.policies),
  ("stores", listed Store.json m.stores), ("events", listed Event.json m.events),
  ("position", positionJson m.position)]

def Program.json (p : Program) : Json := .object [
  ("modules", listed Module.json p.modules), ("entities", listed Entity.json p.entities),
  ("commands", listed Command.json p.commands), ("policies", listed Policy.json p.policies),
  ("stores", listed Store.json p.stores), ("events", listed Event.json p.events),
  ("flows", listed Flow.json p.flows), ("effects", listed Effect.json p.effects),
  ("exposures", listed Exposure.json p.exposures),
  ("compositions", listed Composition.json p.compositions)]

end Charter.Source
