import Charter.Ir
import Charter.Json

/-!
The JSON document of a compiled program, the one form that is exchanged with other tools. What a
declaration does not have is left out, and so are maps that are empty.
-/

namespace Charter.Ir

-- A field of a document; `none` is left out.
abbrev Entry := String × Option Json

def record (entries : List Entry) : Json :=
  .object (entries.filterMap fun (key, value) => value.map (key, ·))

def listJson {α : Type} (write : α → Json) (items : List α) : Json := .array (items.map write)

def namesJson (names : List String) : Json := listJson .string names

-- A list or map that is left out when it is empty.
def unlessEmpty {α : Type} (write : List α → Json) (items : List α) : Option Json :=
  if items.isEmpty then none else some (write items)

namespace Constant

def json : Constant → Json
  | .string value => .object [("kind", .string "string"), ("value", .string value)]
  | .number value => .object [("kind", .string "number"), ("value", .ofNumber value)]
  | .boolean value => .object [("kind", .string "boolean"), ("value", .boolean value)]
  | .null => .object [("kind", .string "null")]
  | .array items => .object [("kind", .string "array"), ("value", .array (elements items))]
  | .object entries => .object [("kind", .string "object"), ("value", .object (members entries))]
where
  elements : List Constant → List Json
    | [] => []
    | item :: rest => json item :: elements rest
  members : List (String × Constant) → List (String × Json)
    | [] => []
    | (key, value) :: rest => (key, json value) :: members rest

end Constant

namespace Expression

def json : Expression → Json
  | .literal value => .object [("kind", .string "literal"), ("value", value.json)]
  | .identifier name => .object [("kind", .string "identifier"), ("name", .string name)]
  | .member target property =>
    .object [("kind", .string "member"), ("object", json target), ("property", .string property)]
  | .binary operator left right =>
    .object [("kind", .string "binary"), ("operator", .string operator), ("left", json left),
      ("right", json right)]
  | .unary operator operand =>
    .object [("kind", .string "unary"), ("operator", .string operator), ("operand", json operand)]
  | .call callee arguments =>
    .object [("kind", .string "call"), ("callee", json callee), ("args", .array (items arguments))]
  | .conditional condition consequent alternate =>
    .object [("kind", .string "conditional"), ("condition", json condition),
      ("consequent", json consequent), ("alternate", json alternate)]
  | .array elements => .object [("kind", .string "array"), ("elements", .array (items elements))]
  | .object properties => .object [("kind", .string "object"), ("properties", .array (pairs properties))]
  | .lambda params body =>
    .object [("kind", .string "lambda"), ("params", namesJson params), ("body", json body)]
where
  items : List Expression → List Json
    | [] => []
    | item :: rest => json item :: items rest
  pairs : List (String × Expression) → List Json
    | [] => []
    | (key, value) :: rest => .object [("key", .string key), ("value", json value)] :: pairs rest

end Expression

def typeJson : TypeRef → Json
  | ⟨name, none, nullable⟩ => .object [("name", .string name), ("nullable", .boolean nullable)]
  | ⟨name, some generic, nullable⟩ =>
    .object [("name", .string name), ("generic", typeJson generic), ("nullable", .boolean nullable)]

def Provenance.json (p : Provenance) : Json := .object [
  ("contentHash", .string p.contentHash), ("irHash", .string p.irHash),
  ("compilerVersion", .string p.compilerVersion), ("schemaVersion", .string p.schemaVersion),
  ("compiledAt", .string p.compiledAt)]

def Module.json (m : Module) : Json := .object [
  ("name", .string m.name), ("entities", namesJson m.entities), ("commands", namesJson m.commands),
  ("stores", namesJson m.stores), ("events", namesJson m.events), ("policies", namesJson m.policies)]

def Property.json (p : Property) : Json := record [
  ("name", some (.string p.name)), ("type", some (typeJson p.type)),
  ("defaultValue", p.default?.map Constant.json),
  ("modifiers", some (namesJson (p.modifiers.map (·.word))))]

def Computed.json (c : Computed) : Json := .object [
  ("name", .string c.name), ("type", typeJson c.type), ("expression", c.expression.json),
  ("dependencies", namesJson c.dependencies)]

def Relationship.json (r : Relationship) : Json := record [
  ("name", some (.string r.name)), ("kind", some (.string r.kind.word)),
  ("target", some (.string r.target)), ("through", r.through.map .string),
  ("foreignKey", r.foreignKey.map .string)]

def expressionsJson (fields : Fields Expression) : Json :=
  .object (fields.map fun (key, value) => (key, value.json))

def constantsJson (fields : Fields Constant) : Json :=
  .object (fields.map fun (key, value) => (key, value.json))

def Constraint.json (c : Constraint) : Json := record [
  ("name", some (.string c.name)), ("code", some (.string c.code)),
  ("expression", some c.expression.json), ("severity", some (.string c.severity.word)),
  ("message", c.message.map .string), ("details", unlessEmpty expressionsJson c.details),
  ("overrideable", some (.boolean c.overrideable)),
  ("overridePolicyRef", c.overridePolicy.map .string)]

def Transition.json (t : Transition) : Json := .object [
  ("property", .string t.property), ("from", t.source.json), ("to", listJson Constant.json t.targets)]

def Entity.json (e : Entity) : Json := record [
  ("name", some (.string e.name)), ("module", e.module.map .string),
  ("properties", some (listJson Property.json e.properties)),
  ("computedProperties", some (listJson Computed.json e.computed)),
  ("relationships", some (listJson Relationship.json e.relationships)),
  ("commands", some (namesJson e.commands)),
  ("constraints", some (listJson Constraint.json e.constraints)),
  ("policies", some (namesJson e.policies)), ("versionProperty", e.versionProperty.map .string),
  ("versionAtProperty", e.versionAtProperty.map .string),
  ("transitions", unlessEmpty (listJson Transition.json) e.transitions)]

def Parameter.json (p : Parameter) : Json := record [
  ("name", some (.string p.name)), ("type", some (typeJson p.type)),
  ("required", some (.boolean p.required)), ("defaultValue", p.default?.map Constant.json)]

def Action.json (a : Action) : Json := record [
  ("kind", some (.string a.kind.word)), ("target", a.target.map .string),
  ("expression", some a.expression.json)]

def Command.json (c : Command) : Json := record [
  ("name", some (.string c.name)), ("module", c.module.map .string), ("entity", c.entity.map .string),
  ("parameters", some (listJson Parameter.json c.parameters)),
  ("guards", some (listJson Expression.json c.guards)),
  ("constraints", unlessEmpty (listJson Constraint.json) c.constraints),
  ("actions", some (listJson Action.json c.actions)), ("emits", some (namesJson c.emits)),
  ("returns", c.returns.map typeJson)]

def Policy.json (p : Policy) : Json := record [
  ("name", some (.string p.name)), ("module", p.module.map .string), ("entity", p.entity.map .string),
  ("action", some (.string p.action.word)), ("expression", some p.expression.json),
  ("message", p.message.map .string)]

def Store.json (s : Store) : Json := record [
  ("entity", some (.string s.entity)), ("target", some (.string s.target)),
  ("config", unlessEmpty constantsJson s.config)]

def EventField.json (f : EventField) : Json := .object [
  ("name", .string f.name), ("type", typeJson f.type)]

def Event.json (e : Event) : Json := .object [
  ("name", .string e.name), ("channel", .string e.channel),
  ("payload", listJson EventField.json e.payload)]

end Charter.Ir

namespace Charter
open Ir

-- The document with the given provenance fields.
def Ir.jsonWith (ir : Ir) (provenance : Json) : Json := .object [
  ("version", .string ir.version), ("provenance", provenance),
  ("modules", listJson Module.json ir.modules), ("entities", listJson Entity.json ir.entities),
  ("stores", listJson Store.json ir.stores), ("events", listJson Event.json ir.events),
  ("commands", listJson Command.json ir.commands), ("policies", listJson Policy.json ir.policies)]

def Ir.json (ir : Ir) : Json := ir.jsonWith ir.provenance.json

end Charter
