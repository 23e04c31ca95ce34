import Charter.Ir.Export
import Charter.Json.Record

/-!
Reading a document back. Fields that are not known are passed over; one that may be left out may also
be null; anything else that is missing or of another shape refuses the whole document. Every record may
also be written as a list of its fields in order.
-/

namespace Charter.Ir
open Json

-- A constant. One that is nested in an expression may name its kind over an empty object.
def Constant.ofJson? (nested : Bool) (document : Json) : Option Constant := do
  let field := document.part? ["kind", "value"]
  let kind ← word? nested (← field "kind").1
  match kind with
  | "null" =>
    match field "value" with
    | some ⟨.null, _⟩ => some .null
    | some _ => none
    -- A list has all of its fields.
    | none => if document.items?.isSome then none else some .null
  | kind =>
    let value ← field "value"
    match kind with
    | "string" => (string? value.1).map .string
    | "number" => (number? value.1).map .number
    | "boolean" => (boolean? value.1).map .boolean
    | "array" =>
      let items ← items? value.1
      (items.mapM fun item => ofJson? nested item.1).map .array
    | "object" =>
      let members ← members? value.1
      (members.mapM fun member => (ofJson? nested member.2.1).map (member.1, ·)).map .object
    | _ => none
termination_by sizeOf document
decreasing_by
  · have := item.2; have := value.2; omega
  · have := member.2.2; have := value.2; omega

-- The kinds of expressions and the names of their fields, in the order of their numbers.
def Expression.forms : List (String × List String) := [
  ("literal", ["value"]), ("identifier", ["name"]), ("member", ["object", "property"]),
  ("binary", ["operator", "left", "right"]), ("unary", ["operator", "operand"]),
  ("call", ["callee", "args"]), ("conditional", ["condition", "consequent", "alternate"]),
  ("array", ["elements"]), ("object", ["properties"]), ("lambda", ["params", "body"])]

-- The form of a kind. The kind of a nested expression may be given by its number.
def Expression.form? (nested : Bool) : Json → Option (String × List String)
  | .string kind => forms.find? (·.1 == kind)
  | .integer (.ofNat number) => if nested then forms[number]? else none
  | _ => none

def Expression.ofJson? (nested : Bool) (document : Json) : Option Expression := do
  let (kind, names) ← form? nested (← document.tag? "kind").1
  let field := document.part? ("kind" :: names)
  match kind with
  | "literal" => return .literal (← Constant.ofJson? true (← field "value").1)
  | "identifier" => return .identifier (← string? (← field "name").1)
  | "member" =>
    let target ← field "object"
    return .member (← ofJson? true target.1) (← string? (← field "property").1)
  | "binary" =>
    let left ← field "left"
    let right ← field "right"
    return .binary (← string? (← field "operator").1) (← ofJson? true left.1) (← ofJson? true right.1)
  | "unary" =>
    let operand ← field "operand"
    return .unary (← string? (← field "operator").1) (← ofJson? true operand.1)
  | "call" =>
    let callee ← field "callee"
    let arguments ← field "args"
    let items ← items? arguments.1
    return .call (← ofJson? true callee.1) (← items.mapM fun item => ofJson? true item.1)
  | "conditional" =>
    let condition ← field "condition"
    let consequent ← field "consequent"
    let alternate ← field "alternate"
    return .conditional (← ofJson? true condition.1) (← ofJson? true consequent.1)
      (← ofJson? true alternate.1)
  | "array" =>
    let elements ← field "elements"
    let items ← items? elements.1
    return .array (← items.mapM fun item => ofJson? true item.1)
  | "object" =>
    let properties ← field "properties"
    let items ← items? properties.1
    let entries ← items.mapM fun item => do
      let part := item.1.part? ["key", "value"]
      let value ← part "value"
      return (← string? (← part "key").1, ← ofJson? true value.1)
    return .object entries
  | "lambda" =>
    let body ← field "body"
    return .lambda (← names? (← field "params").1) (← ofJson? true body.1)
  | _ => none
termination_by sizeOf document
decreasing_by
  · exact target.2
  · exact left.2
  · exact right.2
  · exact operand.2
  · exact callee.2
  · have := item.2; have := arguments.2; omega
  · exact condition.2
  · exact consequent.2
  · exact alternate.2
  · have := item.2; have := elements.2; omega
  · have := value.2; have := item.2; have := properties.2; omega
  · exact body.2

def type? (document : Json) : Option TypeRef := do
  let field := document.part? ["name", "generic", "nullable"]
  let name ← string? (← field "name").1
  let nullable ← boolean? (← field "nullable").1
  match field "generic" with
  | none => return { name, generic := none, nullable }
  | some ⟨.null, _⟩ => return { name, generic := none, nullable }
  | some generic => return { name, generic := some (← type? generic.1), nullable }
termination_by sizeOf document
decreasing_by exact generic.2

def Provenance.ofJson? (document : Json) : Option Provenance := do
  let field := document.field?
    ["contentHash", "irHash", "compilerVersion", "schemaVersion", "compiledAt"]
  return {
    contentHash := ← string? (← field "contentHash")
    irHash := ← string? (← field "irHash")
    compilerVersion := ← string? (← field "compilerVersion")
    schemaVersion := ← string? (← field "schemaVersion")
    compiledAt := ← string? (← field "compiledAt") }

def Module.ofJson? (document : Json) : Option Module := do
  let field := document.field? ["name", "entities", "commands", "stores", "events", "policies"]
  return {
    name := ← string? (← field "name")
    entities := ← names? (← field "entities")
    commands := ← names? (← field "commands")
    stores := ← names? (← field "stores")
    events := ← names? (← field "events")
    policies := ← names? (← field "policies") }

def Property.ofJson? (document : Json) : Option Property := do
  let field := document.field? ["name", "type", "defaultValue", "modifiers"]
  return {
    name := ← string? (← field "name")
    type := ← type? (← field "type")
    default? := ← optional? (Constant.ofJson? false) (field "defaultValue")
    modifiers := ← list? (choice? Modifier.ofWord?) (← field "modifiers") }

def Computed.ofJson? (document : Json) : Option Computed := do
  let field := document.field? ["name", "type", "expression", "dependencies"]
  return {
    name := ← string? (← field "name")
    type := ← type? (← field "type")
    expression := ← Expression.ofJson? false (← field "expression")
    dependencies := ← names? (← field "dependencies") }

def Relationship.ofJson? (document : Json) : Option Relationship := do
  let field := document.field? ["name", "kind", "target", "through", "foreignKey"]
  return {
    name := ← string? (← field "name")
    kind := ← choice? RelationshipKind.ofWord? (← field "kind")
    target := ← string? (← field "target")
    through := ← optional? string? (field "through")
    foreignKey := ← optional? string? (field "foreignKey") }

def Constraint.ofJson? (document : Json) : Option Constraint := do
  let field := document.field? ["name", "code", "expression", "severity", "message", "details",
    "overrideable", "overridePolicyRef"]
  return {
    name := ← string? (← field "name")
    code := ← string? (← field "code")
    expression := ← Expression.ofJson? false (← field "expression")
    severity := ← choice? Enforcement.ofWord? (← field "severity")
    message := ← optional? string? (field "message")
    details := ← orEmpty? (map? (Expression.ofJson? false)) (field "details")
    overrideable := ← boolean? (← field "overrideable")
    overridePolicy := ← optional? string? (field "overridePolicyRef") }

def Transition.ofJson? (document : Json) : Option Transition := do
  let field := document.field? ["property", "from", "to"]
  return {
    property := ← string? (← field "property")
    source := ← Constant.ofJson? false (← field "from")
    targets := ← list? (Constant.ofJson? false) (← field "to") }

def Entity.ofJson? (document : Json) : Option Entity := do
  let field := document.field? ["name", "module", "properties", "computedProperties", "relationships",
    "commands", "constraints", "policies", "versionProperty", "versionAtProperty", "transitions"]
  return {
    name := ← string? (← field "name")
    module := ← optional? string? (field "module")
    properties := ← list? Property.ofJson? (← field "properties")
    computed := ← list? Computed.ofJson? (← field "computedProperties")
    relationships := ← list? Relationship.ofJson? (← field "relationships")
    commands := ← names? (← field "commands")
    constraints := ← list? Constraint.ofJson? (← field "constraints")
    policies := ← names? (← field "policies")
    versionProperty := ← optional? string? (field "versionProperty")
    versionAtProperty := ← optional? string? (field "versionAtProperty")
    transitions := ← orEmpty? (list? Transition.ofJson?) (field "transitions") }

def Parameter.ofJson? (document : Json) : Option Parameter := do
  let field := document.field? ["name", "type", "required", "defaultValue"]
  return {
    name := ← string? (← field "name")
    type := ← type? (← field "type")
    required := ← boolean? (← field "required")
    default? := ← optional? (Constant.ofJson? false) (field "defaultValue") }

def Action.ofJson? (document : Json) : Option Action := do
  let field := document.field? ["kind", "target", "expression"]
  return {
    kind := ← choice? ActionKind.ofWord? (← field "kind")
    target := ← optional? string? (field "target")
    expression := ← Expression.ofJson? false (← field "expression") }

def Command.ofJson? (document : Json) : Option Command := do
  let field := document.field? ["name", "module", "entity", "parameters", "guards", "constraints",
    "actions", "emits", "returns"]
  return {
    name := ← string? (← field "name")
    module := ← optional? string? (field "module")
    entity := ← optional? string? (field "entity")
    parameters := ← list? Parameter.ofJson? (← field "parameters")
    guards := ← list? (Expression.ofJson? false) (← field "guards")
    constraints := ← orEmpty? (list? Constraint.ofJson?) (field "constraints")
    actions := ← list? Action.ofJson? (← field "actions")
    emits := ← names? (← field "emits")
    returns := ← optional? type? (field "returns") }

def Policy.ofJson? (document : Json) : Option Policy := do
  let field := document.field? ["name", "module", "entity", "action", "expression", "message"]
  return {
    name := ← string? (← field "name")
    module := ← optional? string? (field "module")
    entity := ← optional? string? (field "entity")
    action := ← choice? PolicyAction.ofWord? (← field "action")
    expression := ← Expression.ofJson? false (← field "expression")
    message := ← optional? string? (field "message") }

def Store.ofJson? (document : Json) : Option Store := do
  let field := document.field? ["entity", "target", "config"]
  return {
    entity := ← string? (← field "entity")
    target := ← string? (← field "target")
    config := ← orEmpty? (map? (Constant.ofJson? false)) (field "config") }

def EventField.ofJson? (document : Json) : Option EventField := do
  let field := document.field? ["name", "type"]
  return {
    name := ← string? (← field "name")
    type := ← type? (← field "type") }

def Event.ofJson? (document : Json) : Option Event := do
  let field := document.field? ["name", "channel", "payload"]
  return {
    name := ← string? (← field "name")
    channel := ← string? (← field "channel")
    payload := ← list? EventField.ofJson? (← field "payload") }

end Charter.Ir

namespace Charter
open Ir Json

def Ir.ofJson? (document : Json) : Option Ir := do
  let field := document.field?
    ["version", "provenance", "modules", "entities", "stores", "events", "commands", "policies"]
  return {
    version := ← string? (← field "version")
    provenance := ← Provenance.ofJson? (← field "provenance")
    modules := ← list? Module.ofJson? (← field "modules")
    entities := ← list? Entity.ofJson? (← field "entities")
    stores := ← list? Store.ofJson? (← field "stores")
    events := ← list? Event.ofJson? (← field "events")
    commands := ← list? Command.ofJson? (← field "commands")
    policies := ← list? Policy.ofJson? (← field "policies") }

end Charter
