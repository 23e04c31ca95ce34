import Charter.Ir.Dependencies
import Charter.Source

/-!
From source tree to compiled form. Lowering never fails: a default that is no constant is left out
here and refused elsewhere.
-/

namespace Charter.Source
open Ir (Constant)

def Literal.constant : Literal → Constant
  | .string value => .string value
  | .number value => .number value
  | .boolean value => .boolean value
  | .null => .null

-- The constant that an expression is: a literal, a negated number, or an array or object of constants.
def Expression.constant? : Expression → Option Constant
  | .literal value => some value.constant
  | .unary .negate operand =>
    match constant? operand with
    | some (.number value) => some (.number (-value))
    | _ => none
  | .array elements => (items elements).map .array
  | .object entries => (pairs entries).map fun found => .object (Fields.ofList found)
  | _ => none
where
  items : List Expression → Option (List Constant)
    | [] => some []
    | item :: rest => do return (← constant? item) :: (← items rest)
  pairs : List (String × Expression) → Option (List (String × Constant))
    | [] => some []
    | (key, value) :: rest => do return (key, ← constant? value) :: (← pairs rest)

-- An index becomes a call of the built-in that looks it up.
def Expression.lower : Expression → Ir.Expression
  | .literal value => .literal value.constant
  | .identifier name => .identifier name
  | .member target property => .member (lower target) property
  | .index target key => .call (.identifier "at") [lower target, lower key]
  | .binary operator left right => .binary operator.spelling (lower left) (lower right)
  | .unary operator operand => .unary operator.spelling (lower operand)
  | .call callee arguments => .call (lower callee) (items arguments)
  | .conditional condition consequent alternate =>
    .conditional (lower condition) (lower consequent) (lower alternate)
  | .array elements => .array (items elements)
  | .object entries => .object (pairs entries)
  | .lambda params body => .lambda params (lower body)
where
  items : List Expression → List Ir.Expression
    | [] => []
    | item :: rest => lower item :: items rest
  pairs : List (String × Expression) → List (String × Ir.Expression)
    | [] => []
    | (key, value) :: rest => (key, lower value) :: pairs rest

def Property.lower (p : Property) : Ir.Property where
  name := p.name
  type := p.type
  default? := p.default?.bind Expression.constant?
  modifiers := p.modifiers

def Computed.lower (c : Computed) : Ir.Computed :=
  let expression := c.expression.lower
  { name := c.name, type := c.type, expression, dependencies := expression.dependencies }

def Relationship.lower (r : Relationship) : Ir.Relationship where
  name := r.name
  kind := r.kind
  target := r.target
  through := r.through
  foreignKey := r.foreignKey

-- The code of a constraint; without one of its own its name is the code.
def Constraint.resolvedCode (c : Constraint) : String := c.code.getD c.name

def Constraint.lower (c : Constraint) : Ir.Constraint where
  name := c.name
  code := c.resolvedCode
  expression := c.expression.lower
  severity := c.severity.getD .block
  message := c.message
  details := Fields.ofList (c.details.map fun (key, value) => (key, value.lower))
  overrideable := c.overrideable
  overridePolicy := c.overridePolicy

def Transition.lower (t : Transition) : Ir.Transition where
  property := t.property
  source := t.source.constant
  targets := t.targets.map Literal.constant

def Parameter.lower (p : Parameter) : Ir.Parameter where
  name := p.name
  type := p.type
  required := p.required
  default? := p.default?.bind Expression.constant?

def Action.lower (a : Action) : Ir.Action where
  kind := a.kind
  target := a.target
  expression := a.expression.lower

def Command.lower (module entity : Option String) (c : Command) : Ir.Command where
  name := c.name
  module := module
  entity := entity
  parameters := c.parameters.map Parameter.lower
  guards := c.guards.map Expression.lower
  constraints := c.constraints.map Constraint.lower
  actions := c.actions.map Action.lower
  emits := c.emits
  returns := c.returns

def Policy.lower (module entity : Option String) (p : Policy) : Ir.Policy where
  name := p.name
  module := module
  entity := entity
  action := p.action
  expression := p.expression.lower
  message := p.message

def Store.lower (s : Store) : Ir.Store where
  entity := s.entity
  target := s.target
  config := Fields.ofList (s.config.filterMap fun (key, value) => value.constant?.map (key, ·))

def Event.lower (e : Event) : Ir.Event where
  name := e.name
  channel := e.channel.getD e.name
  payload := e.payload.map fun field => { name := field.name, type := field.type }

def Entity.lower (module : Option String) (e : Entity) : Ir.Entity where
  name := e.name
  module := module
  properties := e.properties.map Property.lower
  computed := e.computed.map Computed.lower
  relationships := e.relationships.map Relationship.lower
  commands := e.commands.map (·.name)
  constraints := e.constraints.map Constraint.lower
  policies := e.policies.map (·.name)
  versionProperty := e.versionProperty
  versionAtProperty := e.versionAtProperty
  transitions := e.transitions.map Transition.lower

-- One level of declarations: a module, or what stands outside of every module.
structure Scope where
  module : Option String
  entities : List Entity
  commands : List Command
  policies : List Policy
  stores : List Store
  events : List Event

def Module.scope (m : Module) : Scope where
  module := some m.name
  entities := m.entities
  commands := m.commands
  policies := m.policies
  stores := m.stores
  events := m.events

def Program.outerScope (p : Program) : Scope where
  module := none
  entities := p.entities
  commands := p.commands
  policies := p.policies
  stores := p.stores
  events := p.events

-- Modules in order, then what stands outside of them.
def Program.scopes (p : Program) : List Scope := p.modules.map Module.scope ++ [p.outerScope]

-- In each scope the parts of its entities come before its own.

def Scope.loweredCommands (s : Scope) : List Ir.Command :=
  s.entities.flatMap (fun e => e.commands.map (Command.lower s.module (some e.name))) ++
    s.commands.map (Command.lower s.module none)

def Scope.loweredPolicies (s : Scope) : List Ir.Policy :=
  s.entities.flatMap (fun e => e.policies.map (Policy.lower s.module (some e.name))) ++
    s.policies.map (Policy.lower s.module none)

def Scope.loweredStores (s : Scope) : List Ir.Store :=
  s.entities.flatMap (fun e => (e.store.map Store.lower).toList) ++ s.stores.map Store.lower

def Module.lower (m : Module) : Ir.Module where
  name := m.name
  entities := m.entities.map (·.name)
  commands := m.commands.map (·.name)
  stores := m.stores.map (·.entity)
  events := m.events.map (·.name)
  policies := m.policies.map (·.name)

def Program.lower (provenance : Ir.Provenance) (p : Program) : Ir where
  version := Ir.formatVersion
  provenance := provenance
  modules := p.modules.map Module.lower
  entities := p.scopes.flatMap fun s => s.entities.map (Entity.lower s.module)
  stores := p.scopes.flatMap Scope.loweredStores
  events := p.scopes.flatMap fun s => s.events.map Event.lower
  commands := p.scopes.flatMap Scope.loweredCommands
  policies := p.scopes.flatMap Scope.loweredPolicies

end Charter.Source
