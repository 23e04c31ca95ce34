import Charter.Fields
import Charter.Vocabulary

/-!
The compiled form of a program: all its declarations in flat lists, each marked with the module and
entity that it was declared in. Names are looked up here, the first declaration of a name counting.
-/

namespace Charter.Ir

inductive Constant where
  | string (value : String)
  | number (value : Float)
  | boolean (value : Bool)
  | null
  | array (items : List Constant)
  -- Keys in the order of their first appearance.
  | object (entries : List (String × Constant))
  deriving Inhabited

-- An operator is kept as text: a document may name one that has no meaning.
inductive Expression where
  | literal (value : Constant)
  | identifier (name : String)
  | member (target : Expression) (property : String)
  | binary (operator : String) (left right : Expression)
  | unary (operator : String) (operand : Expression)
  | call (callee : Expression) (arguments : List Expression)
  | conditional (condition consequent alternate : Expression)
  | array (elements : List Expression)
  | object (properties : List (String × Expression))
  | lambda (params : List String) (body : Expression)
  deriving Inhabited

structure Provenance where
  contentHash : String
  irHash : String
  compilerVersion : String
  schemaVersion : String
  compiledAt : String
  deriving DecidableEq

structure Module where
  name : String
  entities : List String
  commands : List String
  stores : List String
  events : List String
  policies : List String
  deriving DecidableEq

structure Property where
  name : String
  type : TypeRef
  default? : Option Constant
  modifiers : List Modifier

structure Computed where
  name : String
  type : TypeRef
  expression : Expression
  dependencies : List String

structure Relationship where
  name : String
  kind : RelationshipKind
  target : String
  through : Option String
  foreignKey : Option String
  deriving DecidableEq

structure Constraint where
  name : String
  code : String
  expression : Expression
  severity : Enforcement
  message : Option String
  details : Fields Expression
  overrideable : Bool
  overridePolicy : Option String

structure Transition where
  property : String
  source : Constant
  targets : List Constant

structure Entity where
  name : String
  module : Option String
  properties : List Property
  computed : List Computed
  relationships : List Relationship
  commands : List String
  constraints : List Constraint
  policies : List String
  versionProperty : Option String
  versionAtProperty : Option String
  transitions : List Transition

structure Parameter where
  name : String
  type : TypeRef
  required : Bool
  default? : Option Constant

structure Action where
  kind : ActionKind
  target : Option String
  expression : Expression

structure Command where
  name : String
  module : Option String
  entity : Option String
  parameters : List Parameter
  guards : List Expression
  constraints : List Constraint
  actions : List Action
  emits : List String
  returns : Option TypeRef

structure Policy where
  name : String
  module : Option String
  entity : Option String
  action : PolicyAction
  expression : Expression
  message : Option String

structure Store where
  entity : String
  target : String
  config : Fields Constant

structure EventField where
  name : String
  type : TypeRef

structure Event where
  name : String
  channel : String
  payload : List EventField

namespace Entity

def property? (e : Entity) (name : String) : Option Property := e.properties.find? (·.name == name)

def computed? (e : Entity) (name : String) : Option Computed := e.computed.find? (·.name == name)

def relationship? (e : Entity) (name : String) : Option Relationship :=
  e.relationships.find? (·.name == name)

end Entity
end Charter.Ir

namespace Charter

structure Ir where
  version : String
  provenance : Ir.Provenance
  modules : List Ir.Module := []
  entities : List Ir.Entity := []
  stores : List Ir.Store := []
  events : List Ir.Event := []
  commands : List Ir.Command := []
  policies : List Ir.Policy := []

namespace Ir

def formatVersion : String := "1.0"
def schemaVersion : String := "1.0"
def compilerVersion : String := "0.1.0"

def entity? (ir : Ir) (name : String) : Option Entity := ir.entities.find? (·.name == name)

-- The command of an entity if one is given, else the first command of the name anywhere.
def command? (ir : Ir) (name : String) (entity : Option String) : Option Command :=
  ir.commands.find? fun command =>
    command.name == name && match entity with
      | some owner => command.entity == some owner
      | none => true

def event? (ir : Ir) (name : String) : Option Event := ir.events.find? (·.name == name)

def policy? (ir : Ir) (name : String) : Option Policy := ir.policies.find? (·.name == name)

def store? (ir : Ir) (entity : String) : Option Store := ir.stores.find? (·.entity == entity)

-- The policy that a name means inside an entity and a module, from the narrowest scope outward: those of
-- the entity, those of the module itself, those outside of both, and last any of that name.
def scopedPolicy? (ir : Ir) (name : String) (entity module : Option String) : Option Policy :=
  let named := ir.policies.filter (·.name == name)
  let ofEntity := entity.bind fun owner => named.find? (·.entity == some owner)
  let ofModule := module.bind fun scope =>
    named.find? fun policy => policy.entity.isNone && policy.module == some scope
  let unscoped := named.find? fun policy => policy.entity.isNone && policy.module.isNone
  ofEntity <|> ofModule <|> unscoped <|> ir.policy? name

end Ir
end Charter
