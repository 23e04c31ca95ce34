import Charter.Operator
import Charter.Vocabulary

/-!
The tree of a source text, as written. Every declaration keeps the position behind its first token.
-/

namespace Charter.Source

inductive Literal where
  | string (value : String)
  | number (value : Float)
  | boolean (value : Bool)
  | null
  deriving DecidableEq, Inhabited

inductive Expression where
  | literal (value : Literal)
  | identifier (name : String)
  | member (object : Expression) (property : String)
  -- An index that is not known when the text is read; a known one is a member.
  | index (object index : Expression)
  | binary (operator : BinaryOperator) (left right : Expression)
  | unary (operator : UnaryOperator) (operand : Expression)
  | call (callee : Expression) (arguments : List Expression)
  | conditional (condition consequent alternate : Expression)
  | array (items : List Expression)
  | object (entries : List (String × Expression))
  | lambda (params : List String) (body : Expression)
  deriving Inhabited

structure Property where
  name : String
  type : TypeRef
  default? : Option Expression
  modifiers : List Modifier
  position : Position

structure Computed where
  name : String
  type : TypeRef
  expression : Expression
  position : Position

structure Relationship where
  name : String
  kind : RelationshipKind
  target : String
  through : Option String
  foreignKey : Option String
  position : Position

-- One shape for a constraint on one line and one in a block.
structure Constraint where
  name : String
  code : Option String := none
  expression : Expression
  severity : Option Enforcement
  message : Option String := none
  details : List (String × Expression) := []
  overrideable : Bool := false
  overridePolicy : Option String := none
  position : Position

structure Parameter where
  name : String
  type : TypeRef
  required : Bool
  default? : Option Expression
  position : Position

structure Action where
  kind : ActionKind
  target : Option String
  expression : Expression
  position : Position

structure Command where
  name : String
  parameters : List Parameter
  guards : List Expression := []
  constraints : List Constraint := []
  actions : List Action := []
  emits : List String := []
  returns : Option TypeRef
  position : Position

structure Policy where
  name : String
  action : PolicyAction
  expression : Expression
  message : Option String
  position : Position

structure Store where
  entity : String
  target : String
  config : List (String × Expression)
  position : Position

structure Transition where
  property : String
  source : Literal
  targets : List Literal
  position : Position

structure Entity where
  name : String
  properties : List Property := []
  computed : List Computed := []
  relationships : List Relationship := []
  commands : List Command := []
  constraints : List Constraint := []
  policies : List Policy := []
  store : Option Store := none
  versionProperty : Option String := none
  versionAtProperty : Option String := none
  transitions : List Transition := []
  position : Position

structure EventField where
  name : String
  type : TypeRef

structure Event where
  name : String
  channel : Option String
  payload : List EventField
  position : Position

structure FlowStep where
  name : String
  expression : Expression

structure Flow where
  name : String
  parameters : List Parameter
  returns : Option TypeRef
  steps : List FlowStep
  position : Position

structure Effect where
  name : String
  kind : String
  config : List (String × Expression)
  position : Position

structure Exposure where
  entity : String
  protocol : String
  operations : List String
  position : Position

structure Connection where
  source : String
  target : String

structure Composition where
  name : String
  components : List String
  connections : List Connection
  position : Position

structure Module where
  name : String
  entities : List Entity := []
  commands : List Command := []
  policies : List Policy := []
  stores : List Store := []
  events : List Event := []
  position : Position

-- The declarations of a text by kind. Those inside a module belong to the module only.
structure Program where
  modules : List Module := []
  entities : List Entity := []
  commands : List Command := []
  policies : List Policy := []
  stores : List Store := []
  events : List Event := []
  flows : List Flow := []
  effects : List Effect := []
  exposures : List Exposure := []
  compositions : List Composition := []

end Charter.Source
