import Charter.Source.Grammar.Expression

/-!
Declarations: entities and their members, commands, policies, stores, events, and the forms that are
read but have no compiled counterpart. `limit` is the number of levels that expressions and type
arguments may nest.
-/

namespace Charter.Source.Grammar
open Charter.Source.Parser

def keyword (word : String) : Parser Token := expect .keyword word

-- What stands between braces, item by item, added to a state.
def braced {σ : Type} (separators : Parser Unit) (unclosed : Parser Unit) (item : σ → Parser σ)
    (start : σ) : Parser σ :=
  loop (fun state => do
    separators
    if ← accept .punctuation "\x7d" then return .done state
    unclosed
    return .again (← item state)) start

-- A fault where the text ends inside of a declaration.
def notEnded (what name : String) : Parser Unit := do
  if (← current).kind == .endOfInput then fail (.unterminated what name)

-- A name, perhaps with an argument in angle brackets, perhaps nullable.
def typeForm (argument : Parser TypeRef) : Parser TypeRef := do
  let name ← name "type"
  let generic ← after? .operator "<" do
    let inner ← argument
    let _ ← expect .operator ">"
    return inner
  return { name, generic, nullable := ← accept .operator "?" }

def nestedType (limit : Nat) : Nat → Parser TypeRef
  | 0, tokens => typeForm (fail (.tooDeep limit)) tokens
  | levels + 1, tokens => typeForm (nestedType limit levels) tokens

def type (limit : Nat) : Parser TypeRef := nestedType limit limit

-- Properties.

def modifier? (t : Token) : Option Modifier :=
  match t.kind with
  | .identifier | .keyword => Modifier.ofWord? t.value
  | _ => none

-- Modifiers in front of the name. A modifier word with a colon behind it is the name itself.
def leadingModifiers : Parser (List Modifier) :=
  loop (fun modifiers => do
    match modifier? (← current) with
    | none => return .done modifiers
    | some modifier =>
      if (← following).is .punctuation ":" then return .done modifiers
      let _ ← advance
      return .again (modifiers ++ [modifier])) []

def trailingModifiers : Parser (List Modifier) :=
  loop (fun modifiers => do
    match modifier? (← current) with
    | none => return .done modifiers
    | some modifier =>
      let _ ← advance
      return .again (modifiers ++ [modifier])) []

def property (limit : Nat) : Parser Property := do
  let position := (← keyword "property").position
  let leading ← leadingModifiers
  let name ← name "property"
  let _ ← expect .punctuation ":"
  let type ← type limit
  let trailing ← trailingModifiers
  let default? ← after? .operator "=" (expression limit)
  return { name, type, default?, modifiers := leading ++ trailing, position }

def computed (limit : Nat) : Parser Computed := do
  let position := (← advance).position
  let name ← name "computed property"
  let _ ← expect .punctuation ":"
  let type ← type limit
  let _ ← expect .operator "="
  return { name, type, expression := ← expression limit, position }

def relationship (kind : RelationshipKind) : Parser Relationship := do
  let position := (← advance).position
  let relationName ← name "relationship"
  let _ ← expect .punctuation ":"
  let target ← name "relationship target"
  let through ← after? .keyword "through" (name "join entity")
  let foreignKey ← after? .keyword "with" (name "foreign key")
  return { name := relationName, kind, target, through, foreignKey, position }

-- Transitions.

-- A literal; a bare name stands for the string of its letters.
def literalValue (limit : Nat) : Parser Literal := do
  match ← primary (expression limit) with
  | .literal literal => return literal
  | .identifier name => return .string name
  | _ => fail .notLiteral

def literalList (limit : Nat) : Parser (List Literal) :=
  loop (fun literals => do
    skipListSeparators
    if ← accept .punctuation "]" then return .done literals
    return .again (literals ++ [← literalValue limit])) []

def transition (limit : Nat) : Parser Transition := do
  let position := (← keyword "transition").position
  let property ← name "transition property"
  let _ ← keyword "from"
  let source ← literalValue limit
  let _ ← keyword "to"
  let targets ← if ← accept .punctuation "[" then literalList limit else pure [← literalValue limit]
  return { property, source, targets, position }

-- Constraints.

-- The severity behind the colon of a constraint. The word is a name in the expression instead where an
-- operator or the end of the statement follows it.
def inlineSeverity? : Parser (Option Enforcement) := do
  let token ← current
  let next ← following
  let ends := match next.kind with
    | .operator | .newline | .endOfInput => true
    | _ => next.is .punctuation ";" || next.is .punctuation "\x7d"
  if token.kind == .identifier && !ends then
    match Enforcement.ofWord? token.value with
    | some severity =>
      let _ ← advance
      return some severity
    | none => return none
  else return none

-- A constraint block while its fields are read.
structure ConstraintFields where
  code : Option String := none
  expression : Option Expression := none
  severity : Option Enforcement
  message : Option String := none
  details : List (String × Expression) := []
  overrideable : Bool := false
  overridePolicy : Option String := none

def constraintField (limit : Nat) (fields : ConstraintFields) : Parser ConstraintFields := do
  let start := (← current).position
  let key ← name "constraint field"
  let _ ← expect .punctuation ":"
  match key with
  | "severity" =>
    let word ← name "severity"
    match Enforcement.ofWord? word with
    | some severity => return { fields with severity := some severity }
    | none => failAt start (.unknownSeverity word)
  | "expression" => return { fields with expression := some (← expression limit) }
  | "message" => return { fields with message := some (← string "message") }
  | "code" => return { fields with code := some (← nameOrString "constraint code") }
  | "details" =>
    match ← expression limit with
    | .object entries => return { fields with details := entries }
    | _ => fail .notDetails
  | "overridePolicy" =>
    return { fields with overridePolicy := some (← nameOrString "override policy"), overrideable := true }
  | "overrideable" =>
    match ← expression limit with
    | .literal (.boolean flag) => return { fields with overrideable := flag }
    | _ => fail .notFlag
  | other => failAt start (.unknownConstraintField other)

def constraintBlock (limit : Nat) (name : String) (severity : Option Enforcement) (position : Position) :
    Parser Constraint := do
  let _ ← expect .punctuation "\x7b"
  let fields ← braced skipListSeparators (pure ()) (constraintField limit) { severity }
  match fields.expression with
  | none => failAt position (.missingExpression name)
  | some expression =>
    return {
      name, expression, position
      code := fields.code
      severity := fields.severity
      message := fields.message
      details := fields.details
      overrideable := fields.overrideable
      overridePolicy := fields.overridePolicy }

def constraint (limit : Nat) : Parser Constraint := do
  let position := (← keyword "constraint").position
  let name ← name "constraint"
  let severity ← if ← accept .punctuation ":" then inlineSeverity? else pure none
  skipNewlinesBeforeBrace
  if ← isAt .punctuation "\x7b" then constraintBlock limit name severity position
  else
    let expression ← expression limit
    return { name, expression, severity, message := ← message?, position }

-- Commands.

def parameter (limit : Nat) : Parser Parameter := do
  let position := (← current).position
  let name ← declaredName "parameter"
  let type := (← after? .punctuation ":" (type limit)).getD (.named "any")
  let default? ← after? .operator "=" (expression limit)
  return { name, type, required := default?.isNone && !type.nullable, default?, position }

def parameters (limit : Nat) : Parser (List Parameter) := do
  let _ ← expect .punctuation "("
  loop (fun items => do
    skipListSeparators
    if ← accept .punctuation ")" then return .done items
    let item ← parameter limit
    let next ← current
    if !next.is .punctuation "," && !next.is .punctuation ")" then
      fail (.expected "',' or ')' in parameter list" next)
    return .again (items ++ [item])) []

-- The field that an action writes, perhaps named through the instance.
def actionTarget : Parser String := do
  let token ← current
  if (token.is .keyword "self" || token.is .keyword "this") && (← following).is .operator "." then
    let _ ← advance
    let _ ← advance
  name "mutation target"

def endsStatement (t : Token) : Bool :=
  match t.kind with
  | .newline | .endOfInput => true
  | _ => t.is .punctuation ";" || t.is .punctuation "\x7d"

-- An action, after its keyword; nothing if the keyword begins none.
def action? (limit : Nat) (word : String) : Option (Parser (ActionKind × Option String × Expression)) :=
  let assignment (kind : ActionKind) : Parser (ActionKind × Option String × Expression) := do
    let target ← actionTarget
    let _ ← expect .operator "="
    return (kind, some target, ← expression limit)
  match word with
  | "mutate" => some (assignment .mutate)
  | "compute" => some (assignment .compute)
  | "publish" => some do
    let event ← name "event"
    if endsStatement (← current) then return (.publish, some event, .object [])
    return (.publish, some event, ← expression limit)
  | "effect" => some do return (.effect, none, ← expression limit)
  | "persist" => some do return (.persist, none, .identifier "self")
  -- What a command returns is the value of its last computation without a target.
  | "return" => some do return (.compute, none, ← expression limit)
  | _ => none

def statement (limit : Nat) (command : Command) : Parser Command := do
  let token ← current
  if token.kind != .keyword then fail (.expected "a command statement" token)
  match token.value with
  | "guard" =>
    let _ ← advance
    return { command with guards := command.guards ++ [← expression limit] }
  | "constraint" => return { command with constraints := command.constraints ++ [← constraint limit] }
  | "emit" =>
    let _ ← advance
    return { command with emits := command.emits ++ [← name "event"] }
  | word =>
    match action? limit word with
    | some action =>
      let _ ← advance
      let (kind, target, expression) ← action
      let action : Action := { kind, target, expression, position := token.position }
      return { command with actions := command.actions ++ [action] }
    | none => failAt token.position (.unexpectedKeyword word s!"in command '{command.name}'")

def command (limit : Nat) : Parser Command := do
  let position := (← keyword "command").position
  let name ← declaredName "command"
  let parameters ← parameters limit
  let returns ← after? .operator "->" (type limit)
  skipNewlines
  let _ ← expect .punctuation "\x7b"
  braced skipSeparators (notEnded "command" name) (statement limit) { name, parameters, returns, position }

-- Policies.

-- The action of a policy, read by its letters whatever the kind of the token.
def policyAction : Parser PolicyAction := do
  let token ← current
  if token.is .punctuation ":" then return .all
  match PolicyAction.ofWord? token.value with
  | some action =>
    let _ ← advance
    return action
  | none => fail (.expected "policy action (read, write, delete, execute, all, override)" token)

def policy (limit : Nat) : Parser Policy := do
  let position := (← keyword "policy").position
  let name ← name "policy"
  let action ← policyAction
  let _ ← expect .punctuation ":"
  let expression ← expression limit
  return { name, action, expression, message := ← message?, position }

-- Stores.

def configuration (limit : Nat) : Parser (List (String × Expression)) := do
  skipNewlinesBeforeBrace
  if ← isAt .punctuation "\x7b" then
    match ← primary (expression limit) with
    | .object entries => return entries
    | _ => fail .notConfiguration
  else return []

-- The store of the entity around it; the word `in` may be left out.
def entityStore (limit : Nat) (entity : String) : Parser Store := do
  let position := (← keyword "store").position
  let _ ← accept .keyword "in"
  let target ← name "store target"
  return { entity, target, config := ← configuration limit, position }

def store (limit : Nat) : Parser Store := do
  let position := (← keyword "store").position
  let entity ← name "entity"
  let _ ← keyword "in"
  let target ← name "store target"
  return { entity, target, config := ← configuration limit, position }

-- Events.

def eventField (limit : Nat) (fields : List EventField) : Parser (List EventField) := do
  let name ← name "payload field"
  let _ ← expect .punctuation ":"
  return fields ++ [{ name, type := ← type limit }]

def event (limit : Nat) : Parser Event := do
  let position := (← keyword "event").position
  let name ← name "event"
  let channel ← after? .punctuation ":" (string "channel")
  skipNewlinesBeforeBrace
  let payload ← if ← accept .punctuation "\x7b" then
      braced skipListSeparators (pure ()) (eventField limit) []
    else pure []
  return { name, channel, payload, position }

-- Entities.

def entityMember (limit : Nat) (entity : Entity) : Parser Entity := do
  let token ← current
  match token.kind, token.value with
  | .keyword, "property" => return { entity with properties := entity.properties ++ [← property limit] }
  | .keyword, "computed" | .keyword, "derived" =>
    return { entity with computed := entity.computed ++ [← computed limit] }
  | .keyword, "command" => return { entity with commands := entity.commands ++ [← command limit] }
  | .keyword, "constraint" =>
    return { entity with constraints := entity.constraints ++ [← constraint limit] }
  | .keyword, "policy" => return { entity with policies := entity.policies ++ [← policy limit] }
  | .keyword, "store" => return { entity with store := some (← entityStore limit entity.name) }
  | .keyword, "transition" =>
    return { entity with transitions := entity.transitions ++ [← transition limit] }
  | .keyword, word =>
    match RelationshipKind.ofWord? word with
    | some kind => return { entity with relationships := entity.relationships ++ [← relationship kind] }
    | none => fail (.unexpected token s!"entity '{entity.name}'")
  | .identifier, "versionProperty" =>
    let _ ← advance
    return { entity with versionProperty := some (← name "version property") }
  | .identifier, "versionAtProperty" =>
    let _ ← advance
    return { entity with versionAtProperty := some (← name "version timestamp property") }
  | _, _ => fail (.unexpected token s!"entity '{entity.name}'")

def entity (limit : Nat) : Parser Entity := do
  let position := (← keyword "entity").position
  let name ← declaredName "entity"
  skipNewlines
  let _ ← expect .punctuation "\x7b"
  braced skipSeparators (notEnded "entity" name) (entityMember limit) { name, position }

-- Forms without a compiled counterpart.

def flowStep (limit : Nat) (steps : List FlowStep) : Parser (List FlowStep) := do
  let name ← name "flow step"
  let _ ← expect .punctuation ":"
  return steps ++ [{ name, expression := ← expression limit }]

def flow (limit : Nat) : Parser Flow := do
  let position := (← keyword "flow").position
  let name ← declaredName "flow"
  let parameters ← if ← isAt .punctuation "(" then parameters limit else pure []
  let returns ← after? .operator "->" (type limit)
  skipNewlines
  let _ ← expect .punctuation "\x7b"
  let steps ← braced skipListSeparators (pure ()) (flowStep limit) []
  return { name, parameters, returns, steps, position }

def effect (limit : Nat) : Parser Effect := do
  let position := (← keyword "effect").position
  let name ← declaredName "effect"
  let _ ← expect .punctuation ":"
  let kind ← nameOrString "effect kind"
  return { name, kind, config := ← configuration limit, position }

def exposure : Parser Exposure := do
  let position := (← keyword "expose").position
  let entity ← name "entity"
  let _ ← keyword "as"
  let protocol ← nameOrString "protocol"
  skipNewlinesBeforeBrace
  let operations ← if ← accept .punctuation "\x7b" then
      braced skipListSeparators (pure ()) (fun names => return names ++ [← name "operation"]) []
    else pure []
  return { entity, protocol, operations, position }

-- Names joined by points.
def dottedPath : Parser String := do
  loop (fun path => do
    if ← accept .operator "." then return .again (path ++ "." ++ (← name "path segment"))
    else return .done path) (← name "path segment")

def compositionItem (composition : Composition) : Parser Composition := do
  if (← current).is .identifier "connect" then
    let _ ← advance
    let source ← dottedPath
    let _ ← expect .operator "->"
    let target ← dottedPath
    return { composition with connections := composition.connections ++ [{ source, target }] }
  else return { composition with components := composition.components ++ [← name "component"] }

def composition : Parser Composition := do
  let position := (← keyword "compose").position
  let name ← declaredName "composition"
  skipNewlines
  let _ ← expect .punctuation "\x7b"
  braced skipListSeparators (pure ()) compositionItem { name, components := [], connections := [], position }

end Charter.Source.Grammar
