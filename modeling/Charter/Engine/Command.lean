import Charter.Engine.Write

/-!
Commands. Before a command does anything, its gates are tried in one scope: policies, then guards, then
constraints; the first gate that does not open decides the outcome. Only then the actions run in their
order, each in the scope that the writes before it left behind, and the declared events follow.

Running a command never fails: every error is an outcome too.
-/

namespace Charter

structure PolicyDenial where
  policyName : String
  expression : String
  message : String
  contextKeys : List String
  resolved : List ResolvedValue

structure GuardFailure where
  -- The place among the guards, counted from one.
  index : Nat
  expression : String
  resolved : List ResolvedValue

-- What became of a command. Events are those that it published, as far as it tells of them.
inductive CommandOutcome where
  | succeeded (result : Json) (constraints : List ConstraintOutcome) (events : List Event)
  | denied (denial : PolicyDenial)
  | guarded (failure : GuardFailure)
  | blocked (constraints : List ConstraintOutcome)
  | writeRejected (target : String) (write : WriteOutcome) (events : List Event)
  | failed (error : EngineError)

namespace CommandOutcome

def isSuccess : CommandOutcome → Bool
  | succeeded .. => true
  | _ => false

def events : CommandOutcome → List Event
  | succeeded _ _ events | writeRejected _ _ events => events
  | _ => []

def constraints : CommandOutcome → List ConstraintOutcome
  | succeeded _ constraints _ | blocked constraints => constraints
  | writeRejected _ write _ => write.violations
  | _ => []

def error? : CommandOutcome → Option String
  | succeeded .. => none
  | denied denial => some denial.message
  | guarded failure =>
    let index := failure.index
    let expression := failure.expression
    some s!"Guard {index} failed: {expression}"
  | blocked constraints =>
    some ("Constraint violation: " ++ String.intercalate ", " (ConstraintOutcome.blocking constraints))
  | writeRejected target write _ =>
    let reason := write.description
    some s!"Write to '{target}' rejected: {reason}"
  | failed error => some error.message

end CommandOutcome

-- What a command is asked with, beside its input.
structure CommandRequest where
  entity : Option String := none
  id : Option String := none
  -- The codes of constraints that are to be overridden.
  overrides : List String := []

-- How far the actions of a command have come.
structure Progress where
  env : Environment
  record : Option Record
  result : Value := .undefined
  events : List Event := []

namespace Engine

-- The scope that a command starts in: the fields of the record, then the defaults of parameters without
-- input, then the input, and the reserved names over all.
def commandScope (engine : Engine) (command : Ir.Command) (record : Option Record) (input : Record) :
    Environment :=
  let fields := record.map Record.values
  let defaults := command.parameters.filterMap fun parameter =>
    if Fields.has input parameter.name then none
    else parameter.default?.map fun value => (parameter.name, Value.ofConstant value)
  let env := ((Environment.ofFields (fields.getD [])).defineAll defaults).defineAll (Record.values input)
  engine.context.bindReserved env ((fields.map Value.object).getD .null)

-- The policies that are asked before a command of an entity, or of none.
def executionPolicies (engine : Engine) (entity : Option String) : List Ir.Policy :=
  engine.ir.policies.filter fun policy =>
    policy.action.guardsExecution && (policy.entity.isNone || policy.entity == entity)

-- The denial by the first policy that does not hold.
def denial? (engine : Engine) (env : Environment) : List Ir.Policy → Evaluation (Option PolicyDenial)
  | [] => return none
  | policy :: rest => do
    if ← engine.holds env policy.expression then engine.denial? env rest
    else
      let name := policy.name
      return some {
        policyName := name
        expression := policy.expression.render
        message := policy.message.getD s!"Denied by policy '{name}'"
        contextKeys := policy.expression.contextKeys
        resolved := ← engine.leaves env policy.expression }

-- The failure of the first guard that does not hold; `index` is the place of the next one.
def guardFailure? (engine : Engine) (env : Environment) :
    Nat → List Ir.Expression → Evaluation (Option GuardFailure)
  | _, [] => return none
  | index, guard :: rest => do
    if ← engine.holds env guard then engine.guardFailure? env (index + 1) rest
    else return some { index, expression := guard.render, resolved := ← engine.leaves env guard }

-- The gates of a command: the outcomes of its constraints, or the outcome that it is stopped with.
def gates (engine : Engine) (command : Ir.Command) (entity : Option String) (overrides : List String)
    (env : Environment) : Evaluation (Except CommandOutcome (List ConstraintOutcome)) := do
  match ← engine.denial? env (engine.executionPolicies entity) with
  | some denial => return .error (.denied denial)
  | none =>
    match ← engine.guardFailure? env 1 command.guards with
    | some failure => return .error (.guarded failure)
    | none =>
      let outcomes ← engine.judgeAll env ⟨entity, command.module⟩ overrides command.constraints
      if outcomes.any (·.isBlocking) then return .error (.blocked outcomes) else return .ok outcomes

def event (engine : Engine) (name : String) (payload : Json) (time : Int) : Event where
  name
  channel := ((engine.ir.event? name).map (·.channel)).getD name
  payload
  timestamp := time
  provenance :=
    let p := engine.ir.provenance
    if p.irHash.isEmpty then none else some ⟨p.contentHash, p.irHash, p.compilerVersion⟩

-- Publishes an event at the time that it is made.
def publish (engine : Engine) (name : String) (payload : Json) : Transaction Event := do
  let time ← .evaluate (Evaluation.readClock engine.around)
  let event := engine.event name payload time
  Transaction.publish event
  return event

-- The scope after a write: the fields of the written record come over what was bound before.
def refreshed (engine : Engine) (env : Environment) (record : Record) : Environment :=
  let fields := Record.values record
  engine.context.bindReserved (env.defineAll fields) (.object fields)

-- Sets a property of the record that a command runs on. Without a record the name is bound instead.
def assign (engine : Engine) (entity : Option String) (progress : Progress) (target : String)
    (value : Value) : Transaction (Except CommandOutcome Progress) :=
  match entity, progress.record.bind Record.id? with
  | some entity, some id => do
    match ← engine.update entity id [(target, value.toJson)] with
    | .written record _ =>
      return .ok { progress with env := engine.refreshed progress.env record, record := some record }
    | rejected => return .error (.writeRejected target rejected progress.events)
  | _, _ => return .ok { progress with env := progress.env.define target value }

-- One action. Its value is the result so far; effects and persistence are left to others.
def act (engine : Engine) (command : Ir.Command) (entity : Option String) (progress : Progress)
    (action : Ir.Action) : Transaction (Except CommandOutcome Progress) := do
  let value ← .evaluate (engine.evaluate progress.env action.expression)
  let progress := { progress with result := value }
  match action.kind, action.target with
  | .mutate, some target | .compute, some target => engine.assign entity progress target value
  | .publish, target =>
    let event ← engine.publish (target.getD command.name) value.toJson
    return .ok { progress with events := progress.events ++ [event] }
  | _, _ => return .ok progress

-- The actions in their order, up to one that is stopped.
def actAll (engine : Engine) (command : Ir.Command) (entity : Option String) :
    List Ir.Action → Progress → Transaction (Except CommandOutcome Progress)
  | [], progress => return .ok progress
  | action :: rest, progress => do
    match ← engine.act command entity progress action with
    | .error outcome => return .error outcome
    | .ok progress => engine.actAll command entity rest progress

-- Runs a command of the program for an entity, or for none.
def execute (engine : Engine) (command : Ir.Command) (entity : Option String) (input : Record)
    (request : CommandRequest) : Transaction CommandOutcome := do
  let record ← match entity, request.id with
    | some entity, some id => Transaction.record? entity id
    | _, _ => pure none
  let env := engine.commandScope command record input
  match ← .evaluate (engine.gates command entity request.overrides env) with
  | .error outcome => return outcome
  | .ok constraints =>
    match ← engine.actAll command entity command.actions { env, record } with
    | .error outcome => return outcome
    | .ok progress =>
      let result := progress.result.toJson
      let payload := Json.object (Fields.place input "result" result)
      let declared ← Step.each (engine.publish · payload) command.emits
      return .succeeded result constraints (progress.events ++ declared)

-- Runs the command that a name means. It belongs to its own entity, else to the one it is asked for.
def runNamed (engine : Engine) (name : String) (input : Record) (request : CommandRequest) :
    Transaction CommandOutcome := do
  let command ← .need (engine.ir.command? name request.entity) (.unknownCommand name)
  engine.execute command (command.entity <|> request.entity) input request

def run (engine : Engine) (name : String) (input : Record) (request : CommandRequest)
    (state : EngineState) : CommandOutcome × EngineState :=
  match engine.runNamed name input request state with
  | (.ok outcome, state) => (outcome, state)
  | (.error error, state) => (.failed error, state)

end Engine
end Charter
