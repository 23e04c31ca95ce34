import Charter.Engine

/-!
Judging constraints. All constraints of a list are judged, in its order; one that blocks may be
overridden by a request that names its code, if the constraint and its override policy let it.
-/

namespace Charter

structure ConstraintOutcome where
  code : String
  constraintName : String
  severity : Enforcement
  passed : Bool
  expression : String
  message : Option String
  details : Fields Json
  -- What the condition was made of, where it did not hold.
  resolved : List ResolvedValue
  overridden : Bool

namespace ConstraintOutcome

-- A write or command does not go on beside such an outcome.
def isBlocking (outcome : ConstraintOutcome) : Bool :=
  !outcome.passed && !outcome.overridden && outcome.severity == .block

-- The names of the constraints that block.
def blocking (outcomes : List ConstraintOutcome) : List String :=
  (outcomes.filter isBlocking).map (·.constraintName)

end ConstraintOutcome

-- Where a constraint stands: the policy that it names is looked for from there.
structure PolicyScope where
  entity : Option String
  module : Option String

def Ir.Entity.scope (entity : Ir.Entity) : PolicyScope := ⟨some entity.name, entity.module⟩

namespace Engine

-- The details of a constraint; one that cannot be evaluated is null.
def details (engine : Engine) (env : Environment) (details : Fields Ir.Expression) :
    Evaluation (Fields Json) :=
  Step.each (fun (key, e) => do
    match ← Step.attempt (engine.evaluate env e) with
    | some value => return (key, value.toJson)
    | none => return (key, .null)) details

-- Whether a constraint lets itself be overridden. A policy that is not found lets nothing through.
def allowsOverride (engine : Engine) (env : Environment) (scope : PolicyScope)
    (constraint : Ir.Constraint) : Evaluation Bool :=
  if !constraint.overrideable then return false
  else
    match constraint.overridePolicy with
    | none => return true
    | some name =>
      match engine.ir.scopedPolicy? name scope.entity scope.module with
      | some policy => engine.holds env policy.expression
      | none => return false

def isOverridden (engine : Engine) (env : Environment) (scope : PolicyScope) (overrides : List String)
    (constraint : Ir.Constraint) (passed : Bool) : Evaluation Bool :=
  if !passed && constraint.severity == .block && overrides.contains constraint.code then
    engine.allowsOverride env scope constraint
  else return false

def judge (engine : Engine) (env : Environment) (scope : PolicyScope) (overrides : List String)
    (constraint : Ir.Constraint) : Evaluation ConstraintOutcome := do
  let passed ← engine.holds env constraint.expression
  let details ← engine.details env constraint.details
  let overridden ← engine.isOverridden env scope overrides constraint passed
  let resolved ← if passed then pure [] else engine.leaves env constraint.expression
  return {
    code := constraint.code
    constraintName := constraint.name
    severity := constraint.severity
    passed
    expression := constraint.expression.render
    message := constraint.message
    details
    resolved
    overridden }

-- Judges constraints in a scope of their own, where `overrides` are the codes that a request names.
def judgeAll (engine : Engine) (env : Environment) (scope : PolicyScope) (overrides : List String)
    (constraints : List Ir.Constraint) : Evaluation (List ConstraintOutcome) :=
  Step.each (engine.judge env scope overrides) constraints

-- All constraints of an entity, judged on a record. Writes are never overridden.
def judgeRecord (engine : Engine) (entity : Ir.Entity) (record : Record) :
    Evaluation (List ConstraintOutcome) :=
  engine.judgeAll (engine.context.scope (some (Record.values record))) entity.scope [] entity.constraints

-- The constraints of an entity that do not hold of a record.
def violations (engine : Engine) (entity : Ir.Entity) (record : Record) :
    Evaluation (List ConstraintOutcome) := do
  return (← engine.judgeRecord entity record).filter (!·.passed)

def check (engine : Engine) (name : String) (record : Record) : Transaction (List ConstraintOutcome) := do
  let entity ← engine.entity name
  .evaluate (engine.judgeRecord entity record)

end Engine
end Charter
