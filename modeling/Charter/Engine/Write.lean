import Charter.Engine.Constraint

/-!
Writing records. A record is created with its defaults, and updated by a patch. Before the store is asked
to keep anything, the version that the patch claims, the transitions of its properties, and the constraints
of the entity are checked on the record as it would be.

An update is two requests to the store, with the plan of the write between them.
-/

namespace Charter

-- Why a write was refused.
inductive WriteRejection where
  | notFound (id : String)
  | constraintViolation
  | invalidTransition (property : String) (previous next : Json) (allowed : List Json)
  | versionConflict (expected actual : Json)

-- What became of a write. The violations are the constraints that do not hold of the record, blocking or
-- not.
inductive WriteOutcome where
  | written (record : Record) (violations : List ConstraintOutcome)
  | rejected (rejection : WriteRejection) (violations : List ConstraintOutcome)

namespace WriteOutcome

def violations : WriteOutcome → List ConstraintOutcome
  | written _ violations | rejected _ violations => violations

def description : WriteOutcome → String
  | written .. => "write accepted"
  | rejected (.notFound id) _ => s!"instance '{id}' not found"
  | rejected .constraintViolation violations =>
    "constraint violation: " ++ String.intercalate ", " (ConstraintOutcome.blocking violations)
  | rejected (.invalidTransition property previous next _) _ =>
    let source := previous.text
    let target := next.text
    s!"invalid transition of '{property}' from {source} to {target}"
  | rejected (.versionConflict expected actual) _ =>
    let claimed := expected.text
    let found := actual.text
    s!"version conflict: expected {claimed}, found {found}"

end WriteOutcome

-- The equality of expressions, between data.
def Json.looselyEquals (a b : Json) : Bool := (Value.ofJson a).looselyEquals (.ofJson b)

-- The value of a field; one that is absent is null.
def Record.field (record : Record) (name : String) : Json := (Fields.get? record name).getD .null

namespace Ir

def Constant.toJson (value : Constant) : Json := (Value.ofConstant value).toJson

-- The defaults of an entity's properties.
def Entity.defaults (entity : Entity) : Record :=
  Fields.sorted (entity.properties.filterMap fun property =>
    property.default?.map fun value => (property.name, value.toJson))

-- The values that the rules of an entity let a property go to from a value.
def Entity.allowed (entity : Entity) (property : String) (previous : Json) : List Json :=
  (entity.transitions.filter fun rule =>
    rule.property == property && (Value.ofConstant rule.source).looselyEquals (.ofJson previous)).flatMap
    fun rule => rule.targets.map Constant.toJson

end Ir

namespace Write

-- The first property of a patch that is moved to a value that no rule lets it go to. A property keeps its
-- value freely, and without any value to go to it is not bound.
def invalidTransition? (entity : Ir.Entity) (existing patch : Record) : Option WriteRejection :=
  patch.findSome? fun (property, next) =>
    let previous := Record.field existing property
    if previous.looselyEquals next then none
    else
      let allowed := entity.allowed property previous
      if allowed.isEmpty || allowed.any (·.looselyEquals next) then none
      else some (.invalidTransition property previous next allowed)

-- The version after a version. What counts for less than zero counts for zero.
def nextVersion : Json → Json
  | .null => .integer 1
  | current =>
    let number := (Value.ofJson current).toNumber
    let zero := Binary64.ofInt 0
    Value.numberJson ((if zero < number then number else zero) + Binary64.ofInt 1)

-- A patch with the next version of the record, unless it claims another version than the record has.
def versioned (entity : Ir.Entity) (existing patch : Record) : Except WriteRejection Record :=
  match entity.versionProperty with
  | none => .ok patch
  | some version =>
    let current := Record.field existing version
    let next := Fields.place patch version (nextVersion current)
    match Fields.get? patch version with
    | some claimed =>
      if claimed.looselyEquals current then .ok next else .error (.versionConflict claimed current)
    | none => .ok next

end Write

namespace Engine

-- Fields with the time of the write, if the entity keeps it.
def stamped (engine : Engine) (entity : Ir.Entity) (fields : Record) : Evaluation Record :=
  match entity.versionAtProperty with
  | none => return fields
  | some stamp => return Fields.place fields stamp (.integer (← Evaluation.readClock engine.around))

-- A new record with its first version.
def firstVersion (engine : Engine) (entity : Ir.Entity) (record : Record) : Evaluation Record :=
  if !engine.options.enforceVersions then return record
  else
    match entity.versionProperty with
    | some version => engine.stamped entity (Fields.place record version (.integer 1))
    | none => engine.stamped entity record

def nextVersion (engine : Engine) (entity : Ir.Entity) (existing patch : Record) :
    Evaluation (Except WriteRejection Record) :=
  if !engine.options.enforceVersions then return .ok patch
  else
    match Write.versioned entity existing patch with
    | .error rejection => return .error rejection
    | .ok patch => return .ok (← engine.stamped entity patch)

def create (engine : Engine) (name : String) (data : Record) : Transaction WriteOutcome := do
  let entity ← engine.entity name
  let record ← .evaluate (engine.firstVersion entity (Fields.overlay entity.defaults data))
  let violations ← .evaluate (engine.violations entity record)
  if violations.any (·.isBlocking) then return .rejected .constraintViolation violations
  else return .written (← .insertRecord engine.around name record) violations

-- What an update is to write over an existing record, with the constraints that it violates, or what the
-- update ends in without a write.
def planUpdate (engine : Engine) (entity : Ir.Entity) (existing patch : Record) :
    Evaluation (Except WriteOutcome (Record × List ConstraintOutcome)) := do
  match ← engine.nextVersion entity existing patch with
  | .error rejection => return .error (.rejected rejection [])
  | .ok patch =>
    match Write.invalidTransition? entity existing patch with
    | some rejection => return .error (.rejected rejection [])
    | none =>
      let violations ← engine.violations entity (Fields.overlay existing patch)
      if violations.any (·.isBlocking) then return .error (.rejected .constraintViolation violations)
      else return .ok (patch, violations)

-- Writes what was planned.
def commitUpdate (name id : String) (patch : Record) (violations : List ConstraintOutcome) :
    Transaction WriteOutcome := do
  match ← Transaction.updateRecord name id patch with
  | some record => return .written record violations
  | none => return .rejected (.notFound id) violations

def update (engine : Engine) (name id : String) (patch : Record) : Transaction WriteOutcome := do
  let entity ← engine.entity name
  match ← Transaction.record? name id with
  | none => return .rejected (.notFound id) []
  | some existing =>
    match ← .evaluate (engine.planUpdate entity existing patch) with
    | .error outcome => return outcome
    | .ok (patch, violations) => commitUpdate name id patch violations

end Engine
end Charter
