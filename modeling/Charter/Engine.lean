import Charter.Compiler
import Charter.Context
import Charter.Journal
import Charter.Rendering
import Charter.Store

/-!
An engine runs one compiled program for a request. What it works on (the stores, the journal, and what
was taken from its surroundings) is a state of its own, and every operation is a transaction over it. A
transaction that fails keeps what it did to the state before it failed.
-/

namespace Charter

-- What becomes of computed properties that depend on each other in a loop: an error, or undefined.
inductive CycleMode where
  | strict
  | permissive
  deriving DecidableEq

namespace CycleMode

def all : List CycleMode := [strict, permissive]

def word : CycleMode → String
  | strict => "strict"
  | permissive => "permissive"

def ofWord? (text : String) : Option CycleMode := all.find? (·.word == text)

end CycleMode

structure EngineOptions where
  requireValidProvenance : Bool := false
  expectedIrHash : Option String := none
  computedCycles : CycleMode := .strict
  enforceVersions : Bool := true
  deriving DecidableEq

inductive EngineError where
  | provenanceMismatch (expected computed : String)
  | storeUnavailable (entity target : String)
  | unknownEntity (name : String)
  | unknownCommand (name : String)
  | unknownRelationship (entity relationship : String)
  | unknownComputed (entity property : String)
  | evaluation (error : EvaluationError)
  | storeRefused (request : StoreRequest)
  deriving DecidableEq

def EngineError.message : EngineError → String
  | provenanceMismatch expected computed =>
    s!"IR provenance verification failed: expected {expected}, computed {computed}"
  | storeUnavailable entity target =>
    s!"store target '{target}' for entity '{entity}' is not available in this runtime"
  | unknownEntity name => s!"unknown entity '{name}'"
  | unknownCommand name => s!"unknown command '{name}'"
  | unknownRelationship entity relationship =>
    s!"unknown relationship '{relationship}' on entity '{entity}'"
  | unknownComputed entity property => s!"unknown computed property '{property}' on entity '{entity}'"
  | evaluation error => error.message
  | storeRefused request =>
    let word := request.word
    s!"store error: {word} refused"

structure Engine where
  ir : Ir
  options : EngineOptions := {}
  around : Surroundings
  context : RequestContext := {}

-- The store of each entity, by the entity's name.
structure EngineState where
  stores : Fields Store := []
  journal : Journal := {}
  usage : Usage := {}

abbrev Transaction := Step EngineState EngineError

namespace Transaction
variable {α : Type}

-- Takes from the surroundings.
def draw (take : Usage → α × Usage) : Transaction α :=
  .total fun state =>
    let (value, usage) := take state.usage
    (value, { state with usage })

def evaluate (evaluation : Evaluation α) : Transaction α := fun state =>
  match evaluation state.usage with
  | (.ok value, usage) => (.ok value, { state with usage })
  | (.error error, usage) => (.error (.evaluation error), { state with usage })

def ofReply (reply : Store.Reply α) : Transaction α :=
  match reply with
  | .ok value => pure value
  | .error request => Step.fail (.storeRefused request)

def need (value : Option α) (error : EngineError) : Transaction α :=
  match value with
  | some value => pure value
  | none => Step.fail error

def store (entity : String) : Transaction Store := fun state =>
  need (Fields.get? state.stores entity) (.unknownEntity entity) state

def putStore (entity : String) (store : Store) : Transaction Unit :=
  .total fun state => ((), { state with stores := Fields.put state.stores entity store })

-- The records of an entity, in the order of its store.
def records (entity : String) : Transaction (List Record) := do
  ofReply (← store entity).all

def record? (entity id : String) : Transaction (Option Record) := do
  ofReply ((← store entity).get? id)

-- Stores a record, which gets an id if it has none.
def insertRecord (around : Surroundings) (entity : String) (record : Record) : Transaction Record := do
  let store ← store entity
  ofReply (store.permit .create)
  let (id, record) ← draw (Record.identified around record)
  putStore entity { store with shelf := store.shelf.insert id record }
  return record

def updateRecord (entity id : String) (patch : Record) : Transaction (Option Record) := do
  let (record, store) ← ofReply ((← store entity).update id patch)
  putStore entity store
  return record

def deleteRecord (entity id : String) : Transaction Bool := do
  let (found, store) ← ofReply ((← store entity).delete id)
  putStore entity store
  return found

def clearRecords (entity : String) : Transaction Unit := do
  putStore entity (← ofReply (← store entity).clear)

def publish (event : Event) : Transaction Unit :=
  .total fun state => ((), { state with journal := state.journal.publish event })

end Transaction

namespace Engine

def entity (engine : Engine) (name : String) : Transaction Ir.Entity :=
  .need (engine.ir.entity? name) (.unknownEntity name)

def evaluate (engine : Engine) (env : Environment) (e : Ir.Expression) : Evaluation Value :=
  Charter.evaluate engine.around env e

-- Whether a condition holds.
def holds (engine : Engine) (env : Environment) (e : Ir.Expression) : Evaluation Bool := do
  return (← engine.evaluate env e).isTruthy

-- The values of the leaves of a condition that did not hold.
def leaves (engine : Engine) (env : Environment) (e : Ir.Expression) : Evaluation (List ResolvedValue) :=
  .total (resolveLeaves engine.around env e)

-- The value of an expression about some fields, or about none.
def evaluateAbout (engine : Engine) (fields : Option Record) (e : Ir.Expression) : Evaluation Value :=
  engine.evaluate (engine.context.scope (fields.map Record.values)) e

-- Opening an engine.

-- The hash of the program must be the recorded one, and the expected one if any is given.
def checkProvenance (ir : Ir) (options : EngineOptions) : Except EngineError Unit := do
  if options.requireValidProvenance then
    let computed := ir.computedHash
    if computed != ir.provenance.irHash then
      throw (.provenanceMismatch ir.provenance.irHash computed)
    match options.expectedIrHash with
    | some expected => if expected != computed then throw (.provenanceMismatch expected computed)
    | none => return ()

def memoryTarget : String := "memory"

-- The store of an entity: one that is provided, else the one that the program declares. Only stores in
-- memory can be opened, and that is what an entity without a declaration gets.
def storeFor (ir : Ir) (provided : Fields Store) (entity : String) : Except EngineError Store :=
  match Fields.get? provided entity with
  | some store => .ok store
  | none =>
    let target := ((ir.store? entity).map (·.target)).getD memoryTarget
    if target == memoryTarget then .ok {} else .error (.storeUnavailable entity target)

def storesFor (ir : Ir) (provided : Fields Store) : Except EngineError (Fields Store) :=
  ir.entities.foldlM (fun stores entity => do
    return Fields.put stores entity.name (← storeFor ir provided entity.name)) []

-- The state that an engine starts from.
def start (engine : Engine) (provided : Fields Store) (usage : Usage) : Except EngineError EngineState := do
  checkProvenance engine.ir engine.options
  return { stores := ← storesFor engine.ir provided, usage }

end Engine
end Charter
