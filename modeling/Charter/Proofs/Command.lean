import Charter.Engine.Command
import Charter.Proofs.Transaction

/-!
Running a command, taken apart: it is called, its gates are tried, and behind them it is carried out.
-/

namespace Charter

-- The record that an entity and an id stand for; without both there is none.
def EngineState.Addresses (state : EngineState) (entity id : Option String) (record : Option Record) : Prop :=
  match entity, id with
  | some entity, some id => ∃ store, Fields.get? state.stores entity = some store ∧ store.get? id = .ok record
  | _, _ => record = none

namespace Engine
variable {engine : Engine} {name : String} {input : Record} {request : CommandRequest} {s t : EngineState}
  {command : Ir.Command} {entity : Option String} {record : Option Record}

-- A name and a request mean a command, for an entity or for none, on a record or on none.
structure Called (engine : Engine) (name : String) (request : CommandRequest) (state : EngineState)
    (command : Ir.Command) (entity : Option String) (record : Option Record) : Prop where
  named : engine.ir.command? name request.entity = some command
  owner : (command.entity <|> request.entity) = entity
  read : state.Addresses entity request.id record

-- Reads the record that a command is to run on.
def addressed (entity id : Option String) : Transaction (Option Record) :=
  match entity, id with
  | some entity, some id => Transaction.record? entity id
  | _, _ => pure none

-- The actions of a command and its declared events.
def carryOut (engine : Engine) (command : Ir.Command) (entity : Option String) (input : Record)
    (constraints : List ConstraintOutcome) (start : Progress) : Transaction CommandOutcome := do
  match ← engine.actAll command entity command.actions start with
  | .error outcome => return outcome
  | .ok progress =>
    let result := progress.result.toJson
    let payload := Json.object (Fields.place input "result" result)
    let declared ← Step.each (engine.publish · payload) command.emits
    return .succeeded result constraints (progress.events ++ declared)

-- What a command does once its record was read.
def attend (engine : Engine) (command : Ir.Command) (entity : Option String) (input : Record)
    (request : CommandRequest) (record : Option Record) : Transaction CommandOutcome := do
  let env := engine.commandScope command record input
  match ← .evaluate (engine.gates command entity request.overrides env) with
  | .error outcome => return outcome
  | .ok constraints => engine.carryOut command entity input constraints { env, record }

-- An error is an outcome too.
def settle : Except EngineError CommandOutcome × EngineState → CommandOutcome × EngineState
  | (.ok outcome, state) => (outcome, state)
  | (.error error, state) => (.failed error, state)

-- Publications never fail, and leave the stores alone.
theorem publishAll {payload : Json} {names : List String} {result : Except EngineError (List Event)}
    (ran : Step.each (engine.publish · payload) names s = (result, t)) :
    ∃ declared, result = .ok declared ∧ t.stores = s.stores ∧ t.journal.log = s.journal.log ++ declared := by
  induction names generalizing s t result with
  | nil => cases ran; exact ⟨[], rfl, rfl, by simp⟩
  | cons name rest ih =>
      have first : engine.publish name payload s = (.ok _, _) := rfl
      obtain ⟨error, failed, _⟩ | ⟨event, middle, one, others⟩ := Step.bind_cases ran
      · cases first.symm.trans failed
      cases first.symm.trans one
      cases behind : Step.each (engine.publish · payload) rest _ with
      | mk answer last =>
          obtain ⟨declared, rfl, stores, log⟩ := ih behind
          rw [Step.bind_of_ok behind] at others
          cases others
          refine ⟨_, rfl, stores, ?_⟩
          rw [log, Journal.publish, List.append_assoc]
          rfl

theorem execute_eq : engine.execute command entity input request =
    addressed entity request.id >>= engine.attend command entity input request := by
  unfold execute addressed
  cases entity with
  | none => rfl
  | some owner =>
      cases request.id with
      | none => rfl
      | some id => rfl

theorem settle_state (answer : Except EngineError CommandOutcome × EngineState) : (settle answer).2 = answer.2 := by
  obtain ⟨result, after⟩ := answer
  cases result <;> rfl

theorem run_eq : engine.run name input request s = settle (engine.runNamed name input request s) := by
  unfold run
  cases engine.runNamed name input request s with
  | mk result after => cases result <;> rfl

theorem addressed_of {id : Option String} (read : s.Addresses entity id record) :
    addressed entity id s = (.ok record, s) := by
  cases entity with
  | none => cases read; rfl
  | some owner =>
      cases id with
      | none => cases read; rfl
      | some id =>
          obtain ⟨store, opened, replied⟩ := read
          exact Transaction.record?_of opened replied

theorem addressed_then {α : Type} {id : Option String} {next : Option Record → Transaction α}
    {result : Except EngineError α} (ran : (addressed entity id >>= next) s = (result, t)) :
    (t = s ∧ ∃ error, result = .error error) ∨
      ∃ record, s.Addresses entity id record ∧ next record s = (result, t) := by
  cases entity with
  | none => exact .inr ⟨none, rfl, ran⟩
  | some owner =>
      cases id with
      | none => exact .inr ⟨none, rfl, ran⟩
      | some id =>
          obtain failed | ⟨store, record, opened, replied, went⟩ := Transaction.record?_then ran
          · exact .inl failed
          · exact .inr ⟨record, ⟨store, opened, replied⟩, went⟩

theorem run_called (called : engine.Called name request s command entity record) :
    engine.run name input request s = settle (engine.attend command entity input request record s) := by
  obtain ⟨named, rfl, read⟩ := called
  have begun : engine.runNamed name input request s =
      engine.execute command (command.entity <|> request.entity) input request s := by
    simp only [runNamed, named]
    rfl
  rw [run_eq, begun, execute_eq, Step.bind_of_ok (addressed_of read)]

-- A run that is not called fails without a trace.
theorem run_cases (engine : Engine) (name : String) (input : Record) (request : CommandRequest)
    (s : EngineState) :
    (∃ error, engine.run name input request s = (.failed error, s)) ∨
      ∃ command entity record, engine.Called name request s command entity record ∧
        engine.run name input request s = settle (engine.attend command entity input request record s) := by
  rw [run_eq]
  cases ran : engine.runNamed name input request s with
  | mk result after =>
      obtain ⟨rfl, _, rfl⟩ | ⟨command, named, executing⟩ := Transaction.need_then ran
      · exact .inl ⟨_, rfl⟩
      rw [execute_eq] at executing
      obtain ⟨rfl, error, rfl⟩ | ⟨record, read, attending⟩ := addressed_then executing
      · exact .inl ⟨error, rfl⟩
      · exact .inr ⟨command, _, record, ⟨named, rfl, read⟩, by rw [attending]⟩

end Engine
end Charter
