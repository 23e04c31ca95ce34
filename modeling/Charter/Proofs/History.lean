import Charter.Proofs.Session

/-!
The history of a session: what its operations wrote, the newest write first. A command writes the updates
that its actions ask for, up to the action that it stops at.
-/

namespace Charter

-- A write of a record that was accepted.
inductive Written where
  | created (name id : String)
  | updated (name id : String) (patch : Record)

namespace Engine
variable {engine : Engine} {command : Ir.Command} {entity : Option String} {progress : Progress}
  {action : Ir.Action} {s t : EngineState}

def writtenByCreate (name : String) : Except EngineError WriteOutcome → List Written
  | .ok (.written record _) => (Record.id? record).toList.map (.created name)
  | _ => []

def writtenByUpdate (name id : String) (patch : Record) : Except EngineError WriteOutcome → List Written
  | .ok (.written ..) => [.updated name id patch]
  | _ => []

-- The update that an action asks for, if it sets a property of the record that the command runs on.
def asked (entity : Option String) (progress : Progress) (action : Ir.Action) (value : Value) : List Written :=
  match action.kind, action.target, entity, progress.record.bind Record.id? with
  | .mutate, some target, some owner, some id | .compute, some target, some owner, some id =>
    [.updated owner id [(target, value.toJson)]]
  | _, _, _, _ => []

-- An action that is stopped wrote nothing.
def writtenByAct (entity : Option String) (progress : Progress) (action : Ir.Action) :
    Except EngineError (Except CommandOutcome Progress) → List Written
  | .ok (.ok next) => asked entity progress action next.result
  | _ => []

def writtenByActions (engine : Engine) (command : Ir.Command) (entity : Option String) :
    List Ir.Action → Progress → EngineState → List Written
  | [], _, _ => []
  | action :: rest, progress, state =>
    match engine.act command entity progress action state with
    | (.ok (.ok next), after) =>
      engine.writtenByActions command entity rest next after ++ asked entity progress action next.result
    | _ => []

-- What a command writes that runs on a record, or on none.
def writtenByCommand (engine : Engine) (command : Ir.Command) (entity : Option String) (input : Record)
    (request : CommandRequest) (record : Option Record) (state : EngineState) : List Written :=
  let env := engine.commandScope command record input
  match Transaction.evaluate (engine.gates command entity request.overrides env) state with
  | (.ok (.ok _), state) => engine.writtenByActions command entity command.actions { env, record } state
  | _ => []

def writtenByRun (engine : Engine) (name : String) (input : Record) (request : CommandRequest)
    (state : EngineState) : List Written :=
  match engine.ir.command? name request.entity with
  | none => []
  | some command =>
    let entity := command.entity <|> request.entity
    match addressed entity request.id state with
    | (.ok record, state) => engine.writtenByCommand command entity input request record state
    | _ => []

end Engine

namespace Session

def written (session : Session) (operation : Operation) : List Written :=
  let engine := session.engine
  match operation with
  | .create name data => Engine.writtenByCreate name (engine.create name data session.state).1
  | .update name id patch => Engine.writtenByUpdate name id patch (engine.update name id patch session.state).1
  | .run name input request => engine.writtenByRun name input request session.state
  | .delete .. | .clear .. | .inContext .. => []

def history (session : Session) : List Operation → List Written
  | [] => []
  | operation :: rest => (session.perform operation).history rest ++ session.written operation

end Session

namespace Engine
variable {engine : Engine} {command : Ir.Command} {entity : Option String} {progress : Progress}
  {action : Ir.Action} {value : Value} {I : List Written → Fields Store → Prop} {past : List Written}
  {s t : EngineState}

theorem writtenByCreate_unwritten {name : String} {result : Except EngineError WriteOutcome}
    (unwritten : Unwritten result) : writtenByCreate name result = [] := by
  unfold writtenByCreate
  split
  · exact absurd rfl (unwritten _ _)
  · rfl

theorem writtenByUpdate_unwritten {name id : String} {patch : Record} {result : Except EngineError WriteOutcome}
    (unwritten : Unwritten result) : writtenByUpdate name id patch result = [] := by
  unfold writtenByUpdate
  split
  · exact absurd rfl (unwritten _ _)
  · rfl

theorem asked_of_sets {target owner id : String} (sets : action.Sets target) (owned : entity = some owner)
    (identified : progress.record.bind Record.id? = some id) :
    asked entity progress action value = [.updated owner id [(target, value.toJson)]] := by
  obtain ⟨kind, named⟩ := sets
  rcases kind with kind | kind <;> simp only [asked, kind, named, owned, identified]

theorem asked_of_unaddressed (unaddressed : entity = none ∨ progress.record.bind Record.id? = none) :
    asked entity progress action value = [] := by
  unfold asked
  split
  · next owned identified => rcases unaddressed with none | none <;> simp_all
  · next owned identified => rcases unaddressed with none | none <;> simp_all
  · rfl

theorem asked_of_unset (unset : ∀ target, ¬ action.Sets target) : asked entity progress action value = [] := by
  obtain ⟨kind, target, expression⟩ := action
  cases target with
  | none => cases kind <;> rfl
  | some target =>
      cases kind with
      | mutate => exact absurd ⟨.inl rfl, rfl⟩ (unset target)
      | compute => exact absurd ⟨.inr rfl, rfl⟩ (unset target)
      | _ => rfl

-- No update that is written breaks a property of the history and the stores together.
def UpdatesExtend (engine : Engine) (I : List Written → Fields Store → Prop) : Prop :=
  ∀ name id patch past before record violations after, Fields.Ascending patch →
    engine.Updated name id patch before record violations after → I past before.stores →
      I (.updated name id patch :: past) after.stores

theorem act_extends (extend : engine.UpdatesExtend I)
    {result : Except EngineError (Except CommandOutcome Progress)}
    (ran : engine.act command entity progress action s = (result, t)) (before : I past s.stores) :
    I (writtenByAct entity progress action result ++ past) t.stores := by
  unfold writtenByAct
  cases act_cases ran with
  | unevaluated => exact before
  | published _ kind =>
      have unset : ∀ target, ¬ action.Sets target := fun _ sets => by
        rcases sets.1 with other | other <;> cases kind.symm.trans other
      simp only [asked_of_unset unset]
      exact before
  | bound _ _ unaddressed =>
      simp only [asked_of_unaddressed unaddressed]
      exact before
  | written _ sets owned identified updated =>
      simp only [asked_of_sets sets owned identified]
      exact extend _ _ _ _ _ _ _ _ (List.pairwise_singleton _ _) (updated_of_written updated) before
  | refused _ _ _ _ updated | failed _ _ _ _ updated =>
      obtain ⟨still, _⟩ | ⟨_, _, impossible, _⟩ := update_cases updated
      · exact still.stores ▸ before
      · cases impossible
  | idle _ _ unset =>
      simp only [asked_of_unset unset]
      exact before

theorem actAll_extends (extend : engine.UpdatesExtend I) {actions : List Ir.Action}
    {result : Except EngineError (Except CommandOutcome Progress)}
    (ran : engine.actAll command entity actions progress s = (result, t)) (before : I past s.stores) :
    I (engine.writtenByActions command entity actions progress s ++ past) t.stores := by
  induction actions generalizing progress s past with
  | nil => cases ran; exact before
  | cons action rest ih =>
      unfold writtenByActions
      unfold actAll at ran
      cases acted : engine.act command entity progress action s with
      | mk answer middle =>
          have wrote := act_extends extend acted before
          cases answer with
          | error error =>
              rw [Step.bind_of_error acted] at ran
              cases ran
              exact wrote
          | ok outcome =>
              rw [Step.bind_of_ok acted] at ran
              cases outcome with
              | error outcome => cases ran; exact wrote
              | ok next =>
                  rw [List.append_assoc]
                  exact ih ran wrote

theorem carryOut_extends (extend : engine.UpdatesExtend I) {input : Record} {constraints : List ConstraintOutcome}
    {result : Except EngineError CommandOutcome}
    (ran : engine.carryOut command entity input constraints progress s = (result, t)) (before : I past s.stores) :
    I (engine.writtenByActions command entity command.actions progress s ++ past) t.stores := by
  obtain ⟨_, acted, _⟩ | ⟨answer, _, acted, going⟩ := Step.bind_cases ran
  · exact actAll_extends extend acted before
  have wrote := actAll_extends extend acted before
  cases answer with
  | error outcome => cases going; exact wrote
  | ok last =>
      obtain ⟨_, failed, _⟩ | ⟨_, _, published, ended⟩ := Step.bind_cases going
      · obtain ⟨_, impossible, _⟩ := publishAll failed
        cases impossible
      · cases ended
        obtain ⟨_, _, same, _⟩ := publishAll published
        exact same ▸ wrote

theorem attend_extends (extend : engine.UpdatesExtend I) {input : Record} {request : CommandRequest}
    {record : Option Record} {result : Except EngineError CommandOutcome}
    (ran : engine.attend command entity input request record s = (result, t)) (before : I past s.stores) :
    I (engine.writtenByCommand command entity input request record s ++ past) t.stores := by
  unfold writtenByCommand
  obtain ⟨_, _, failed, _, rfl⟩ | ⟨answer, _, tried, going⟩ := Transaction.evaluate_then ran
  · simp only [Transaction.evaluate_of_error failed]
    exact before
  simp only [Transaction.evaluate_of_ok tried]
  cases answer with
  | error outcome => cases going; exact before
  | ok constraints => exact carryOut_extends extend going before

theorem addressed_same {id : Option String} {result : Except EngineError (Option Record)}
    (read : addressed entity id s = (result, t)) : t = s := by
  cases entity with
  | none => cases read; rfl
  | some owner =>
      cases id with
      | none => cases read; rfl
      | some id =>
          have asked : (Transaction.record? owner id >>= pure) s = (result, t) := by
            rw [bind_pure]
            exact read
          obtain ⟨same, _⟩ | ⟨_, _, _, _, ended⟩ := Transaction.record?_then asked
          · exact same
          · cases ended
            rfl

theorem run_extends (extend : engine.UpdatesExtend I) (name : String) (input : Record)
    (request : CommandRequest) (before : I past s.stores) :
    I (engine.writtenByRun name input request s ++ past) (engine.run name input request s).2.stores := by
  rw [run_eq, settle_state]
  unfold writtenByRun
  cases ran : engine.runNamed name input request s with
  | mk result t =>
      obtain ⟨rfl, unknown, _⟩ | ⟨command, named, executing⟩ := Transaction.need_then ran
      · simp only [unknown]
        exact before
      simp only [named]
      rw [execute_eq] at executing
      obtain ⟨_, failed, _⟩ | ⟨record, middle, read, attending⟩ := Step.bind_cases executing
      · simp only [failed]
        exact addressed_same failed ▸ before
      · simp only [read]
        cases addressed_same read
        exact attend_extends extend attending before

end Engine

-- What each operation keeps, with what it writes added to the history, a session keeps.
theorem Session.performAll_extends {P : Session → List Written → Prop} {operations : List Operation}
    (step : ∀ session past, ∀ operation ∈ operations, P session past →
      P (Session.perform session operation) (session.written operation ++ past))
    {session : Session} {past : List Written} (start : P session past) :
    P (session.performAll operations) (session.history operations ++ past) := by
  induction operations generalizing session past with
  | nil => exact start
  | cons operation rest ih =>
      rw [history, List.append_assoc]
      exact ih (fun session past other later => step session past other (List.mem_cons_of_mem _ later))
        (step session past operation List.mem_cons_self start)

end Charter
