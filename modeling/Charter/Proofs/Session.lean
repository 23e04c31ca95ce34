import Charter.Proofs.Action

/-!
What a whole session of operations does to the stores of an engine. A command writes by updates alone, so
what every update keeps, a command keeps.
-/

namespace Charter

-- An operation that is asked of an engine.
inductive Operation where
  | create (name : String) (data : Record)
  | update (name id : String) (patch : Record)
  | run (name : String) (input : Record) (request : CommandRequest)
  | delete (name id : String)
  | clear (name : String)
  | inContext (context : RequestContext)

-- An engine, which gets another context now and then, and its state.
structure Session where
  engine : Engine
  state : EngineState

namespace Session

def perform (session : Session) (operation : Operation) : Session :=
  let engine := session.engine
  match operation with
  | .create name data => ⟨engine, (engine.create name data session.state).2⟩
  | .update name id patch => ⟨engine, (engine.update name id patch session.state).2⟩
  | .run name input request => ⟨engine, (engine.run name input request session.state).2⟩
  | .delete name id => ⟨engine, (Transaction.deleteRecord name id session.state).2⟩
  | .clear name => ⟨engine, (Transaction.clearRecords name session.state).2⟩
  | .inContext context => ⟨{ engine with context }, session.state⟩

-- The operations one after the other. One that fails does not keep the next from being tried.
def performAll (session : Session) (operations : List Operation) : Session := operations.foldl perform session

end Session

namespace Engine
variable {engine : Engine} {command : Ir.Command} {entity : Option String} {I : Fields Store → Prop}
  {s t : EngineState}

-- No update that is written breaks a property of the stores.
def UpdatesKeep (engine : Engine) (I : Fields Store → Prop) : Prop :=
  ∀ name id patch before record violations after,
    engine.Updated name id patch before record violations after → I before.stores → I after.stores

theorem update_keeps (keeps : engine.UpdatesKeep I) {name id : String} {patch : Record}
    {result : Except EngineError WriteOutcome} (ran : engine.update name id patch s = (result, t))
    (before : I s.stores) : I t.stores := by
  obtain ⟨still, _⟩ | ⟨_, _, _, updated⟩ := update_cases ran
  · exact still.stores ▸ before
  · exact keeps _ _ _ _ _ _ _ updated before

theorem act_keeps (keeps : engine.UpdatesKeep I) {progress : Progress} {action : Ir.Action}
    {result : Except EngineError (Except CommandOutcome Progress)}
    (ran : engine.act command entity progress action s = (result, t)) (before : I s.stores) : I t.stores := by
  cases act_cases ran with
  | unevaluated | published | bound | idle => exact before
  | written _ _ _ _ updated | refused _ _ _ _ updated | failed _ _ _ _ updated =>
      exact update_keeps keeps updated before

theorem Advances.keeps (keeps : engine.UpdatesKeep I) {actions : List Ir.Action} {start last : Progress}
    (advanced : engine.Advances command entity actions start s last t) (before : I s.stores) : I t.stores := by
  induction advanced with
  | nil => exact before
  | cons acted _ ih => exact ih (act_keeps keeps acted before)

theorem carryOut_keeps (keeps : engine.UpdatesKeep I) {input : Record} {constraints : List ConstraintOutcome}
    {start : Progress} {result : Except EngineError CommandOutcome}
    (ran : engine.carryOut command entity input constraints start s = (result, t)) (before : I s.stores) :
    I t.stores := by
  cases carryOut_cases ran with
  | done advanced published =>
      obtain ⟨_, _, same, _⟩ := publishAll published
      exact same ▸ advanced.keeps keeps before
  | stopped _ advanced act | failed _ advanced act =>
      exact act_keeps keeps act (advanced.keeps keeps before)

theorem attend_keeps (keeps : engine.UpdatesKeep I) {input : Record} {request : CommandRequest}
    {record : Option Record} {result : Except EngineError CommandOutcome}
    (ran : engine.attend command entity input request record s = (result, t)) (before : I s.stores) :
    I t.stores := by
  obtain ⟨_, _, _, _, rfl⟩ | ⟨answer, _, _, going⟩ := Transaction.evaluate_then ran
  · exact before
  cases answer with
  | error outcome => cases going; exact before
  | ok constraints => exact carryOut_keeps keeps going before

theorem run_keeps (keeps : engine.UpdatesKeep I) (name : String) (input : Record) (request : CommandRequest)
    (before : I s.stores) : I (engine.run name input request s).2.stores := by
  obtain ⟨_, failed⟩ | ⟨_, _, _, _, attended⟩ := run_cases engine name input request s
  · rw [failed]
    exact before
  · rw [attended, settle_state]
    exact attend_keeps keeps rfl before

end Engine

-- What no operation breaks holds at the end of a session if it holds at its start.
theorem Session.performAll_keeps {P : Session → Prop}
    (step : ∀ session operation, P session → P (Session.perform session operation))
    (operations : List Operation) {session : Session} (start : P session) :
    P (session.performAll operations) := by
  induction operations generalizing session with
  | nil => exact start
  | cons operation rest ih => exact ih (step session operation start)

end Charter
