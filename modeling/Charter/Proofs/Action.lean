import Charter.Proofs.Command
import Charter.Proofs.Write

/-!
The actions of a command: what one does, and how far a list of them comes.
-/

namespace Charter

-- An action that sets a property.
def Ir.Action.Sets (action : Ir.Action) (target : String) : Prop :=
  (action.kind = .mutate ∨ action.kind = .compute) ∧ action.target = some target

namespace Engine
variable {engine : Engine} {command : Ir.Command} {entity : Option String} {progress : Progress}
  {action : Ir.Action} {s t : EngineState}

-- The event of a publishing action, at the time of the next reading of the clock.
def published (engine : Engine) (command : Ir.Command) (action : Ir.Action) (value : Value) (usage : Usage) :
    Event :=
  engine.event (action.target.getD command.name) value.toJson (engine.around.time usage.readings)

-- Every way that one action can go. The value comes first; only then anything is published or written.
inductive Acts (engine : Engine) (command : Ir.Command) (entity : Option String) (progress : Progress)
    (action : Ir.Action) (s : EngineState) :
    Except EngineError (Except CommandOutcome Progress) → EngineState → Prop where
  | unevaluated {error : EvaluationError} {usage : Usage}
      (failed : engine.evaluate progress.env action.expression s.usage = (.error error, usage)) :
      Acts engine command entity progress action s (.error (.evaluation error)) { s with usage }
  | published {value : Value} {usage : Usage}
      (evaluated : engine.evaluate progress.env action.expression s.usage = (.ok value, usage))
      (kind : action.kind = .publish) :
      Acts engine command entity progress action s
        (.ok (.ok { progress with
          result := value, events := progress.events ++ [engine.published command action value usage] }))
        { s with
          journal := s.journal.publish (engine.published command action value usage)
          usage := { usage with readings := usage.readings + 1 } }
  | bound {value : Value} {usage : Usage} {target : String}
      (evaluated : engine.evaluate progress.env action.expression s.usage = (.ok value, usage))
      (sets : action.Sets target) (unaddressed : entity = none ∨ progress.record.bind Record.id? = none) :
      Acts engine command entity progress action s
        (.ok (.ok { progress with env := progress.env.define target value, result := value }))
        { s with usage }
  | written {value : Value} {usage : Usage} {target owner id : String} {record : Record}
      {violations : List ConstraintOutcome} {t : EngineState}
      (evaluated : engine.evaluate progress.env action.expression s.usage = (.ok value, usage))
      (sets : action.Sets target) (owned : entity = some owner)
      (identified : progress.record.bind Record.id? = some id)
      (updated : engine.update owner id [(target, value.toJson)] { s with usage } =
        (.ok (.written record violations), t)) :
      Acts engine command entity progress action s
        (.ok (.ok { progress with
          env := engine.refreshed progress.env record, record := some record, result := value })) t
  | refused {value : Value} {usage : Usage} {target owner id : String} {rejection : WriteRejection}
      {violations : List ConstraintOutcome} {t : EngineState}
      (evaluated : engine.evaluate progress.env action.expression s.usage = (.ok value, usage))
      (sets : action.Sets target) (owned : entity = some owner)
      (identified : progress.record.bind Record.id? = some id)
      (updated : engine.update owner id [(target, value.toJson)] { s with usage } =
        (.ok (.rejected rejection violations), t)) :
      Acts engine command entity progress action s
        (.ok (.error (.writeRejected target (.rejected rejection violations) progress.events))) t
  | failed {value : Value} {usage : Usage} {target owner id : String} {error : EngineError} {t : EngineState}
      (evaluated : engine.evaluate progress.env action.expression s.usage = (.ok value, usage))
      (sets : action.Sets target) (owned : entity = some owner)
      (identified : progress.record.bind Record.id? = some id)
      (updated : engine.update owner id [(target, value.toJson)] { s with usage } = (.error error, t)) :
      Acts engine command entity progress action s (.error error) t
  | idle {value : Value} {usage : Usage}
      (evaluated : engine.evaluate progress.env action.expression s.usage = (.ok value, usage))
      (kind : action.kind ≠ .publish) (unset : ∀ target, ¬ action.Sets target) :
      Acts engine command entity progress action s (.ok (.ok { progress with result := value })) { s with usage }

theorem assign_acts {value : Value} {usage : Usage} {target : String}
    {result : Except EngineError (Except CommandOutcome Progress)}
    (evaluated : engine.evaluate progress.env action.expression s.usage = (.ok value, usage))
    (sets : action.Sets target)
    (ran : engine.assign entity { progress with result := value } target value { s with usage } = (result, t)) :
    Acts engine command entity progress action s result t := by
  unfold assign at ran
  cases entity with
  | none => cases ran; exact .bound evaluated sets (.inl rfl)
  | some owner =>
      cases identified : progress.record.bind Record.id? with
      | none =>
          simp only [identified] at ran
          cases ran
          exact .bound evaluated sets (.inr identified)
      | some id =>
          simp only [identified] at ran
          obtain ⟨error, failed, rfl⟩ | ⟨outcome, middle, updated, went⟩ := Step.bind_cases ran
          · exact .failed evaluated sets rfl identified failed
          · cases outcome with
            | written record violations => cases went; exact .written evaluated sets rfl identified updated
            | rejected rejection violations => cases went; exact .refused evaluated sets rfl identified updated

theorem act_cases {result : Except EngineError (Except CommandOutcome Progress)}
    (ran : engine.act command entity progress action s = (result, t)) :
    Acts engine command entity progress action s result t := by
  obtain ⟨error, usage, failed, rfl, rfl⟩ | ⟨value, usage, evaluated, went⟩ := Transaction.evaluate_then ran
  · exact .unevaluated failed
  obtain ⟨kind, target, expression⟩ := action
  cases kind with
  | publish => cases went; exact .published evaluated rfl
  | mutate | compute =>
      cases target with
      | none => cases went; exact .idle evaluated nofun fun _ sets => nomatch sets.2
      | some target => exact assign_acts evaluated ⟨by simp, rfl⟩ went
  | effect | persist =>
      cases went
      exact .idle evaluated nofun fun _ sets => by rcases sets.1 with kind | kind <;> cases kind

-- On a record that has an id, an action that sets a property updates the record, and another one leaves it alone.
theorem act_on_record {owner id : String} {next : Progress}
    (named : progress.record.bind Record.id? = some id)
    (acted : engine.act command (some owner) progress action s = (.ok (.ok next), t)) :
    (next.record = progress.record ∧ next.env = progress.env ∧ t.stores = s.stores ∧ ∀ target, ¬ action.Sets target) ∨
      ∃ value usage target written violations,
        engine.evaluate progress.env action.expression s.usage = (.ok value, usage) ∧ action.Sets target ∧
        engine.Updated owner id [(target, value.toJson)] { s with usage } written violations t ∧
        next = { progress with
          env := engine.refreshed progress.env written, record := some written, result := value } := by
  cases act_cases acted with
  | published _ kind =>
      refine .inl ⟨rfl, rfl, rfl, fun target sets => ?_⟩
      rcases sets.1 with set | set <;> cases kind.symm.trans set
  | bound _ _ unaddressed =>
      rcases unaddressed with nobody | nameless
      · cases nobody
      · cases named.symm.trans nameless
  | idle _ _ unset => exact .inl ⟨rfl, rfl, rfl, unset⟩
  | @written value usage target _ _ written violations _ evaluated sets owned identified updated =>
      cases owned
      cases named.symm.trans identified
      exact .inr ⟨value, usage, target, written, violations, evaluated, sets, updated_of_written updated, rfl⟩

-- The actions of a list were all done.
inductive Advances (engine : Engine) (command : Ir.Command) (entity : Option String) :
    List Ir.Action → Progress → EngineState → Progress → EngineState → Prop where
  | nil {progress : Progress} {s : EngineState} : Advances engine command entity [] progress s progress s
  | cons {action : Ir.Action} {rest : List Ir.Action} {start middle last : Progress} {s t u : EngineState} :
      engine.act command entity start action s = (.ok (.ok middle), t) →
      Advances engine command entity rest middle t last u →
      Advances engine command entity (action :: rest) start s last u

theorem Advances.parted {before rest : List Ir.Action} {start last : Progress}
    (advanced : engine.Advances command entity (before ++ rest) start s last t) :
    ∃ reached u, engine.Advances command entity before start s reached u ∧
      engine.Advances command entity rest reached u last t := by
  induction before generalizing start s with
  | nil => exact ⟨start, s, .nil, advanced⟩
  | cons action before ih =>
      cases advanced with
      | cons acted others =>
          obtain ⟨reached, u, first, behind⟩ := ih others
          exact ⟨reached, u, .cons acted first, behind⟩

-- What was done first is known, so the others went on from there.
theorem Advances.behind {before rest : List Ir.Action} {start reached last : Progress} {u : EngineState}
    (first : engine.Advances command entity before start s reached u)
    (advanced : engine.Advances command entity (before ++ rest) start s last t) :
    engine.Advances command entity rest reached u last t := by
  induction first with
  | nil => exact advanced
  | cons acted _ ih =>
      cases advanced with
      | cons again others =>
          cases acted.symm.trans again
          exact ih others

theorem actAll_cases {actions : List Ir.Action} {result : Except EngineError (Except CommandOutcome Progress)}
    (ran : engine.actAll command entity actions progress s = (result, t)) :
    (∃ last, result = .ok (.ok last) ∧ engine.Advances command entity actions progress s last t) ∨
      ∃ before action rest reached u, actions = before ++ action :: rest ∧
        engine.Advances command entity before progress s reached u ∧
        engine.act command entity reached action u = (result, t) ∧ ∀ last, result ≠ .ok (.ok last) := by
  induction actions generalizing progress s with
  | nil => cases ran; exact .inl ⟨progress, rfl, .nil⟩
  | cons action rest ih =>
      obtain ⟨error, failed, rfl⟩ | ⟨outcome, middle, acted, going⟩ := Step.bind_cases ran
      · exact .inr ⟨[], action, rest, progress, s, rfl, .nil, failed, fun _ => nofun⟩
      cases outcome with
      | error outcome =>
          cases going
          exact .inr ⟨[], action, rest, progress, s, rfl, .nil, acted, fun _ => nofun⟩
      | ok advanced =>
          obtain ⟨last, rfl, others⟩ | ⟨before, stopped, behind, reached, u, rfl, others, act, short⟩ := ih going
          · exact .inl ⟨last, rfl, .cons acted others⟩
          · exact .inr ⟨action :: before, stopped, behind, reached, u, rfl, .cons acted others, act, short⟩

-- How the actions and the declared events of a command can go.
inductive CarriedOut (engine : Engine) (command : Ir.Command) (entity : Option String) (input : Record)
    (constraints : List ConstraintOutcome) (start : Progress) (s : EngineState) :
    Except EngineError CommandOutcome → EngineState → Prop where
  | done {last : Progress} {declared : List Event} {t u : EngineState}
      (advanced : engine.Advances command entity command.actions start s last t)
      (published : Step.each
        (engine.publish · (.object (Fields.place input "result" last.result.toJson))) command.emits t =
          (.ok declared, u)) :
      CarriedOut engine command entity input constraints start s
        (.ok (.succeeded last.result.toJson constraints (last.events ++ declared))) u
  | stopped {before rest : List Ir.Action} {action : Ir.Action} {reached : Progress} {outcome : CommandOutcome}
      {t u : EngineState} (parted : command.actions = before ++ action :: rest)
      (advanced : engine.Advances command entity before start s reached t)
      (act : engine.act command entity reached action t = (.ok (.error outcome), u)) :
      CarriedOut engine command entity input constraints start s (.ok outcome) u
  | failed {before rest : List Ir.Action} {action : Ir.Action} {reached : Progress} {error : EngineError}
      {t u : EngineState} (parted : command.actions = before ++ action :: rest)
      (advanced : engine.Advances command entity before start s reached t)
      (act : engine.act command entity reached action t = (.error error, u)) :
      CarriedOut engine command entity input constraints start s (.error error) u

theorem carryOut_cases {command : Ir.Command} {input : Record} {constraints : List ConstraintOutcome}
    {start : Progress} {result : Except EngineError CommandOutcome}
    (ran : engine.carryOut command entity input constraints start s = (result, t)) :
    engine.CarriedOut command entity input constraints start s result t := by
  obtain ⟨error, failed, rfl⟩ | ⟨answer, middle, acted, going⟩ := Step.bind_cases ran
  · obtain ⟨_, impossible, _⟩ | ⟨_, _, _, _, _, parted, advanced, act, _⟩ := actAll_cases failed
    · cases impossible
    · exact .failed parted advanced act
  obtain ⟨last, done, advanced⟩ | ⟨_, _, _, _, _, parted, advanced, act, short⟩ := actAll_cases acted
  · cases done
    obtain ⟨_, failed, _⟩ | ⟨declared, after, published, ended⟩ := Step.bind_cases going
    · obtain ⟨_, impossible, _⟩ := publishAll failed
      cases impossible
    · cases ended
      exact .done advanced published
  · cases answer with
    | ok last => exact absurd rfl (short last)
    | error outcome =>
        cases going
        exact .stopped parted advanced act

end Engine
end Charter
