import Charter.Proofs.Admission

/-!
What a command published, and what its outcome tells of it. The journal gains the events of the actions
and then the declared ones. The outcome tells all of them, but for one case: where an error ends the
actions behind a published event, it tells none.
-/

namespace Charter.Engine
variable {engine : Engine} {command : Ir.Command} {entity : Option String} {s t : EngineState}

theorem update_journal {name id : String} {patch : Record} {result : Except EngineError WriteOutcome}
    (ran : engine.update name id patch s = (result, t)) : t.journal = s.journal := by
  obtain ⟨still, _⟩ | ⟨_, _, _, updated⟩ := update_cases ran
  · exact still.journal
  · cases updated
    rfl

def publications (actions : List Ir.Action) : Nat := actions.countP fun action => action.kind == .publish

theorem act_log {action : Ir.Action} {start last : Progress}
    (ran : engine.act command entity start action s = (.ok (.ok last), t)) :
    ∃ events, t.journal.log = s.journal.log ++ events ∧ last.events = start.events ++ events ∧
      events.length = publications [action] := by
  cases act_cases ran with
  | published evaluated kind => exact ⟨[_], rfl, rfl, by simp [publications, kind]⟩
  | bound evaluated sets unaddressed =>
      refine ⟨[], by simp, by simp, ?_⟩
      rcases sets.1 with kind | kind <;> simp [publications, kind]
  | written evaluated sets owned identified updated =>
      refine ⟨[], by simp [update_journal updated], by simp, ?_⟩
      rcases sets.1 with kind | kind <;> simp [publications, kind]
  | idle evaluated kind unset => exact ⟨[], by simp, by simp, by simp [publications, kind]⟩

theorem act_stopped_log {action : Ir.Action} {start : Progress} {outcome : CommandOutcome}
    (ran : engine.act command entity start action s = (.ok (.error outcome), t)) :
    t.journal.log = s.journal.log ∧ outcome.events = start.events := by
  cases act_cases ran with
  | refused evaluated sets owned identified updated =>
      refine ⟨?_, rfl⟩
      rw [update_journal updated]

theorem act_failed_log {action : Ir.Action} {start : Progress} {error : EngineError}
    (ran : engine.act command entity start action s = (.error error, t)) :
    t.journal.log = s.journal.log := by
  cases act_cases ran with
  | unevaluated failed => rfl
  | failed evaluated sets owned identified updated => rw [update_journal updated]

theorem Advances.log {actions : List Ir.Action} {start last : Progress}
    (advanced : engine.Advances command entity actions start s last t) :
    ∃ events, t.journal.log = s.journal.log ++ events ∧ last.events = start.events ++ events ∧
      events.length = publications actions := by
  induction advanced with
  | nil => exact ⟨[], by simp, by simp, rfl⟩
  | @cons action rest start middle last s t u acted others ih =>
      obtain ⟨first, log, told, one⟩ := act_log acted
      obtain ⟨behind, logs, tells, count⟩ := ih
      refine ⟨first ++ behind, ?_, ?_, ?_⟩
      · rw [logs, log, List.append_assoc]
      · rw [tells, told, List.append_assoc]
      · rw [List.length_append, one, count]
        change _ = List.countP _ ([action] ++ rest)
        rw [List.countP_append]
        rfl

-- The actions of a command fail at one of them; those before it were done.
inductive FailsAt (engine : Engine) (command : Ir.Command) (entity : Option String) (start : Progress)
    (s : EngineState) (before : List Ir.Action) (error : EngineError) (t : EngineState) : Prop where
  | intro {action : Ir.Action} {rest : List Ir.Action} {reached : Progress} {u : EngineState}
      (parted : command.actions = before ++ action :: rest)
      (advanced : engine.Advances command entity before start s reached u)
      (act : engine.act command entity reached action u = (.error error, t))

theorem FailsAt.log {start : Progress} {before : List Ir.Action} {error : EngineError}
    (fails : engine.FailsAt command entity start s before error t) :
    ∃ events, t.journal.log = s.journal.log ++ events ∧ events.length = publications before := by
  obtain ⟨_, advanced, act⟩ := fails
  obtain ⟨events, log, _, count⟩ := advanced.log
  exact ⟨events, (act_failed_log act).trans log, count⟩

theorem carryOut_log {input : Record} {constraints : List ConstraintOutcome} {start : Progress}
    {result : Except EngineError CommandOutcome}
    (ran : engine.carryOut command entity input constraints start s = (result, t)) :
    (∃ outcome events, result = .ok outcome ∧ t.journal.log = s.journal.log ++ events ∧
      outcome.events = start.events ++ events) ∨
    ∃ error before, result = .error error ∧ engine.FailsAt command entity start s before error t := by
  cases carryOut_cases ran with
  | @done last declared _ _ advanced published =>
      obtain ⟨events, log, told, _⟩ := advanced.log
      obtain ⟨_, same, _, logs⟩ := publishAll published
      cases same
      refine .inl ⟨_, events ++ declared, rfl, ?_, ?_⟩
      · rw [logs, log, List.append_assoc]
      · change last.events ++ declared = _
        rw [told, List.append_assoc]
  | stopped _ advanced act =>
      obtain ⟨events, log, told, _⟩ := advanced.log
      obtain ⟨kept, tells⟩ := act_stopped_log act
      exact .inl ⟨_, events, rfl, kept.trans log, tells.trans told⟩
  | failed parted advanced act => exact .inr ⟨_, _, rfl, .intro parted advanced act⟩

theorem actAll_of_advances {before rest : List Ir.Action} {start reached : Progress} {u : EngineState}
    (advanced : engine.Advances command entity before start s reached u) :
    engine.actAll command entity (before ++ rest) start s = engine.actAll command entity rest reached u := by
  induction advanced with
  | nil => rfl
  | cons acted _ ih => exact (Step.bind_of_ok acted).trans ih

theorem FailsAt.carryOut {input : Record} {constraints : List ConstraintOutcome} {start : Progress}
    {before : List Ir.Action} {error : EngineError}
    (fails : engine.FailsAt command entity start s before error t) :
    engine.carryOut command entity input constraints start s = (.error error, t) := by
  obtain ⟨parted, advanced, act⟩ := fails
  refine Step.bind_of_error ?_
  rw [parted, actAll_of_advances advanced]
  exact Step.bind_of_error act

-- Behind open gates an error ends the actions of a command, and one before it had published.
inductive LosesEvents (engine : Engine) (name : String) (input : Record) (request : CommandRequest)
    (state : EngineState) : Prop where
  | intro {command : Ir.Command} {entity : Option String} {record : Option Record}
      {constraints : List ConstraintOutcome} {usage : Usage} {before : List Ir.Action} {error : EngineError}
      {after : EngineState}
      (called : engine.Called name request state command entity record)
      (opened : engine.gates command entity request.overrides (engine.commandScope command record input)
        state.usage = (.ok (.ok constraints), usage))
      (fails : engine.FailsAt command entity { env := engine.commandScope command record input, record }
        { state with usage } before error after)
      (published : ∃ action ∈ before, action.kind = .publish)

theorem LosesEvents.run {name : String} {input : Record} {request : CommandRequest}
    (loses : engine.LosesEvents name input request s) :
    ∃ error events t, engine.run name input request s = (.failed error, t) ∧
      t.journal.log = s.journal.log ++ events ∧ events ≠ [] := by
  cases loses with
  | @intro command entity record constraints usage before error after called opened fails published =>
      obtain ⟨events, log, count⟩ := fails.log
      obtain ⟨action, member, kind⟩ := published
      refine ⟨error, events, after, ?_, log, ?_⟩
      · have attended : engine.attend command entity input request record s = (.error error, after) :=
          (Step.bind_of_ok (Transaction.evaluate_of_ok opened)).trans fails.carryOut
        rw [run_called called, attended]
        rfl
      · have positive : 0 < publications before := List.countP_pos_iff.mpr ⟨action, member, by simp [kind]⟩
        rw [← count] at positive
        exact List.ne_nil_of_length_pos positive

theorem Stopped.events {overrides : List String} {env : Environment} {start : Usage} {outcome : CommandOutcome}
    (stopped : engine.Stopped command entity overrides env start outcome) : outcome.events = [] := by
  cases stopped <;> rfl

theorem attend_log {input : Record} {request : CommandRequest} {record : Option Record}
    {result : Except EngineError CommandOutcome}
    (ran : engine.attend command entity input request record s = (result, t)) :
    t.journal.log = s.journal.log ++ (settle (result, t)).1.events ∨
      ∃ constraints usage before error,
        engine.gates command entity request.overrides (engine.commandScope command record input) s.usage =
          (.ok (.ok constraints), usage) ∧
        engine.FailsAt command entity { env := engine.commandScope command record input, record }
          { s with usage } before error t ∧ ∃ action ∈ before, action.kind = .publish := by
  obtain ⟨_, usage, _, rfl, rfl⟩ | ⟨answer, usage, gated, going⟩ := Transaction.evaluate_then ran
  · exact .inl (List.append_nil _).symm
  cases answer with
  | error outcome =>
      cases going
      obtain ⟨_, impossible, _⟩ | ⟨_, same, stopped⟩ := gates_cases gated
      · cases impossible
      cases same
      refine .inl ?_
      change _ = _ ++ outcome.events
      rw [stopped.events, List.append_nil]
  | ok constraints =>
      obtain ⟨outcome, events, rfl, log, told⟩ | ⟨error, before, rfl, fails⟩ := carryOut_log going
      · exact .inl (log.trans (congrArg (s.journal.log ++ ·) told.symm))
      obtain ⟨events, log, count⟩ := fails.log
      cases events with
      | nil => exact .inl log
      | cons event events =>
          have positive : 0 < publications before := count ▸ Nat.succ_pos _
          obtain ⟨action, member, kind⟩ := List.countP_pos_iff.mp positive
          exact .inr ⟨constraints, usage, before, error, gated, fails, action, member, eq_of_beq kind⟩

theorem run_log {name : String} {input : Record} {request : CommandRequest} {outcome : CommandOutcome}
    (ran : engine.run name input request s = (outcome, t)) :
    t.journal.log = s.journal.log ++ outcome.events ∨ engine.LosesEvents name input request s := by
  obtain ⟨error, failed⟩ | ⟨command, entity, record, called, attended⟩ := run_cases engine name input request s
  · cases ran.symm.trans failed
    exact .inl (List.append_nil _).symm
  rw [ran] at attended
  cases answer : engine.attend command entity input request record s with
  | mk result after =>
      rw [answer] at attended
      obtain told | ⟨_, _, _, _, opened, fails, published⟩ := attend_log answer
      · rw [← attended] at told
        cases result <;> cases attended <;> exact .inl told
      · exact .inr (.intro called opened fails published)

-- The journal gains just the events that the outcome tells, unless an error ended the actions behind an
-- event that they had published. Then the outcome tells of none, and the journal keeps them all the same.
theorem outcome_tells_events (engine : Engine) (name : String) (input : Record) (request : CommandRequest)
    (state : EngineState) :
    let result := engine.run name input request state
    (result.2.journal.log = state.journal.log ++ result.1.events ↔
      ¬ engine.LosesEvents name input request state) ∧
    (engine.LosesEvents name input request state →
      result.1.events = [] ∧ ∃ events, events ≠ [] ∧ result.2.journal.log = state.journal.log ++ events) := by
  intro result
  have lost : engine.LosesEvents name input request state →
      result.1.events = [] ∧ ∃ events, events ≠ [] ∧ result.2.journal.log = state.journal.log ++ events := by
    intro loses
    obtain ⟨error, events, t, ran, log, some⟩ := loses.run
    have same : result = (.failed error, t) := ran
    rw [same]
    exact ⟨rfl, events, some, log⟩
  refine ⟨⟨?_, fun complete => (run_log (rfl : _ = result)).resolve_right complete⟩, lost⟩
  intro told loses
  obtain ⟨none, events, some, log⟩ := lost loses
  rw [none, List.append_nil, log] at told
  exact some (List.append_right_eq_self.mp told)

-- The second action calls a name that means nothing; the journal keeps the event of the first.
example :
    let publishes : Ir.Action := ⟨.publish, some "Shipped", .literal .null⟩
    let fails : Ir.Action := ⟨.compute, some "total", .call (.identifier "missing") []⟩
    let ship : Ir.Command := ⟨"ship", none, none, [], [], [], [publishes, fails], [], none⟩
    let engine : Engine :=
      { ir := { version := "1.0", provenance := ⟨"", "", "", "", ""⟩, commands := [ship] }
        around := ⟨fun _ => 0, fun _ => ""⟩ }
    let result := engine.run "ship" [] {} {}
    result.1.events.length = 0 ∧ result.2.journal.log.length = 1 := ⟨rfl, rfl⟩

end Charter.Engine
