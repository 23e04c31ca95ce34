import Charter.Proofs.Publication

/-!
Commands that fail behind their gates. Such a command stops at one of its actions, and that action leaves no
trace: stores and journal are what the actions before it make of them, and no declared event is published.
-/

namespace Charter

-- A command with its first actions only, and without declared events.
def Ir.Command.upTo (command : Command) (count : Nat) : Command :=
  { command with actions := command.actions.take count, emits := [] }

namespace Engine
variable {engine : Engine} {command : Ir.Command} {entity : Option String} {input : Record}
  {request : CommandRequest} {record : Option Record} {count : Nat} {s t : EngineState}

-- Behind open gates, so many actions of a command are done, and the next one is stopped or ends in an error.
inductive StopsBehind (engine : Engine) (command : Ir.Command) (entity : Option String) (input : Record)
    (request : CommandRequest) (record : Option Record) (s : EngineState) (count : Nat) : Prop where
  | intro {constraints : List ConstraintOutcome} {usage : Usage} {action : Ir.Action} {reached : Progress}
      {result : Except EngineError (Except CommandOutcome Progress)} {t u : EngineState}
      (opened : engine.gates command entity request.overrides (engine.commandScope command record input) s.usage =
        (.ok (.ok constraints), usage))
      (advanced : engine.Advances command entity (command.actions.take count)
        { env := engine.commandScope command record input, record } { s with usage } reached t)
      (next : command.actions[count]? = some action)
      (act : engine.act command entity reached action t = (result, u))
      (short : ∀ last, result ≠ .ok (.ok last))

-- An action that does not go on wrote nothing and published nothing.
theorem act_still {start : Progress} {action : Ir.Action} {result : Except EngineError (Except CommandOutcome Progress)}
    (ran : engine.act command entity start action s = (result, t)) (short : ∀ last, result ≠ .ok (.ok last)) :
    s.Still t := by
  cases act_cases ran with
  | unevaluated => exact s.still_usage _
  | published | bound | idle => exact absurd rfl (short _)
  | written => exact absurd rfl (short _)
  | refused _ _ _ _ updated | failed _ _ _ _ updated =>
      obtain ⟨still, _⟩ | ⟨_, _, impossible, _⟩ := update_cases updated
      · exact ⟨still.stores, still.journal⟩
      · cases impossible

-- What one action does depends on its command by the name alone.
theorem actAll_upTo (actions : List Ir.Action) (start : Progress) :
    engine.actAll (command.upTo count) entity actions start = engine.actAll command entity actions start := by
  induction actions generalizing start with
  | nil => rfl
  | cons action rest ih =>
      refine congrArg (engine.act command entity start action >>= ·) (funext fun answer => ?_)
      cases answer with
      | error outcome => rfl
      | ok next => exact ih next

theorem parted_of_getElem? {actions : List Ir.Action} {action : Ir.Action} (next : actions[count]? = some action) :
    actions = actions.take count ++ action :: actions.drop (count + 1) := by
  obtain ⟨within, rfl⟩ := List.getElem?_eq_some_iff.mp next
  rw [← List.drop_eq_getElem_cons within, List.take_append_drop]

-- The command ends where its next action does not go on, and its first actions alone succeed right before that.
theorem StopsBehind.attend (stops : engine.StopsBehind command entity input request record s count) :
    ∃ result last outcome before, engine.attend command entity input request record s = (result, last) ∧
      (settle (result, last)).1.isSuccess = false ∧
      engine.attend (command.upTo count) entity input request record s = (.ok outcome, before) ∧
      outcome.isSuccess = true ∧ before.Still last ∧
      ∃ events, before.journal.log = s.journal.log ++ events ∧
        events.length = publications (command.actions.take count) := by
  cases stops with
  | @intro constraints usage action reached result t u opened advanced next act short =>
  have begun (other : Ir.Command) (gated : engine.gates other entity request.overrides
      (engine.commandScope other record input) s.usage = (.ok (.ok constraints), usage)) :
      engine.attend other entity input request record s =
        engine.carryOut other entity input constraints { env := engine.commandScope other record input, record }
          { s with usage } := Step.bind_of_ok (Transaction.evaluate_of_ok gated)
  have shorter : engine.attend (command.upTo count) entity input request record s =
      (.ok (.succeeded reached.result.toJson constraints (reached.events ++ [])), t) := by
    have done : engine.actAll command entity (command.actions.take count ++ [])
        { env := engine.commandScope command record input, record } { s with usage } =
          engine.actAll command entity [] reached t := actAll_of_advances advanced
    rw [List.append_nil] at done
    rw [begun (command.upTo count) opened]
    unfold carryOut
    exact Step.bind_of_ok (actAll_upTo _ _ ▸ done)
  obtain ⟨events, log, _, number⟩ := advanced.log
  have whole : engine.actAll command entity command.actions
      { env := engine.commandScope command record input, record } { s with usage } =
        engine.actAll command entity (action :: command.actions.drop (count + 1)) reached t := by
    rw [← actAll_of_advances advanced, ← parted_of_getElem? next]
  have still := act_still act short
  cases result with
  | error error =>
      have ended : engine.attend command entity input request record s = (.error error, u) := by
        rw [begun command opened]
        exact Step.bind_of_error (whole.trans (Step.bind_of_error act))
      exact ⟨_, _, _, _, ended, rfl, shorter, rfl, still, events, log, number⟩
  | ok answer =>
      cases answer with
      | ok last => exact absurd rfl (short last)
      | error outcome =>
          have ended : engine.attend command entity input request record s = (.ok outcome, u) := by
            rw [begun command opened]
            exact Step.bind_of_ok (whole.trans (Step.bind_of_ok act))
          have unsuccessful : outcome.isSuccess = false := by
            cases act_cases act
            rfl
          exact ⟨_, _, _, _, ended, unsuccessful, shorter, rfl, still, events, log, number⟩

theorem stopsBehind_of_failure {constraints : List ConstraintOutcome} {usage : Usage}
    {result : Except EngineError CommandOutcome}
    (opened : engine.gates command entity request.overrides (engine.commandScope command record input) s.usage =
      (.ok (.ok constraints), usage))
    (attended : engine.attend command entity input request record s = (result, t))
    (failed : (settle (result, t)).1.isSuccess = false) :
    ∃ count, engine.StopsBehind command entity input request record s count := by
  have begun : engine.attend command entity input request record s =
      engine.carryOut command entity input constraints { env := engine.commandScope command record input, record }
        { s with usage } := Step.bind_of_ok (Transaction.evaluate_of_ok opened)
  have carried := begun.symm.trans attended
  have among {before rest : List Ir.Action} {action : Ir.Action} (parted : command.actions = before ++ action :: rest) :
      command.actions.take before.length = before ∧ command.actions[before.length]? = some action := by
    rw [parted]
    exact ⟨List.take_left, by simp⟩
  cases carryOut_cases carried with
  | done => cases failed
  | @stopped before rest action reached outcome middle after parted advanced act =>
      obtain ⟨first, next⟩ := among parted
      exact ⟨before.length, .intro opened (first.symm ▸ advanced) next act fun _ => nofun⟩
  | @failed before rest action reached error middle after parted advanced act =>
      obtain ⟨first, next⟩ := among parted
      exact ⟨before.length, .intro opened (first.symm ▸ advanced) next act fun _ => nofun⟩

-- A command that is past its gates fails exactly if it stops at one of its actions. Then its stores and its journal
-- are those of its actions before that one: they alone succeed from the same state, with no declared events, and
-- what the journal gained is the events that they publish.
theorem failure_keeps_first_actions {name : String} (input : Record)
    (called : engine.Called name request s command entity record) :
    let failed := engine.run name input request s
    (∀ constraints usage, engine.gates command entity request.overrides
        (engine.commandScope command record input) s.usage = (.ok (.ok constraints), usage) →
      (failed.1.isSuccess = false ↔ ∃ count, engine.StopsBehind command entity input request record s count)) ∧
    ∀ count, engine.StopsBehind command entity input request record s count →
      ∃ outcome last, engine.execute (command.upTo count) entity input request s = (.ok outcome, last) ∧
        outcome.isSuccess = true ∧ failed.2.stores = last.stores ∧ failed.2.journal = last.journal ∧
        ∃ events, failed.2.journal.log = s.journal.log ++ events ∧
          events.length = publications (command.actions.take count) := by
  intro failed
  have ran : failed = settle (engine.attend command entity input request record s) := run_called called
  constructor
  · intro constraints usage opened
    constructor
    · intro unsuccessful
      rw [ran] at unsuccessful
      exact stopsBehind_of_failure opened rfl unsuccessful
    · rintro ⟨count, stops⟩
      obtain ⟨result, last, _, _, attended, unsuccessful, _⟩ := stops.attend
      rw [ran, attended]
      exact unsuccessful
  · intro count stops
    obtain ⟨result, last, outcome, before, attended, _, shorter, success, still, events, log, number⟩ := stops.attend
    have after : failed.2 = last := by rw [ran, settle_state, attended]
    have executed : engine.execute (command.upTo count) entity input request s = (.ok outcome, before) := by
      rw [execute_eq, Step.bind_of_ok (addressed_of called.read), shorter]
    rw [after]
    exact ⟨outcome, before, executed, success, still.stores, still.journal, events, still.journal ▸ log, number⟩

-- The third action calls a name that means nothing. The note and the event of the first two stay.
theorem packed_before_failure :
    let writes : Ir.Action := ⟨.mutate, some "note", .literal (.string "packed")⟩
    let publishes : Ir.Action := ⟨.publish, some "Packed", .literal .null⟩
    let fails : Ir.Action := ⟨.compute, some "total", .call (.identifier "missing") []⟩
    let parcel : Ir.Entity := ⟨"Parcel", none, [], [], [], [], [], [], none, none, []⟩
    let ship : Ir.Command := ⟨"ship", none, some "Parcel", [], [], [], [writes, publishes, fails], ["Shipped"], none⟩
    let engine : Engine :=
      { ir := { version := "1.0", provenance := ⟨"", "", "", "", ""⟩, entities := [parcel], commands := [ship] }
        around := ⟨fun _ => 0, fun _ => "fresh"⟩ }
    let record : Record := [("id", .string "p")]
    let state : EngineState := { stores := [("Parcel", { shelf := ⟨[("p", record)]⟩ })] }
    let request : CommandRequest := { id := some "p" }
    let failed := engine.run "ship" [] request state
    engine.Called "ship" request state ship (some "Parcel") (some record) ∧ failed.1.isSuccess = false ∧
    ∃ outcome last, engine.execute (ship.upTo 2) (some "Parcel") [] request state = (.ok outcome, last) ∧
      failed.2.stores = last.stores ∧ failed.2.journal = last.journal ∧ failed.2.journal.log.length = 1 := by
  intro writes publishes fails parcel ship engine record state request failed
  have called : engine.Called "ship" request state ship (some "Parcel") (some record) := ⟨rfl, rfl, _, rfl, rfl⟩
  have unsuccessful : failed.1.isSuccess = false := rfl
  have stops : engine.StopsBehind ship (some "Parcel") [] request (some record) state 2 :=
    .intro rfl (.cons rfl (.cons rfl .nil)) rfl rfl fun _ => nofun
  obtain ⟨outcome, last, executed, _, stores, journal, events, log, number⟩ :=
    (failure_keeps_first_actions [] called).2 2 stops
  refine ⟨called, unsuccessful, outcome, last, executed, stores, journal, ?_⟩
  rw [log]
  exact number

end Engine
end Charter
