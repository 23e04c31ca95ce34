import Charter.Engine.Report
import Charter.Proofs.Action
import Charter.Proofs.Judgement

/-!
The gates of a command. A command has an effect only behind gates that all opened in the scope that it
started in, and where one does not open the outcome tells the first.
-/

namespace Charter

-- A policy that a command of an entity, or of none, is asked by.
def Ir.Policy.Asked (entity : Option String) (policy : Ir.Policy) : Prop :=
  (policy.action = .execute ∨ policy.action = .all) ∧ (policy.entity = none ∨ policy.entity = entity)

instance (entity : Option String) (policy : Ir.Policy) : Decidable (policy.Asked entity) :=
  inferInstanceAs (Decidable ((_ ∨ _) ∧ (_ ∨ _)))

namespace Engine
variable {engine : Engine} {env : Environment} {overrides : List String} {start last : Usage}

-- What the denial by a policy tells, whose evaluation ended at `last`.
def denialBy (engine : Engine) (env : Environment) (policy : Ir.Policy) (last : Usage) : PolicyDenial :=
  let name := policy.name
  { policyName := name
    expression := policy.expression.render
    message := policy.message.getD s!"Denied by policy '{name}'"
    contextKeys := policy.expression.contextKeys
    resolved := (resolveLeaves engine.around env policy.expression last).1 }

def failureOf (engine : Engine) (env : Environment) (index : Nat) (guard : Ir.Expression) (last : Usage) :
    GuardFailure where
  index
  expression := guard.render
  resolved := (resolveLeaves engine.around env guard last).1

variable {command : Ir.Command} {entity : Option String}

-- Every gate of a command opens: the policies that it is asked by, then its guards, then its constraints.
def Opens (engine : Engine) (command : Ir.Command) (entity : Option String) (overrides : List String)
    (env : Environment) (start : Usage) : Prop :=
  ∃ asked guarded,
    engine.AllHold env (·.expression) (engine.ir.policies.filter (·.Asked entity)) start asked ∧
    engine.AllHold env id command.guards asked guarded ∧
    engine.AdmitsAll env ⟨entity, command.module⟩ overrides command.constraints guarded

-- One gate did not open, and those before it did.
inductive Stopped (engine : Engine) (command : Ir.Command) (entity : Option String) (overrides : List String)
    (env : Environment) (start : Usage) : CommandOutcome → Prop where
  | denied {before : List Ir.Policy} {policy : Ir.Policy} {last : Usage}
      (fell : engine.FirstFalsy env (·.expression) (engine.ir.policies.filter (·.Asked entity))
        before policy start last) :
      Stopped engine command entity overrides env start (.denied (engine.denialBy env policy last))
  | guarded {asked last : Usage} {before : List Ir.Expression} {guard : Ir.Expression}
      (held : engine.AllHold env (·.expression) (engine.ir.policies.filter (·.Asked entity)) start asked)
      (fell : engine.FirstFalsy env id command.guards before guard asked last) :
      Stopped engine command entity overrides env start
        (.guarded (engine.failureOf env (before.length + 1) guard last))
  | blocked {asked guarded last : Usage} {outcomes : List ConstraintOutcome}
      (held : engine.AllHold env (·.expression) (engine.ir.policies.filter (·.Asked entity)) start asked)
      (passed : engine.AllHold env id command.guards asked guarded)
      (judged : engine.judgeAll env ⟨entity, command.module⟩ overrides command.constraints guarded =
        (.ok outcomes, last))
      (refused : ¬ engine.AdmitsAll env ⟨entity, command.module⟩ overrides command.constraints guarded) :
      Stopped engine command entity overrides env start (.blocked outcomes)

theorem executionPolicies_eq (engine : Engine) (entity : Option String) :
    engine.executionPolicies entity = engine.ir.policies.filter (·.Asked entity) := by
  refine List.filter_congr fun policy _ => ?_
  rw [Bool.eq_iff_iff, decide_eq_true_iff]
  simp [Ir.Policy.Asked, PolicyAction.guardsExecution]

/-! Policies and guards are searched alike. -/

def tellDenial (engine : Engine) (env : Environment) (policy : Ir.Policy) (usage : Usage) :
    PolicyDenial × Usage :=
  (engine.denialBy env policy usage, (resolveLeaves engine.around env policy.expression usage).2)

def tellFailure (engine : Engine) (env : Environment) (index : Nat) (guard : Ir.Expression) (usage : Usage) :
    GuardFailure × Usage :=
  (engine.failureOf env index guard usage, (resolveLeaves engine.around env guard usage).2)

theorem denial?_eq_none {policies : List Ir.Policy} : engine.denial? env policies start = (.ok none, last) ↔
    engine.AllHold env (·.expression) policies start last :=
  search_eq_none (fun _ => engine.denial? env) (fun _ => engine.tellDenial env)
    (fun _ => rfl) (fun _ _ _ => rfl) 0

theorem denial?_eq_some {policies : List Ir.Policy} {denial : PolicyDenial} :
    engine.denial? env policies start = (.ok (some denial), last) ↔
      ∃ before policy reached, engine.FirstFalsy env (·.expression) policies before policy start reached ∧
        engine.tellDenial env policy reached = (denial, last) :=
  search_eq_some (fun _ => engine.denial? env) (fun _ => engine.tellDenial env)
    (fun _ => rfl) (fun _ _ _ => rfl) 0

theorem guardFailure?_eq_none (index : Nat) {guards : List Ir.Expression} :
    engine.guardFailure? env index guards start = (.ok none, last) ↔
      engine.AllHold env id guards start last :=
  search_eq_none (engine.guardFailure? env) (engine.tellFailure env)
    (fun _ => rfl) (fun _ _ _ => rfl) index

theorem guardFailure?_eq_some (index : Nat) {guards : List Ir.Expression} {failure : GuardFailure} :
    engine.guardFailure? env index guards start = (.ok (some failure), last) ↔
      ∃ before guard reached, engine.FirstFalsy env id guards before guard start reached ∧
        engine.tellFailure env (index + before.length) guard reached = (failure, last) :=
  search_eq_some (engine.guardFailure? env) (engine.tellFailure env)
    (fun _ => rfl) (fun _ _ _ => rfl) index

theorem gates_cases {answer : Except CommandOutcome (List ConstraintOutcome)}
    (ran : engine.gates command entity overrides env start = (.ok answer, last)) :
    (∃ outcomes, answer = .ok outcomes ∧ engine.Opens command entity overrides env start) ∨
      ∃ outcome, answer = .error outcome ∧ engine.Stopped command entity overrides env start outcome := by
  obtain ⟨denial, asked, searched, guarding⟩ := Step.bind_eq_ok.mp ran
  rw [executionPolicies_eq] at searched
  cases denial with
  | some denial =>
      cases guarding
      obtain ⟨before, policy, reached, fell, told⟩ := denial?_eq_some.mp searched
      cases told
      exact .inr ⟨_, rfl, .denied fell⟩
  | none =>
      have held := denial?_eq_none.mp searched
      obtain ⟨failure, guarded, searched, judging⟩ := Step.bind_eq_ok.mp guarding
      cases failure with
      | some failure =>
          cases judging
          obtain ⟨before, guard, reached, fell, told⟩ := (guardFailure?_eq_some 1).mp searched
          cases told
          rw [Nat.add_comm 1]
          exact .inr ⟨_, rfl, .guarded held fell⟩
      | none =>
          have passed := (guardFailure?_eq_none 1).mp searched
          obtain ⟨outcomes, judgedAt, judged, deciding⟩ := Step.bind_eq_ok.mp judging
          have admits := judgeAll_admits judged
          cases blocked : outcomes.any (·.isBlocking) with
          | true =>
              rw [if_pos blocked] at deciding
              cases deciding
              refine .inr ⟨_, rfl, .blocked held passed judged fun admitted => ?_⟩
              exact Bool.noConfusion (blocked.symm.trans (admits.mpr admitted))
          | false =>
              rw [if_neg (by simp [blocked])] at deciding
              cases deciding
              exact .inl ⟨outcomes, rfl, asked, guarded, held, passed, admits.mp blocked⟩

theorem gates_of_stopped {outcome : CommandOutcome}
    (stopped : engine.Stopped command entity overrides env start outcome) :
    ∃ last, engine.gates command entity overrides env start = (.ok (.error outcome), last) := by
  unfold gates
  rw [executionPolicies_eq]
  cases stopped with
  | denied fell =>
      have searched := denial?_eq_some.mpr ⟨_, _, _, fell, rfl⟩
      exact ⟨_, Step.bind_eq_ok.mpr ⟨_, _, searched, rfl⟩⟩
  | guarded held fell =>
      have searched := (guardFailure?_eq_some 1).mpr ⟨_, _, _, fell, rfl⟩
      rw [Nat.add_comm 1] at searched
      exact ⟨_, Step.bind_eq_ok.mpr ⟨_, _, denial?_eq_none.mpr held,
        Step.bind_eq_ok.mpr ⟨_, _, searched, rfl⟩⟩⟩
  | @blocked asked guarded last outcomes held passed judged refused =>
      have blocks : outcomes.any (·.isBlocking) = true := by
        rw [← Bool.not_eq_false]
        exact fun clear => refused ((judgeAll_admits judged).mp clear)
      refine ⟨last, Step.bind_eq_ok.mpr ⟨_, _, denial?_eq_none.mpr held,
        Step.bind_eq_ok.mpr ⟨_, _, (guardFailure?_eq_none 1).mpr passed,
          Step.bind_eq_ok.mpr ⟨_, _, judged, ?_⟩⟩⟩⟩
      rw [if_pos blocks]
      rfl

end Engine

theorem Ir.entry_of_record {entries : List Ir.Entry} {fields : Fields Json} {key : String}
    (told : Ir.record entries = .object fields) (present : Fields.has fields key = true) :
    ∃ value, (key, some value) ∈ entries := by
  cases told
  obtain ⟨value, found⟩ := Option.isSome_iff_exists.mp present
  obtain ⟨⟨name, entry⟩, member, kept⟩ := List.mem_filterMap.mp (Fields.mem_of_get? found)
  obtain ⟨_, rfl, same⟩ := Option.map_eq_some_iff.mp kept
  cases same
  exact ⟨value, member⟩

namespace CommandOutcome

-- The outcomes of commands that a gate stopped.
def AtGate : CommandOutcome → Prop
  | denied _ | guarded _ | blocked _ => True
  | succeeded .. | writeRejected .. | failed _ => False

theorem json_not_both (outcome : CommandOutcome) (fields : Fields Json) (told : outcome.json = .object fields) :
    ¬ (Fields.has fields "policyDenial" = true ∧ Fields.has fields "guardFailure" = true) := by
  rintro ⟨denied, guarded⟩
  obtain ⟨_, denied⟩ := Ir.entry_of_record told denied
  obtain ⟨_, guarded⟩ := Ir.entry_of_record told guarded
  cases outcome <;> simp at denied guarded

end CommandOutcome

namespace Engine
variable {engine : Engine} {command : Ir.Command} {entity : Option String} {s t : EngineState}

theorem carryOut_past_gates {input : Record} {constraints : List ConstraintOutcome} {start : Progress}
    {outcome : CommandOutcome} (ran : engine.carryOut command entity input constraints start s = (.ok outcome, t)) :
    ¬ outcome.AtGate := by
  cases carryOut_cases ran with
  | done => exact id
  | stopped _ _ act =>
      cases act_cases act
      exact id

theorem attend_cases {input : Record} {request : CommandRequest} {record : Option Record}
    {result : Except EngineError CommandOutcome}
    (ran : engine.attend command entity input request record s = (result, t)) :
    (s.Still t ∧ ((∃ error, result = .error error) ∨ ∃ outcome, result = .ok outcome ∧
      engine.Stopped command entity request.overrides (engine.commandScope command record input) s.usage outcome)) ∨
    (engine.Opens command entity request.overrides (engine.commandScope command record input) s.usage ∧
      ∀ outcome, result = .ok outcome → ¬ outcome.AtGate) := by
  obtain ⟨_, usage, _, rfl, rfl⟩ | ⟨answer, usage, gated, going⟩ := Transaction.evaluate_then ran
  · exact .inl ⟨s.still_usage usage, .inl ⟨_, rfl⟩⟩
  obtain ⟨constraints, rfl, opened⟩ | ⟨outcome, rfl, stopped⟩ := gates_cases gated
  · refine .inr ⟨opened, fun outcome same => ?_⟩
    subst same
    exact carryOut_past_gates going
  · cases going
    exact .inl ⟨s.still_usage usage, .inr ⟨outcome, rfl, stopped⟩⟩

theorem attend_of_stopped {input : Record} {request : CommandRequest} {record : Option Record}
    {outcome : CommandOutcome} (stopped : engine.Stopped command entity request.overrides
      (engine.commandScope command record input) s.usage outcome) :
    ∃ t, engine.attend command entity input request record s = (.ok outcome, t) := by
  obtain ⟨usage, gated⟩ := gates_of_stopped stopped
  exact ⟨{ s with usage }, Step.bind_eq_ok.mpr ⟨_, _, Transaction.evaluate_of_ok gated, rfl⟩⟩

theorem opens_of_effect {name : String} {input : Record} {request : CommandRequest} {outcome : CommandOutcome}
    (ran : engine.run name input request s = (outcome, t))
    (effect : outcome.isSuccess = true ∨ t.stores ≠ s.stores ∨ t.journal ≠ s.journal) :
    ∃ command entity record, engine.Called name request s command entity record ∧
      engine.Opens command entity request.overrides (engine.commandScope command record input) s.usage := by
  have loud : ¬ (s.Still t ∧ outcome.isSuccess = false) := by
    rintro ⟨still, unsuccessful⟩
    rcases effect with success | changed | changed
    · exact Bool.noConfusion (unsuccessful.symm.trans success)
    · exact changed still.stores
    · exact changed still.journal
  obtain ⟨error, failed⟩ | ⟨command, entity, record, called, attended⟩ := run_cases engine name input request s
  · cases ran.symm.trans failed
    exact absurd ⟨.refl s, rfl⟩ loud
  refine ⟨command, entity, record, called, ?_⟩
  rw [ran] at attended
  cases answer : engine.attend command entity input request record s with
  | mk result after =>
      rw [answer] at attended
      obtain ⟨still, ⟨error, rfl⟩ | ⟨stop, rfl, stopped⟩⟩ | ⟨opened, _⟩ := attend_cases answer
      · cases attended
        exact absurd ⟨still, rfl⟩ loud
      · cases attended
        refine absurd ⟨still, ?_⟩ loud
        cases stopped <;> rfl
      · exact opened

theorem run_stopped_iff {name : String} {input : Record} {request : CommandRequest} {stop : CommandOutcome}
    (atGate : stop.AtGate) : (engine.run name input request s).1 = stop ↔
      ∃ command entity record, engine.Called name request s command entity record ∧
        engine.Stopped command entity request.overrides (engine.commandScope command record input) s.usage stop := by
  constructor
  · intro told
    obtain ⟨error, failed⟩ | ⟨command, entity, record, called, attended⟩ := run_cases engine name input request s
    · rw [failed] at told
      cases told
      exact atGate.elim
    rw [attended] at told
    cases answer : engine.attend command entity input request record s with
    | mk result after =>
        rw [answer] at told
        cases result with
        | error error => cases told; exact atGate.elim
        | ok outcome =>
            cases told
            obtain ⟨_, ⟨_, impossible⟩ | ⟨_, same, stopped⟩⟩ | ⟨_, past⟩ := attend_cases answer
            · cases impossible
            · cases same; exact ⟨command, entity, record, called, stopped⟩
            · exact absurd atGate (past _ rfl)
  · rintro ⟨command, entity, record, called, stopped⟩
    obtain ⟨t, attended⟩ := attend_of_stopped stopped
    rw [run_called called, attended]
    rfl

-- A run that succeeds, or that changes a store or the journal, was called, and in the scope that it started
-- in every gate opened. A run ends at a gate exactly where that gate is the first that does not open, and
-- its outcome tells of no other.
theorem effects_behind_gates (engine : Engine) (name : String) (input : Record) (request : CommandRequest)
    (state : EngineState) :
    let result := engine.run name input request state
    (result.1.isSuccess = true ∨ result.2.stores ≠ state.stores ∨ result.2.journal ≠ state.journal →
      ∃ command entity record, engine.Called name request state command entity record ∧
        engine.Opens command entity request.overrides (engine.commandScope command record input) state.usage) ∧
    (∀ stop : CommandOutcome, stop.AtGate → (result.1 = stop ↔
      ∃ command entity record, engine.Called name request state command entity record ∧
        engine.Stopped command entity request.overrides (engine.commandScope command record input)
          state.usage stop)) ∧
    ∀ fields, result.1.json = .object fields →
      ¬ (Fields.has fields "policyDenial" = true ∧ Fields.has fields "guardFailure" = true) := by
  intro result
  refine ⟨?_, ?_, result.1.json_not_both⟩
  · exact opens_of_effect rfl
  · exact fun _ atGate => run_stopped_iff atGate

end Engine
end Charter
