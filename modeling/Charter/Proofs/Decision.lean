import Charter.Proofs.JudgedRecord

/-!
The decision on a write. The constraints of an entity are all tried on the record as it would be, and those that do not
hold are told, one outcome each and in their order. The write is refused if one of them blocks, and for no other reason:
neither by a constraint that only warns, nor by details that cannot be evaluated.
-/

namespace Charter.Engine
open Stores
variable {engine : Engine} {env : Environment} {scope : PolicyScope} {entity : Ir.Entity} {name : String}
  {constraint : Ir.Constraint} {constraints fallen : List Ir.Constraint} {judged : Record}
  {violations : List ConstraintOutcome} {start usage last : Usage} {request : WriteRequest} {store : Store}
  {s : EngineState}

-- A request comes to the judgement of a record: no claim of a version and no transition stands against it.
inductive Reaches (engine : Engine) (entity : Ir.Entity) (name : String) (s : EngineState) :
    WriteRequest → Record → Usage → Prop where
  | create {data judged : Record} {usage : Usage}
      (completed : engine.firstVersion entity (Fields.overlay entity.defaults data) s.usage = (.ok judged, usage)) :
      Reaches engine entity name s (.create data) judged usage
  | update {id : String} {patch existing plan : Record} {usage : Usage}
      (found : Transaction.record? name id s = (.ok (some existing), s))
      (planned : engine.nextVersion entity existing patch s.usage = (.ok (.ok plan), usage))
      (moves : Write.invalidTransition? entity existing plan = none) :
      Reaches engine entity name s (.update id patch) (Fields.overlay existing plan) usage

-- Every condition of a list of constraints can be evaluated, each where the one before was judged with its details;
-- `fallen` are the constraints whose conditions are falsy.
inductive Tried (engine : Engine) (env : Environment) (scope : PolicyScope) :
    List Ir.Constraint → Usage → List Ir.Constraint → Prop where
  | nil {start : Usage} : Tried engine env scope [] start []
  | holds {constraint : Ir.Constraint} {rest fallen : List Ir.Constraint} {start middle : Usage}
      (found : engine.Finds env true constraint.expression start middle)
      (others : Tried engine env scope rest (engine.judge env scope [] constraint start).2 fallen) :
      Tried engine env scope (constraint :: rest) start fallen
  | falls {constraint : Ir.Constraint} {rest fallen : List Ir.Constraint} {start middle : Usage}
      (found : engine.Finds env false constraint.expression start middle)
      (others : Tried engine env scope rest (engine.judge env scope [] constraint start).2 fallen) :
      Tried engine env scope (constraint :: rest) start (constraint :: fallen)

theorem judge_of_finds {truth : Bool} (found : engine.Finds env truth constraint.expression start last)
    (scope : PolicyScope) : ∃ outcome after, engine.judge env scope [] constraint start = (.ok outcome, after) ∧
      Tells constraint truth outcome := by
  obtain ⟨value, evaluated, rfl⟩ := found
  exact judge_of_evaluated evaluated

-- What is told of constraints that were all tried are the fallen ones.
theorem Tried.judgeAll (tried : engine.Tried env scope constraints start fallen) :
    ∃ outcomes last, engine.judgeAll env scope [] constraints start = (.ok outcomes, last) ∧
      List.Forall₂ (Tells · false) fallen (outcomes.filter (!·.passed)) := by
  induction tried with
  | nil => exact ⟨[], _, rfl, .nil⟩
  | holds found others ih =>
      obtain ⟨outcome, after, judging, told⟩ := judge_of_finds found scope
      rw [judging] at ih
      obtain ⟨outcomes, last, went, each⟩ := ih
      refine ⟨outcome :: outcomes, last, ?_, ?_⟩
      · exact (Step.bind_of_ok judging).trans ((Step.bind_of_ok went).trans rfl)
      · simpa [told.passed] using each
  | falls found others ih =>
      obtain ⟨outcome, after, judging, told⟩ := judge_of_finds found scope
      rw [judging] at ih
      obtain ⟨outcomes, last, went, each⟩ := ih
      refine ⟨outcome :: outcomes, last, ?_, ?_⟩
      · exact (Step.bind_of_ok judging).trans ((Step.bind_of_ok went).trans rfl)
      · simp only [List.filter_cons, told.passed, Bool.not_false, if_true]
        exact .cons told each

theorem create_of_judged {data : Record} (declared : engine.ir.entity? name = some entity)
    (completed : engine.firstVersion entity (Fields.overlay entity.defaults data) s.usage = (.ok judged, usage))
    (found : engine.violations entity judged usage = (.ok violations, last)) :
    engine.create name data s = (if violations.any (·.isBlocking) then
        return .rejected .constraintViolation violations
      else return .written (← .insertRecord engine.around name judged) violations : Transaction WriteOutcome)
      { s with usage := last } := by
  unfold create
  rw [Step.bind_of_ok (Transaction.entity_of declared), Step.bind_of_ok (Transaction.evaluate_of_ok completed),
    Step.bind_of_ok (Transaction.evaluate_of_ok found)]

theorem planUpdate_of_judged {existing patch plan : Record}
    (planned : engine.nextVersion entity existing patch start = (.ok (.ok plan), usage))
    (moves : Write.invalidTransition? entity existing plan = none)
    (found : engine.violations entity (Fields.overlay existing plan) usage = (.ok violations, last)) :
    engine.planUpdate entity existing patch start =
      (.ok (if violations.any (·.isBlocking) then .error (.rejected .constraintViolation violations)
        else .ok (plan, violations)), last) := by
  unfold planUpdate
  rw [Step.bind_of_ok planned]
  simp only [moves]
  rw [Step.bind_of_ok found]
  split
  · rfl
  · rfl

theorem update_of_refused {id : String} {existing patch : Record} {outcome : WriteOutcome}
    (declared : engine.ir.entity? name = some entity)
    (stored : Transaction.record? name id s = (.ok (some existing), s))
    (plans : engine.planUpdate entity existing patch s.usage = (.ok (.error outcome), last)) :
    engine.update name id patch s = (.ok outcome, { s with usage := last }) := by
  apply (Step.bind_of_ok (Transaction.entity_of declared)).trans
  apply (Step.bind_of_ok stored).trans
  exact (Step.bind_of_ok (Transaction.evaluate_of_ok plans)).trans rfl

theorem update_of_planned {id : String} {existing patch plan : Record} (declared : engine.ir.entity? name = some entity)
    (stored : Transaction.record? name id s = (.ok (some existing), s))
    (plans : engine.planUpdate entity existing patch s.usage = (.ok (.ok (plan, violations)), last)) :
    engine.update name id patch s = commitUpdate name id plan violations { s with usage := last } := by
  apply (Step.bind_of_ok (Transaction.entity_of declared)).trans
  apply (Step.bind_of_ok stored).trans
  exact (Step.bind_of_ok (Transaction.evaluate_of_ok plans)).trans rfl

-- A write that comes to the judgement is refused by what blocks, and made where nothing does.
theorem Reaches.write (declared : engine.ir.entity? name = some entity)
    (opened : Fields.get? s.stores name = some store) (serving : store.conduct = .serving)
    (reaches : engine.Reaches entity name s request judged usage)
    (found : engine.violations entity judged usage = (.ok violations, last)) :
    ∃ outcome t, engine.write name request s = (.ok outcome, t) ∧
      if violations.any (·.isBlocking) then outcome = .rejected .constraintViolation violations
      else ∃ record, outcome = .written record violations := by
  cases reaches with
  | create completed =>
      rw [Engine.write, create_of_judged declared completed found]
      split
      · exact ⟨_, _, rfl, rfl⟩
      · have permitted := Store.permit_of_serving serving .create
        obtain ⟨kept, t, inserted⟩ := Transaction.insertRecord_of engine.around (s := { s with usage := last })
          opened permitted judged
        exact ⟨_, t, (Step.bind_of_ok inserted).trans rfl, kept, rfl⟩
  | @update id patch existing plan _ stored planned moves =>
      have plans := planUpdate_of_judged planned moves found
      rw [Engine.write]
      split at plans
      · next blocked =>
        exact ⟨_, _, update_of_refused declared stored plans, by rw [if_pos blocked]⟩
      · next clear =>
        have shelved : store.shelf.get? id = some existing := by
          have read := Transaction.record?_of opened (Store.get?_eq_shelf serving id)
          exact Except.ok.inj (congrArg Prod.fst (read.symm.trans stored))
        have wrote := Transaction.updateRecord_of (s := { s with usage := last }) opened serving shelved plan
        rw [update_of_planned declared stored plans]
        exact ⟨_, _, (Step.bind_of_ok wrote).trans rfl, by rw [if_neg clear]; exact ⟨_, rfl⟩⟩

end Charter.Engine
