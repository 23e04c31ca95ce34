import Charter.Engine.Write
import Charter.Proofs.Transaction

/-!
What a write does. A create or an update that is accepted puts one record into one store, where its
constraints were judged clear; any other write leaves stores and journal as they were.
-/

namespace Charter.Engine
variable {engine : Engine} {name id : String} {data patch : Record} {s t : EngineState}

-- `planned` is the record that was judged. The store keeps it under its id, which it may get only there.
inductive Created (engine : Engine) (name : String) (data : Record) (before : EngineState) :
    Record → List ConstraintOutcome → EngineState → Prop where
  | intro {entity : Ir.Entity} {store : Store} {planned kept : Record} {id : String}
      {violations : List ConstraintOutcome} {versioned judged named : Usage}
      (declared : engine.ir.entity? name = some entity)
      (opened : Fields.get? before.stores name = some store)
      (permitted : store.permit .create = .ok ())
      (completed : engine.firstVersion entity (Fields.overlay entity.defaults data) before.usage =
        (.ok planned, versioned))
      (found : engine.violations entity planned versioned = (.ok violations, judged))
      (clear : violations.any (·.isBlocking) = false)
      (identified : Record.identified engine.around planned judged = ((id, kept), named)) :
      Created engine name data before kept violations
        (EngineState.insert { before with usage := named } name store id kept)

-- `plan` is the patch with its version and stamp. It is written over the record that it was judged on.
inductive Updated (engine : Engine) (name id : String) (patch : Record) (before : EngineState) :
    Record → List ConstraintOutcome → EngineState → Prop where
  | intro {entity : Ir.Entity} {store : Store} {existing plan : Record}
      {violations : List ConstraintOutcome} {planned : Usage}
      (declared : engine.ir.entity? name = some entity)
      (opened : Fields.get? before.stores name = some store)
      (serving : store.conduct = .serving)
      (found : store.shelf.get? id = some existing)
      (admitted : engine.planUpdate entity existing patch before.usage = (.ok (.ok (plan, violations)), planned)) :
      Updated engine name id patch before (Record.patched existing plan) violations
        (EngineState.insert { before with usage := planned } name store id (Record.patched existing plan))

def Unwritten (result : Except EngineError WriteOutcome) : Prop :=
  ∀ record violations, result ≠ .ok (.written record violations)

theorem create_cases {result : Except EngineError WriteOutcome}
    (ran : engine.create name data s = (result, t)) :
    (s.Still t ∧ Unwritten result) ∨
      ∃ record violations, result = .ok (.written record violations) ∧
        engine.Created name data s record violations t := by
  obtain ⟨rfl, _, rfl⟩ | ⟨entity, declared, versioning⟩ := Transaction.need_then ran
  · exact .inl ⟨.refl _, fun _ _ => nofun⟩
  obtain ⟨_, usage, _, rfl, rfl⟩ | ⟨planned, versioned, completed, judging⟩ :=
    Transaction.evaluate_then versioning
  · exact .inl ⟨s.still_usage usage, fun _ _ => nofun⟩
  obtain ⟨_, usage, _, rfl, rfl⟩ | ⟨violations, judged, found, deciding⟩ := Transaction.evaluate_then judging
  · exact .inl ⟨s.still_usage usage, fun _ _ => nofun⟩
  cases blocked : violations.any (·.isBlocking) with
  | true =>
      rw [if_pos blocked] at deciding
      cases deciding
      exact .inl ⟨s.still_usage judged, fun _ _ => nofun⟩
  | false =>
      rw [if_neg (by simp [blocked])] at deciding
      obtain ⟨error, failed, rfl⟩ | ⟨kept, _, stored, ended⟩ := Step.bind_cases deciding
      · obtain ⟨rfl, _⟩ | ⟨_, _, _, _, _, _, _, impossible, _⟩ := Transaction.insertRecord_cases failed
        · exact .inl ⟨s.still_usage judged, fun _ _ => nofun⟩
        · cases impossible
      · obtain ⟨_, _, impossible⟩ | ⟨store, id, _, named, opened, permitted, identified, same, rfl⟩ :=
          Transaction.insertRecord_cases stored
        · cases impossible
        cases same
        cases ended
        exact .inr ⟨kept, violations, rfl, .intro declared opened permitted completed found blocked identified⟩

theorem commitUpdate_cases {violations : List ConstraintOutcome} {result : Except EngineError WriteOutcome}
    (ran : commitUpdate name id patch violations s = (result, t)) :
    (t = s ∧ Unwritten result) ∨
      ∃ store existing, Fields.get? s.stores name = some store ∧ store.conduct = .serving ∧
        store.shelf.get? id = some existing ∧
        result = .ok (.written (Record.patched existing patch) violations) ∧
        t = s.insert name store id (Record.patched existing patch) := by
  obtain ⟨error, failed, rfl⟩ | ⟨answer, _, asked, ended⟩ := Step.bind_cases ran
  · obtain ⟨same, _⟩ | ⟨_, _, _, _, _, impossible, _⟩ := Transaction.updateRecord_cases failed
    · exact .inl ⟨same, fun _ _ => nofun⟩
    · cases impossible
  obtain ⟨rfl, missed⟩ | ⟨store, existing, opened, serving, found, same, rfl⟩ :=
    Transaction.updateRecord_cases asked
  · cases answer with
    | none => cases ended; exact .inl ⟨rfl, fun _ _ => nofun⟩
    | some record => exact absurd rfl (missed record)
  · cases same
    cases ended
    exact .inr ⟨store, existing, opened, serving, found, rfl, rfl⟩

theorem planUpdate_cases {entity : Ir.Entity} {existing : Record} {start last : Usage}
    {answer : Except WriteOutcome (Record × List ConstraintOutcome)}
    (ran : engine.planUpdate entity existing patch start = (.ok answer, last)) :
    (∃ rejection violations, answer = .error (.rejected rejection violations)) ∨
      ∃ plan versioned violations, answer = .ok (plan, violations) ∧
        engine.nextVersion entity existing patch start = (.ok (.ok plan), versioned) ∧
        Write.invalidTransition? entity existing plan = none ∧
        engine.violations entity (Fields.overlay existing plan) versioned = (.ok violations, last) ∧
        violations.any (·.isBlocking) = false := by
  obtain ⟨claim, versioned, completed, going⟩ := Step.bind_eq_ok.mp ran
  cases claim with
  | error rejection => cases going; exact .inl ⟨rejection, [], rfl⟩
  | ok plan =>
      cases moved : Write.invalidTransition? entity existing plan with
      | some rejection =>
          simp only [moved] at going
          cases going
          exact .inl ⟨rejection, [], rfl⟩
      | none =>
          simp only [moved] at going
          obtain ⟨violations, judged, found, deciding⟩ := Step.bind_eq_ok.mp going
          cases blocked : violations.any (·.isBlocking) with
          | true =>
              rw [if_pos blocked] at deciding
              cases deciding
              exact .inl ⟨.constraintViolation, violations, rfl⟩
          | false =>
              rw [if_neg (by simp [blocked])] at deciding
              cases deciding
              exact .inr ⟨plan, versioned, violations, rfl, completed, moved, found, blocked⟩

theorem update_cases {result : Except EngineError WriteOutcome}
    (ran : engine.update name id patch s = (result, t)) :
    (s.Still t ∧ Unwritten result) ∨
      ∃ record violations, result = .ok (.written record violations) ∧
        engine.Updated name id patch s record violations t := by
  obtain ⟨rfl, _, rfl⟩ | ⟨entity, declared, reading⟩ := Transaction.need_then ran
  · exact .inl ⟨.refl _, fun _ _ => nofun⟩
  obtain ⟨rfl, _, rfl⟩ | ⟨before, answer, opened, present, planning⟩ := Transaction.record?_then reading
  · exact .inl ⟨.refl _, fun _ _ => nofun⟩
  cases answer with
  | none => cases planning; exact .inl ⟨.refl _, fun _ _ => nofun⟩
  | some existing =>
      obtain ⟨_, usage, _, rfl, rfl⟩ | ⟨answer, planned, admitted, committing⟩ :=
        Transaction.evaluate_then planning
      · exact .inl ⟨s.still_usage usage, fun _ _ => nofun⟩
      cases answer with
      | error outcome =>
          obtain ⟨_, _, refused⟩ | ⟨_, _, _, impossible, _⟩ := planUpdate_cases admitted
          · cases refused
            cases committing
            exact .inl ⟨s.still_usage planned, fun _ _ => nofun⟩
          · cases impossible
      | ok plan =>
          obtain ⟨plan, violations⟩ := plan
          obtain ⟨rfl, unwritten⟩ | ⟨store, stored, again, serving, found, rfl, rfl⟩ :=
            commitUpdate_cases committing
          · exact .inl ⟨s.still_usage planned, unwritten⟩
          · cases opened.symm.trans again
            cases (Store.get?_shelf present).symm.trans found
            exact .inr ⟨_, violations, rfl, .intro declared opened serving found admitted⟩

theorem created_of_written {record : Record} {violations : List ConstraintOutcome}
    (ran : engine.create name data s = (.ok (.written record violations), t)) :
    engine.Created name data s record violations t := by
  obtain ⟨_, unwritten⟩ | ⟨_, _, same, created⟩ := create_cases ran
  · exact absurd rfl (unwritten record violations)
  · cases same
    exact created

theorem updated_of_written {record : Record} {violations : List ConstraintOutcome}
    (ran : engine.update name id patch s = (.ok (.written record violations), t)) :
    engine.Updated name id patch s record violations t := by
  obtain ⟨_, unwritten⟩ | ⟨_, _, same, updated⟩ := update_cases ran
  · exact absurd rfl (unwritten record violations)
  · cases same
    exact updated

-- An update up to its second request: it reads the record and makes its plan.
def prepare (engine : Engine) (name id : String) (patch : Record) :
    Transaction (Except WriteOutcome (Record × List ConstraintOutcome)) := do
  let entity ← engine.entity name
  match ← Transaction.record? name id with
  | none => return .error (.rejected (.notFound id) [])
  | some existing => .evaluate (engine.planUpdate entity existing patch)

theorem update_eq_prepare : engine.update name id patch = (do
    match ← engine.prepare name id patch with
    | .error outcome => return outcome
    | .ok (plan, violations) => commitUpdate name id plan violations) := by
  unfold update prepare
  rw [bind_assoc]
  refine congrArg _ (funext fun entity => ?_)
  rw [bind_assoc]
  refine congrArg _ (funext fun found => ?_)
  cases found with
  | none => rfl
  | some existing => rfl

-- Only a record that was found gets a plan, and nothing is written for it yet.
theorem prepare_cases {result : Except EngineError (Except WriteOutcome (Record × List ConstraintOutcome))}
    (ran : engine.prepare name id patch s = (result, t)) :
    s.Still t ∧ ∀ plan, result = .ok (.ok plan) →
      ∃ store existing, Fields.get? s.stores name = some store ∧ store.get? id = .ok (some existing) := by
  obtain ⟨rfl, _, rfl⟩ | ⟨entity, declared, reading⟩ := Transaction.need_then ran
  · exact ⟨.refl _, fun _ => nofun⟩
  obtain ⟨rfl, _, rfl⟩ | ⟨store, answer, opened, present, planning⟩ := Transaction.record?_then reading
  · exact ⟨.refl _, fun _ => nofun⟩
  cases answer with
  | none => cases planning; exact ⟨.refl _, fun _ => nofun⟩
  | some existing =>
      exact ⟨Transaction.evaluate_still planning, fun _ _ => ⟨store, existing, opened, present⟩⟩

end Charter.Engine
