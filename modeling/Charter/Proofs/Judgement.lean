import Charter.Engine.Constraint
import Charter.Proofs.Conditions

/-!
The judgement of constraints: which one blocks, and what lets it pass all the same.
-/

namespace Charter.Engine
variable {engine : Engine} {env : Environment} {scope : PolicyScope} {overrides : List String}
  {constraint : Ir.Constraint} {start middle last : Usage}

-- A request names the constraint, which lets itself be overridden; the policy that it names for that, if
-- any, is found and holds.
def Overridden (engine : Engine) (env : Environment) (scope : PolicyScope) (overrides : List String)
    (constraint : Ir.Constraint) (start : Usage) : Prop :=
  constraint.code ∈ overrides ∧ constraint.overrideable = true ∧
    ∀ name, constraint.overridePolicy = some name → ∃ policy last,
      engine.ir.scopedPolicy? name scope.entity scope.module = some policy ∧
        engine.Finds env true policy.expression start last

-- The constraint can be evaluated, and if it blocks it holds or is overridden. The details come between the
-- constraint and its override.
def Admits (engine : Engine) (env : Environment) (scope : PolicyScope) (overrides : List String)
    (constraint : Ir.Constraint) (start : Usage) : Prop :=
  ∃ value last, engine.evaluate env constraint.expression start = (.ok value, last) ∧
    (constraint.severity = .block → value.isTruthy = true ∨
      engine.Overridden env scope overrides constraint (engine.details env constraint.details last).2)

inductive AdmitsAll (engine : Engine) (env : Environment) (scope : PolicyScope) (overrides : List String) :
    List Ir.Constraint → Usage → Prop where
  | nil {start : Usage} : AdmitsAll engine env scope overrides [] start
  | cons {constraint : Ir.Constraint} {rest : List Ir.Constraint} {start : Usage} :
      engine.Admits env scope overrides constraint start →
      AdmitsAll engine env scope overrides rest (engine.judge env scope overrides constraint start).2 →
      AdmitsAll engine env scope overrides (constraint :: rest) start

theorem allowsOverride_eq_ok {allowed : Bool}
    (ran : engine.allowsOverride env scope constraint start = (.ok allowed, last)) :
    allowed = true ↔ constraint.overrideable = true ∧
      ∀ name, constraint.overridePolicy = some name → ∃ policy last,
        engine.ir.scopedPolicy? name scope.entity scope.module = some policy ∧
          engine.Finds env true policy.expression start last := by
  unfold allowsOverride at ran
  cases fixed : constraint.overrideable with
  | false =>
      rw [fixed] at ran
      cases ran
      simp
  | true =>
      rw [fixed] at ran
      cases named : constraint.overridePolicy with
      | none =>
          rw [named] at ran
          cases ran
          simp
      | some name =>
          rw [named] at ran
          cases found : engine.ir.scopedPolicy? name scope.entity scope.module with
          | none =>
              simp only [found] at ran
              cases ran
              simp [found]
          | some policy =>
              simp only [found] at ran
              have held := holds_eq_ok.mp ran
              constructor
              · rintro rfl
                refine ⟨rfl, fun other same => ?_⟩
                cases same
                exact ⟨policy, last, found, held⟩
              · rintro ⟨-, every⟩
                obtain ⟨other, reached, same, ⟨value, evaluated, truthy⟩⟩ := every name rfl
                cases found.symm.trans same
                obtain ⟨value', evaluated', truth⟩ := held
                cases evaluated.symm.trans evaluated'
                exact truth.symm.trans truthy

theorem isOverridden_eq_ok {passed overridden : Bool}
    (ran : engine.isOverridden env scope overrides constraint passed start = (.ok overridden, last)) :
    overridden = true ↔
      passed = false ∧ constraint.severity = .block ∧
        engine.Overridden env scope overrides constraint start := by
  unfold isOverridden at ran
  split at ran
  · rename_i asked
    obtain ⟨⟨failed, blocks⟩, named⟩ : (passed = false ∧ constraint.severity = .block) ∧
        constraint.code ∈ overrides := by simpa using asked
    rw [allowsOverride_eq_ok ran]
    exact ⟨fun allowed => ⟨failed, blocks, named, allowed⟩, fun ⟨_, _, _, allowed⟩ => allowed⟩
  · rename_i unasked
    cases ran
    constructor
    · intro impossible; cases impossible
    · rintro ⟨failed, blocks, named, _⟩
      exact absurd (by simp [failed, blocks, named]) unasked

theorem judge_eq_ok {outcome : ConstraintOutcome}
    (ran : engine.judge env scope overrides constraint start = (.ok outcome, last)) :
    ∃ value middle reached, engine.evaluate env constraint.expression start = (.ok value, middle) ∧
      outcome.passed = value.isTruthy ∧ outcome.severity = constraint.severity ∧
      engine.isOverridden env scope overrides constraint value.isTruthy
        (engine.details env constraint.details middle).2 = (.ok outcome.overridden, reached) := by
  obtain ⟨passed, middle, held, detailing⟩ := Step.bind_eq_ok.mp ran
  obtain ⟨value, evaluated, rfl⟩ := holds_eq_ok.mp held
  obtain ⟨details, detailed, found, overriding⟩ := Step.bind_eq_ok.mp detailing
  obtain ⟨overridden, reached, asked, resolving⟩ := Step.bind_eq_ok.mp overriding
  refine ⟨value, middle, reached, evaluated, ?_⟩
  rw [found]
  split at resolving
  all_goals
    obtain ⟨resolved, _, _, ended⟩ := Step.bind_eq_ok.mp resolving
    cases ended
    exact ⟨rfl, rfl, asked⟩

-- Details that cannot be evaluated are null.
theorem details_eq_ok (engine : Engine) (env : Environment) (details : Fields Ir.Expression) (start : Usage) :
    ∃ values last, engine.details env details start = (.ok values, last) := by
  have good : ∃ values last, engine.details env details start = (.ok values, last) ∧ ∀ value ∈ values, True := by
    refine Step.each_of_good (fun detail _ before => ?_) start
    obtain ⟨found, after, attempted⟩ := Step.attempt_eq_ok (engine.evaluate env detail.2) before
    cases found with
    | none => exact ⟨_, _, (Step.bind_of_ok attempted).trans rfl, trivial⟩
    | some value => exact ⟨_, _, (Step.bind_of_ok attempted).trans rfl, trivial⟩
  obtain ⟨values, last, went, _⟩ := good
  exact ⟨values, last, went⟩

-- What an outcome that is not overridden says of its constraint, whose condition has this truth.
structure Tells (constraint : Ir.Constraint) (truth : Bool) (outcome : ConstraintOutcome) : Prop where
  code : outcome.code = constraint.code
  name : outcome.constraintName = constraint.name
  severity : outcome.severity = constraint.severity
  message : outcome.message = constraint.message
  expression : outcome.expression = constraint.expression.render
  passed : outcome.passed = truth
  overridden : outcome.overridden = false

-- Where nothing is overridden, a constraint is judged as soon as it can be evaluated.
theorem judge_of_evaluated {value : Value}
    (evaluated : engine.evaluate env constraint.expression start = (.ok value, middle)) :
    ∃ outcome last, engine.judge env scope [] constraint start = (.ok outcome, last) ∧
      Tells constraint value.isTruthy outcome := by
  obtain ⟨details, reached, detailed⟩ := details_eq_ok engine env constraint.details middle
  have asked : engine.isOverridden env scope [] constraint value.isTruthy reached = (.ok false, reached) := by
    simp [isOverridden]
  unfold judge
  rw [Step.bind_of_ok (holds_eq_ok.mpr ⟨value, evaluated, rfl⟩), Step.bind_of_ok detailed, Step.bind_of_ok asked]
  cases value.isTruthy with
  | true => exact ⟨_, _, rfl, ⟨rfl, rfl, rfl, rfl, rfl, rfl, rfl⟩⟩
  | false => exact ⟨_, _, rfl, ⟨rfl, rfl, rfl, rfl, rfl, rfl, rfl⟩⟩

theorem judge_admits {outcome : ConstraintOutcome}
    (ran : engine.judge env scope overrides constraint start = (.ok outcome, last)) :
    outcome.isBlocking = false ↔ engine.Admits env scope overrides constraint start := by
  obtain ⟨value, middle, reached, evaluated, passed, severity, asked⟩ := judge_eq_ok ran
  have overriding := isOverridden_eq_ok asked
  have decided : outcome.isBlocking = false ↔
      (constraint.severity = .block → value.isTruthy = true ∨ outcome.overridden = true) := by
    rw [← passed, ← severity]
    cases holds : outcome.passed <;> cases excused : outcome.overridden <;>
      simp [ConstraintOutcome.isBlocking, holds, excused]
  rw [decided]
  constructor
  · intro admitted
    refine ⟨value, middle, evaluated, fun blocks => (admitted blocks).imp_right fun excused => ?_⟩
    exact (overriding.mp excused).2.2
  · rintro ⟨other, reached', again, admitted⟩ blocks
    cases evaluated.symm.trans again
    cases truth : value.isTruthy with
    | true => exact .inl rfl
    | false =>
        rcases admitted blocks with truthy | excused
        · exact .inl (truth.symm.trans truthy)
        · exact .inr (overriding.mpr ⟨truth, blocks, excused⟩)

theorem judgeAll_admits {constraints : List Ir.Constraint} {outcomes : List ConstraintOutcome}
    (ran : engine.judgeAll env scope overrides constraints start = (.ok outcomes, last)) :
    outcomes.any (·.isBlocking) = false ↔ engine.AdmitsAll env scope overrides constraints start := by
  induction constraints generalizing start outcomes with
  | nil => cases ran; exact ⟨fun _ => .nil, fun _ => rfl⟩
  | cons constraint rest ih =>
      obtain ⟨outcome, middle, judged, going⟩ := Step.bind_eq_ok.mp ran
      obtain ⟨others, _, went, ended⟩ := Step.bind_eq_ok.mp going
      cases ended
      have reached : (engine.judge env scope overrides constraint start).2 = middle := by rw [judged]
      rw [List.any_cons, Bool.or_eq_false_iff, judge_admits judged, ih went]
      constructor
      · rintro ⟨first, others⟩
        exact .cons first (reached ▸ others)
      · intro admitted
        cases admitted with
        | cons first others => exact ⟨first, reached ▸ others⟩

end Charter.Engine
