import Charter.Proofs.Independence
import Charter.Proofs.Parts

/-!
The limit on nested applications. Below it evaluation follows the expression and takes finitely many steps; a limit that
is not reached makes no difference. So an evaluation ends, whatever the limit, in what it ends in from some limit on.
-/

namespace Charter
open Evaluation

-- The value of an expression where so many applications may nest.
def evaluateWithin (around : Surroundings) (limit : Nat) (env : Environment) (e : Ir.Expression) : Evaluation Value :=
  expression around (apply around limit) env e

namespace Evaluation
variable {α β : Type}

/-! A limit that is not reached makes no difference. -/

-- Two computations that do the same, unless the first is cut off.
def Extends (fewer more : Evaluation α) : Prop :=
  ∀ usage, (fewer usage).1 = .error .tooManyApplications ∨ more usage = fewer usage

namespace Extends

theorem refl (run : Evaluation α) : Extends run run := fun _ => .inr rfl

theorem bind {fewer more : Evaluation α} {next next' : α → Evaluation β} (first : Extends fewer more)
    (behind : ∀ value, Extends (next value) (next' value)) : Extends (fewer >>= next) (more >>= next') := by
  intro usage
  cases ran : fewer usage with
  | mk result after =>
      obtain cut | same := first usage
      · rw [ran] at cut
        cases cut
        exact .inl (congrArg Prod.fst (Step.bind_of_error ran))
      · rw [ran] at same
        cases result with
        | error error => exact .inr ((Step.bind_of_error same).trans (Step.bind_of_error ran).symm)
        | ok value =>
            rw [Step.bind_of_ok ran, Step.bind_of_ok same]
            exact behind value after

theorem after {run : Evaluation α} {next next' : α → Evaluation β}
    (behind : ∀ value, Extends (next value) (next' value)) : Extends (run >>= next) (run >>= next') :=
  (refl run).bind behind

end Extends

section Forms
variable {around : Surroundings} {env : Environment} {apply apply' : Closure → List Value → Evaluation Value}

theorem binary_extends (operator : String) {left right left' right' : Evaluation Value} (first : Extends left left')
    (second : Extends right right') : Extends (binary operator left right) (binary operator left' right') := by
  refine first.bind fun value => ?_
  cases BinaryOperator.ofSpelling? operator with
  | none => exact second.bind fun _ => .refl _
  | some known =>
      dsimp only
      split
      · exact .refl _
      · exact second.bind fun _ => .refl _

theorem items_extend {items : List Ir.Expression}
    (each : ∀ item ∈ items, Extends (expression around apply env item) (expression around apply' env item)) :
    Extends (expression.items around apply env items) (expression.items around apply' env items) := by
  induction items with
  | nil => exact .refl _
  | cons item rest ih =>
      refine (each item List.mem_cons_self).bind fun _ => ?_
      exact (ih fun other later => each other (List.mem_cons_of_mem _ later)).bind fun _ => .refl _

theorem pairs_extend {pairs : List (String × Ir.Expression)}
    (each : ∀ pair ∈ pairs, Extends (expression around apply env pair.2) (expression around apply' env pair.2)) :
    Extends (expression.pairs around apply env pairs) (expression.pairs around apply' env pairs) := by
  induction pairs with
  | nil => exact .refl _
  | cons pair rest ih =>
      refine (each pair List.mem_cons_self).bind fun _ => ?_
      exact (ih fun other later => each other (List.mem_cons_of_mem _ later)).bind fun _ => .refl _

variable (applied : ∀ closure arguments, Extends (apply closure arguments) (apply' closure arguments))
include applied

theorem applyValue_extends (name : String) (function : Value) (arguments : List Value) :
    Extends (applyValue apply name function arguments) (applyValue apply' name function arguments) := by
  unfold applyValue
  split
  · exact applied _ _
  · exact .refl _

theorem expression_extends (e : Ir.Expression) :
    Extends (expression around apply env e) (expression around apply' env e) := by
  induction e using Ir.Expression.induction with
  | literal | identifier | lambda => exact .refl _
  | member target property ih => exact ih.bind fun _ => .refl _
  | binary operator left right first second => exact binary_extends operator first second
  | unary operator operand ih => exact ih.bind fun _ => .refl _
  | call callee arguments called each =>
      have given := items_extend each
      cases callee with
      | identifier name =>
          refine given.bind fun values => ?_
          cases builtin? name with
          | some builtin => exact .refl _
          | none => exact applyValue_extends applied name _ values
      | literal | member | binary | unary | call | conditional | array | object | lambda =>
          exact given.bind fun values => called.bind fun function => applyValue_extends applied _ function values
  | conditional condition consequent alternate decided first second =>
      refine decided.bind fun value => ?_
      split
      · exact first
      · exact second
  | array elements each => exact (items_extend each).bind fun _ => .refl _
  | object properties each => exact (pairs_extend each).bind fun _ => .refl _

end Forms

theorem apply_extends (around : Surroundings) {limit more : Nat} (fewer : limit ≤ more) (closure : Closure)
    (arguments : List Value) :
    Extends (apply around limit closure arguments) (apply around more closure arguments) := by
  induction limit generalizing more closure arguments with
  | zero => exact fun _ => .inl rfl
  | succ limit ih =>
      obtain ⟨rest, rfl⟩ := Nat.exists_eq_add_of_le' fewer
      exact expression_extends (ih (Nat.le_add_left limit rest)) closure.body

end Evaluation

-- Where evaluation was not cut off, more applications make no difference.
theorem evaluateWithin_more (around : Surroundings) {limit more : Nat} (fewer : limit ≤ more) (env : Environment)
    (e : Ir.Expression) (usage : Usage)
    (whole : (evaluateWithin around limit env e usage).1 ≠ .error .tooManyApplications) :
    evaluateWithin around more env e usage = evaluateWithin around limit env e usage :=
  (expression_extends (apply_extends around fewer) e usage).resolve_left whole

-- What an evaluation ends in from some limit on, which is a value or an error of the expression.
def EndsIn (around : Surroundings) (env : Environment) (e : Ir.Expression) (usage : Usage)
    (outcome : Except EvaluationError Value × Usage) : Prop :=
  outcome.1 ≠ .error .tooManyApplications ∧
    ∃ limit, ∀ more, limit ≤ more → evaluateWithin around more env e usage = outcome

-- That is what the expression evaluates to, unless the limit there is too low.
theorem EndsIn.evaluate {around : Surroundings} {env : Environment} {e : Ir.Expression} {usage : Usage}
    {outcome : Except EvaluationError Value × Usage} (ends : EndsIn around env e usage outcome) :
    evaluate around env e usage = outcome ∨ (evaluate around env e usage).1 = .error .tooManyApplications := by
  obtain ⟨_, limit, same⟩ := ends
  by_cases cut : (Charter.evaluate around env e usage).1 = .error .tooManyApplications
  · exact .inr cut
  · have kept := evaluateWithin_more around (Nat.le_max_left applicationLimit limit) env e usage cut
    exact .inl (kept.symm.trans (same _ (Nat.le_max_right applicationLimit limit)))

/-! Computations that the limit does not matter to from some limit on. -/

namespace Evaluation
variable {α β : Type} {good : α → Prop} {good' : β → Prop}

-- A value that is good, or an error, but not for want of applications.
inductive Finished (good : α → Prop) : Except EvaluationError α × Usage → Prop
  | value {value : α} {usage : Usage} (holds : good value) : Finished good (.ok value, usage)
  | error {error : EvaluationError} {usage : Usage} (told : error ≠ .tooManyApplications) :
      Finished good (.error error, usage)

-- A computation with a limit, which from some limit on does not matter any more.
def Settles (run : Nat → Evaluation α) (good : α → Prop) : Prop :=
  ∀ usage, ∃ limit outcome, Finished good outcome ∧ ∀ more, limit ≤ more → run more usage = outcome

namespace Settles

theorem imp {run : Nat → Evaluation α} {weaker : α → Prop} (settles : Settles run good)
    (less : ∀ value, good value → weaker value) : Settles run weaker := by
  intro usage
  obtain ⟨limit, outcome, finished, same⟩ := settles usage
  refine ⟨limit, outcome, ?_, same⟩
  cases finished with
  | value holds => exact .value (less _ holds)
  | error told => exact .error told

theorem pure {value : α} (holds : good value) : Settles (fun _ => Pure.pure value) good :=
  fun _ => ⟨0, _, .value holds, fun _ _ => rfl⟩

theorem of_pure {value : α} (settles : Settles (fun _ => Pure.pure value) good) : good value := by
  obtain ⟨limit, outcome, finished, same⟩ := settles {}
  cases same limit (Nat.le_refl limit)
  cases finished with
  | value holds => exact holds

theorem fail {error : EvaluationError} (told : error ≠ .tooManyApplications) :
    Settles (fun _ => Step.fail error) good :=
  fun _ => ⟨0, _, .error told, fun _ _ => rfl⟩

theorem total {run : Usage → α × Usage} (holds : ∀ usage, good (run usage).1) :
    Settles (fun _ => Step.total run) good :=
  fun usage => ⟨0, _, .value (holds usage), fun _ _ => rfl⟩

theorem bind {first : Nat → Evaluation α} {next : Nat → α → Evaluation β} (before : Settles first good)
    (behind : ∀ value, good value → Settles (next · value) good') :
    Settles (fun limit => first limit >>= next limit) good' := by
  intro usage
  obtain ⟨limit, outcome, finished, same⟩ := before usage
  cases finished with
  | error told => exact ⟨limit, _, .error told, fun more enough => Step.bind_of_error (same more enough)⟩
  | @value value after holds =>
      obtain ⟨limit', outcome', finished', same'⟩ := behind value holds after
      refine ⟨max limit limit', outcome', finished', fun more enough => ?_⟩
      obtain ⟨one, other⟩ := Nat.max_le.mp enough
      exact (Step.bind_of_ok (same more one)).trans (same' more other)

-- An application is one more than those in the body.
theorem apply {around : Surroundings} {closure : Closure} {arguments : List Value} {good : Value → Prop}
    (settles : Settles (fun limit => evaluateWithin around limit (closure.scope arguments) closure.body) good) :
    Settles (fun limit => Evaluation.apply around limit closure arguments) good := by
  intro usage
  obtain ⟨limit, outcome, finished, same⟩ := settles usage
  refine ⟨limit + 1, outcome, finished, fun more enough => ?_⟩
  obtain ⟨fewer, rfl⟩ := Nat.exists_eq_add_of_le' enough
  exact same (fewer + limit) (Nat.le_add_left limit fewer)

end Settles
end Evaluation

end Charter
