import Charter.Evaluation
import Charter.Proofs.Parts
import Charter.Proofs.Step

/-!
What every evaluation does. Expressions are made of few steps that do anything by themselves; what these do, and
what a sequence does if its parts do, every expression does, also where it applies lambdas.
-/

namespace Charter.Evaluation

-- The errors that expressions fail with by themselves.
inductive Reported : EvaluationError → Prop where
  | unknownBinary (operator : String) : Reported (.unknownBinary operator)
  | unknownUnary (operator : String) : Reported (.unknownUnary operator)
  | wrongArity (count : Nat) : Reported (.wrongArity count)
  | notCallable (name : String) : Reported (.notCallable name)
  | tooManyApplications : Reported .tooManyApplications

-- A property of the steps that expressions are made of, which sequences keep.
structure Closed (around : Surroundings) (P : (α : Type) → Evaluation α → Prop) : Prop where
  pure : ∀ {α : Type} (value : α), P α (Pure.pure value)
  fail : ∀ {α : Type} {error : EvaluationError}, Reported error → P α (Step.fail error)
  readClock : P Int (readClock around)
  freshId : P String (freshId around)
  freshLambda : P Nat freshLambda
  bind : ∀ {α β : Type} {first : Evaluation α} {next : α → Evaluation β},
    P α first → (∀ value, P β (next value)) → P β (first >>= next)

namespace Closed
variable {around : Surroundings} {P : (α : Type) → Evaluation α → Prop} (closed : Closed around P)
  {apply : Closure → List Value → Evaluation Value} {env : Environment}
include closed

theorem binary (operator : String) {left right : Evaluation Value} (first : P Value left) (second : P Value right) :
    P Value (Evaluation.binary operator left right) := by
  refine closed.bind first fun value => ?_
  cases BinaryOperator.ofSpelling? operator with
  | none => exact closed.bind second fun _ => closed.fail (.unknownBinary operator)
  | some known =>
      dsimp only
      split
      · exact closed.pure value
      · exact closed.bind second fun _ => closed.pure _

theorem unary (operator : String) (value : Value) : P Value (Evaluation.unary operator value) := by
  unfold Evaluation.unary
  split
  · exact closed.pure _
  · exact closed.pure _
  · exact closed.pure _
  · exact closed.fail (.unknownUnary operator)

theorem call (builtin : Builtin) (arguments : List Value) : P Value (builtin.call around arguments) := by
  cases builtin with
  | now => exact closed.bind closed.readClock fun _ => closed.pure _
  | uuid => exact closed.bind closed.freshId fun _ => closed.pure _
  | element =>
      match arguments with
      | [target, key] => exact closed.pure _
      | [] | [_] | _ :: _ :: _ :: _ => exact closed.fail (.wrongArity _)

theorem applyValue (applied : ∀ closure arguments, P Value (apply closure arguments)) (name : String)
    (function : Value) (arguments : List Value) : P Value (Evaluation.applyValue apply name function arguments) := by
  unfold Evaluation.applyValue
  split
  · exact applied _ _
  · exact closed.fail (.notCallable name)

theorem items {items : List Ir.Expression}
    (each : ∀ item ∈ items, P Value (Evaluation.expression around apply env item)) :
    P (List Value) (Evaluation.expression.items around apply env items) := by
  induction items with
  | nil => exact closed.pure []
  | cons item rest ih =>
      refine closed.bind (each item List.mem_cons_self) fun _ => ?_
      exact closed.bind (ih fun other later => each other (List.mem_cons_of_mem _ later)) fun _ => closed.pure _

theorem pairs {pairs : List (String × Ir.Expression)}
    (each : ∀ pair ∈ pairs, P Value (Evaluation.expression around apply env pair.2)) :
    P (List (String × Value)) (Evaluation.expression.pairs around apply env pairs) := by
  induction pairs with
  | nil => exact closed.pure []
  | cons pair rest ih =>
      refine closed.bind (each pair List.mem_cons_self) fun _ => ?_
      exact closed.bind (ih fun other later => each other (List.mem_cons_of_mem _ later)) fun _ => closed.pure _

theorem expression (applied : ∀ closure arguments, P Value (apply closure arguments)) (e : Ir.Expression) :
    P Value (Evaluation.expression around apply env e) := by
  induction e using Ir.Expression.induction with
  | literal value => exact closed.pure _
  | identifier name => exact closed.pure _
  | member target property ih => exact closed.bind ih fun _ => closed.pure _
  | binary operator left right first second => exact closed.binary operator first second
  | unary operator operand ih => exact closed.bind ih (closed.unary operator)
  | call callee arguments called each =>
      have given := closed.items each
      cases callee with
      | identifier name =>
          refine closed.bind given fun values => ?_
          cases builtin? name with
          | some builtin => exact closed.call builtin values
          | none => exact closed.applyValue applied name _ values
      | literal | member | binary | unary | call | conditional | array | object | lambda =>
          refine closed.bind given fun values => ?_
          exact closed.bind called fun function => closed.applyValue applied _ function values
  | conditional condition consequent alternate decided first second =>
      refine closed.bind decided fun value => ?_
      split
      · exact first
      · exact second
  | array elements each => exact closed.bind (closed.items each) fun _ => closed.pure _
  | object properties each => exact closed.bind (closed.pairs each) fun _ => closed.pure _
  | lambda params body => exact closed.bind closed.freshLambda fun _ => closed.pure _

theorem application (depth : Nat) (closure : Closure) (arguments : List Value) :
    P Value (Evaluation.apply around depth closure arguments) := by
  induction depth generalizing closure arguments with
  | zero => exact closed.fail .tooManyApplications
  | succ depth ih => exact closed.expression ih closure.body

theorem evaluate (env : Environment) (e : Ir.Expression) : P Value (Charter.evaluate around env e) :=
  closed.expression (closed.application applicationLimit) e

end Closed
end Charter.Evaluation
