import Charter.Evaluation
import Charter.Proofs.Constant
import Charter.Proofs.Fields
import Charter.Proofs.Parts

/-!
What constants mean. An expression that is a constant has the value of that constant in every environment, and asks
its surroundings for nothing. So it does not matter whether it is folded beforehand or evaluated in its place.
-/

namespace Charter

namespace Source.Expression
open Evaluation
open Ir (Constant)

variable {around : Surroundings} {apply : Closure → List Value → Evaluation Value} {env : Environment} {e : Expression}
  {constant : Constant}

-- The evaluation of an expression does nothing but give the value of a constant.
def Means (around : Surroundings) (apply : Closure → List Value → Evaluation Value) (env : Environment)
    (e : Expression) (constant : Constant) : Prop :=
  Evaluation.expression around apply env e.lower = pure (.ofConstant constant)

theorem Means.evaluation (means : e.Means around apply env constant) :
    Evaluation.expression around apply env e.lower = pure (.ofConstant constant) := means

theorem items_mean {elements : List Expression} {items : List Constant} (found : constant?.items elements = some items)
    (each : ∀ element ∈ elements, ∀ constant, element.constant? = some constant →
      element.Means around apply env constant) :
    expression.items around apply env (elements.map lower) = pure (items.map .ofConstant) := by
  induction elements generalizing items with
  | nil => cases found; rfl
  | cons element rest ih =>
      obtain ⟨first, isFirst, others, areOthers, rfl⟩ := constant?_items_cons.mp found
      have head := each element List.mem_cons_self first isFirst
      have tail := ih areOthers fun other later => each other (List.mem_cons_of_mem _ later)
      rw [List.map_cons, expression.items, head.evaluation, tail]
      rfl

theorem pairs_mean {entries : List (String × Expression)} {members : List (String × Constant)}
    (found : constant?.pairs entries = some members)
    (each : ∀ entry ∈ entries, ∀ constant, entry.2.constant? = some constant →
      entry.2.Means around apply env constant) :
    expression.pairs around apply env (entries.map fun entry => (entry.1, entry.2.lower)) =
      pure (members.map fun (key, value) => (key, .ofConstant value)) := by
  induction entries generalizing members with
  | nil => cases found; rfl
  | cons entry rest ih =>
      obtain ⟨first, isFirst, others, areOthers, rfl⟩ := constant?_pairs_cons.mp found
      have head := each entry List.mem_cons_self first isFirst
      have tail := ih areOthers fun other later => each other (List.mem_cons_of_mem _ later)
      rw [List.map_cons, expression.pairs, head.evaluation, tail]
      rfl

-- Folding a minus sign negates the number, and evaluating it negates what the number is taken for, which is itself.
theorem IsNumber.means (number : e.IsNumber) (found : e.constant? = some constant) :
    e.Means around apply env constant := by
  suffices ∃ value, e.constant? = some (.number value) ∧ e.Means around apply env (.number value) by
    obtain ⟨value, same, read⟩ := this
    cases found.symm.trans same
    exact read
  clear found
  induction number with
  | literal value => exact ⟨value, rfl, rfl⟩
  | negate _ ih =>
      obtain ⟨value, same, read⟩ := ih
      refine ⟨-value, by rw [Expression.constant?, same], ?_⟩
      unfold Means
      rw [lower, expression, read.evaluation]
      rfl

-- By induction on the form of the constant. Of entries with one key, both ways keep the last value at the first place.
theorem IsConstant.means (form : e.IsConstant) (found : e.constant? = some constant) :
    e.Means around apply env constant := by
  induction form generalizing constant with
  | literal value => cases found; rfl
  | negate number => exact IsNumber.means (.negate number) found
  | array _ each =>
      obtain ⟨items, listed, rfl⟩ := Option.map_eq_some_iff.mp found
      have values := items_mean listed fun element member _ same => each element member same
      unfold Means
      rw [lower, lower_items, expression, values, Value.ofConstant_array]
      rfl
  | object _ each =>
      obtain ⟨members, listed, rfl⟩ := Option.map_eq_some_iff.mp found
      have values := pairs_mean listed fun entry member _ same => each entry member same
      unfold Means
      rw [lower, lower_pairs, expression, values, Value.ofConstant_object, ← Fields.ofList_map]
      rfl

-- Whatever constant an expression is, its evaluation gives the value of that constant in every environment, takes
-- nothing from the surroundings and makes no lambda.
theorem constant_evaluates (around : Surroundings) (env : Environment) (usage : Usage)
    (found : e.constant? = some constant) :
    evaluate around env e.lower usage = (.ok (.ofConstant constant), usage) := by
  have form : e.IsConstant := isConstant_of_constant? e (Option.isSome_of_eq_some found)
  have read : e.Means around (Evaluation.apply around applicationLimit) env constant := form.means found
  exact congrFun read usage

-- The key `a` is written twice: it has the value written last, which has two minus signs, in the place of the first.
theorem repeated_key_evaluates :
    let around : Surroundings := ⟨fun _ => 0, fun _ => ""⟩
    let env : Environment := ⟨[[("a", .string "bound")]]⟩
    let e : Expression := .object [("a", .literal .null), ("b", .array [.literal (.boolean true), .array []]),
      ("a", .unary .negate (.unary .negate (.literal (.number 1))))]
    let constant : Constant := .object [("a", .number (- -1)), ("b", .array [.boolean true, .array []])]
    e.constant? = some constant ∧ evaluate around env e.lower { readings := 2 } =
      (.ok (.object [("a", .number (- -1)), ("b", .array [.boolean true, .array []])]), { readings := 2 }) := by
  intro around env e constant
  have found : e.constant? = some constant := rfl
  exact ⟨found, constant_evaluates around env { readings := 2 } found⟩

end Source.Expression
end Charter
