import Charter.Proofs.Likeness
import Charter.Proofs.Scope
import Charter.Proofs.Step

/-!
Evaluation depends on nothing that an expression does not read. Two runs of an expression, in
environments that show the same to it, go the same way and end in values that are alike.
-/

namespace Charter
open Evaluation

variable {pairing : Pairing} {view wider : View} {env env' : Environment} {v w : Value} {refused : String → Prop}

-- What a view shows of two environments is alike.
def Shown (pairing : Pairing) (view : View) (env env' : Environment) : Prop :=
  ∀ root keys, view root keys → Alike pairing ((env.resolve root).follow keys) ((env'.resolve root).follow keys)

namespace Shown

theorem define (shown : Shown pairing view env env') (alike : Alike pairing v w) (name : String) :
    Shown pairing (view.bind [name]) (env.define name v) (env'.define name w) := by
  intro root keys seen
  by_cases same : name = root
  · subst same
    rw [Environment.resolve_define_self, Environment.resolve_define_self]
    exact alike.follow keys
  · rw [Environment.resolve_define_other _ _ same, Environment.resolve_define_other _ _ same]
    rcases seen with bound | seen
    · exact absurd (List.mem_singleton.mp bound).symm same
    · exact shown root keys seen

theorem narrow (shown : Shown pairing wider env env') (less : ∀ root keys, view root keys → wider root keys) :
    Shown pairing view env env' := fun root keys seen => shown root keys (less root keys seen)

theorem defineEach {α : Type} (names : α → String) (values values' : α → Value) {items : List α}
    (shown : Shown pairing view env env')
    (alike : ∀ item ∈ items, Alike pairing (values item) (values' item)) :
    Shown pairing (view.bind (items.map names))
      (items.foldl (fun env item => env.define (names item) (values item)) env)
      (items.foldl (fun env item => env.define (names item) (values' item)) env') := by
  induction items generalizing view env env' with
  | nil => exact shown.narrow fun root keys seen => seen.resolve_left List.not_mem_nil
  | cons item rest ih =>
      have first := shown.define (alike item List.mem_cons_self) (names item)
      refine (ih first fun other later => alike other (List.mem_cons_of_mem _ later)).narrow ?_
      rintro root keys (bound | seen)
      · rcases List.mem_cons.mp bound with rfl | later
        · exact .inr (.inl List.mem_cons_self)
        · exact .inl later
      · exact .inr (.inr seen)

theorem scope {params : List String} {body : Ir.Expression} {arguments arguments' : List Value}
    (shown : Shown pairing view env env') (each : List.Forall₂ (Alike pairing) arguments arguments') :
    Shown pairing (view.bind params) (Closure.scope ⟨params, body, env⟩ arguments)
      (Closure.scope ⟨params, body, env'⟩ arguments') := by
  have inner : Shown pairing view env.inner env'.inner := shown
  have bound := inner.defineEach (·.1) (fun param => (arguments[param.2]?).getD .undefined)
    (fun param => (arguments'[param.2]?).getD .undefined)
    fun param (_ : param ∈ params.zipIdx) => Alike.getD (List.rel_getElem? each param.2)
  rw [List.zipIdx_map_fst] at bound
  exact bound

end Shown

-- Of two environments, neither holds a function under a name that is refused.
def Idle (refused : String → Prop) (env env' : Environment) : Prop :=
  ∀ name, refused name → (env.resolve name).isFunction = false ∧ (env'.resolve name).isFunction = false

-- Parameters hide names, and leave all others as they were.
theorem Closure.resolve_scope_other {params : List String} {body : Ir.Expression} (arguments : List Value)
    {name : String} (other : name ∉ params) :
    (Closure.scope ⟨params, body, env⟩ arguments).resolve name = env.resolve name := by
  suffices ∀ (numbered : List (String × Nat)) (env : Environment), (∀ param ∈ numbered, param.1 ≠ name) →
      (numbered.foldl (fun env param => env.define param.1 ((arguments[param.2]?).getD .undefined))
        env).resolve name = env.resolve name from
    (this _ _ fun param member same =>
      other (same ▸ List.zipIdx_map_fst 0 params ▸ List.mem_map_of_mem member)).trans rfl
  intro numbered
  induction numbered with
  | nil => exact fun _ _ => rfl
  | cons param rest ih =>
      intro env others
      have apart := others param List.mem_cons_self
      exact (ih _ fun later member => others later (List.mem_cons_of_mem _ member)).trans
        (Environment.resolve_define_other _ _ apart)

theorem Idle.scope {params : List String} {body : Ir.Expression} (idle : Idle refused env env')
    (arguments arguments' : List Value) :
    Idle (fun name => refused name ∧ name ∉ params) (Closure.scope ⟨params, body, env⟩ arguments)
      (Closure.scope ⟨params, body, env'⟩ arguments') := by
  rintro name ⟨named, other⟩
  rw [Closure.resolve_scope_other arguments other, Closure.resolve_scope_other arguments' other]
  exact idle name named

-- What two runs took so far differs in nothing but the number of lambdas from the starts of the pairing.
structure Aligned (pairing : Pairing) (u w : Usage) : Prop where
  begun : pairing.here ≤ u.lambdas
  lambdas : u.lambdas + pairing.there = w.lambdas + pairing.here
  taken : pairing.surrounded → u.readings = w.readings ∧ u.ids = w.ids

-- Runs that share everything from one start took the same.
theorem Aligned.same {u w : Usage} {start : Nat} (aligned : Aligned ⟨True, start, start⟩ u w) : u = w := by
  obtain ⟨readings, ids⟩ := aligned.taken trivial
  have lambdas : u.lambdas = w.lambdas := Nat.add_right_cancel aligned.lambdas
  cases u
  congr

-- Two runs end in related values or in one error.
inductive Ends {α β : Type} (pairing : Pairing) (R : α → β → Prop) :
    Except EvaluationError α × Usage → Except EvaluationError β × Usage → Prop where
  | ok {a : α} {b : β} {u w : Usage} (related : R a b) (aligned : Aligned pairing u w) :
      Ends pairing R (.ok a, u) (.ok b, w)
  | error {error : EvaluationError} {u w : Usage} (aligned : Aligned pairing u w) :
      Ends pairing R (.error error, u) (.error error, w)

def Together {α β : Type} (pairing : Pairing) (R : α → β → Prop) (here : Evaluation α) (there : Evaluation β) :
    Prop :=
  ∀ u w, Aligned pairing u w → Ends pairing R (here u) (there w)

namespace Together
variable {α β γ δ : Type} {R : α → β → Prop} {S : γ → δ → Prop} {here : Evaluation α} {there : Evaluation β}

theorem pure {a : α} {b : β} (related : R a b) :
    Together pairing R (Pure.pure a : Evaluation α) (Pure.pure b : Evaluation β) :=
  fun _ _ aligned => .ok related aligned

theorem fail (error : EvaluationError) :
    Together pairing R (Step.fail error : Evaluation α) (Step.fail error : Evaluation β) :=
  fun _ _ aligned => .error aligned

theorem bind {next : α → Evaluation γ} {next' : β → Evaluation δ} (first : Together pairing R here there)
    (behind : ∀ a b, R a b → Together pairing S (next a) (next' b)) :
    Together pairing S (here >>= next) (there >>= next') := by
  intro u w aligned
  have ended := first u w aligned
  cases ran : here u with
  | mk result after =>
      cases ran' : there w with
      | mk result' after' =>
          rw [ran, ran'] at ended
          cases ended with
          | ok related aligned =>
              rw [Step.bind_of_ok ran, Step.bind_of_ok ran']
              exact behind _ _ related _ _ aligned
          | error aligned =>
              rw [Step.bind_of_error ran, Step.bind_of_error ran']
              exact .error aligned

theorem freshLambda : Together pairing pairing.Meets Evaluation.freshLambda Evaluation.freshLambda := by
  rintro u w ⟨begun, lambdas, taken⟩
  refine .ok (.inr ⟨begun, by omega, lambdas⟩) ⟨Nat.le_succ_of_le begun, ?_, taken⟩
  change u.lambdas + 1 + pairing.there = w.lambdas + 1 + pairing.here
  omega

theorem readClock (surrounded : pairing.surrounded) (around : Surroundings) :
    Together pairing Eq (Evaluation.readClock around) (Evaluation.readClock around) := by
  rintro u w ⟨begun, lambdas, taken⟩
  obtain ⟨readings, ids⟩ := taken surrounded
  exact .ok (congrArg around.time readings) ⟨begun, lambdas, fun _ => ⟨congrArg (· + 1) readings, ids⟩⟩

theorem freshId (surrounded : pairing.surrounded) (around : Surroundings) :
    Together pairing Eq (Evaluation.freshId around) (Evaluation.freshId around) := by
  rintro u w ⟨begun, lambdas, taken⟩
  obtain ⟨readings, ids⟩ := taken surrounded
  exact .ok (congrArg around.id ids) ⟨begun, lambdas, fun _ => ⟨readings, congrArg (· + 1) ids⟩⟩

end Together

/-! Each form of an expression keeps two runs together. -/

section Forms
variable {around : Surroundings} {apply apply' : Closure → List Value → Evaluation Value}
  {left right left' right' : Evaluation Value} {v' w' : Value}

theorem decidedBy_alike (operator : BinaryOperator) (alike : Alike pairing v w) :
    decidedBy operator v = decidedBy operator w := by
  cases operator <;> simp only [decidedBy, alike.isTruthy, alike.isNullish]

theorem combine_alike (operator : BinaryOperator) (first : Alike pairing v w) (second : Alike pairing v' w') :
    Alike pairing (combine operator v v') (combine operator w w') := by
  cases operator with
  | both | bothWord | either | eitherWord | fallback => exact second
  | add => exact first.add second
  | subtract | multiply | divide | remainder =>
      simp only [combine, first.toNumber, second.toNumber]
      exact .number _
  | equal | is | notEqual =>
      simp only [combine, first.looselyEquals second]
      exact .boolean _
  | less | greater | lessOrEqual | greaterOrEqual =>
      simp only [combine, first.compares _ second]
      exact .boolean _
  | isIn =>
      simp only [combine, second.contains first]
      exact .boolean _
  | contains =>
      simp only [combine, first.contains second]
      exact .boolean _

theorem binary_together (operator : String) (first : Together pairing (Alike pairing) left left')
    (second : Together pairing (Alike pairing) right right') :
    Together pairing (Alike pairing) (binary operator left right) (binary operator left' right') := by
  refine first.bind fun a b alike => ?_
  cases BinaryOperator.ofSpelling? operator with
  | none => exact second.bind fun _ _ _ => .fail _
  | some known =>
      simp only [decidedBy_alike known alike]
      split
      · exact .pure alike
      · exact second.bind fun _ _ others => .pure (combine_alike known alike others)

theorem unary_together (operator : String) (alike : Alike pairing v w) :
    Together pairing (Alike pairing) (unary operator v) (unary operator w) := by
  unfold unary
  cases UnaryOperator.ofSpelling? operator with
  | none => exact .fail _
  | some known =>
      cases known with
      | not | notWord => rw [alike.isTruthy]; exact .pure (.boolean _)
      | negate => rw [alike.toNumber]; exact .pure (.number _)

theorem builtin_together {arguments arguments' : List Value} (builtin : Builtin)
    (asked : builtin = .element ∨ pairing.surrounded)
    (each : List.Forall₂ (Alike pairing) arguments arguments') :
    Together pairing (Alike pairing) (builtin.call around arguments) (builtin.call around arguments') := by
  cases builtin with
  | now =>
      refine (Together.readClock (asked.resolve_left nofun) around).bind ?_
      rintro time _ rfl
      exact .pure (.number _)
  | uuid =>
      refine (Together.freshId (asked.resolve_left nofun) around).bind ?_
      rintro id _ rfl
      exact .pure (.string id)
  | element =>
      have length := each.length_eq
      match each with
      | .nil | .cons _ .nil => exact .fail _
      | .cons target (.cons key .nil) => exact .pure (target.keyed key)
      | .cons _ (.cons _ (.cons _ _)) =>
          simp only [Builtin.call, length]
          exact .fail _

-- Two ways to apply lambdas that keep alike lambdas together.
def AppliedAlike (pairing : Pairing) (apply apply' : Closure → List Value → Evaluation Value) : Prop :=
  ∀ (view : View) (refused : String → Prop) (params : List String) (body : Ir.Expression) (env env' : Environment)
    (arguments arguments' : List Value),
    Confined pairing.surrounded (view.bind params) (fun name => refused name ∧ name ∉ params) body →
    Shown pairing view env env' → Idle refused env env' → List.Forall₂ (Alike pairing) arguments arguments' →
    Together pairing (Alike pairing) (apply ⟨params, body, env⟩ arguments) (apply' ⟨params, body, env'⟩ arguments')

theorem applyValue_together (name : String) (applied : AppliedAlike pairing apply apply')
    (function : Alike pairing v w) {arguments arguments' : List Value}
    (each : List.Forall₂ (Alike pairing) arguments arguments') :
    Together pairing (Alike pairing) (applyValue apply name v arguments)
      (applyValue apply' name w arguments') := by
  cases function with
  | lambda met read shown idle => exact applied _ _ _ _ _ _ _ _ read shown idle each
  | undefined | null | boolean | number | string | array | object => exact .fail _

-- What is no function is refused, whatever it is.
theorem applyValue_idle {R : Value → Value → Prop} (name : String) {function function' : Value}
    (idle : function.isFunction = false ∧ function'.isFunction = false) (arguments arguments' : List Value) :
    Together pairing R (applyValue apply name function arguments) (applyValue apply' name function' arguments') := by
  have refuses : ∀ {apply : Closure → List Value → Evaluation Value} {function : Value} {arguments : List Value},
      function.isFunction = false → applyValue apply name function arguments = Step.fail (.notCallable name) := by
    intro apply function arguments refused
    cases function with
    | lambda => cases refused
    | undefined | null | boolean | number | string | array | object => rfl
  rw [refuses idle.1, refuses idle.2]
  exact .fail _

theorem items_together {items : List Ir.Expression}
    (each : ∀ item ∈ items, Together pairing (Alike pairing) (expression around apply env item)
      (expression around apply' env' item)) :
    Together pairing (List.Forall₂ (Alike pairing)) (expression.items around apply env items)
      (expression.items around apply' env' items) := by
  induction items with
  | nil => exact .pure .nil
  | cons item rest ih =>
      refine (each item List.mem_cons_self).bind fun _ _ first => ?_
      refine (ih fun other later => each other (List.mem_cons_of_mem _ later)).bind fun _ _ others => ?_
      exact .pure (.cons first others)

theorem pairs_together {pairs : List (String × Ir.Expression)}
    (each : ∀ pair ∈ pairs, Together pairing (Alike pairing) (expression around apply env pair.2)
      (expression around apply' env' pair.2)) :
    Together pairing (Fields.Matched (Alike pairing)) (expression.pairs around apply env pairs)
      (expression.pairs around apply' env' pairs) := by
  induction pairs with
  | nil => exact .pure .nil
  | cons pair rest ih =>
      refine (each pair List.mem_cons_self).bind fun _ _ first => ?_
      refine (ih fun other later => each other (List.mem_cons_of_mem _ later)).bind fun _ _ others => ?_
      exact .pure (.cons ⟨rfl, first⟩ others)

-- A chain of members is the value of its name, followed.
theorem expression_path {e : Ir.Expression} {root : String} {keys : List String}
    (spelled : e.path? = some (root, keys)) :
    expression around apply env e = Pure.pure ((env.resolve root).follow keys) := by
  induction e using Ir.Expression.path?.induct generalizing keys with
  | case1 name => cases spelled; rfl
  | case2 target key ih =>
      rw [Ir.Expression.path?] at spelled
      obtain ⟨⟨name, before⟩, inner, same⟩ := Option.map_eq_some_iff.mp spelled
      cases same
      rw [expression, ih inner]
      simp only [Value.follow, List.foldl_append]
      rfl
  | case3 e unnamed notMember => rw [Ir.Expression.path?] at spelled <;> first | cases spelled | assumption

theorem expression_call {callee : Ir.Expression} (arguments : List Ir.Expression)
    (unnamed : ∀ name, callee ≠ .identifier name) : expression around apply env (.call callee arguments) = (do
      let arguments ← expression.items around apply env arguments
      applyValue apply "<expression>" (← expression around apply env callee) arguments) := by
  cases callee with
  | identifier name => exact absurd rfl (unnamed name)
  | literal | member | binary | unary | call | conditional | array | object | lambda => rfl

-- By induction on what is read, not on the expression: a chain of members is no deeper than its path, and
-- the body of a lambda waits until it is applied.
theorem expression_together {e : Ir.Expression} (applied : AppliedAlike pairing apply apply')
    (read : Confined pairing.surrounded view refused e) (shown : Shown pairing view env env')
    (idle : Idle refused env env') :
    Together pairing (Alike pairing) (expression around apply env e) (expression around apply' env' e) := by
  induction read with
  | literal value => exact .pure (.ofConstant value)
  | path spelled seen =>
      rw [expression_path spelled, expression_path spelled]
      exact .pure (shown _ _ seen)
  | member key read ih => exact (ih shown idle).bind fun _ _ alike => .pure (alike.member key)
  | binary operator _ _ first second => exact binary_together operator (first shown idle) (second shown idle)
  | unary operator _ ih => exact (ih shown idle).bind fun _ _ alike => unary_together operator alike
  | @named view refused name arguments asked seen _ ih =>
      refine (items_together fun argument member => ih argument member shown idle).bind fun _ _ each => ?_
      cases meant : builtin? name with
      | some builtin => exact builtin_together builtin (asked builtin meant) each
      | none =>
          rcases seen meant with seen | named
          · exact applyValue_together name applied (shown name [] seen) each
          · exact applyValue_idle name (idle name named) _ _
  | @call view refused callee arguments unnamed _ _ called ih =>
      rw [expression_call arguments unnamed, expression_call arguments unnamed]
      refine (items_together fun argument member => ih argument member shown idle).bind fun _ _ each => ?_
      exact (called shown idle).bind fun _ _ function => applyValue_together _ applied function each
  | conditional _ _ _ decided first second =>
      refine (decided shown idle).bind fun _ _ alike => ?_
      rw [alike.isTruthy]
      split
      · exact first shown idle
      · exact second shown idle
  | array _ ih =>
      refine (items_together fun element member => ih element member shown idle).bind fun _ _ each => ?_
      exact .pure (.array_of each)
  | object _ ih =>
      refine (pairs_together fun pair member => ih pair member shown idle).bind fun _ _ matched => ?_
      exact .pure (.object_of matched.ofList)
  | @lambda view refused params body read _ =>
      refine Together.freshLambda.bind fun _ _ met => ?_
      exact .pure (.lambda met read shown idle)

end Forms

theorem apply_together (around : Surroundings) (depth : Nat) :
    AppliedAlike pairing (Evaluation.apply around depth) (Evaluation.apply around depth) := by
  induction depth with
  | zero => exact fun _ _ _ _ _ _ _ _ _ _ _ _ => .fail _
  | succ depth ih =>
      intro view refused params body env env' arguments arguments' read shown idle each
      exact expression_together ih read (shown.scope each) (idle.scope arguments arguments')

-- An expression that reads no more than a view shows, and calls nothing else but what is refused, has alike values, or
-- one error, in any two environments of which the view shows alike values.
theorem confined_together (around : Surroundings) {e : Ir.Expression}
    (read : Confined pairing.surrounded view refused e) (shown : Shown pairing view env env')
    (idle : Idle refused env env') :
    Together pairing (Alike pairing) (evaluate around env e) (evaluate around env' e) :=
  expression_together (apply_together around applicationLimit) read shown idle

theorem evaluate_together (around : Surroundings) {e : Ir.Expression}
    (read : Within pairing.surrounded view e) (shown : Shown pairing view env env') :
    Together pairing (Alike pairing) (evaluate around env e) (evaluate around env' e) :=
  confined_together around (read.confined fun _ => False) shown fun _ => False.elim

-- What can be told of how an evaluation ends: its value as a document and whether that counts as true, or its error,
-- and what it took.
def told (run : Except EvaluationError Value × Usage) : Except EvaluationError (Json × Bool) × Usage :=
  (run.1.map fun value => (value.toJson, value.isTruthy), run.2)

-- The same, with the text of the value.
def observed (run : Except EvaluationError Value × Usage) : Except EvaluationError (Json × String × Bool) × Usage :=
  (run.1.map fun value => (value.toJson, value.text, value.isTruthy), run.2)

theorem told_of_observed {run other : Except EvaluationError Value × Usage} (same : observed run = observed other) :
    told run = told other := by
  have less (run : Except EvaluationError Value × Usage) :
      told run = ((observed run).1.map fun seen => (seen.1, seen.2.2), (observed run).2) := by
    obtain ⟨result, usage⟩ := run
    cases result <;> rfl
  rw [less, less, same]

-- From one start, nothing that can be observed of the two evaluations is different.
theorem observed_evaluate (around : Surroundings) {e : Ir.Expression} (usage : Usage)
    (read : Confined True view refused e)
    (shown : Shown ⟨True, usage.lambdas, usage.lambdas⟩ view env env') (idle : Idle refused env env') :
    observed (evaluate around env e usage) = observed (evaluate around env' e usage) := by
  let pairing : Pairing := ⟨True, usage.lambdas, usage.lambdas⟩
  have started : Aligned pairing usage usage := ⟨Nat.le_refl _, rfl, fun _ => ⟨rfl, rfl⟩⟩
  have read : Confined pairing.surrounded view refused e := read
  have ended := confined_together around read shown idle usage usage started
  match evaluate around env e usage, evaluate around env' e usage, ended with
  | (.ok _, _), (.ok _, _), .ok alike aligned =>
      simp only [observed, Except.map, alike.toJson, alike.text, alike.isTruthy, aligned.same]
  | (.error _, _), (.error _, _), .error aligned => simp only [observed, Except.map, aligned.same]

end Charter
