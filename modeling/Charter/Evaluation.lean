import Charter.Operator
import Charter.Step
import Charter.Value.Comparison

/-!
Evaluation of expressions. It reads names from nested scopes and asks its surroundings for the time
and for fresh ids; every answer taken from the surroundings is counted, also where evaluation fails.

Evaluation follows the expression. Only the application of a lambda leaves it, and nothing keeps a lambda
from going on to apply itself. Applications may nest `applicationLimit` deep, which is more than any memory
holds: a run would be out of memory long before it ended in `tooManyApplications`.
-/

namespace Charter

-- What surrounds a run: the answer of the clock to its `k`-th reading, and the `k`-th fresh id, both
-- counted from zero.
structure Surroundings where
  time : Nat → Int
  id : Nat → String

-- How much was taken from the surroundings, and how many lambdas were made.
structure Usage where
  readings : Nat := 0
  ids : Nat := 0
  lambdas : Nat := 0
  deriving DecidableEq

inductive EvaluationError where
  | unknownBinary (operator : String)
  | unknownUnary (operator : String)
  | wrongArity (count : Nat)
  | notCallable (name : String)
  | tooManyApplications
  -- A computed property is needed for its own value.
  | computedCycle (entity property : String)
  deriving DecidableEq

namespace EvaluationError

def message : EvaluationError → String
  | unknownBinary operator => s!"type error in binary: expected binary operator, got {operator}"
  | unknownUnary operator => s!"type error in unary: expected unary operator, got {operator}"
  | wrongArity count => s!"type error in at: expected 2 arguments, got {count} arguments"
  | notCallable name => s!"'{name}' is not callable"
  | tooManyApplications => "too many nested applications"
  | computedCycle entity property =>
    let place := entity ++ "." ++ property
    s!"computed property cycle at '{place}'"

end EvaluationError

-- A computation that takes from the surroundings.
abbrev Evaluation := Step Usage EvaluationError

namespace Evaluation

def readClock (around : Surroundings) : Evaluation Int :=
  .total fun usage => (around.time usage.readings, { usage with readings := usage.readings + 1 })

def freshId (around : Surroundings) : Evaluation String :=
  .total fun usage => (around.id usage.ids, { usage with ids := usage.ids + 1 })

def freshLambda : Evaluation Nat :=
  .total fun usage => (usage.lambdas, { usage with lambdas := usage.lambdas + 1 })

end Evaluation

-- Scopes of bindings, the innermost first.
structure Environment where
  scopes : List (Fields Value) := []

namespace Environment

def ofFields (bindings : Fields Value) : Environment := ⟨[bindings]⟩

-- An empty scope inside of this one.
def inner (env : Environment) : Environment := ⟨[] :: env.scopes⟩

-- Binds a name in the innermost scope.
def define (env : Environment) (name : String) (value : Value) : Environment :=
  match env.scopes with
  | [] => ⟨[[(name, value)]]⟩
  | scope :: outer => ⟨Fields.put scope name value :: outer⟩

def defineAll (env : Environment) (bindings : Fields Value) : Environment :=
  bindings.foldl (fun env (name, value) => env.define name value) env

def lookup? (env : Environment) (name : String) : Option Value := env.scopes.findSome? (Fields.get? · name)

-- The value of a name. A name without a binding is a constant of the language or undefined.
def resolve (env : Environment) (name : String) : Value :=
  match env.lookup? name with
  | some value => value
  | none =>
    match name with
    | "true" => .boolean true
    | "false" => .boolean false
    | "null" => .null
    | _ => .undefined

end Environment

namespace Value

-- The value under a computed key: a whole number that is not negative, or a text.
def keyed (target key : Value) : Value :=
  match key with
  | number n =>
    match Binary64.integral? n with
    | some (.ofNat index) => target.member (toString (min index Decimal.maxNatural))
    | _ => undefined
  | string key => target.member key
  | _ => undefined

def add (a b : Value) : Value :=
  match a, b with
  | number a, number b => number (a + b)
  | string _, _ | _, string _ => string (a.text ++ b.text)
  | _, _ => number (a.toNumber + b.toNumber)

end Value

namespace Evaluation

-- Whether the left operand alone is the value of the operation.
def decidedBy (operator : BinaryOperator) (left : Value) : Bool :=
  match operator with
  | .both | .bothWord => !left.isTruthy
  | .either | .eitherWord => left.isTruthy
  | .fallback => !left.isNullish
  | _ => false

-- The value of an operation on two values.
def combine (operator : BinaryOperator) (left right : Value) : Value :=
  match operator with
  | .both | .bothWord | .either | .eitherWord | .fallback => right
  | .add => left.add right
  | .subtract => .number (left.toNumber - right.toNumber)
  | .multiply => .number (left.toNumber * right.toNumber)
  | .divide => .number (left.toNumber / right.toNumber)
  | .remainder => .number (Binary64.remainder left.toNumber right.toNumber)
  | .equal | .is => .boolean (left.looselyEquals right)
  | .notEqual => .boolean !(left.looselyEquals right)
  | .less => .boolean (left.compares .less right)
  | .greater => .boolean (left.compares .greater right)
  | .lessOrEqual => .boolean (left.compares .lessOrEqual right)
  | .greaterOrEqual => .boolean (left.compares .greaterOrEqual right)
  | .isIn => .boolean (right.contains left)
  | .contains => .boolean (left.contains right)

-- An operation whose right operand is evaluated only where the left one does not decide. An operator
-- without a meaning is found out after both.
def binary (operator : String) (left right : Evaluation Value) : Evaluation Value := do
  let a ← left
  match BinaryOperator.ofSpelling? operator with
  | some known => if decidedBy known a then return a else return combine known a (← right)
  | none =>
    let _ ← right
    Step.fail (.unknownBinary operator)

def unary (operator : String) (value : Value) : Evaluation Value :=
  match UnaryOperator.ofSpelling? operator with
  | some .not | some .notWord => return .boolean !value.isTruthy
  | some .negate => return .number (-value.toNumber)
  | none => Step.fail (.unknownUnary operator)

-- The functions that every expression can call.
inductive Builtin where
  | now
  | uuid
  | element
  deriving DecidableEq

def builtin? (name : String) : Option Builtin :=
  match name with
  | "now" => some .now
  | "uuid" => some .uuid
  | "at" => some .element
  | _ => none

def Builtin.call (around : Surroundings) (arguments : List Value) : Builtin → Evaluation Value
  | .now => return .number (Binary64.ofInt (← readClock around))
  | .uuid => return .string (← freshId around)
  | .element =>
    match arguments with
    | [target, key] => return target.keyed key
    | _ => Step.fail (.wrongArity arguments.length)

-- A lambda that is applied, without its identity.
structure Closure where
  params : List String
  body : Ir.Expression
  environment : Environment

-- The scope of an application: parameters in a scope of their own, the missing ones undefined.
def Closure.scope (closure : Closure) (arguments : List Value) : Environment :=
  closure.params.zipIdx.foldl
    (fun env (param, index) => env.define param ((arguments[index]?).getD .undefined))
    closure.environment.inner

def applyValue (apply : Closure → List Value → Evaluation Value) (name : String) (function : Value)
    (arguments : List Value) : Evaluation Value :=
  match function with
  | .lambda _ params body scopes => apply ⟨params, body, ⟨scopes⟩⟩ arguments
  | _ => Step.fail (.notCallable name)

-- Evaluates an expression, applying lambdas by `apply`.
def expression (around : Surroundings) (apply : Closure → List Value → Evaluation Value)
    (env : Environment) : Ir.Expression → Evaluation Value
  | .literal value => return .ofConstant value
  | .identifier name => return env.resolve name
  | .member target property => do return (← expression around apply env target).member property
  | .binary operator left right =>
    binary operator (expression around apply env left) (expression around apply env right)
  | .unary operator operand => do unary operator (← expression around apply env operand)
  | .call (.identifier name) arguments => do
    let arguments ← items arguments
    match builtin? name with
    | some builtin => builtin.call around arguments
    | none => applyValue apply name (env.resolve name) arguments
  | .call callee arguments => do
    let arguments ← items arguments
    applyValue apply "<expression>" (← expression around apply env callee) arguments
  | .conditional condition consequent alternate => do
    if (← expression around apply env condition).isTruthy then expression around apply env consequent
    else expression around apply env alternate
  | .array elements => do return .array (← items elements)
  | .object properties => do return .object (Fields.ofList (← pairs properties))
  | .lambda params body => do return .lambda (← freshLambda) params body env.scopes
where
  items : List Ir.Expression → Evaluation (List Value)
    | [] => return []
    | item :: rest => do return (← expression around apply env item) :: (← items rest)
  pairs : List (String × Ir.Expression) → Evaluation (List (String × Value))
    | [] => return []
    | (key, value) :: rest => do return (key, ← expression around apply env value) :: (← pairs rest)

-- Applies a lambda, with a number of applications left to nest.
def apply (around : Surroundings) : Nat → Closure → List Value → Evaluation Value
  | 0, _, _ => Step.fail .tooManyApplications
  | depth + 1, closure, arguments =>
    expression around (apply around depth) (closure.scope arguments) closure.body

def applicationLimit : Nat := 1000000000000000000

end Evaluation

-- The value of an expression in an environment.
def evaluate (around : Surroundings) (env : Environment) (e : Ir.Expression) : Evaluation Value :=
  Evaluation.expression around (Evaluation.apply around Evaluation.applicationLimit) env e

end Charter
