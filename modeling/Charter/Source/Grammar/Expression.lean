import Charter.Source
import Charter.Source.Parser
import Charter.Number.Decimal

/-!
Expressions. From the loosest to the tightest: conditional, six levels of binary operators, unary
operators, then members, calls and indexes behind a primary expression. Each production takes the
productions one level of nesting further down as arguments; `nested` ties the knot, and the number of
levels left is the measure.
-/

namespace Charter.Source.Grammar
open Charter.Source.Parser

def binaryOperator? (level : Nat) : Parser (Option BinaryOperator) := do
  match BinaryOperator.ofToken? (← current) with
  | some operator =>
    if operator.level == level then
      let _ ← advance
      return some operator
    else return none
  | none => return none

-- Operands joined by operators of one level, grouped to the left.
def chain (level : Nat) (operand : Parser Expression) : Parser Expression := do
  loop (fun left => do
    match ← binaryOperator? level with
    | none => return .done left
    | some operator =>
      skipNewlines
      return .again (.binary operator left (← operand))) (← operand)

def binary (operand : Parser Expression) : Parser Expression :=
  chain 0 (chain 1 (chain 2 (chain 3 (chain 4 (chain 5 operand)))))

-- A choice between two expressions, or the condition alone.
def conditional (expression operand : Parser Expression) : Parser Expression := do
  let condition ← binary operand
  if ← accept .operator "?" then
    skipNewlines
    let consequent ← expression
    skipNewlines
    let _ ← expect .punctuation ":"
    skipNewlines
    return .conditional condition consequent (← expression)
  else return condition

-- A unary operator before an operand one level further down, or what `plain` reads.
def signed (operand plain : Parser Expression) : Parser Expression := do
  match UnaryOperator.ofToken? (← current) with
  | some operator =>
    let _ ← advance
    return .unary operator (← operand)
  | none => plain

-- Expressions between commas up to a closing mark, which is taken. A comma may stand before it.
def sequence (expression : Parser Expression) (close : String) : Parser (List Expression) :=
  loop (fun items => do
    skipNewlines
    if ← accept .punctuation close then return .done items
    let item ← expression
    skipNewlines
    if !(← accept .punctuation ",") && !(← isAt .punctuation close) then
      fail (.expected s!"',' or '{close}'" (← current))
    return .again (items ++ [item])) []

def entries (expression : Parser Expression) : Parser (List (String × Expression)) := do
  let _ ← expect .punctuation "\x7b"
  loop (fun pairs => do
    skipListSeparators
    if ← accept .punctuation "\x7d" then return .done pairs
    let key ← nameOrString "object key"
    let _ ← expect .punctuation ":"
    skipNewlines
    let value ← expression
    let next ← current
    if !next.is .punctuation "," && !next.is .punctuation "\x7d" && !isNewline next then
      fail (.expected "',' or '\x7d' in object" next)
    return .again (pairs ++ [(key, value)])) []

-- Names between commas up to a closing parenthesis, a comma before it allowed; without newlines.
def parameterNames? : List Token → Option (List String × List Token)
  | [] => none
  | token :: rest =>
    if token.is .punctuation ")" then some ([], rest)
    else if token.kind == .identifier then
      match rest with
      | [] => none
      | mark :: others =>
        if mark.is .punctuation "," then
          (parameterNames? others).map fun (names, behind) => (token.value :: names, behind)
        else if mark.is .punctuation ")" then some ([token.value], others)
        else none
    else none

-- The parameters of a lambda in parentheses, and what stands behind its arrow.
def lambdaHead? : List Token → Option (List String × List Token)
  | [] => none
  | opening :: rest =>
    if opening.is .punctuation "(" then
      match parameterNames? rest with
      | some (names, arrow :: body) => if arrow.is .operator "=>" then some (names, body) else none
      | _ => none
    else none

def lambdaParameters? : Parser (Option (List String)) := fun tokens =>
  match lambdaHead? tokens with
  | some (names, body) => { result := .ok (some names), rest := body }
  | none => { result := .ok none, rest := tokens }

def lambda (expression : Parser Expression) (params : List String) : Parser Expression := do
  skipNewlines
  return .lambda params (← expression)

def parenthesized (expression : Parser Expression) : Parser Expression := do
  match ← lambdaParameters? with
  | some params => lambda expression params
  | none =>
    let _ ← expect .punctuation "("
    skipNewlines
    let inner ← expression
    skipNewlines
    let _ ← expect .punctuation ")"
    return inner

def keywordOperand (word : String) : Option Expression :=
  match word with
  | "true" => some (.literal (.boolean true))
  | "false" => some (.literal (.boolean false))
  | "null" => some (.literal .null)
  | "self" | "this" | "user" | "context" => some (.identifier word)
  | _ => none

def primary (expression : Parser Expression) : Parser Expression := do
  let token ← current
  match token.kind with
  | .number =>
    let _ ← advance
    match Decimal.parse? token.value with
    | some value => return .literal (.number value)
    | none => failAt token.position (.invalidNumber token.value)
  | .string =>
    let _ ← advance
    return .literal (.string token.value)
  | .keyword =>
    match keywordOperand token.value with
    | some operand =>
      let _ ← advance
      return operand
    | none => fail (.unexpectedKeyword token.value "in expression")
  | .identifier =>
    let _ ← advance
    if ← accept .operator "=>" then lambda expression [token.value]
    else return .identifier token.value
  | .punctuation =>
    match token.value with
    | "(" => parenthesized expression
    | "[" =>
      let _ ← advance
      return .array (← sequence expression "]")
    | "\x7b" => return .object (← entries expression)
    | _ => fail (.unexpected token "expression")
  | _ => fail (.expected "an expression" token)

-- The key that a number stands for between brackets, if it stands for one: whole, not negative, and cut off
-- at the largest index.
def indexKey? (n : Float) : Option String :=
  match Binary64.integral? n with
  | some (.ofNat k) => some (toString (min k Decimal.maxNatural))
  | _ => none

-- An index known from the text is the member of that name.
def indexed (object index : Expression) : Expression :=
  match index with
  | .literal (.string key) => .member object key
  | .literal (.number n) =>
    match indexKey? n with
    | some key => .member object key
    | none => .index object index
  | _ => .index object index

-- Members, calls and indexes behind a primary expression.
def accesses (expression : Parser Expression) : Parser Expression := do
  loop (fun target => do
    if ← accept .operator "." then return .again (.member target (← name "member"))
    else if ← accept .punctuation "(" then return .again (.call target (← sequence expression ")"))
    else if ← accept .punctuation "[" then
      skipNewlines
      let index ← expression
      skipNewlines
      let _ ← expect .punctuation "]"
      return .again (indexed target index)
    else return .done target) (← primary expression)

-- The two productions that go one level down.
inductive Production where
  | expression
  | operand

-- A production with a number of levels left to nest. `limit` is the number at the outset.
def nested (limit : Nat) : Nat → Production → Parser Expression
  | 0, .expression, tokens => fail (.tooDeep limit) tokens
  | levels + 1, .expression, tokens =>
    conditional (nested limit levels .expression) (nested limit levels .operand) tokens
  | 0, .operand, tokens =>
    signed (fail (.tooDeep limit)) (accesses (fail (.tooDeep limit))) tokens
  | levels + 1, .operand, tokens =>
    signed (nested limit levels .operand)
      (accesses (conditional (nested limit levels .expression) (nested limit levels .operand))) tokens

def expression (limit : Nat) : Parser Expression := nested limit limit .expression

end Charter.Source.Grammar
