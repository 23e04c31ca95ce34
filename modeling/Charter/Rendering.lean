import Charter.Evaluation

/-!
Expressions as text, and what is shown beside an expression that did not hold: the values of its
leaves, and the names of the context that it looks at.
-/

namespace Charter.Ir

def joined (parts : List String) : String := String.intercalate ", " parts

-- A text between double quotes; those and backslashes are escaped, all else stands as it is.
def quotedText (text : String) : String :=
  let escaped := text.toList.flatMap fun c => if c == '\\' || c == '\x22' then ['\\', c] else [c]
  String.ofList ('\x22' :: escaped ++ ['\x22'])

def Constant.render : Constant → String
  | .string value => quotedText value
  | .number value => Value.numberText value
  | .boolean value => if value then "true" else "false"
  | .null => "null"
  | .array items => "[" ++ joined (elements items) ++ "]"
  | .object entries => "\x7b " ++ joined (members entries) ++ " \x7d"
where
  elements : List Constant → List String
    | [] => []
    | item :: rest => render item :: elements rest
  members : List (String × Constant) → List String
    | [] => []
    | (key, value) :: rest => (key ++ ": " ++ render value) :: members rest

-- An operand that is itself composed stands in parentheses.
def Expression.isComposed : Expression → Bool
  | .binary .. | .conditional .. | .lambda .. => true
  | _ => false

def enclosed (composed : Bool) (text : String) : String := if composed then "(" ++ text ++ ")" else text

def Expression.render : Expression → String
  | .literal value => value.render
  | .identifier name => name
  | .member target property => enclosed target.isComposed (render target) ++ "." ++ property
  | .binary operator left right =>
    enclosed left.isComposed (render left) ++ " " ++ operator ++ " " ++
      enclosed right.isComposed (render right)
  | .unary operator operand =>
    let gap := if operator == "not" then " " else ""
    operator ++ gap ++ enclosed operand.isComposed (render operand)
  | .call (.identifier "at") [target, key] =>
    enclosed target.isComposed (render target) ++ "[" ++ render key ++ "]"
  | .call callee arguments =>
    enclosed callee.isComposed (render callee) ++ "(" ++ joined (items arguments) ++ ")"
  | .conditional condition consequent alternate =>
    enclosed condition.isComposed (render condition) ++ " ? " ++
      enclosed consequent.isComposed (render consequent) ++ " : " ++
      enclosed alternate.isComposed (render alternate)
  | .array elements => "[" ++ joined (items elements) ++ "]"
  | .object properties =>
    if properties.isEmpty then "\x7b\x7d" else "\x7b " ++ joined (pairs properties) ++ " \x7d"
  | .lambda params body => "(" ++ joined params ++ ") => " ++ render body
where
  items : List Expression → List String
    | [] => []
    | item :: rest => render item :: items rest
  pairs : List (String × Expression) → List String
    | [] => []
    | (key, value) :: rest => (key ++ ": " ++ render value) :: pairs rest

-- The identifiers, members and calls that an expression is put together from, from left to right. What
-- stands inside of one of them, or in a lambda, is not looked at.
def Expression.leaves : Expression → List Expression
  | .literal _ | .lambda .. => []
  | .identifier name => [.identifier name]
  | .member target property => [.member target property]
  | .call callee arguments => [.call callee arguments]
  | .binary _ left right => leaves left ++ leaves right
  | .unary _ operand => leaves operand
  | .conditional condition consequent alternate => leaves condition ++ leaves consequent ++ leaves alternate
  | .array elements => items elements
  | .object properties => pairs properties
where
  items : List Expression → List Expression
    | [] => []
    | item :: rest => leaves item ++ items rest
  pairs : List (String × Expression) → List Expression
    | [] => []
    | (_, value) :: rest => leaves value ++ pairs rest

-- The path of an expression that is the user, the context, or a member of one of them.
def Expression.contextPath? : Expression → Option String
  | .identifier name => if name == "user" || name == "context" then some name else none
  | .member target property => (contextPath? target).map fun path => path ++ "." ++ property
  | _ => none

-- The longest paths into the user and the context, as often as they are read.
def Expression.contextReadings : Expression → List String
  | .literal _ => []
  | .identifier name => (contextPath? (.identifier name)).toList
  | .member target property =>
    match contextPath? (.member target property) with
    | some path => [path]
    | none => contextReadings target
  | .binary _ left right => contextReadings left ++ contextReadings right
  | .unary _ operand => contextReadings operand
  | .call callee arguments => contextReadings callee ++ items arguments
  | .conditional condition consequent alternate =>
    contextReadings condition ++ contextReadings consequent ++ contextReadings alternate
  | .array elements => items elements
  | .object properties => pairs properties
  | .lambda _ body => contextReadings body
where
  items : List Expression → List String
    | [] => []
    | item :: rest => contextReadings item ++ items rest
  pairs : List (String × Expression) → List String
    | [] => []
    | (_, value) :: rest => contextReadings value ++ pairs rest

-- The paths into the user and the context that an expression reads, each once.
def Expression.contextKeys (e : Expression) : List String := e.contextReadings.eraseDups

end Charter.Ir

namespace Charter

-- A leaf of an expression as text, with its value.
structure ResolvedValue where
  expression : String
  value : Json

-- The leaves with different texts, the first of each.
def Ir.Expression.distinctLeaves (e : Ir.Expression) : List (String × Ir.Expression) :=
  Fields.firsts (e.leaves.map fun leaf => (leaf.render, leaf))

-- The values of the leaves of an expression. A leaf that cannot be evaluated is left out.
def resolveLeaves (around : Surroundings) (env : Environment) (e : Ir.Expression) (usage : Usage) :
    List ResolvedValue × Usage :=
  e.distinctLeaves.foldl (fun (found, usage) (text, leaf) =>
    match evaluate around env leaf usage with
    | (.ok value, usage) => (found ++ [⟨text, value.toJson⟩], usage)
    | (.error _, usage) => (found, usage)) ([], usage)

end Charter
