import Charter.Proofs.Itemwise
import Charter.Proofs.Lexeme
import Charter.Source.Grammar.Program

/-!
How an expression is written, told without the reader: its tokens in order, with parentheses only where its
place in the table of precedence needs them, and how many levels of nesting they go down.
-/

namespace Charter
open Text

-- A token without its place.
structure Symbol where
  kind : TokenKind
  value : String
  deriving DecidableEq

def Token.symbol (t : Token) : Symbol := ⟨t.kind, t.value⟩

namespace Symbol

def mark (value : String) : Symbol := ⟨.punctuation, value⟩

def sign (value : String) : Symbol := ⟨.operator, value⟩

def word (text : String) : Symbol := ⟨if isKeyword text then .keyword else .identifier, text⟩

theorem word_of_free {name : String} (free : name ∉ keywords) : word name = ⟨.identifier, name⟩ := by
  have unknown : ¬ isKeyword name = true := fun listed => free (List.contains_iff_mem.mp listed)
  rw [word, if_neg unknown]

def binary (operator : BinaryOperator) : Symbol := ⟨operator.tokenKind, operator.spelling⟩

def unary (operator : UnaryOperator) : Symbol := ⟨operator.tokenKind, operator.spelling⟩

def list (items : List (List Symbol)) : List Symbol := [mark ","].intercalate items

def escape : List Char → List Char
  | [] => []
  | c :: rest => if c = '\x22' ∨ c = '\\' then '\\' :: c :: escape rest else c :: escape rest

-- A string stands between quotes, everything else as it is.
def text (symbol : Symbol) : List Char :=
  match symbol.kind with
  | .string => '\x22' :: escape symbol.value.toList ++ ['\x22']
  | _ => symbol.value.toList

end Symbol

-- The binary operators in the table of precedence, row by row from the loosest.
def BinaryOperator.rows : List (List String) := [
  ["||", "or", "??"],
  ["&&", "and"],
  ["==", "!=", "is", "in", "contains"],
  ["<", ">", "<=", ">="],
  ["+", "-"],
  ["*", "/", "%"]]

-- Rows are counted from that of conditionals, which is looser than all of them.
def BinaryOperator.row (operator : BinaryOperator) : Nat := rows.findIdx (·.contains operator.spelling) + 1

theorem BinaryOperator.row_eq (operator : BinaryOperator) : operator.row = operator.level + 1 := by
  cases operator <;> rfl

namespace Source

def Literal.symbol (numeral : Float → String) : Literal → Symbol
  | .string value => ⟨.string, value⟩
  | .number value => ⟨.number, numeral value⟩
  | .boolean value => .word (if value then "true" else "false")
  | .null => .word "null"

def isPlainWord (text : String) : Bool :=
  match text.toList with
  | [] => false
  | first :: rest => isWordStart first && rest.all isWordPart

namespace Expression

-- The row of the table that an expression belongs to, from the loosest: conditionals and lambdas, the six levels
-- of binary operators, unary operators, what is accessed, and what stands for itself.
def tightness : Expression → Nat
  | .conditional .. | .lambda .. => 0
  | .binary operator .. => operator.row
  | .unary .. => 7
  | .member .. | .index .. | .call .. => 8
  | .literal _ | .identifier _ | .array _ | .object _ => 9

-- What stands where the table asks for a row: itself, or in parentheses if it is looser.
def enclosed (row : Nat) (e : Expression) (symbols : List Symbol) : List Symbol :=
  if e.tightness < row then .mark "(" :: symbols ++ [.mark ")"] else symbols

-- A member is written behind a point if its name is a word, and else as a string between brackets.
def memberSymbols (property : String) : List Symbol :=
  if isPlainWord property then [.sign ".", .word property] else [.mark "[", ⟨.string, property⟩, .mark "]"]

-- The parameters of a lambda. One alone needs no parentheses.
def parameterSymbols : List String → List Symbol
  | [name] => [⟨.identifier, name⟩]
  | names => .mark "(" :: Symbol.list (names.map fun name => [⟨.identifier, name⟩]) ++ [.mark ")"]

-- The tokens of an expression, where the text of every number is given.
def symbols (numeral : Float → String) : Expression → List Symbol
  | .literal value => [value.symbol numeral]
  | .identifier name => [.word name]
  | .member target property => enclosed 8 target (symbols numeral target) ++ memberSymbols property
  | .index target key =>
    enclosed 8 target (symbols numeral target) ++ .mark "[" :: symbols numeral key ++ [.mark "]"]
  | .binary operator left right =>
    enclosed operator.row left (symbols numeral left) ++ .binary operator ::
      enclosed (operator.row + 1) right (symbols numeral right)
  | .unary operator operand => .unary operator :: enclosed 7 operand (symbols numeral operand)
  | .call callee arguments =>
    enclosed 8 callee (symbols numeral callee) ++ .mark "(" :: Symbol.list (items arguments) ++ [.mark ")"]
  | .conditional condition consequent alternate =>
    enclosed 1 condition (symbols numeral condition) ++ .sign "?" :: symbols numeral consequent ++
      .mark ":" :: symbols numeral alternate
  | .array elements => .mark "[" :: Symbol.list (items elements) ++ [.mark "]"]
  | .object entries => .mark "\x7b" :: Symbol.list (pairs entries) ++ [.mark "\x7d"]
  | .lambda params body => parameterSymbols params ++ .sign "=>" :: symbols numeral body
where
  items : List Expression → List (List Symbol)
    | [] => []
    | item :: rest => symbols numeral item :: items rest
  pairs : List (String × Expression) → List (List Symbol)
    | [] => []
    | (key, value) :: rest => (⟨.string, key⟩ :: .mark ":" :: symbols numeral value) :: pairs rest

theorem symbols_items (numeral : Float → String) (elements : List Expression) :
    symbols.items numeral elements = elements.map (symbols numeral) :=
  List.eq_map_of rfl (fun _ _ => rfl) elements

theorem symbols_pairs (numeral : Float → String) (entries : List (String × Expression)) :
    symbols.pairs numeral entries =
      entries.map fun entry => ⟨.string, entry.1⟩ :: .mark ":" :: symbols numeral entry.2 :=
  List.eq_map_of rfl (fun _ _ => rfl) entries

-- The text of an expression: its tokens with a blank between any two.
def print (numeral : Float → String) (e : Expression) : String :=
  String.ofList ([' '].intercalate ((e.symbols numeral).map Symbol.text))

-- How deep an expression goes where the table asks for a row: parentheses take one level more.
def sunk (row : Nat) (e : Expression) (depth : Nat) : Nat := if e.tightness < row then depth + 1 else depth

-- How many levels down the deepest part of an expression is read: behind a unary operator, and in parentheses,
-- brackets, branches, elements and bodies.
def depth : Expression → Nat
  | .literal _ | .identifier _ => 0
  | .member target property => max (sunk 8 target (depth target)) (if isPlainWord property then 0 else 1)
  | .index target key => max (sunk 8 target (depth target)) (depth key + 1)
  | .binary operator left right =>
    max (sunk operator.row left (depth left)) (sunk (operator.row + 1) right (depth right))
  | .unary _ operand => sunk 7 operand (depth operand) + 1
  | .call callee arguments => max (sunk 8 callee (depth callee)) (items arguments)
  | .conditional condition consequent alternate =>
    max (sunk 1 condition (depth condition)) (max (depth consequent + 1) (depth alternate + 1))
  | .array elements => items elements
  | .object entries => pairs entries
  | .lambda _ body => depth body + 1
where
  items : List Expression → Nat
    | [] => 0
    | item :: rest => max (depth item + 1) (items rest)
  pairs : List (String × Expression) → Nat
    | [] => 0
    | (_, value) :: rest => max (depth value + 1) (pairs rest)

-- An index that the reader takes for the name of a member.
def IsKnownIndex : Expression → Prop
  | .literal (.string _) => True
  | .literal (.number n) => ∃ k : Nat, Binary64.integral? n = some (.ofNat k)
  | _ => False

-- A name as it stands for a value: a free word, or one of the four that are bound everywhere.
def IsName (name : String) : Prop :=
  IsWord name.toList ∧ name ∉ keywords ∨ name ∈ ["self", "this", "user", "context"]

-- Expressions that have a text, if the numbers in them do.
inductive Regular (number : Float → Prop) : Expression → Prop
  | literal {value : Literal} (written : ∀ n, value = .number n → number n) : Regular number (.literal value)
  | identifier {name : String} (lexes : IsName name) : Regular number (.identifier name)
  | member {target : Expression} (property : String) (within : Regular number target) :
      Regular number (.member target property)
  | index {target key : Expression} (within : Regular number target) (asked : Regular number key)
      (unknown : ¬ key.IsKnownIndex) : Regular number (.index target key)
  | binary (operator : BinaryOperator) {left right : Expression} (first : Regular number left)
      (second : Regular number right) : Regular number (.binary operator left right)
  | unary (operator : UnaryOperator) {operand : Expression} (behind : Regular number operand) :
      Regular number (.unary operator operand)
  | call {callee : Expression} {arguments : List Expression} (called : Regular number callee)
      (each : ∀ argument ∈ arguments, Regular number argument) : Regular number (.call callee arguments)
  | conditional {condition consequent alternate : Expression} (asked : Regular number condition)
      (yes : Regular number consequent) (no : Regular number alternate) :
      Regular number (.conditional condition consequent alternate)
  | array {elements : List Expression} (each : ∀ element ∈ elements, Regular number element) :
      Regular number (.array elements)
  | object {entries : List (String × Expression)} (each : ∀ entry ∈ entries, Regular number entry.2) :
      Regular number (.object entries)
  | lambda {params : List String} {body : Expression}
      (lexes : ∀ name ∈ params, IsWord name.toList ∧ name ∉ keywords) (inside : Regular number body) :
      Regular number (.lambda params body)

end Expression

-- A number that has no sign; it may be infinite.
def IsUnsigned (n : Float) : Prop :=
  Binary64.read n = .infinite false ∨ ∃ mantissa exponent, Binary64.read n = .finite false mantissa exponent

-- The text of a number is one in the source language and is read as the number.
structure ReadsBack (numeral : Float → String) (n : Float) : Prop where
  form : IsNumeral (numeral n).toList
  value : Decimal.parse? (numeral n) = some n

end Source
end Charter
