import Charter.Token

/-!
Operators of expressions: spelling, and for binary ones the level of precedence. A word and a sign
with the same meaning are different operators, because the tree keeps what was written.
-/

namespace Charter

inductive BinaryOperator where
  | either
  | eitherWord
  | fallback
  | both
  | bothWord
  | equal
  | notEqual
  | is
  | isIn
  | contains
  | less
  | greater
  | lessOrEqual
  | greaterOrEqual
  | add
  | subtract
  | multiply
  | divide
  | remainder
  deriving DecidableEq

namespace BinaryOperator

def all : List BinaryOperator := [
  either, eitherWord, fallback, both, bothWord, equal, notEqual, is, isIn, contains, less, greater,
  lessOrEqual, greaterOrEqual, add, subtract, multiply, divide, remainder]

def spelling : BinaryOperator → String
  | either => "||"
  | eitherWord => "or"
  | fallback => "??"
  | both => "&&"
  | bothWord => "and"
  | equal => "=="
  | notEqual => "!="
  | is => "is"
  | isIn => "in"
  | contains => "contains"
  | less => "<"
  | greater => ">"
  | lessOrEqual => "<="
  | greaterOrEqual => ">="
  | add => "+"
  | subtract => "-"
  | multiply => "*"
  | divide => "/"
  | remainder => "%"

-- A higher level binds tighter; operators of one level group to the left.
def level : BinaryOperator → Nat
  | either | eitherWord | fallback => 0
  | both | bothWord => 1
  | equal | notEqual | is | isIn | contains => 2
  | less | greater | lessOrEqual | greaterOrEqual => 3
  | add | subtract => 4
  | multiply | divide | remainder => 5

def tokenKind : BinaryOperator → TokenKind
  | eitherWord | bothWord | is | isIn | contains => .keyword
  | _ => .operator

def ofSpelling? (text : String) : Option BinaryOperator := all.find? (·.spelling == text)

def ofToken? (t : Token) : Option BinaryOperator :=
  all.find? fun operator => t.is operator.tokenKind operator.spelling

end BinaryOperator

inductive UnaryOperator where
  | not
  | notWord
  | negate
  deriving DecidableEq

namespace UnaryOperator

def all : List UnaryOperator := [not, notWord, negate]

def spelling : UnaryOperator → String
  | not => "!"
  | notWord => "not"
  | negate => "-"

def tokenKind : UnaryOperator → TokenKind
  | notWord => .keyword
  | _ => .operator

def ofSpelling? (text : String) : Option UnaryOperator := all.find? (·.spelling == text)

def ofToken? (t : Token) : Option UnaryOperator :=
  all.find? fun operator => t.is operator.tokenKind operator.spelling

end UnaryOperator
end Charter
