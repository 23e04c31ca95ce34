import Charter.Diagnostic

/-!
Tokens of a source text: their kinds, the reserved words, and the tables of operators and punctuation.
-/

namespace Charter

inductive TokenKind where
  | keyword
  | identifier
  | string
  | number
  | operator
  | punctuation
  | newline
  | endOfInput
  deriving DecidableEq

def TokenKind.word : TokenKind → String
  | .keyword => "keyword"
  | .identifier => "identifier"
  | .string => "string"
  | .number => "number"
  | .operator => "operator"
  | .punctuation => "punctuation"
  | .newline => "newline"
  | .endOfInput => "end of input"

-- The position of a token is the one behind it, where the next character is read.
structure Token where
  kind : TokenKind
  value : String
  position : Position
  deriving DecidableEq

namespace Token

def is (t : Token) (kind : TokenKind) (value : String) : Bool := t.kind == kind && t.value == value

def endAt (position : Position) : Token := ⟨.endOfInput, "", position⟩

-- How a message names the token that was found.
def description (t : Token) : String :=
  match t.kind with
  | .endOfInput => "end of input"
  | .newline => "newline"
  | kind => s!"{kind.word} '{t.value}'"

end Token

-- A word of this list is a keyword wherever it stands.
def keywords : List String := [
  "module", "entity", "property", "computed", "derived", "hasMany", "hasOne", "belongsTo",
  "ref", "through", "with", "command", "policy", "store", "event", "flow", "effect", "expose",
  "compose", "emit", "publish", "mutate", "compute", "persist", "guard", "constraint",
  "transition", "from", "to", "return", "in", "is", "contains", "not", "and", "or", "true",
  "false", "null", "self", "this", "user", "context", "read", "write", "delete", "execute",
  "all", "override", "as"]

def isKeyword (word : String) : Bool := keywords.contains word

-- The keywords that begin a declaration of a program.
def declarationKeywords : List String := [
  "module", "entity", "command", "policy", "store", "event", "flow", "effect", "compose", "expose"]

def Token.beginsDeclaration (t : Token) : Bool :=
  t.kind == .keyword && declarationKeywords.contains t.value

-- A pair is tried before its first character alone.
def operatorPairs : List (Char × Char) := [
  ('=', '='), ('!', '='), ('<', '='), ('>', '='), ('&', '&'), ('|', '|'), ('=', '>'), ('-', '>'),
  ('?', '?')]

def operatorCharacters : List Char :=
  ['+', '-', '*', '/', '%', '=', '<', '>', '!', '?', '.', '&', '|']

def punctuationCharacters : List Char := ['(', ')', '\x7b', '\x7d', '[', ']', ',', ':', ';']

end Charter
