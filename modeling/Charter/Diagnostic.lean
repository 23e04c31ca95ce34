/-!
Reports about a source text: how grave, what, and where. Every later stage reports through this type.
-/

namespace Charter

-- Lines and columns count from one; columns count characters.
structure Position where
  line : Nat
  column : Nat
  deriving DecidableEq, Inhabited

namespace Position

def start : Position := ⟨1, 1⟩

-- The place of a token list that has no token at all.
def nowhere : Position := ⟨0, 0⟩

def next (p : Position) (c : Char) : Position :=
  if c = '\n' then ⟨p.line + 1, 1⟩ else ⟨p.line, p.column + 1⟩

-- The position behind a run of characters that begins at `p`.
def through (p : Position) (chars : List Char) : Position := chars.foldl next p

end Position

inductive Severity where
  | error
  | warning
  | info
  deriving DecidableEq

def Severity.word : Severity → String
  | .error => "error"
  | .warning => "warning"
  | .info => "info"

structure Diagnostic where
  severity : Severity
  message : String
  line : Option Nat := none
  column : Option Nat := none
  code : Option String := none
  deriving DecidableEq

namespace Diagnostic

def place (d : Diagnostic) (p : Position) : Diagnostic :=
  { d with line := some p.line, column := some p.column }

def coded (d : Diagnostic) (code : String) : Diagnostic := { d with code := some code }

def isError (d : Diagnostic) : Bool := d.severity == .error

def hasErrors (ds : List Diagnostic) : Bool := ds.any isError

-- One line: severity, code in brackets, place as far as known, message. A column without a line is not
-- shown.
def text (d : Diagnostic) : String :=
  let code := match d.code with
    | some code => s!"[{code}]"
    | none => ""
  let place := match d.line, d.column with
    | some line, some column => s!" {line}:{column}"
    | some line, none => s!" {line}"
    | none, _ => ""
  s!"{d.severity.word}{code}{place}: {d.message}"

end Diagnostic

/-! The codes are stable: `L` for the lexer, `P` for the parser, `S` for meaning. -/

namespace DiagnosticCode

def unknownCharacter : String := "L001"
def unterminatedString : String := "L002"
def unterminatedComment : String := "L003"
def unexpectedToken : String := "P001"
def reservedWord : String := "P002"
def duplicateConstraintCode : String := "S001"
def computedCycle : String := "S002"
def notLowered : String := "S003"
def nonConstantDefault : String := "S004"

end DiagnosticCode
end Charter
