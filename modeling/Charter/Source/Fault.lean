import Charter.Token

/-!
What can be wrong with the form of a text, and how it is said.
-/

namespace Charter.Source

inductive Fault where
  | expected (wanted : String) (found : Token)
  | unexpected (found : Token) (place : String)
  | unexpectedKeyword (word place : String)
  | tooDeep (limit : Nat)
  | trailing (value : String)
  | unterminated (what name : String)
  | invalidNumber (value : String)
  | notLiteral
  | notDetails
  | notFlag
  | notConfiguration
  | unknownSeverity (word : String)
  | unknownConstraintField (field : String)
  | missingExpression (constraint : String)
  | reserved (word what : String)
  -- A repetition whose turn takes no token; no production of the grammar repeats like that.
  | stalled

namespace Fault

def message : Fault → String
  | expected wanted found => s!"Expected {wanted}, found {found.description}"
  | unexpected found place => s!"Unexpected {found.description} in {place}"
  | unexpectedKeyword word place => s!"Unexpected keyword '{word}' {place}"
  | tooDeep limit => s!"Expression nested too deeply (limit {limit})"
  | trailing value => s!"Unexpected '{value}' after expression"
  | unterminated what name => s!"Unterminated {what} '{name}': expected '\x7d'"
  | invalidNumber value => s!"Invalid number literal '{value}'"
  | notLiteral => "Expected a literal value"
  | notDetails => "Constraint details must be an object"
  | notFlag => "'overrideable' must be true or false"
  | notConfiguration => "Expected a configuration block"
  | unknownSeverity word => s!"Unknown severity '{word}' (expected ok, warn or block)"
  | unknownConstraintField field => s!"Unknown constraint field '{field}'"
  | missingExpression constraint => s!"Constraint '{constraint}' is missing an expression"
  | reserved word what => s!"Reserved word '{word}' cannot be used as a {what} name"
  | stalled => "No progress"

def code : Fault → String
  | reserved .. => DiagnosticCode.reservedWord
  | _ => DiagnosticCode.unexpectedToken

end Fault

-- A fault and the position of the token that shows it.
structure Report where
  fault : Fault
  position : Position

def Report.diagnostic (report : Report) : Diagnostic :=
  (({ severity := .error, message := report.fault.message } : Diagnostic).place report.position).coded
    report.fault.code

end Charter.Source
