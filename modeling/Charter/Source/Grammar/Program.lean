import Charter.Source.Grammar.Declaration
import Charter.Token.Lexer

/-!
Whole texts. A fault inside a declaration is reported, and reading goes on at the next declaration, so
that one pass finds every fault.
-/

namespace Charter.Source.Grammar
open Charter.Source.Parser

-- How far the depth of braces is above that at the start of a run of tokens; never below.
def openBraces (tokens : List Token) : Nat :=
  let depth (t : Token) : Int :=
    if t.is .punctuation "\x7b" then 1 else if t.is .punctuation "\x7d" then -1 else 0
  ((tokens.map depth).foldl (· + ·) 0).toNat

-- Skips to the next declaration outside of the open braces, or to the end. With `insideBlock` the brace
-- that closes the block around ends the skip too, and is left where it is.
def skipToDeclaration (insideBlock : Bool) : Nat → List Token → List Token
  | depth, token :: next :: rest =>
    if token.kind == .endOfInput || (depth == 0 && token.beginsDeclaration) then token :: next :: rest
    else if token.is .punctuation "\x7b" then skipToDeclaration insideBlock (depth + 1) (next :: rest)
    else if token.is .punctuation "\x7d" then
      if depth == 0 && insideBlock then token :: next :: rest
      else skipToDeclaration insideBlock (depth - 1) (next :: rest)
    else skipToDeclaration insideBlock depth (next :: rest)
  | _, tokens => tokens

-- Where to go on after a declaration that began at `start` failed at `tokens`. A declaration that took
-- nothing loses its first token, which does not count as a brace.
def resume (insideBlock : Bool) (start tokens : List Token) : List Token :=
  let taken := start.take (start.length - tokens.length)
  skipToDeclaration insideBlock (openBraces taken) (if taken.isEmpty then drop tokens else tokens)

def moduleMember (limit : Nat) (m : Module) : Parser Module := do
  let token ← current
  match token.kind, token.value with
  | .keyword, "entity" => return { m with entities := m.entities ++ [← entity limit] }
  | .keyword, "command" => return { m with commands := m.commands ++ [← command limit] }
  | .keyword, "policy" => return { m with policies := m.policies ++ [← policy limit] }
  | .keyword, "store" => return { m with stores := m.stores ++ [← store limit] }
  | .keyword, "event" => return { m with events := m.events ++ [← event limit] }
  | _, _ => fail (.expected "entity, command, policy, store or event in module" token)

def module (limit : Nat) : Parser Module := do
  let position := (← keyword "module").position
  let name ← declaredName "module"
  skipNewlines
  let _ ← expect .punctuation "\x7b"
  braced skipSeparators (notEnded "module" name)
    (fun m => recover m (moduleMember limit m) (resume true)) { name, position }

def declaration (limit : Nat) (program : Program) : Parser Program := do
  let token ← current
  if token.kind != .keyword then fail (.expected "a declaration" token)
  match token.value with
  | "module" => return { program with modules := program.modules ++ [← module limit] }
  | "entity" => return { program with entities := program.entities ++ [← entity limit] }
  | "command" => return { program with commands := program.commands ++ [← command limit] }
  | "policy" => return { program with policies := program.policies ++ [← policy limit] }
  | "store" => return { program with stores := program.stores ++ [← store limit] }
  | "event" => return { program with events := program.events ++ [← event limit] }
  | "flow" => return { program with flows := program.flows ++ [← flow limit] }
  | "effect" => return { program with effects := program.effects ++ [← effect limit] }
  | "expose" => return { program with exposures := program.exposures ++ [← exposure] }
  | "compose" => return { program with compositions := program.compositions ++ [← composition] }
  | word => failAt token.position (.unexpectedKeyword word "at top level")

def program (limit : Nat) : Parser Program :=
  loop (fun program => do
    skipSeparators
    if (← current).kind == .endOfInput then return .done program
    return .again (← recover program (declaration limit program) (resume false))) {}

end Charter.Source.Grammar

namespace Charter.Source

-- The tokens with an end token behind them; it stands where the last token does.
def terminated (tokens : List Token) : List Token :=
  match tokens.getLast? with
  | some last => if last.kind == .endOfInput then tokens else tokens ++ [.endAt last.position]
  | none => [.endAt .nowhere]

def defaultNesting : Nat := 64

-- The program of a token list, and the faults in the order in which they were found.
def Program.ofTokens (limit : Nat) (tokens : List Token) : Program × List Report :=
  let parsed := Grammar.program limit (terminated tokens)
  match parsed.result with
  | .ok program => (program, parsed.reports)
  | .error report => ({}, parsed.reports ++ [report])

-- A text that was read: its program, and what there is to say about its form.
structure Document where
  program : Program
  diagnostics : List Diagnostic

namespace Document

def hasErrors (document : Document) : Bool := Diagnostic.hasErrors document.diagnostics

-- Reads a text. Anomalies of its characters come before faults of its form.
def ofSource (policy : AnomalyPolicy) (limit : Nat) (source : String) : Document :=
  let lexed := Lexed.ofSource source
  let (program, reports) := Program.ofTokens limit lexed.tokens
  { program, diagnostics := lexed.diagnostics policy ++ reports.map Report.diagnostic }

end Document

-- An expression that fills the whole token list, but for newlines before and separators behind.
def Grammar.wholeExpression (limit : Nat) : Parser Expression := do
  Parser.skipNewlines
  let result ← expression limit
  Parser.skipSeparators
  let next ← Parser.current
  if next.kind == .endOfInput then return result
  else Parser.fail (.trailing next.value)

-- The expression that a text is, or the first thing wrong with it; every anomaly is an error here.
def Expression.ofSource (source : String) : Except Diagnostic Expression :=
  let lexed := Lexed.ofSource source
  match lexed.diagnostics .error with
  | first :: _ => .error first
  | [] =>
    match (Grammar.wholeExpression defaultNesting (terminated lexed.tokens)).result with
    | .ok expression => .ok expression
    | .error report => .error report.diagnostic

end Charter.Source
