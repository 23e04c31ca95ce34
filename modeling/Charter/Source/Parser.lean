import Charter.Source.Fault

/-!
Productions over a token list. A production sees only the tokens that are left; it answers with a
value or a fault, the tokens left behind, and the faults it reported and went on from. The last token
is never taken, so a list that ends with the end token always has a current token.
-/

namespace Charter.Source

structure Parsed (α : Type) where
  result : Except Report α
  rest : List Token
  reports : List Report := []

def Parser (α : Type) := List Token → Parsed α

-- What one turn of a repetition asks for.
inductive Turn (σ α : Type) where
  | again (state : σ)
  | done (value : α)

namespace Parser
variable {α β σ : Type}

protected def pure (value : α) : Parser α := fun tokens => { result := .ok value, rest := tokens }

protected def bind (p : Parser α) (next : α → Parser β) : Parser β := fun tokens =>
  let first := p tokens
  match first.result with
  | .error report => { result := .error report, rest := first.rest, reports := first.reports }
  | .ok value =>
    let second := next value first.rest
    { second with reports := first.reports ++ second.reports }

instance : Monad Parser where
  pure := Parser.pure
  bind := Parser.bind

-- The current token; of an empty list it is an end token that stands nowhere.
def head (tokens : List Token) : Token := tokens.headD (.endAt .nowhere)

-- The list behind the current token, unless that is the last one.
def drop : List Token → List Token
  | _ :: next :: rest => next :: rest
  | tokens => tokens

def dropWhile (p : Token → Bool) : List Token → List Token
  | token :: next :: rest => if p token then dropWhile p (next :: rest) else token :: next :: rest
  | tokens => tokens

def current : Parser Token := fun tokens => { result := .ok (head tokens), rest := tokens }

-- The token behind the current one, or the current one if it is the last.
def following : Parser Token := fun tokens => { result := .ok (head (drop tokens)), rest := tokens }

def advance : Parser Token := fun tokens => { result := .ok (head tokens), rest := drop tokens }

def skipWhile (p : Token → Bool) : Parser Unit := fun tokens =>
  { result := .ok (), rest := dropWhile p tokens }

def failAt (position : Position) (fault : Fault) : Parser α := fun tokens =>
  { result := .error ⟨fault, position⟩, rest := tokens }

def fail (fault : Fault) : Parser α := do failAt (← current).position fault

-- Reports a fault and goes on.
def report (report : Report) : Parser Unit := fun tokens =>
  { result := .ok (), rest := tokens, reports := [report] }

-- Repeats `step` until it is done. A turn that asks for another one has taken a token.
def loop (step : σ → Parser (Turn σ α)) (state : σ) : Parser α := fun tokens =>
  let turn := step state tokens
  match turn.result with
  | .error report => { result := .error report, rest := turn.rest, reports := turn.reports }
  | .ok (.done value) => { result := .ok value, rest := turn.rest, reports := turn.reports }
  | .ok (.again next) =>
    if turn.rest.length < tokens.length then
      let others := loop step next turn.rest
      { others with reports := turn.reports ++ others.reports }
    else
      { result := .error ⟨.stalled, (head turn.rest).position⟩, rest := turn.rest, reports := turn.reports }
termination_by tokens => tokens.length

-- Runs `p`; where it fails, its fault is reported, the value is `instead`, and `resume`, given the tokens
-- at which `p` began and those at which it failed, says where to go on.
def recover (instead : α) (p : Parser α) (resume : List Token → List Token → List Token) : Parser α :=
  fun tokens =>
    let attempt := p tokens
    match attempt.result with
    | .ok _ => attempt
    | .error report =>
      { result := .ok instead, rest := resume tokens attempt.rest, reports := attempt.reports ++ [report] }

def isAt (kind : TokenKind) (value : String) : Parser Bool := return (← current).is kind value

def accept (kind : TokenKind) (value : String) : Parser Bool := do
  if ← isAt kind value then
    let _ ← advance
    return true
  else return false

def expect (kind : TokenKind) (value : String) : Parser Token := do
  let token ← current
  if token.is kind value then advance
  else fail (.expected s!"'{value}'" token)

def isNewline (t : Token) : Bool := t.kind == .newline

-- Newlines and semicolons both separate statements; in lists commas do as well.
def isSeparator (t : Token) : Bool := isNewline t || t.is .punctuation ";"

def isListSeparator (t : Token) : Bool := isSeparator t || t.is .punctuation ","

def skipNewlines : Parser Unit := skipWhile isNewline

def skipSeparators : Parser Unit := skipWhile isSeparator

def skipListSeparators : Parser Unit := skipWhile isListSeparator

-- Skips newlines only where a brace stands behind them.
def skipNewlinesBeforeBrace : Parser Unit := fun tokens =>
  let behind := dropWhile isNewline tokens
  { result := .ok (), rest := if (head behind).is .punctuation "\x7b" then behind else tokens }

-- A name that refers to something; keywords are names here.
def name (what : String) : Parser String := do
  let token ← current
  match token.kind with
  | .identifier | .keyword => return (← advance).value
  | _ => fail (.expected s!"{what} name" token)

-- A name that declares something. A keyword is reported and taken all the same.
def declaredName (what : String) : Parser String := do
  let token ← current
  match token.kind with
  | .identifier => return (← advance).value
  | .keyword =>
    let _ ← advance
    report ⟨.reserved token.value what, token.position⟩
    return token.value
  | _ => fail (.expected s!"{what} name" token)

def string (what : String) : Parser String := do
  let token ← current
  if token.kind == .string then return (← advance).value
  else fail (.expected s!"{what} string" token)

-- A name that may also be written as a string.
def nameOrString (what : String) : Parser String := do
  if (← current).kind == .string then return (← advance).value else name what

-- A string that may follow, as the message of what precedes it.
def message? : Parser (Option String) := do
  if (← current).kind == .string then return some (← advance).value else return none

-- What follows a mark, if the mark is there.
def after? (kind : TokenKind) (mark : String) (p : Parser α) : Parser (Option α) := do
  if ← accept kind mark then return some (← p) else return none

end Parser
end Charter.Source
