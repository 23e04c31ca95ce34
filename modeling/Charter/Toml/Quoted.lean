import Charter.Toml.Reader

/-!
Quoted text in TOML. Between double quotes escapes are read, between apostrophes every character stands
for itself; three marks open a text of several lines. Writing chooses the plainest form that needs no
escape, and otherwise escapes.
-/

namespace Charter.Toml.Quoted
open Reader

def hexDigit? (c : Char) : Option Nat :=
  let code := c.toNat
  if Text.isDigit c then some (code - 48)
  else if 65 ≤ code && code ≤ 70 then some (code - 55)
  else if 97 ≤ code && code ≤ 102 then some (code - 87)
  else none

-- The character of a code that is written with some hexadecimal digits.
def character? (digits : List Char) : Option Char := do
  let code := (← digits.mapM hexDigit?).foldl (fun code digit => code * 16 + digit) 0
  if code.isValidChar then some (Char.ofNat code) else none

def coded (count : Nat) : Reader Char := fun text =>
  if text.length < count then none else (character? (text.take count)).map (·, text.drop count)

-- An escape, behind its backslash.
def escaped : Reader Char := do
  match ← one fun _ => true with
  | 'b' => return '\x08'
  | 't' => return '\t'
  | 'n' => return '\n'
  | 'f' => return '\x0c'
  | 'r' => return '\r'
  | '\x22' => return '\x22'
  | '\\' => return '\\'
  | 'u' => coded 4
  | 'U' => coded 8
  | _ => failure

def part (quote : Char) (escapes : Bool) : Reader Char := do
  let c ← one fun c => isPlain c && c != quote
  if escapes && c == '\\' then escaped else return c

-- A text on one line.
def line (quote : Char) (escapes : Bool) : Reader String := do
  mark quote
  let parts ← each (part quote escapes)
  mark quote
  return String.ofList parts

-- A backslash at the end of a line hides the blanks and line ends behind it.
def hidden : Reader (List Char) := do
  mark '\\'
  gap
  lineEnd
  skip ((do let _ ← one isGap) <|> lineEnd)
  return []

-- One or two quotes within a text of several lines.
def quotes (quote : Char) : Reader (List Char) := do
  let run ← span (· == quote)
  if run.isEmpty || 3 ≤ run.length then failure else return run

def paragraphPart (quote : Char) (escapes : Bool) : Reader (List Char) :=
  (do lineEnd; return ['\n'])
    <|> (if escapes then hidden else failure)
    <|> (do return [← part quote escapes])
    <|> quotes quote

-- A text of several lines. A line end behind the opening marks does not belong to it, and up to two quotes
-- before the closing marks do.
def paragraph (quote : Char) (escapes : Bool) : Reader String := do
  marks (String.ofList [quote, quote, quote])
  lineEnd <|> pure ()
  let parts ← each (paragraphPart quote escapes)
  let run ← span (· == quote)
  if run.length < 3 then failure
  else
    let kept := min (run.length - 3) 2
    modify fun rest => run.drop (kept + 3) ++ rest
    return String.ofList (parts.flatten ++ run.take kept)

-- A quoted text of a single line, as keys may be.
def name : Reader String := line '\x22' true <|> line '\x27' false

def text : Reader String := do
  let rest ← get
  match rest with
  | '\x22' :: '\x22' :: '\x22' :: _ => paragraph '\x22' true
  | '\x27' :: '\x27' :: '\x27' :: _ => paragraph '\x27' false
  | _ => name

-- Writing.

-- The longest run of a character.
def longestRun (c : Char) (text : List Char) : Nat :=
  (text.foldl (fun (longest, run) d =>
    if d == c then (max longest (run + 1), run + 1) else (longest, 0)) (0, 0)).1

def upperHexDigit (n : Nat) : Char := Char.ofNat (if n < 10 then 48 + n else 55 + n)

def escape (c : Char) : List Char :=
  match c with
  | '\x08' => ['\\', 'b']
  | '\t' => ['\\', 't']
  | '\n' => ['\\', 'n']
  | '\x0c' => ['\\', 'f']
  | '\r' => ['\\', 'r']
  | '\x22' => ['\\', '\x22']
  | '\\' => ['\\', '\\']
  | c =>
    if isControl c then
      ['\\', 'u', '0', '0', upperHexDigit (c.toNat / 16), upperHexDigit (c.toNat % 16)]
    else [c]

-- The text between the marks of a paragraph. Line ends stand as they are, and so do two quotes in a row;
-- `run` counts the quotes just before.
def escapeLines : Nat → List Char → List Char
  | _, [] => []
  | run, c :: rest =>
    if c == '\x22' then if run < 2 then c :: escapeLines (run + 1) rest else escape c ++ escapeLines 0 rest
    else if c == '\n' then c :: escapeLines 0 rest
    else escape c ++ escapeLines 0 rest

-- A text as it is written: between double quotes if nothing needs an escape, between apostrophes if that
-- holds there, else over several lines in the same order of preference, and escaped in the end.
def write (value : String) : String :=
  let text := value.toList
  let lines := text.contains '\n'
  let controls := text.any fun c => isControl c && c != '\t' && c != '\n'
  let backslashes := text.contains '\\'
  let (doubles, singles) := (longestRun '\x22' text, longestRun '\x27' text)
  let around (marks : String) (body : List Char) : String :=
    let opening := if lines && marks.length == 3 then marks ++ "\n" else marks
    opening ++ String.ofList body ++ marks
  let (double, doubled) := ("\x22", "\x22\x22\x22")
  if !controls && !backslashes && doubles == 0 && !lines then around double (text.flatMap escape)
  else if !controls && singles == 0 && !lines then around "'" text
  else if !controls && !backslashes && doubles ≤ 2 then around doubled (escapeLines 0 text)
  else if !controls && singles ≤ 2 then around "'''" text
  else if lines then around doubled (escapeLines 0 text)
  else around double (text.flatMap escape)

end Charter.Toml.Quoted
