import Charter.Text.Letters

/-!
Readers of TOML text: a reader takes something from the front of the text, or refuses it. Blanks, line
ends and comments are read here.
-/

namespace Charter.Toml

abbrev Reader := StateT (List Char) Option

namespace Reader
variable {α : Type}

-- What a reader takes, again and again, as long as the text gets shorter.
def many (read : Reader α) (text : List Char) : List α × List Char :=
  match read text with
  | none => ([], text)
  | some (item, rest) =>
    if _shorter : rest.length < text.length then
      let (items, last) := many read rest
      (item :: items, last)
    else ([], text)
termination_by text.length

def each (read : Reader α) : Reader (List α) := fun text => some (many read text)

def one (accepts : Char → Bool) : Reader Char := fun text =>
  match text with
  | c :: rest => if accepts c then some (c, rest) else none
  | [] => none

def mark (c : Char) : Reader Unit := do let _ ← one (· == c)

def marks (expected : String) : Reader Unit := fun text =>
  if expected.toList.isPrefixOf text then some ((), text.drop expected.length) else none

def span (accepts : Char → Bool) : Reader (List Char) := fun text =>
  some (text.takeWhile accepts, text.dropWhile accepts)

-- Whether a text comes next. It is taken if so.
def accept (expected : String) : Reader Bool := fun text =>
  if expected.toList.isPrefixOf text then some (true, text.drop expected.length) else some (false, text)

def atEnd : Reader Unit := fun text => if text.isEmpty then some ((), text) else none

def skip (read : Reader α) : Reader Unit := do let _ ← each read

-- Items between separators; there may be none.
def separated (item : Reader α) (separator : Reader Unit) : Reader (List α) :=
  (do
    let first ← item
    let rest ← each (do separator; item)
    return first :: rest) <|> pure []

def isGap (c : Char) : Bool := c == ' ' || c == '\t'

-- Blanks within a line.
def gap : Reader Unit := do let _ ← span isGap

def lineEnd : Reader Unit := marks "\n" <|> marks "\r\n"

-- Control characters stand neither between quotes nor in comments; the tab does not count as one.
def isControl (c : Char) : Bool := c.toNat < 0x20 || c.toNat == 0x7F

def isPlain (c : Char) : Bool := c == '\t' || !isControl c

def comment : Reader Unit := do
  mark '#'
  let _ ← span isPlain

-- What may stand behind the last mark of a line.
def restOfLine : Reader Unit := do
  gap
  comment <|> pure ()
  lineEnd <|> atEnd

-- Blanks, line ends and comments, between the items of a list.
def space : Reader Unit := skip ((do let _ ← one isGap) <|> lineEnd <|> (do comment; lineEnd))

end Reader
end Charter.Toml
