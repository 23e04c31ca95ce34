import Charter.Toml.Quoted
import Charter.Toml.Scalar

/-!
Reading TOML documents: lines of headers, and of keys with their values. Lists and inline tables nest up
to a fixed depth, and keys have no more parts than that.
-/

namespace Charter.Toml.Document
open Reader

def maxDepth : Nat := 79

def isBare (c : Char) : Bool := c.isAlphanum || c == '-' || c == '_'

def keyPart : Reader String := do
  gap
  let name ← Quoted.name <|> (do
    let bare ← span isBare
    if bare.isEmpty then failure else return String.ofList bare)
  gap
  return name

-- The parts of a key, with a point between any two.
def key : Reader Path := do
  let parts ← separated keyPart (mark '.')
  match parts.getLast? with
  | some name => if parts.length ≤ maxDepth then return ⟨parts.dropLast, name⟩ else failure
  | none => failure

-- Between a date and a time there may be a blank.
def isWordPart (c : Char) : Bool := c.isAlphanum || c == '+' || c == '-' || c == '_' || c == '.' || c == ':'

def word : Reader (List Char) := do
  let first ← span isWordPart
  match ← get with
  | ' ' :: c :: _ =>
    if Text.isDigit c && Scalar.date? first == some [] then
      modify List.tail
      return first ++ ' ' :: (← span isWordPart)
    else return first
  | _ => return first

def scalar : Reader Toml := do
  match Scalar.value? (← word) with
  | some value => return value
  | none => failure

def entry (value : Reader Toml) : Reader (Path × Toml) := do
  let path ← key
  mark '='
  gap
  return (path, ← value)

-- A list may end in a comma and run over several lines.
def list (value : Reader Toml) : Reader Toml := do
  mark '['
  space
  let items ← separated (do let item ← value; space; return item) (do mark ','; space)
  if !items.isEmpty then
    let _ ← accept ","
    space
  mark ']'
  return .array items

-- A table between braces, on one line.
def inlineTable (value : Reader Toml) : Reader Toml := do
  mark '\x7b'
  gap
  let entries ← separated (do let e ← entry value; gap; return e) (mark ',')
  gap
  mark '\x7d'
  match inlineTable? entries with
  | some complete => return complete
  | none => failure

-- A value, in which others nest to a depth.
def value : Nat → Reader Toml
  | 0 => (.string <$> Quoted.text) <|> scalar
  | depth + 1 =>
    (.string <$> Quoted.text) <|> list (value depth) <|> inlineTable (value depth) <|> scalar

def line : Reader Line := do
  if ← accept "[[" then
    let path ← key
    marks "]]"
    return .repeatedHeader path
  else if ← accept "[" then
    let path ← key
    mark ']'
    return .header path
  else
    let (path, value) ← entry (value maxDepth)
    return .value path value

-- All lines to the end; each but the last ends in a line end.
def lines : Reader (List Line) := do
  let _ ← accept "\ufeff"
  let first ← each (do space; let line ← line; restOfLine; return line)
  space
  comment <|> pure ()
  atEnd
  return first

end Document

def ofText? (text : String) : Option (Fields Toml) := do
  let (lines, _) ← (Document.lines).run text.toList
  ofLines? lines

end Charter.Toml
