import Charter.Token
import Charter.Text.Letters

/-!
From text to tokens. Reading never fails: a character that begins no token, or a string or comment
without an end, is an anomaly beside the tokens. `taken_append_rest` says that each scan takes a piece
off the front of the text and leaves the rest as it is.
-/

namespace Charter
open Text

inductive Anomaly where
  | unknownCharacter (c : Char)
  | unterminatedString
  | unterminatedTemplate
  | unterminatedComment
  deriving DecidableEq

def Anomaly.code : Anomaly → String
  | .unknownCharacter _ => DiagnosticCode.unknownCharacter
  | .unterminatedString | .unterminatedTemplate => DiagnosticCode.unterminatedString
  | .unterminatedComment => DiagnosticCode.unterminatedComment

def Anomaly.message : Anomaly → String
  | .unknownCharacter c => s!"Unrecognized character '{c}' skipped"
  | .unterminatedString => "Unterminated string literal"
  | .unterminatedTemplate => "Unterminated template literal"
  | .unterminatedComment => "Unterminated block comment"

-- What is reported about anomalies; the tokens do not depend on it.
inductive AnomalyPolicy where
  | skip
  | warn
  | error
  deriving DecidableEq

namespace AnomalyPolicy

def all : List AnomalyPolicy := [skip, warn, error]

def word : AnomalyPolicy → String
  | skip => "skip"
  | warn => "warn"
  | error => "error"

def ofWord? (text : String) : Option AnomalyPolicy := all.find? (·.word == text)

def severity? : AnomalyPolicy → Option Severity
  | skip => none
  | warn => some .warning
  | error => some .error

end AnomalyPolicy

-- One step of reading: a piece of text, and the token or anomaly that it is.
structure Scan where
  taken : List Char
  rest : List Char
  token : Option (TokenKind × String) := none
  anomaly : Option Anomaly := none

namespace Scan

-- The piece in front of the closing quote, and what follows the quote if there is one. A character behind a
-- backslash does not close.
def stringBody (quote : Char) : List Char → List Char × Option (List Char)
  | [] => ([], none)
  | ['\\'] => (['\\'], none)
  | '\\' :: escaped :: rest =>
    let (body, after) := stringBody quote rest
    ('\\' :: escaped :: body, after)
  | c :: rest =>
    if c = quote then ([], some rest)
    else
      let (body, after) := stringBody quote rest
      (c :: body, after)

-- The text that the body of a string stands for. A backslash at the very end stands for nothing.
def unescape : List Char → List Char
  | [] => []
  | ['\\'] => []
  | '\\' :: c :: rest =>
    let meant := match c with
      | 'n' => '\n'
      | 't' => '\t'
      | 'r' => '\r'
      | other => other
    meant :: unescape rest
  | c :: rest => c :: unescape rest

def ofString (quote : Char) (chars : List Char) : Scan :=
  match stringBody quote chars with
  | (body, some rest) =>
    { taken := quote :: body ++ [quote], rest, token := some (.string, String.ofList (unescape body)) }
  | (body, none) =>
    { taken := quote :: body, rest := []
      token := some (.string, String.ofList (unescape body))
      anomaly := some .unterminatedString }

def templateQuote : Char := Char.ofNat 96

-- A template is kept as it is written; placeholders in it mean nothing here.
def ofTemplate (chars : List Char) : Scan :=
  let body := chars.takeWhile (· != templateQuote)
  let value := String.ofList body
  match chars.dropWhile (· != templateQuote) with
  | [] =>
    { taken := templateQuote :: body, rest := [], token := some (.string, value)
      anomaly := some .unterminatedTemplate }
  | close :: rest => { taken := templateQuote :: body ++ [close], rest, token := some (.string, value) }

-- A piece of the text and what follows it.
abbrev Split := List Char × List Char

-- A point with at least one digit behind it, or nothing.
def fraction : List Char → Split
  | '.' :: d :: rest =>
    if isDigit d then ('.' :: d :: rest.takeWhile isDigit, rest.dropWhile isDigit) else ([], '.' :: d :: rest)
  | chars => ([], chars)

def sign : List Char → Split
  | [] => ([], [])
  | c :: rest => if c == '+' || c == '-' then ([c], rest) else ([], c :: rest)

-- An exponent mark with at least one digit behind it and perhaps a sign between, or nothing.
def exponent : List Char → Split
  | [] => ([], [])
  | mark :: chars =>
    let (plus, digits) := sign chars
    if (mark == 'e' || mark == 'E') && (digits.takeWhile isDigit != []) then
      (mark :: plus ++ digits.takeWhile isDigit, digits.dropWhile isDigit)
    else ([], mark :: chars)

def ofNumber (chars : List Char) : Scan :=
  let (fractionPart, rest) := fraction (chars.dropWhile isDigit)
  let (exponentPart, rest) := exponent rest
  let taken := chars.takeWhile isDigit ++ fractionPart ++ exponentPart
  { taken, rest, token := some (.number, String.ofList taken) }

def ofWord (chars : List Char) : Scan :=
  let taken := chars.takeWhile isWordPart
  let word := String.ofList taken
  let kind := if isKeyword word then .keyword else .identifier
  { taken, rest := chars.dropWhile isWordPart, token := some (kind, word) }

def ofLineComment (chars : List Char) : Scan :=
  { taken := chars.takeWhile (· != '\n'), rest := chars.dropWhile (· != '\n') }

-- The body of a block comment and what follows its end mark, if it has one.
def commentBody : List Char → List Char × Option (List Char)
  | [] => ([], none)
  | '*' :: '/' :: rest => ([], some rest)
  | c :: rest =>
    let (body, after) := commentBody rest
    (c :: body, after)

-- A block comment, from behind its opening mark.
def ofBlockComment (chars : List Char) : Scan :=
  match commentBody chars with
  | (body, some rest) => { taken := '/' :: '*' :: body ++ ['*', '/'], rest }
  | (body, none) => { taken := '/' :: '*' :: body, rest := [], anomaly := some .unterminatedComment }

def ofOperator (c : Char) (rest : List Char) : Scan :=
  let single : Scan :=
    if operatorCharacters.contains c then
      { taken := [c], rest, token := some (.operator, String.singleton c) }
    else { taken := [c], rest, anomaly := some (.unknownCharacter c) }
  match rest with
  | [] => single
  | next :: after =>
    if operatorPairs.contains (c, next) then
      { taken := [c, next], rest := after, token := some (.operator, String.ofList [c, next]) }
    else single

def startsComment (c : Char) (rest : List Char) (mark : Char) : Bool := c == '/' && rest.head? == some mark

-- The step at the character `c` with `rest` behind it.
def step (c : Char) (rest : List Char) : Scan :=
  if c == '\n' then { taken := [c], rest, token := some (.newline, "\n") }
  else if isBlank c then { taken := [c], rest }
  else if startsComment c rest '/' then ofLineComment (c :: rest)
  else if startsComment c rest '*' then ofBlockComment rest.tail
  else if c == '\x22' || c == '\x27' then ofString c rest
  else if c == templateQuote then ofTemplate rest
  else if isDigit c then ofNumber (c :: rest)
  else if isWordStart c then ofWord (c :: rest)
  else if punctuationCharacters.contains c then
    { taken := [c], rest, token := some (.punctuation, String.singleton c) }
  else ofOperator c rest

-- Each reader splits its text: nothing is lost and nothing is read twice.

theorem stringBody_append (quote : Char) (chars : List Char) :
    chars = (stringBody quote chars).1 ++
      (match (stringBody quote chars).2 with | some rest => quote :: rest | none => []) := by
  fun_induction stringBody quote chars with
  | case1 => rfl
  | case2 => rfl
  | case3 escaped rest body after h ih => rw [h] at ih; simpa using ih
  | case4 rest _ _ => simp
  | case5 c rest _ _ _ body after h ih => rw [h] at ih; simpa using ih

theorem commentBody_append (chars : List Char) :
    chars = (commentBody chars).1 ++
      (match (commentBody chars).2 with | some rest => '*' :: '/' :: rest | none => []) := by
  fun_induction commentBody chars with
  | case1 => rfl
  | case2 rest => rfl
  | case3 c rest _ body after h ih => rw [h] at ih; simpa using ih

theorem ofString_append (quote : Char) (chars : List Char) :
    (ofString quote chars).taken ++ (ofString quote chars).rest = quote :: chars := by
  have split := stringBody_append quote chars
  unfold ofString
  rcases h : stringBody quote chars with ⟨body, _ | rest⟩ <;> rw [h] at split <;> simp_all

theorem ofBlockComment_append (chars : List Char) :
    (ofBlockComment chars).taken ++ (ofBlockComment chars).rest = '/' :: '*' :: chars := by
  have split := commentBody_append chars
  unfold ofBlockComment
  rcases h : commentBody chars with ⟨body, _ | rest⟩ <;> rw [h] at split <;> simp_all

theorem ofTemplate_append (chars : List Char) :
    (ofTemplate chars).taken ++ (ofTemplate chars).rest = templateQuote :: chars := by
  have split := List.takeWhile_append_dropWhile (p := (· != templateQuote)) (l := chars)
  unfold ofTemplate
  cases h : chars.dropWhile (· != templateQuote) with
  | nil => simpa [h] using split
  | cons close rest => simpa [h] using split

theorem fraction_append (chars : List Char) : (fraction chars).1 ++ (fraction chars).2 = chars := by
  unfold fraction
  split
  · split <;> simp
  · rfl

theorem sign_append (chars : List Char) : (sign chars).1 ++ (sign chars).2 = chars := by
  unfold sign
  repeat' split
  all_goals rfl

theorem exponent_append (chars : List Char) : (exponent chars).1 ++ (exponent chars).2 = chars := by
  cases chars with
  | nil => rfl
  | cons mark chars =>
      unfold exponent
      dsimp only
      split
      · simp [List.takeWhile_append_dropWhile, sign_append]
      · rfl

theorem ofNumber_append (chars : List Char) :
    (ofNumber chars).taken ++ (ofNumber chars).rest = chars := by
  simp only [ofNumber, List.append_assoc, exponent_append, fraction_append]
  exact List.takeWhile_append_dropWhile

theorem ofWord_append (chars : List Char) : (ofWord chars).taken ++ (ofWord chars).rest = chars :=
  List.takeWhile_append_dropWhile

theorem ofOperator_append (c : Char) (rest : List Char) :
    (ofOperator c rest).taken ++ (ofOperator c rest).rest = c :: rest := by
  unfold ofOperator
  repeat' split
  all_goals simp

-- A step splits the text in two.
theorem taken_append_rest (c : Char) (rest : List Char) :
    (step c rest).taken ++ (step c rest).rest = c :: rest := by
  unfold step
  split
  · rfl
  split
  · rfl
  split
  · exact List.takeWhile_append_dropWhile
  split
  · rename_i comment
    obtain ⟨rfl, tail, rfl⟩ : c = '/' ∧ ∃ tail, rest = '*' :: tail := by
      cases rest <;> simp_all [startsComment]
    exact ofBlockComment_append tail
  split
  · exact ofString_append c rest
  split
  · rename_i template
    rw [ofTemplate_append]
    simp_all
  split
  · exact ofNumber_append _
  split
  · exact ofWord_append _
  split
  · rfl
  · exact ofOperator_append c rest

-- A step takes at least one character.
theorem rest_length (c : Char) (rest : List Char) : (step c rest).rest.length ≤ rest.length := by
  have taken : (step c rest).taken ≠ [] := by
    unfold step
    split
    · simp
    split
    · simp
    split
    · rename_i newline _ _
      simp [ofLineComment, List.takeWhile_cons]
      simp_all
    split
    · unfold ofBlockComment
      split <;> simp
    split
    · unfold ofString
      split <;> simp
    split
    · unfold ofTemplate
      split <;> simp
    split
    · rename_i digit
      simp [ofNumber, digit]
    split
    · rename_i start
      have part : isWordPart c = true := by
        simp only [isWordStart, isWordPart] at *
        grind
      simp [ofWord, part]
    split
    · simp
    · unfold ofOperator
      repeat' split
      all_goals simp
  have whole := congrArg List.length (taken_append_rest c rest)
  have positive := List.length_pos_iff.2 taken
  simp at whole
  omega

end Scan

-- The tokens of a text, closed by one end token, and its anomalies with the positions behind them.
structure Lexed where
  tokens : List Token
  anomalies : List (Anomaly × Position)

namespace Lexed

def ofCharacters (position : Position) : List Char → Lexed
  | [] => ⟨[.endAt position], []⟩
  | c :: rest =>
    let scan := Scan.step c rest
    let behind := position.through scan.taken
    let after := ofCharacters behind scan.rest
    { tokens := (scan.token.map fun (kind, value) => ⟨kind, value, behind⟩).toList ++ after.tokens
      anomalies := (scan.anomaly.map (·, behind)).toList ++ after.anomalies }
termination_by chars => chars.length
decreasing_by
  have := Scan.rest_length c rest
  simp only [List.length_cons]
  omega

def ofSource (source : String) : Lexed := ofCharacters .start source.toList

def diagnostics (lexed : Lexed) (policy : AnomalyPolicy) : List Diagnostic :=
  match policy.severity? with
  | none => []
  | some severity => lexed.anomalies.map fun (anomaly, position) =>
    (({ severity, message := anomaly.message } : Diagnostic).place position).coded anomaly.code

end Lexed
end Charter
