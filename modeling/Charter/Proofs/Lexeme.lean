import Charter.Token.Lexer
import Mathlib.Data.List.TakeWhile

/-!
The written forms of tokens, and of what may stand between them, told without the reader. Every step of the
reader takes one of these forms off the text: a token in its own form, or a blank, a comment or an unknown
character.
-/

namespace Charter
open Text

def IsDigits (text : List Char) : Prop := text ≠ [] ∧ ∀ c ∈ text, isDigit c = true

def IsFraction (text : List Char) : Prop := text = [] ∨ ∃ digits, IsDigits digits ∧ text = '.' :: digits

def IsExponent (text : List Char) : Prop :=
  text = [] ∨ ∃ mark plus digits, (mark = 'e' ∨ mark = 'E') ∧ (plus = [] ∨ plus = ['+'] ∨ plus = ['-']) ∧
    IsDigits digits ∧ text = mark :: plus ++ digits

-- A number as it is written: digits, a fraction and an exponent. It has no sign.
def IsNumeral (text : List Char) : Prop :=
  ∃ whole fraction exponent, IsDigits whole ∧ IsFraction fraction ∧ IsExponent exponent ∧
    text = whole ++ fraction ++ exponent

theorem IsNumeral.first {text : List Char} (form : IsNumeral text) :
    ∃ digit rest, text = digit :: rest ∧ isDigit digit = true := by
  obtain ⟨whole, fraction, exponent, ⟨some, each⟩, _, _, rfl⟩ := form
  obtain ⟨digit, rest, rfl⟩ := List.exists_cons_of_ne_nil some
  exact ⟨digit, rest ++ fraction ++ exponent, rfl, each digit List.mem_cons_self⟩

def IsWord (text : List Char) : Prop :=
  ∃ first rest, isWordStart first = true ∧ (∀ c ∈ rest, isWordPart c = true) ∧ text = first :: rest

-- What a string holds between its quotes: characters other than the quote, and any character behind a backslash.
inductive IsQuoted (quote : Char) : List Char → Prop where
  | nil : IsQuoted quote []
  | plain {c : Char} {rest : List Char} (other : c ≠ quote) (whole : c ≠ '\\') (tail : IsQuoted quote rest) :
      IsQuoted quote (c :: rest)
  | escape (c : Char) {rest : List Char} (tail : IsQuoted quote rest) : IsQuoted quote ('\\' :: c :: rest)

-- The text, kind and value of a token, and what is wrong with it.
inductive Lexeme : List Char → TokenKind → String → Option Anomaly → Prop where
  | newline : Lexeme ['\n'] .newline "\n" none
  | string {quote : Char} {body : List Char} (mark : quote = '\x22' ∨ quote = '\x27') (inside : IsQuoted quote body) :
      Lexeme (quote :: body ++ [quote]) .string (String.ofList (Scan.unescape body)) none
  | openString {quote : Char} {body : List Char} (mark : quote = '\x22' ∨ quote = '\x27')
      (inside : IsQuoted quote body ∨ ∃ front, IsQuoted quote front ∧ body = front ++ ['\\']) :
      Lexeme (quote :: body) .string (String.ofList (Scan.unescape body)) (some .unterminatedString)
  | template {body : List Char} (inside : Scan.templateQuote ∉ body) :
      Lexeme (Scan.templateQuote :: body ++ [Scan.templateQuote]) .string (String.ofList body) none
  | openTemplate {body : List Char} (inside : Scan.templateQuote ∉ body) :
      Lexeme (Scan.templateQuote :: body) .string (String.ofList body) (some .unterminatedTemplate)
  | numeral {text : List Char} (form : IsNumeral text) : Lexeme text .number (String.ofList text) none
  | keyword {text : List Char} (form : IsWord text) (reserved : String.ofList text ∈ keywords) :
      Lexeme text .keyword (String.ofList text) none
  | identifier {text : List Char} (form : IsWord text) (free : String.ofList text ∉ keywords) :
      Lexeme text .identifier (String.ofList text) none
  | punctuation {c : Char} (listed : c ∈ punctuationCharacters) :
      Lexeme [c] .punctuation (String.singleton c) none
  | operator {c : Char} (listed : c ∈ operatorCharacters) : Lexeme [c] .operator (String.singleton c) none
  | operatorPair {c d : Char} (listed : (c, d) ∈ operatorPairs) :
      Lexeme [c, d] .operator (String.ofList [c, d]) none

-- A character that no token and no comment begins with, and that is no blank.
structure IsUnknown (c : Char) : Prop where
  notBlank : isBlank c = false
  notQuote : c ≠ '\x22' ∧ c ≠ '\x27' ∧ c ≠ Scan.templateQuote
  notDigit : isDigit c = false
  notWord : isWordStart c = false
  notMark : c ∉ punctuationCharacters ∧ c ∉ operatorCharacters

-- What may stand between tokens, and what is wrong with it.
inductive Gap : List Char → Option Anomaly → Prop where
  | blank {c : Char} (blank : isBlank c = true) : Gap [c] none
  | lineComment {body : List Char} (inside : '\n' ∉ body) : Gap ('/' :: '/' :: body) none
  | blockComment {body : List Char} (inside : ¬ ['*', '/'] <:+: body) : Gap ('/' :: '*' :: body ++ ['*', '/']) none
  | openComment {body : List Char} (inside : ¬ ['*', '/'] <:+: body) :
      Gap ('/' :: '*' :: body) (some .unterminatedComment)
  | unknown {c : Char} (form : IsUnknown c) : Gap [c] (some (.unknownCharacter c))

-- An anomaly of something that has no end of its own.
def Anomaly.isOpen : Anomaly → Bool
  | .unknownCharacter _ => false
  | .unterminatedString | .unterminatedTemplate | .unterminatedComment => true

namespace Scan

-- What a step takes is a token or may stand between tokens, and what has no end reaches to the end.
structure Sound (scan : Scan) : Prop where
  form : match scan.token with
    | some (kind, value) => Lexeme scan.taken kind value scan.anomaly
    | none => Gap scan.taken scan.anomaly
  ends : ∀ anomaly, scan.anomaly = some anomaly → anomaly.isOpen = true → scan.rest = []

theorem Sound.ofSilent {scan : Scan} (form : match scan.token with
      | some (kind, value) => Lexeme scan.taken kind value scan.anomaly
      | none => Gap scan.taken scan.anomaly) (silent : scan.anomaly = none) : scan.Sound := by
  refine ⟨form, fun anomaly told => ?_⟩
  rw [silent] at told
  cases told

theorem isDigits_takeWhile {chars : List Char} (some : chars.takeWhile isDigit ≠ []) :
    IsDigits (chars.takeWhile isDigit) := ⟨some, fun _ member => List.mem_takeWhile_imp member⟩

theorem stringBody_quoted (quote : Char) (chars : List Char) :
    match stringBody quote chars with
    | (body, some _) => IsQuoted quote body
    | (body, none) => IsQuoted quote body ∨ ∃ front, IsQuoted quote front ∧ body = front ++ ['\\'] := by
  fun_induction stringBody quote chars with
  | case1 => exact .inl .nil
  | case2 => exact .inr ⟨[], .nil, rfl⟩
  | case3 escaped rest body after split ih =>
      rw [split] at ih
      cases after with
      | some _ => exact .escape escaped ih
      | none =>
          rcases ih with whole | ⟨front, whole, rfl⟩
          · exact .inl (.escape escaped whole)
          · exact .inr ⟨'\\' :: escaped :: front, .escape escaped whole, rfl⟩
  | case4 => exact .nil
  | case5 c rest short long other body after split ih =>
      have plain : c ≠ '\\' := by
        rintro rfl
        cases rest with
        | nil => exact short rfl rfl
        | cons next tail => exact long next tail rfl rfl
      rw [split] at ih
      cases after with
      | some _ => exact .plain other plain ih
      | none =>
          rcases ih with whole | ⟨front, whole, rfl⟩
          · exact .inl (.plain other plain whole)
          · exact .inr ⟨c :: front, .plain other plain whole, rfl⟩

theorem commentBody_closed (chars : List Char) : ¬ ['*', '/'] <:+: (commentBody chars).1 := by
  fun_induction commentBody chars with
  | case1 => simp
  | case2 => simp
  | case3 c rest unclosed body after split ih =>
      rw [split] at ih
      rw [List.infix_cons_iff]
      rintro (front | inside)
      · obtain ⟨rfl, next⟩ := List.cons_prefix_cons.mp front
        obtain ⟨tail, rfl⟩ := next
        have whole := commentBody_append rest
        rw [split] at whole
        exact unclosed _ rfl whole
      · exact ih inside

theorem ofString_sound {quote : Char} (mark : quote = '\x22' ∨ quote = '\x27') (chars : List Char) :
    (ofString quote chars).Sound := by
  have inside := stringBody_quoted quote chars
  unfold ofString
  rcases split : stringBody quote chars with ⟨body, _ | rest⟩
  · rw [split] at inside
    exact ⟨.openString mark inside, fun _ _ _ => rfl⟩
  · rw [split] at inside
    exact .ofSilent (.string mark inside) rfl

theorem ofTemplate_sound (chars : List Char) : (ofTemplate chars).Sound := by
  have inside : templateQuote ∉ chars.takeWhile (· != templateQuote) := by
    intro member
    simpa using List.mem_takeWhile_imp member
  unfold ofTemplate
  cases behind : chars.dropWhile (· != templateQuote) with
  | nil => exact ⟨.openTemplate inside, fun _ _ _ => rfl⟩
  | cons close rest =>
      have closing : close = templateQuote := by
        have first := List.head_dropWhile_not (· != templateQuote) (l := chars) (by rw [behind]; simp)
        simpa [behind] using first
      subst closing
      exact .ofSilent (.template inside) rfl

theorem ofBlockComment_sound (chars : List Char) : (ofBlockComment chars).Sound := by
  have inside := commentBody_closed chars
  unfold ofBlockComment
  rcases split : commentBody chars with ⟨body, _ | rest⟩
  · rw [split] at inside
    exact ⟨.openComment inside, fun _ _ _ => rfl⟩
  · rw [split] at inside
    exact .ofSilent (.blockComment inside) rfl

theorem fraction_sound (chars : List Char) : IsFraction (fraction chars).1 := by
  unfold fraction
  split
  · next digit rest =>
    split
    · next isDigit =>
      refine .inr ⟨digit :: rest.takeWhile Text.isDigit, ⟨List.cons_ne_nil _ _, ?_⟩, rfl⟩
      exact List.forall_mem_cons.mpr ⟨isDigit, fun _ member => List.mem_takeWhile_imp member⟩
    · exact .inl rfl
  · exact .inl rfl

theorem sign_sound (chars : List Char) : (sign chars).1 = [] ∨ (sign chars).1 = ['+'] ∨ (sign chars).1 = ['-'] := by
  unfold sign
  split
  · exact .inl rfl
  · split
    · next c rest signed =>
      rcases Bool.or_eq_true_iff.mp signed with plus | minus
      · exact .inr (.inl (by simpa using plus))
      · exact .inr (.inr (by simpa using minus))
    · exact .inl rfl

theorem exponent_sound (chars : List Char) : IsExponent (exponent chars).1 := by
  unfold exponent
  split
  · exact .inl rfl
  · next mark rest =>
    dsimp only
    split
    · next marked =>
      simp only [Bool.and_eq_true, Bool.or_eq_true, beq_iff_eq, bne_iff_ne] at marked
      exact .inr ⟨mark, _, _, marked.1, sign_sound rest, isDigits_takeWhile marked.2, rfl⟩
    · exact .inl rfl

theorem ofNumber_sound {c : Char} (digit : isDigit c = true) (rest : List Char) : (ofNumber (c :: rest)).Sound := by
  refine .ofSilent (.numeral ⟨_, _, _, isDigits_takeWhile ?_, fraction_sound _, exponent_sound _, rfl⟩) rfl
  rw [List.takeWhile_cons_of_pos digit]
  exact List.cons_ne_nil _ _

theorem wordPart_of_wordStart {c : Char} (start : isWordStart c = true) : isWordPart c = true := by
  unfold isWordPart
  rcases Bool.or_eq_true_iff.mp start with letter | line
  · simp [letter]
  · simp [line]

theorem ofWord_sound {c : Char} (start : isWordStart c = true) (rest : List Char) : (ofWord (c :: rest)).Sound := by
  have form : IsWord ((c :: rest).takeWhile isWordPart) := by
    rw [List.takeWhile_cons_of_pos (wordPart_of_wordStart start)]
    exact ⟨c, _, start, fun _ member => List.mem_takeWhile_imp member, rfl⟩
  refine .ofSilent ?_ rfl
  unfold ofWord
  dsimp only
  split
  · next reserved => exact .keyword form (List.contains_iff_mem.mp reserved)
  · next free => exact .identifier form fun listed => free (List.contains_iff_mem.mpr listed)

theorem ofOperator_sound {c : Char} (rest : List Char) (unknown : c ∉ operatorCharacters → IsUnknown c) :
    (ofOperator c rest).Sound := by
  unfold ofOperator
  have single : Scan.Sound (if operatorCharacters.contains c then
      { taken := [c], rest, token := some (.operator, String.singleton c) }
    else { taken := [c], rest, anomaly := some (.unknownCharacter c) }) := by
    split
    · next listed => exact .ofSilent (.operator (List.contains_iff_mem.mp listed)) rfl
    · next unlisted =>
      refine ⟨.unknown (unknown fun listed => unlisted (List.contains_iff_mem.mpr listed)), ?_⟩
      rintro _ ⟨⟩ ⟨⟩
  cases rest with
  | nil => exact single
  | cons next after =>
      dsimp only
      split
      · next pair => exact .ofSilent (.operatorPair (List.contains_iff_mem.mp pair)) rfl
      · exact single

-- A step takes a token or what may stand between tokens.
theorem step_sound (c : Char) (rest : List Char) : (step c rest).Sound := by
  unfold step
  split
  · next newline =>
    obtain rfl := beq_iff_eq.mp newline
    exact .ofSilent .newline rfl
  split
  · next blank => exact .ofSilent (.blank blank) rfl
  split
  · next comment =>
    obtain ⟨rfl, tail, rfl⟩ : c = '/' ∧ ∃ tail, rest = '/' :: tail := by
      cases rest <;> simp_all [startsComment]
    refine .ofSilent ?_ rfl
    have taken : (ofLineComment ('/' :: '/' :: tail)).taken = '/' :: '/' :: tail.takeWhile (· != '\n') := rfl
    show Gap _ _
    rw [taken]
    exact .lineComment fun member => by simpa using List.mem_takeWhile_imp member
  split
  · exact ofBlockComment_sound _
  split
  · next quote =>
    rcases Bool.or_eq_true_iff.mp quote with double | single
    · exact ofString_sound (.inl (beq_iff_eq.mp double)) rest
    · exact ofString_sound (.inr (beq_iff_eq.mp single)) rest
  split
  · exact ofTemplate_sound rest
  split
  · next digit => exact ofNumber_sound digit rest
  split
  · next start => exact ofWord_sound start rest
  split
  · next listed => exact .ofSilent (.punctuation (List.contains_iff_mem.mp listed)) rfl
  · next blank _ _ quote template digit word mark =>
    refine ofOperator_sound rest fun unlisted => ?_
    simp only [Bool.or_eq_true, beq_iff_eq, not_or] at quote
    exact {
      notBlank := Bool.not_eq_true _ ▸ blank
      notQuote := ⟨quote.1, quote.2, fun same => template (beq_iff_eq.mpr same)⟩
      notDigit := Bool.not_eq_true _ ▸ digit
      notWord := Bool.not_eq_true _ ▸ word
      notMark := ⟨fun listed => mark (List.contains_iff_mem.mpr listed), unlisted⟩ }

end Scan
end Charter
