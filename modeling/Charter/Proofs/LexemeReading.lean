import Charter.Proofs.Printing

/-!
A text that is written as tokens with blanks between them is read as these tokens: whatever has the form of a
token is taken whole where a blank or the end stands behind it.
-/

namespace Charter
open Text

-- The codes of a table, one by one.
def Text.Ranges.codes (ranges : Ranges) : List Nat :=
  ranges.flatMap fun range => (List.range (range.2 + 1 - range.1)).map (range.1 + ·)

theorem Text.Ranges.mem_codes {ranges : Ranges} {code : Nat} (covered : ranges.covers code = true) :
    code ∈ ranges.codes := by
  induction ranges with
  | nil => cases covered
  | cons range rest ih =>
      obtain ⟨low, high⟩ := range
      rw [Ranges.covers] at covered
      unfold Ranges.codes at ih ⊢
      rw [List.flatMap_cons, List.mem_append]
      split at covered
      · next bounded =>
        have least := of_decide_eq_true covered
        exact .inl (List.mem_map.mpr ⟨code - low, List.mem_range.mpr (by omega), Nat.add_sub_cancel' least⟩)
      · exact .inr (ih covered)

-- The end, or a blank.
def IsApart (tail : List Char) : Prop := tail = [] ∨ ∃ rest, tail = ' ' :: rest

theorem IsApart.stop {kind : Char → Bool} {tail : List Char} (apart : IsApart tail) (blank : kind ' ' = false) :
    ∀ c, tail.head? = some c → kind c = false := by
  intro c found
  rcases apart with rfl | ⟨rest, rfl⟩
  · cases found
  · cases found
    exact blank

namespace Scan

-- A run of characters of a kind ends where another one stands.
theorem run_append {kind : Char → Bool} {run rest : List Char} (each : ∀ c ∈ run, kind c = true)
    (stop : ∀ c, rest.head? = some c → kind c = false) :
    (run ++ rest).takeWhile kind = run ∧ (run ++ rest).dropWhile kind = rest := by
  have ends : rest.takeWhile kind = [] ∧ rest.dropWhile kind = rest := by
    cases rest with
    | nil => exact ⟨rfl, rfl⟩
    | cons c rest =>
        have other := stop c rfl
        exact ⟨List.takeWhile_cons_of_neg (by simp [other]), List.dropWhile_cons_of_neg (by simp [other])⟩
  rw [List.takeWhile_append_of_pos each, List.dropWhile_append_of_pos each, ends.1, ends.2]
  exact ⟨List.append_nil run, rfl⟩

theorem stringBody_of_quoted {quote : Char} {body : List Char} (inside : IsQuoted quote body) (mark : quote ≠ '\\')
    (tail : List Char) : stringBody quote (body ++ quote :: tail) = (body, some tail) := by
  induction inside with
  | nil =>
      rw [List.nil_append, stringBody, if_pos rfl]
      · intro same _
        exact mark same
      · intro _ _ same _
        exact mark same
  | @plain c rest other whole inside ih =>
      rw [List.cons_append, stringBody, if_neg other, ih]
      · intro same _
        exact whole same
      · intro _ _ same _
        exact whole same
  | escape c inside ih => rw [List.cons_append, List.cons_append, stringBody, ih]

-- What begins a word or a number begins nothing else.

structure Begins (c : Char) : Prop where
  newline : (c == '\n') = false
  blank : isBlank c = false
  comment : (c == '/') = false
  quote : (c == '\x22' || c == '\x27') = false
  template : (c == templateQuote) = false

theorem begins_of_other {c : Char} {kind : Char → Bool} (member : kind c = true) (blank : isBlank c = false)
    (others : kind '\n' = false ∧ kind '/' = false ∧ kind '\x22' = false ∧ kind '\x27' = false ∧
      kind templateQuote = false) : Begins c := by
  have apart {other : Char} (no : kind other = false) : (c == other) = false := by
    refine beq_eq_false_iff_ne.mpr fun same => ?_
    rw [same, no] at member
    cases member
  obtain ⟨newline, comment, double, single, template⟩ := others
  exact {
    newline := apart newline
    blank
    comment := apart comment
    quote := Bool.or_eq_false_iff.mpr ⟨apart double, apart single⟩
    template := apart template }

theorem begins_of_digit {c : Char} (digit : isDigit c = true) : Begins c := by
  refine begins_of_other digit (Bool.eq_false_iff.mpr fun blank => ?_) (by decide)
  have none : ∀ code ∈ blankRanges.codes, (decide (48 ≤ code) && decide (code ≤ 57)) = false := by decide
  exact absurd digit (Bool.eq_false_iff.mp (none _ (Ranges.mem_codes blank)))

-- No word begins with a character of a table that has no letter in it.
theorem not_wordStart {ranges : Ranges} {c : Char} (covered : ranges.covers c.toNat = true)
    (none : ∀ code ∈ ranges.codes, letterRanges.covers code = false ∧ code ≠ '_'.toNat) : isWordStart c = false := by
  obtain ⟨letter, line⟩ := none _ (Ranges.mem_codes covered)
  exact Bool.or_eq_false_iff.mpr ⟨letter, beq_eq_false_iff_ne.mpr fun same => line (congrArg Char.toNat same)⟩

theorem begins_of_wordStart {c : Char} (start : isWordStart c = true) : Begins c := by
  refine begins_of_other start (Bool.eq_false_iff.mpr fun blank => ?_) (by decide)
  exact absurd start (Bool.eq_false_iff.mp (not_wordStart blank (by decide +kernel)))

theorem digit_of_wordStart {c : Char} (start : isWordStart c = true) : isDigit c = false := by
  refine Bool.eq_false_iff.mpr fun digit => ?_
  obtain ⟨least, most⟩ := Bool.and_eq_true_iff.mp digit
  have covered : Ranges.covers [(48, 57)] c.toNat = true := by
    rw [Ranges.covers, if_pos (of_decide_eq_true most)]
    exact least
  exact absurd start (Bool.eq_false_iff.mp (not_wordStart covered (by decide)))

-- The first tests of a step, at a character that begins a word or a number.
theorem step_of_begins {c : Char} (begins : Begins c) (rest : List Char) : step c rest =
    if isDigit c then ofNumber (c :: rest)
    else if isWordStart c then ofWord (c :: rest)
    else if punctuationCharacters.contains c then
      { taken := [c], rest, token := some (.punctuation, String.singleton c) }
    else ofOperator c rest := by
  have line : startsComment c rest '/' = false := by rw [startsComment, begins.comment]; rfl
  have block : startsComment c rest '*' = false := by rw [startsComment, begins.comment]; rfl
  rw [step, begins.newline, begins.blank, line, block, begins.quote, begins.template]
  rfl

theorem step_of_digit {c : Char} (digit : isDigit c = true) (rest : List Char) : step c rest = ofNumber (c :: rest) := by
  rw [step_of_begins (begins_of_digit digit), if_pos digit]

theorem ofWord_of_word {text tail : List Char} (form : IsWord text) (apart : IsApart tail) :
    ofWord (text ++ tail) = ⟨text, tail,
      some (if isKeyword (String.ofList text) then .keyword else .identifier, String.ofList text), none⟩ := by
  obtain ⟨first, rest, start, parts, rfl⟩ := form
  have each : ∀ c ∈ first :: rest, isWordPart c = true :=
    List.forall_mem_cons.mpr ⟨wordPart_of_wordStart start, parts⟩
  obtain ⟨taken, left⟩ := run_append each (apart.stop (by decide))
  rw [ofWord, taken, left]

theorem step_of_word {text tail : List Char} (form : IsWord text) (apart : IsApart tail) : ∃ c rest, text = c :: rest ∧
    step c (rest ++ tail) = ⟨text, tail,
      some (if isKeyword (String.ofList text) then .keyword else .identifier, String.ofList text), none⟩ := by
  have word := ofWord_of_word form apart
  obtain ⟨first, rest, start, _, rfl⟩ := form
  refine ⟨first, rest, rfl, ?_⟩
  rw [step_of_begins (begins_of_wordStart start), if_neg (Bool.eq_false_iff.mp (digit_of_wordStart start)), if_pos start]
  exact word

theorem fraction_append_of {text rest : List Char} (form : IsFraction text)
    (stop : ∀ c, rest.head? = some c → isDigit c = false ∧ c ≠ '.') : fraction (text ++ rest) = (text, rest) := by
  rcases form with rfl | ⟨digits, ⟨some, each⟩, rfl⟩
  · cases rest with
    | nil => rfl
    | cons c rest =>
        rw [List.nil_append, fraction]
        intro digit behind same
        exact (stop c rfl).2 (List.cons.inj same).1
  · cases digits with
    | nil => exact absurd rfl some
    | cons digit digits =>
        obtain ⟨taken, left⟩ := run_append (List.forall_mem_cons.mp each).2 fun c found => (stop c found).1
        rw [List.cons_append, List.cons_append, fraction, if_pos (List.forall_mem_cons.mp each).1, taken, left]

theorem sign_append_of {plus digits rest : List Char} (isPlus : plus = [] ∨ plus = ['+'] ∨ plus = ['-'])
    (isDigits : IsDigits digits) : sign (plus ++ (digits ++ rest)) = (plus, digits ++ rest) := by
  obtain ⟨some, each⟩ := isDigits
  rcases isPlus with rfl | rfl | rfl
  · cases digits with
    | nil => exact absurd rfl some
    | cons digit digits =>
        have isDigit := (List.forall_mem_cons.mp each).1
        rw [List.nil_append, List.cons_append, sign, if_neg]
        intro signs
        rcases Bool.or_eq_true_iff.mp signs with positive | negative
        · rw [beq_iff_eq.mp positive] at isDigit; cases isDigit
        · rw [beq_iff_eq.mp negative] at isDigit; cases isDigit
  · rfl
  · rfl

theorem exponent_append_of {text tail : List Char} (form : IsExponent text) (apart : IsApart tail) :
    exponent (text ++ tail) = (text, tail) := by
  rcases form with rfl | ⟨mark, plus, digits, isMark, isPlus, ⟨some, each⟩, rfl⟩
  · rcases apart with rfl | ⟨rest, rfl⟩
    · rfl
    · rfl
  · obtain ⟨taken, left⟩ := run_append each (apart.stop (by decide))
    have signed := @sign_append_of plus digits tail isPlus ⟨some, each⟩
    have marked : ((mark == 'e' || mark == 'E') && (digits != [])) = true := by
      simpa using ⟨isMark, some⟩
    rw [List.append_assoc, List.cons_append, exponent]
    simp only [signed, taken, left, marked, if_true]

-- An exponent does not go on with what stands in front of it, and neither does a fraction.

theorem exponent_stop {text rest : List Char} (form : IsExponent text)
    (stop : text = [] → ∀ c, rest.head? = some c → isDigit c = false ∧ c ≠ '.') :
    ∀ c, (text ++ rest).head? = some c → isDigit c = false ∧ c ≠ '.' := by
  intro c found
  rcases form with rfl | ⟨mark, plus, digits, rfl | rfl, _, _, rfl⟩
  · exact stop rfl c found
  · cases found; decide
  · cases found; decide

theorem fraction_stop {text rest : List Char} (form : IsFraction text)
    (stop : text = [] → ∀ c, rest.head? = some c → isDigit c = false) :
    ∀ c, (text ++ rest).head? = some c → isDigit c = false := by
  intro c found
  rcases form with rfl | ⟨digits, _, rfl⟩
  · exact stop rfl c found
  · cases found; rfl

theorem ofNumber_of_numeral {text tail : List Char} (form : IsNumeral text) (apart : IsApart tail) :
    ofNumber (text ++ tail) = ⟨text, tail, some (.number, String.ofList text), none⟩ := by
  obtain ⟨whole, fractionPart, exponentPart, ⟨_, each⟩, isFraction, isExponent, rfl⟩ := form
  -- Behind the fraction stands an exponent or what follows the number.
  have behind : ∀ c, (exponentPart ++ tail).head? = some c → isDigit c = false ∧ c ≠ '.' := by
    refine exponent_stop isExponent fun _ c found => ?_
    rcases apart with rfl | ⟨rest, rfl⟩
    · cases found
    · cases found; decide
  obtain ⟨taken, left⟩ := run_append each (fraction_stop isFraction fun _ c found => (behind c found).1)
  have split : whole ++ fractionPart ++ exponentPart ++ tail = whole ++ (fractionPart ++ (exponentPart ++ tail)) := by
    simp only [List.append_assoc]
  rw [split]
  simp only [ofNumber, taken, left, fraction_append_of isFraction behind, exponent_append_of isExponent apart]

theorem ofString_of_quoted {quote : Char} {body : List Char} (inside : IsQuoted quote body) (mark : quote ≠ '\\')
    (tail : List Char) : ofString quote (body ++ [quote] ++ tail) =
      ⟨quote :: body ++ [quote], tail, some (.string, String.ofList (unescape body)), none⟩ := by
  rw [ofString, List.append_assoc, List.singleton_append, stringBody_of_quoted inside mark tail]

theorem ofTemplate_of_body {body : List Char} (inside : templateQuote ∉ body) (tail : List Char) :
    ofTemplate (body ++ [templateQuote] ++ tail) =
      ⟨templateQuote :: body ++ [templateQuote], tail, some (.string, String.ofList body), none⟩ := by
  have each : ∀ c ∈ body, (c != templateQuote) = true := by
    intro c member
    exact bne_iff_ne.mpr fun same => inside (same ▸ member)
  have stop : ∀ c, (templateQuote :: tail).head? = some c → (c != templateQuote) = false := by
    intro c found
    cases found
    exact bne_self_eq_false templateQuote
  obtain ⟨taken, left⟩ := run_append each stop
  rw [ofTemplate, List.append_assoc, List.singleton_append, taken, left]

end Scan

-- A token in front of a blank or the end is taken whole.
theorem Lexeme.step {text tail : List Char} {kind : TokenKind} {value : String} (lexeme : Lexeme text kind value none)
    (apart : IsApart tail) :
    ∃ c rest, text = c :: rest ∧ Scan.step c (rest ++ tail) = ⟨text, tail, some (kind, value), none⟩ := by
  cases lexeme with
  | newline => exact ⟨'\n', [], rfl, rfl⟩
  | @string quote body mark inside =>
      refine ⟨quote, body ++ [quote], rfl, ?_⟩
      rcases mark with rfl | rfl
      · exact Scan.ofString_of_quoted inside (by decide) tail
      · exact Scan.ofString_of_quoted inside (by decide) tail
  | @template body inside =>
      exact ⟨Scan.templateQuote, body ++ [Scan.templateQuote], rfl, Scan.ofTemplate_of_body inside tail⟩
  | numeral form =>
      obtain ⟨digit, rest, rfl, isDigit⟩ := form.first
      refine ⟨digit, rest, rfl, ?_⟩
      rw [Scan.step_of_digit isDigit]
      exact Scan.ofNumber_of_numeral form apart
  | @keyword text form reserved =>
      have known : isKeyword (String.ofList text) = true := List.contains_iff_mem.mpr reserved
      obtain ⟨c, rest, rfl, word⟩ := Scan.step_of_word form apart
      exact ⟨c, rest, rfl, by rw [word, if_pos known]⟩
  | @identifier text form free =>
      have unknown : ¬ isKeyword (String.ofList text) = true := fun listed => free (List.contains_iff_mem.mp listed)
      obtain ⟨c, rest, rfl, word⟩ := Scan.step_of_word form apart
      exact ⟨c, rest, rfl, by rw [word, if_neg unknown]⟩
  | @punctuation c listed =>
      refine ⟨c, [], rfl, ?_⟩
      simp only [punctuationCharacters, List.mem_cons, List.not_mem_nil, or_false] at listed
      rcases listed with rfl | rfl | rfl | rfl | rfl | rfl | rfl | rfl | rfl <;> rfl
  | @operator c listed =>
      refine ⟨c, [], rfl, ?_⟩
      simp only [operatorCharacters, List.mem_cons, List.not_mem_nil, or_false] at listed
      rcases apart with rfl | ⟨rest, rfl⟩ <;>
        rcases listed with rfl | rfl | rfl | rfl | rfl | rfl | rfl | rfl | rfl | rfl | rfl | rfl | rfl <;> rfl
  | @operatorPair c d listed =>
      refine ⟨c, [d], rfl, ?_⟩
      simp only [operatorPairs, List.mem_cons, List.not_mem_nil, or_false, Prod.mk.injEq] at listed
      rcases listed with ⟨rfl, rfl⟩ | ⟨rfl, rfl⟩ | ⟨rfl, rfl⟩ | ⟨rfl, rfl⟩ | ⟨rfl, rfl⟩ | ⟨rfl, rfl⟩ | ⟨rfl, rfl⟩ |
        ⟨rfl, rfl⟩ | ⟨rfl, rfl⟩ <;> rfl

namespace Lexed

theorem ofCharacters_lexeme {text tail : List Char} {kind : TokenKind} {value : String}
    (lexeme : Lexeme text kind value none) (apart : IsApart tail) (position : Position) :
    ofCharacters position (text ++ tail) =
      { tokens := ⟨kind, value, position.through text⟩ :: (ofCharacters (position.through text) tail).tokens
        anomalies := (ofCharacters (position.through text) tail).anomalies } := by
  obtain ⟨c, rest, rfl, taken⟩ := lexeme.step apart
  rw [List.cons_append, ofCharacters, taken]
  rfl

theorem ofCharacters_blank (position : Position) (tail : List Char) :
    ofCharacters position (' ' :: tail) = ofCharacters (position.through [' ']) tail := by
  rw [ofCharacters]
  rfl

end Lexed

-- Tokens that are written with blanks between them are read as they are.
theorem Symbol.ofCharacters_texts {symbols : List Symbol}
    (each : ∀ symbol ∈ symbols, Lexeme symbol.text symbol.kind symbol.value none) (position : Position) :
    ∃ tokens last, tokens.map Token.symbol = symbols ∧
      Lexed.ofCharacters position ([' '].intercalate (symbols.map Symbol.text)) = ⟨tokens ++ [.endAt last], []⟩ := by
  induction symbols generalizing position with
  | nil => exact ⟨[], position, rfl, by rw [List.map_nil, List.intercalate_nil, Lexed.ofCharacters]; rfl⟩
  | cons symbol symbols ih =>
      obtain ⟨lexeme, others⟩ := List.forall_mem_cons.mp each
      let behind := position.through symbol.text
      cases symbols with
      | nil =>
          refine ⟨[⟨symbol.kind, symbol.value, behind⟩], behind, rfl, ?_⟩
          have read := Lexed.ofCharacters_lexeme lexeme (.inl rfl) position
          rw [List.map_singleton, List.intercalate_singleton, ← List.append_nil symbol.text, read, Lexed.ofCharacters]
          rfl
      | cons next rest =>
          obtain ⟨tokens, last, same, read⟩ := ih others (behind.through [' '])
          refine ⟨⟨symbol.kind, symbol.value, behind⟩ :: tokens, last, by rw [List.map_cons, same]; rfl, ?_⟩
          rw [List.map_cons, List.map_cons, List.intercalate_cons_cons, List.append_assoc, ← List.map_cons,
            List.singleton_append, Lexed.ofCharacters_lexeme lexeme (.inr ⟨_, rfl⟩), Lexed.ofCharacters_blank, read]
          rfl

end Charter
