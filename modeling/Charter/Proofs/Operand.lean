import Charter.Proofs.Precedence

/-!
What stands for itself in an expression: literals, names, parentheses, lists, objects and lambdas.
-/

namespace Charter.Source.Grammar
open Charter.Source.Parser Charter.Source.Expression

variable {limit : Nat} {fits fits' : Prop} {expression : Parser Expression} {e : Expression} {numeral : Float → String}
  {tokens more : List Token} {token next opening closing : Token}

theorem primary_literal {value : Literal} (same : token.symbol = value.symbol numeral)
    (reads : ∀ n, value = .number n → Decimal.parse? (numeral n) = some n) :
    primary expression (token :: next :: more) = ⟨.ok (.literal value), next :: more, []⟩ := by
  obtain ⟨kind, text, position⟩ := token
  cases value with
  | string value => cases same; rfl
  | number n =>
      cases same
      unfold primary
      rw [run_bind run_current]
      refine (run_bind run_advance).trans ?_
      dsimp only
      rw [reads n rfl]
      rfl
  | boolean value => cases value <;> cases same <;> rfl
  | null => cases same; rfl

theorem primary_name {name : String} (same : token.symbol = .word name) (lexes : IsName name)
    (arrow : next.is .operator "=>" = false) :
    primary expression (token :: next :: more) = ⟨.ok (.identifier name), next :: more, []⟩ := by
  obtain ⟨kind, text, position⟩ := token
  rcases lexes with ⟨_, free⟩ | bound
  · cases same.trans (Symbol.word_of_free free)
    unfold primary
    rw [run_bind run_current]
    exact (run_bind run_advance).trans (run_bind (run_accept_other arrow))
  · simp only [List.mem_cons, List.not_mem_nil, or_false] at bound
    rcases bound with rfl | rfl | rfl | rfl <;> cases same <;> rfl

/-! Lists. -/

def sequenceTurn (expression : Parser Expression) (close : String) (items : List Expression) :
    Parser (Turn (List Expression) (List Expression)) := do
  skipNewlines
  if ← accept .punctuation close then return .done items
  let item ← expression
  skipNewlines
  if !(← accept .punctuation ",") && !(← isAt .punctuation close) then
    fail (.expected s!"',' or '{close}'" (← current))
  return .again (items ++ [item])

theorem sequence_eq (expression : Parser Expression) (close : String) :
    sequence expression close = loop (sequenceTurn expression close) [] := rfl

-- What is known of a place where an expression begins.

theorem isNewline_of_opens {symbol : Symbol} (same : token.symbol = symbol) (opens : symbol.Opens) :
    isNewline token = false := by
  have kind : token.kind = symbol.kind := congrArg Symbol.kind same
  exact beq_eq_false_iff_ne.mpr fun newline => opens.notNewline (kind.symm.trans newline)

theorem isNewline_mark {value : String} (same : token.symbol = .mark value) : isNewline token = false := by
  have kind : token.kind = .punctuation := congrArg Symbol.kind same
  rw [isNewline, kind]
  rfl

theorem is_mark {value : String} (same : token.symbol = .mark value) : token.is .punctuation value = true := by
  rw [is_symbol same]
  simp [Symbol.mark]

theorem is_other {value : String} (other : token.symbol ≠ .mark value) : token.is .punctuation value = false := by
  refine Bool.eq_false_iff.mpr fun both => other ?_
  obtain ⟨kind, same⟩ := Bool.and_eq_true_iff.mp both
  exact congrArg₂ Symbol.mk (beq_iff_eq.mp kind) (beq_iff_eq.mp same)

theorem is_of_opens {symbol : Symbol} {mark : String} (same : token.symbol = symbol) (opens : symbol.Opens)
    (other : mark ∉ ["(", "[", "\x7b"]) : token.is .punctuation mark = false := by
  rw [is_symbol same]
  refine Bool.eq_false_iff.mpr fun both => ?_
  obtain ⟨kind, value⟩ := Bool.and_eq_true_iff.mp both
  rw [← beq_iff_eq.mp value] at other
  simp only [List.mem_cons, List.not_mem_nil, or_false] at other
  exact other (opens.mark (beq_iff_eq.mp kind))

-- The expression of some tokens is read one level down, where nothing stands behind them that it goes on with.
def Enters (limit levels : Nat) (symbols : List Symbol) (deep : Nat) (e : Expression) : Prop :=
  ∀ tokens next more, tokens.map Token.symbol = symbols → Behind 0 next →
    Meets limit (deep + 1 ≤ levels) (nested limit levels .expression (tokens ++ next :: more))
      ⟨.ok e, next :: more, []⟩

-- What is written as a list begins with its first item, and behind it comes a comma if there is another one.
theorem tokens_of_list {item second : List Symbol} {items : List (List Symbol)}
    (written : tokens.map Token.symbol = Symbol.list (item :: second :: items)) :
    ∃ front comma behind, tokens = front ++ comma :: behind ∧ front.map Token.symbol = item ∧
      comma.symbol = .mark "," ∧ behind.map Token.symbol = Symbol.list (second :: items) := by
  rw [Symbol.list, List.intercalate_cons_cons, List.append_assoc] at written
  obtain ⟨front, others, same, ofFirst, ofOthers⟩ := List.map_eq_append_iff.mp written
  obtain ⟨comma, behind, rfl, isComma, ofRest⟩ := List.map_eq_cons_iff.mp ofOthers
  exact ⟨front, comma, behind, same, ofFirst, isComma, ofRest⟩

theorem list_cons (symbol : Symbol) (item : List Symbol) (items : List (List Symbol)) :
    ∃ rest, Symbol.list ((symbol :: item) :: items) = symbol :: rest := by
  cases items with
  | nil => exact ⟨item, List.intercalate_singleton⟩
  | cons second items => exact ⟨_, List.intercalate_cons_cons⟩

-- What is written between two marks, and that behind something else.

theorem tokens_between {mark mark' : Symbol} {inside : List Symbol}
    (written : tokens.map Token.symbol = mark :: inside ++ [mark']) :
    ∃ opening inner closing, opening.symbol = mark ∧ inner.map Token.symbol = inside ∧ closing.symbol = mark' ∧
      ∀ behind, tokens ++ behind = opening :: (inner ++ closing :: behind) := by
  obtain ⟨front, last, rfl, ofFront, ofLast⟩ := List.map_eq_append_iff.mp written
  obtain ⟨closing, rfl, isClosing⟩ := List.map_eq_singleton_iff.mp ofLast
  obtain ⟨opening, inner, rfl, isOpening, ofInner⟩ := List.map_eq_cons_iff.mp ofFront
  refine ⟨opening, inner, closing, isOpening, ofInner, isClosing, fun behind => ?_⟩
  rw [List.append_assoc, List.cons_append, List.singleton_append]

theorem tokens_behind {mark mark' : Symbol} {text inside : List Symbol}
    (written : tokens.map Token.symbol = text ++ mark :: inside ++ [mark']) :
    ∃ front opening inner closing, front.map Token.symbol = text ∧ opening.symbol = mark ∧
      inner.map Token.symbol = inside ∧ closing.symbol = mark' ∧
      ∀ behind, tokens ++ behind = front ++ opening :: (inner ++ closing :: behind) := by
  rw [List.append_assoc] at written
  obtain ⟨front, rest, rfl, ofFront, ofRest⟩ := List.map_eq_append_iff.mp written
  obtain ⟨opening, inner, closing, isOpening, ofInner, isClosing, same⟩ := tokens_between ofRest
  refine ⟨front, opening, inner, closing, ofFront, isOpening, ofInner, isClosing, fun behind => ?_⟩
  rw [List.append_assoc, same]

theorem exists_cons_of_append (front : List Token) (token : Token) (behind : List Token) :
    ∃ first rest, front ++ token :: behind = first :: rest :=
  List.exists_cons_of_ne_nil (List.append_ne_nil_of_right_ne_nil front (List.cons_ne_nil token behind))

theorem length_lt_append {front : List Token} (some : front ≠ []) (behind : List Token) :
    behind.length < (front ++ behind).length := by
  have := List.length_pos_iff.mpr some
  rw [List.length_append]
  omega

section Sequence
variable {close : String} {items : List Expression}

-- An element with a comma behind it, and one with the closing mark behind it.

theorem sequence_comma (items : List Expression) {first : Token} {symbol : Symbol} (same : first.symbol = symbol)
    (opens : symbol.Opens) (other : close ∉ ["(", "[", "\x7b"]) (comma : token.symbol = .mark ",") {rest : List Token}
    (goes : rest ≠ []) (read : Meets limit fits (expression (first :: tokens)) ⟨.ok e, token :: rest, []⟩) :
    Meets limit fits (sequenceTurn expression close items (first :: tokens))
      ⟨.ok (.again (items ++ [e])), rest, []⟩ := by
  obtain ⟨second, rest, rfl⟩ := List.exists_cons_of_ne_nil goes
  refine .after (run_skipWhile (isNewline_of_opens same opens)) ?_
  refine .after (run_accept_other (is_of_opens same opens other)) ?_
  refine .before read ?_
  refine (run_bind (run_skipWhile (isNewline_mark comma))).trans ?_
  exact (run_bind (run_accept (is_symbol comma _ _))).trans rfl

theorem sequence_last (items : List Expression) {first : Token} {symbol : Symbol} (same : first.symbol = symbol)
    (opens : symbol.Opens) (other : close ∉ ["(", "[", "\x7b"]) (closes : closing.symbol = .mark close)
    (comma : close ≠ ",") (read : Meets limit fits (expression (first :: tokens)) ⟨.ok e, closing :: next :: more, []⟩) :
    Meets limit fits (sequenceTurn expression close items (first :: tokens))
      ⟨.ok (.again (items ++ [e])), closing :: next :: more, []⟩ := by
  refine .after (run_skipWhile (isNewline_of_opens same opens)) ?_
  refine .after (run_accept_other (is_of_opens same opens other)) ?_
  refine .before read ?_
  refine (run_bind (run_skipWhile (isNewline_mark closes))).trans ?_
  refine (run_bind (run_accept_other ?_)).trans ?_
  · rw [is_symbol closes]
    simp [Symbol.mark, comma]
  · have found : closing.is .punctuation close = true := by
      rw [is_symbol closes]
      simp [Symbol.mark]
    have here : isAt .punctuation close (closing :: next :: more) = ⟨.ok true, closing :: next :: more, []⟩ := by
      unfold isAt
      rw [run_bind run_current, found]
      rfl
    exact (run_bind here).trans rfl

theorem sequence_end (closes : closing.symbol = .mark close) :
    loop (sequenceTurn expression close) items (closing :: next :: more) = ⟨.ok items, next :: more, []⟩ := by
  refine run_loop_done ((run_bind (run_skipWhile (isNewline_mark closes))).trans (run_bind (run_accept ?_)))
  rw [is_symbol closes]
  simp [Symbol.mark]

variable {levels : Nat} {elements : List Expression}

-- Elements with commas between them, up to the closing mark.
theorem sequence_reads (items : List Expression) (next : Token) (more : List Token)
    (other : close ∉ ["(", "[", "\x7b", ","]) (closes : closing.symbol = .mark close)
    (each : ∀ element ∈ elements, StartsWell False (element.symbols numeral) ∧
      Enters limit levels (element.symbols numeral) element.depth element)
    {tokens : List Token} (written : tokens.map Token.symbol = Symbol.list (elements.map (symbols numeral))) :
    Meets limit (depth.items elements ≤ levels)
      (loop (sequenceTurn (nested limit levels .expression) close) items (tokens ++ closing :: next :: more))
      ⟨.ok (items ++ elements), next :: more, []⟩ := by
  have opening : close ∉ ["(", "[", "\x7b"] := fun listed => other (List.mem_append_left [","] listed)
  have comma : close ≠ "," := fun same => other (by rw [same]; decide)
  have closing' : Behind 0 closing :=
    .mark closes ⟨fun same => other (by rw [same]; decide), fun same => other (by rw [same]; decide)⟩
  induction elements generalizing tokens items with
  | nil =>
      have none : tokens = [] := List.map_eq_nil_iff.mp written
      subst none
      refine .of_eq ?_ (Nat.zero_le levels)
      rw [List.append_nil]
      exact sequence_end closes
  | cons element elements ih =>
      obtain ⟨⟨starts, reads⟩, others⟩ := List.forall_mem_cons.mp each
      cases elements with
      | nil =>
          rw [List.map_singleton, Symbol.list, List.intercalate_singleton] at written
          have read := reads tokens closing (next :: more) written closing'
          obtain ⟨first, rest, rfl, begins⟩ := starts.tokens written
          have fewer := length_lt_append (List.cons_ne_nil first rest) (closing :: next :: more)
          have turn := sequence_last items rfl begins.opens opening closes comma read
          refine (Meets.again turn fewer (.of_eq (sequence_end closes) trivial)).imp ?_
          simp [depth.items]
      | cons second elements =>
          obtain ⟨front, mark, behind, rfl, ofFirst, isComma, ofRest⟩ := tokens_of_list written
          have read := reads front mark (behind ++ closing :: next :: more) ofFirst (.mark isComma (by decide))
          have rest : Meets limit (depth.items (second :: elements) ≤ levels)
              (loop (sequenceTurn (nested limit levels .expression) close) (items ++ [element])
                (behind ++ closing :: next :: more))
              ⟨.ok (items ++ [element] ++ second :: elements), next :: more, []⟩ :=
            ih (items ++ [element]) others ofRest
          rw [List.append_assoc, List.singleton_append] at rest
          obtain ⟨first, rest', rfl, begins⟩ := starts.tokens ofFirst
          have goes : behind ++ closing :: next :: more ≠ [] := by simp
          rw [List.append_assoc]
          have fewer := length_lt_append (List.cons_ne_nil first rest') (mark :: (behind ++ closing :: next :: more))
          have turn := sequence_comma items rfl begins.opens opening isComma goes read
          refine (Meets.again turn (Nat.lt_of_succ_lt fewer) rest).imp ?_
          rw [depth.items, Nat.max_le]

end Sequence

/-! Objects. -/

section Entries
variable {pairs : List (String × Expression)}

def entriesTurn (expression : Parser Expression) (pairs : List (String × Expression)) :
    Parser (Turn (List (String × Expression)) (List (String × Expression))) := do
  skipListSeparators
  if ← accept .punctuation "\x7d" then return .done pairs
  let key ← nameOrString "object key"
  let _ ← expect .punctuation ":"
  skipNewlines
  let value ← expression
  let next ← current
  if !next.is .punctuation "," && !next.is .punctuation "\x7d" && !isNewline next then
    fail (.expected "',' or '\x7d' in object" next)
  return .again (pairs ++ [(key, value)])

theorem entries_eq (expression : Parser Expression) : entries expression =
    expect .punctuation "\x7b" >>= fun _ => loop (entriesTurn expression) [] := rfl

theorem isListSeparator_symbol {symbol : Symbol} (same : token.symbol = symbol) : isListSeparator token =
    (symbol.kind == .newline || (symbol.kind == .punctuation && symbol.value == ";") ||
      (symbol.kind == .punctuation && symbol.value == ",")) := by
  rw [← same]
  rfl

-- An entry with a comma or the closing mark behind it. What separates it from the one before is skipped first.
theorem entries_entry (pairs : List (String × Expression)) {start rest : List Token} {key : String}
    {word colon first : Token} {symbol : Symbol}
    (skips : dropWhile isListSeparator start = word :: colon :: first :: rest)
    (isKey : word.symbol = ⟨.string, key⟩) (isColon : colon.symbol = .mark ":") (same : first.symbol = symbol)
    (opens : symbol.Opens) (read : Meets limit fits (expression (first :: rest)) ⟨.ok e, next :: more, []⟩)
    (ends : next.is .punctuation "," = true ∨ next.is .punctuation "\x7d" = true) :
    Meets limit fits (entriesTurn expression pairs start) ⟨.ok (.again (pairs ++ [(key, e)])), next :: more, []⟩ := by
  have skipped : skipListSeparators start = ⟨.ok (), word :: colon :: first :: rest, []⟩ := by
    unfold skipListSeparators skipWhile
    rw [skips]
  have other : word.is .punctuation "\x7d" = false := is_symbol isKey _ _
  have named : nameOrString "object key" (word :: colon :: first :: rest) = ⟨.ok key, colon :: first :: rest, []⟩ := by
    cases word
    cases isKey
    rfl
  refine .after skipped (.after (run_accept_other other) (.after named ?_))
  refine .after (run_expect (is_mark isColon)) (.after (run_skipWhile (isNewline_of_opens same opens)) ?_)
  refine .before read ((run_bind run_current).trans ?_)
  rcases ends with comma | brace
  · rw [comma]
    rfl
  · rw [brace, Bool.not_true, Bool.and_false, Bool.false_and]
    rfl

theorem entries_end {start : List Token} (skips : dropWhile isListSeparator start = closing :: next :: more)
    (closes : closing.symbol = .mark "\x7d") :
    loop (entriesTurn expression) pairs start = ⟨.ok pairs, next :: more, []⟩ := by
  have skipped : skipListSeparators start = ⟨.ok (), closing :: next :: more, []⟩ := by
    unfold skipListSeparators skipWhile
    rw [skips]
  exact run_loop_done ((run_bind skipped).trans (run_bind (run_accept (is_mark closes))))

-- Nothing is skipped at the closing brace or at a key, and a comma is skipped before a key.

theorem dropWhile_other {kind : Token → Bool} (other : kind token = false) :
    dropWhile kind (token :: tokens) = token :: tokens := by
  cases tokens with
  | nil => rfl
  | cons second rest => rw [dropWhile, if_neg (Bool.eq_false_iff.mp other)]

theorem dropWhile_first {kind : Token → Bool} (found : kind token = true) :
    dropWhile kind (token :: next :: tokens) = dropWhile kind (next :: tokens) := by
  rw [dropWhile, if_pos found]

variable {levels : Nat} {fields : List (String × Expression)}

-- Entries with commas between them, up to the closing brace.
theorem entries_reads (pairs : List (String × Expression)) (closes : closing.symbol = .mark "\x7d")
    (each : ∀ field ∈ fields, StartsWell False (field.2.symbols numeral) ∧
      Enters limit levels (field.2.symbols numeral) field.2.depth field.2)
    {tokens start : List Token} (skips : dropWhile isListSeparator start = tokens ++ closing :: next :: more)
    (written : tokens.map Token.symbol = Symbol.list (symbols.pairs numeral fields)) :
    Meets limit (depth.pairs fields ≤ levels) (loop (entriesTurn (nested limit levels .expression)) pairs start)
      ⟨.ok (pairs ++ fields), next :: more, []⟩ := by
  have shorter : (tokens ++ closing :: next :: more).length ≤ start.length :=
    skips ▸ (Shrinks.dropWhile_suffix isListSeparator start).length_le
  induction fields generalizing tokens start pairs with
  | nil =>
      have none : tokens = [] := List.map_eq_nil_iff.mp written
      subst none
      refine .of_eq ?_ (Nat.zero_le levels)
      rw [List.append_nil]
      exact entries_end skips closes
  | cons field fields ih =>
      obtain ⟨⟨starts, reads⟩, others⟩ := List.forall_mem_cons.mp each
      cases fields with
      | nil =>
          rw [symbols.pairs, symbols.pairs, Symbol.list, List.intercalate_singleton] at written
          obtain ⟨word, behind, rfl, isKey, ofValue⟩ := List.map_eq_cons_iff.mp written
          obtain ⟨colon, value, rfl, isColon, ofValue⟩ := List.map_eq_cons_iff.mp ofValue
          have read := reads value closing (next :: more) ofValue (.mark closes (by decide))
          obtain ⟨first, rest, rfl, begins⟩ := starts.tokens ofValue
          have turn := entries_entry pairs skips isKey isColon rfl begins.opens read (.inr (is_mark closes))
          have fewer := Nat.lt_of_lt_of_le (length_lt_append (List.cons_ne_nil word _) _) shorter
          refine (Meets.again turn fewer (.of_eq (entries_end ?_ closes) trivial)).imp ?_
          · exact dropWhile_other (isListSeparator_symbol closes)
          · simp [depth.pairs]
      | cons second fields =>
          obtain ⟨front, comma, behind, rfl, ofEntry, isComma, ofRest⟩ := tokens_of_list written
          obtain ⟨word, value, rfl, isKey, ofValue⟩ := List.map_eq_cons_iff.mp ofEntry
          obtain ⟨colon, value, rfl, isColon, ofValue⟩ := List.map_eq_cons_iff.mp ofValue
          have read := reads value comma (behind ++ closing :: next :: more) ofValue (.mark isComma (by decide))
          obtain ⟨first, rest, rfl, begins⟩ := starts.tokens ofValue
          rw [List.append_assoc] at skips shorter
          have turn := entries_entry pairs skips isKey isColon rfl begins.opens read (.inl (is_mark isComma))
          have skips' : dropWhile isListSeparator (comma :: (behind ++ closing :: next :: more)) =
              behind ++ closing :: next :: more := by
            obtain ⟨symbols, same⟩ := list_cons ⟨.string, second.1⟩ (.mark ":" :: symbols numeral second.2)
              (symbols.pairs numeral fields)
            obtain ⟨word', rest', rfl, isKey', -⟩ := List.map_eq_cons_iff.mp (ofRest.trans same)
            rw [List.cons_append, dropWhile_first (isListSeparator_symbol isComma)]
            exact dropWhile_other (isListSeparator_symbol isKey')
          have others' : Meets limit (depth.pairs (second :: fields) ≤ levels)
              (loop (entriesTurn (nested limit levels .expression)) (pairs ++ [(field.1, field.2)])
                (comma :: (behind ++ closing :: next :: more)))
              ⟨.ok (pairs ++ [(field.1, field.2)] ++ second :: fields), next :: more, []⟩ :=
            ih _ others skips' ofRest (Nat.le_succ _)
          rw [List.append_assoc, List.singleton_append] at others'
          have fewer := Nat.lt_of_lt_of_le (length_lt_append (List.cons_ne_nil word _) _) shorter
          refine (Meets.again turn fewer others').imp ?_
          rw [depth.pairs, Nat.max_le]

end Entries

/-! Parentheses, around an expression or around the parameters of a lambda. -/

theorem primary_mark (opening : token.symbol = .mark "(") :
    primary expression (token :: tokens) = parenthesized expression (token :: tokens) := by
  cases token
  cases opening
  rfl

theorem parameterNames?_word (isWord : token.kind = .identifier) : parameterNames? (token :: next :: more) =
    if next.is .punctuation "," then (parameterNames? more).map fun read => (token.value :: read.1, read.2)
    else if next.is .punctuation ")" then some ([token.value], more) else none := by
  have other : token.is .punctuation ")" = false := by rw [Token.is, isWord]; rfl
  have kind : (token.kind == .identifier) = true := beq_iff_eq.mpr isWord
  rw [parameterNames?.eq_def]
  dsimp only
  rw [if_neg (Bool.eq_false_iff.mp other), if_pos kind]

theorem parameterNames?_other (notClosing : token.is .punctuation ")" = false) (notWord : token.kind ≠ .identifier) :
    parameterNames? (token :: tokens) = none := by
  rw [parameterNames?.eq_def]
  dsimp only
  rw [if_neg (Bool.eq_false_iff.mp notClosing), if_neg (mt beq_iff_eq.mp notWord)]

-- Free words between commas, up to the closing parenthesis.
theorem parameterNames?_list (closes : closing.symbol = .mark ")") {names : List String}
    (written : tokens.map Token.symbol = Symbol.list (names.map fun name => [⟨.identifier, name⟩])) :
    parameterNames? (tokens ++ closing :: more) = some (names, more) := by
  induction names generalizing tokens with
  | nil =>
      have none : tokens = [] := List.map_eq_nil_iff.mp written
      subst none
      exact parameterNames?_closing (is_mark closes) more
  | cons name names ih =>
      cases names with
      | nil =>
          rw [List.map_singleton, Symbol.list, List.intercalate_singleton] at written
          obtain ⟨word, rfl, isWord⟩ := List.map_eq_singleton_iff.mp written
          rw [List.singleton_append, parameterNames?_word (congrArg Symbol.kind isWord)]
          rw [if_neg (by simp [is_symbol closes, Symbol.mark]), if_pos (is_mark closes)]
          rw [show word.value = name from congrArg Symbol.value isWord]
      | cons second names =>
          obtain ⟨front, comma, behind, rfl, ofWord, isComma, ofRest⟩ := tokens_of_list written
          obtain ⟨word, rfl, isWord⟩ := List.map_eq_singleton_iff.mp ofWord
          have kind : word.kind = .identifier := congrArg Symbol.kind isWord
          rw [List.append_assoc, List.singleton_append, List.cons_append, parameterNames?_word kind]
          rw [if_pos (is_mark isComma), ih ofRest, Option.map_some]
          rw [show word.value = name from congrArg Symbol.value isWord]

theorem lambdaHead?_opening (isOpening : opening.symbol = .mark "(") (tokens : List Token) :
    lambdaHead? (opening :: tokens) = (parameterNames? tokens).bind fun read =>
      if (head read.2).is .operator "=>" then some (read.1, read.2.drop 1) else none := by
  rw [lambdaHead?.eq_def]
  dsimp only
  rw [if_pos (is_mark isOpening)]
  cases parameterNames? tokens with
  | none => rfl
  | some read =>
      obtain ⟨names, behind⟩ := read
      cases behind <;> rfl

-- An expression in parentheses is no list of parameters.
theorem lambdaHead?_none {first : Token} (isOpening : opening.symbol = .mark "(")
    (begins : Begins False first.symbol (tokens.map Token.symbol)) (closes : closing.symbol = .mark ")")
    (arrow : next.is .operator "=>" = false) :
    lambdaHead? (opening :: first :: (tokens ++ closing :: next :: more)) = none := by
  rw [lambdaHead?_opening isOpening]
  by_cases word : first.kind = .identifier
  · cases tokens with
    | nil =>
        rw [List.nil_append, parameterNames?_word word, if_neg (by simp [is_symbol closes, Symbol.mark])]
        rw [if_pos (is_mark closes), Option.bind_some]
        exact if_neg (Bool.eq_false_iff.mp arrow)
    | cons second behind =>
        obtain ⟨comma, close⟩ := begins.noList word _ _ rfl
        rw [List.cons_append, parameterNames?_word word, if_neg (Bool.eq_false_iff.mp (is_other comma))]
        rw [if_neg (Bool.eq_false_iff.mp (is_other close)), Option.bind_none]
  · rw [parameterNames?_other (is_of_opens rfl begins.opens (by decide)) word, Option.bind_none]

variable {levels deep : Nat} {inner : List Symbol}

theorem primary_parentheses (isOpening : opening.symbol = .mark "(") (isClosing : closing.symbol = .mark ")")
    (written : tokens.map Token.symbol = inner) (starts : StartsWell False inner)
    (read : Enters limit levels inner deep e) (arrow : next.is .operator "=>" = false) :
    Meets limit (deep + 1 ≤ levels)
      (primary (nested limit levels .expression) (opening :: (tokens ++ closing :: next :: more)))
      ⟨.ok e, next :: more, []⟩ := by
  have inside := read tokens closing (next :: more) written (.mark isClosing (by decide))
  obtain ⟨first, rest, rfl, begins⟩ := starts.tokens written
  have noList : lambdaParameters? (opening :: first :: (rest ++ closing :: next :: more)) =
      ⟨.ok none, opening :: first :: (rest ++ closing :: next :: more), []⟩ := by
    unfold lambdaParameters?
    rw [lambdaHead?_none isOpening begins isClosing arrow]
  rw [primary_mark isOpening]
  refine .after noList (.after (run_expect (is_mark isOpening)) ?_)
  refine .after (run_skipWhile (isNewline_of_opens rfl begins.opens)) (.before inside ?_)
  refine (run_bind (run_skipWhile (isNewline_mark isClosing))).trans ?_
  exact (run_bind (run_expect (is_mark isClosing))).trans rfl

-- The parameters of a lambda and its arrow, and then its body.
theorem primary_lambda {params : List String} {arrow : Token} {front : List Token} {first : Token} {symbol : Symbol}
    (written : front.map Token.symbol = parameterSymbols params) (isArrow : arrow.symbol = .sign "=>")
    (same : first.symbol = symbol) (opens : symbol.Opens)
    (read : Meets limit fits (expression (first :: tokens)) ⟨.ok e, next :: more, []⟩) :
    Meets limit fits (primary expression (front ++ arrow :: first :: tokens))
      ⟨.ok (.lambda params e), next :: more, []⟩ := by
  have body : Meets limit fits (lambda expression params (first :: tokens))
      ⟨.ok (.lambda params e), next :: more, []⟩ :=
    .after (run_skipWhile (isNewline_of_opens same opens)) (.before read rfl)
  unfold parameterSymbols at written
  split at written
  · obtain ⟨word, rfl, isWord⟩ := List.map_eq_singleton_iff.mp written
    obtain ⟨kind, value, position⟩ := word
    cases isWord
    refine .after run_current (.after run_advance (.after (run_accept (is_symbol isArrow _ _)) ?_))
    exact body
  · obtain ⟨opening, names, closing, isOpening, ofNames, isClosing, whole⟩ := tokens_between written
    have list : lambdaParameters? (opening :: (names ++ closing :: arrow :: first :: tokens)) =
        ⟨.ok (some params), first :: tokens, []⟩ := by
      have found : lambdaHead? (opening :: (names ++ closing :: arrow :: first :: tokens)) =
          some (params, first :: tokens) := by
        rw [lambdaHead?_opening isOpening, parameterNames?_list isClosing ofNames, Option.bind_some]
        exact if_pos (is_symbol isArrow _ _)
      unfold lambdaParameters?
      rw [found]
    rw [whole, primary_mark isOpening]
    exact .after list body

/-! Arrays, objects and calls. -/

variable {elements : List Expression}

theorem primary_array (isOpening : opening.symbol = .mark "[") (isClosing : closing.symbol = .mark "]")
    (each : ∀ element ∈ elements, StartsWell False (element.symbols numeral) ∧
      Enters limit levels (element.symbols numeral) element.depth element)
    (written : tokens.map Token.symbol = Symbol.list (elements.map (Expression.symbols numeral))) :
    Meets limit (depth.items elements ≤ levels)
      (primary (nested limit levels .expression) (opening :: (tokens ++ closing :: next :: more)))
      ⟨.ok (.array elements), next :: more, []⟩ := by
  obtain ⟨kind, value, position⟩ := opening
  cases isOpening
  have read := sequence_reads [] next more (by decide) isClosing each written
  obtain ⟨first, rest, same⟩ := exists_cons_of_append tokens closing (next :: more)
  rw [same] at read ⊢
  exact .after run_current (.after run_advance (.before read rfl))

theorem primary_object {fields : List (String × Expression)} (isOpening : opening.symbol = .mark "\x7b")
    (isClosing : closing.symbol = .mark "\x7d")
    (each : ∀ field ∈ fields, StartsWell False (field.2.symbols numeral) ∧
      Enters limit levels (field.2.symbols numeral) field.2.depth field.2)
    (written : tokens.map Token.symbol = Symbol.list (symbols.pairs numeral fields)) :
    Meets limit (depth.pairs fields ≤ levels)
      (primary (nested limit levels .expression) (opening :: (tokens ++ closing :: next :: more)))
      ⟨.ok (.object fields), next :: more, []⟩ := by
  have skips : dropWhile isListSeparator (tokens ++ closing :: next :: more) = tokens ++ closing :: next :: more := by
    cases fields with
    | nil =>
        have none : tokens = [] := List.map_eq_nil_iff.mp written
        subst none
        exact dropWhile_other (isListSeparator_symbol isClosing)
    | cons field fields =>
        obtain ⟨behind, same⟩ := list_cons ⟨.string, field.1⟩ (.mark ":" :: symbols numeral field.2)
          (symbols.pairs numeral fields)
        obtain ⟨word, rest, rfl, isKey, -⟩ := List.map_eq_cons_iff.mp (written.trans same)
        exact dropWhile_other (isListSeparator_symbol isKey)
  obtain ⟨kind, value, position⟩ := opening
  cases isOpening
  have read := entries_reads [] isClosing each skips written
  obtain ⟨first, rest, same⟩ := exists_cons_of_append tokens closing (next :: more)
  rw [same] at read ⊢
  refine .after run_current (.before ?_ rfl)
  rw [entries_eq]
  exact .after (run_expect rfl) read

theorem access_call {target : Expression} {goal : Parsed Expression} (isOpening : opening.symbol = .mark "(")
    (isClosing : closing.symbol = .mark ")")
    (each : ∀ element ∈ elements, StartsWell False (element.symbols numeral) ∧
      Enters limit levels (element.symbols numeral) element.depth element)
    (written : tokens.map Token.symbol = Symbol.list (elements.map (Expression.symbols numeral)))
    (behind : Meets limit fits
      (loop (accessTurn (nested limit levels .expression)) (.call target elements) (next :: more)) goal) :
    Meets limit (depth.items elements ≤ levels ∧ fits)
      (loop (accessTurn (nested limit levels .expression)) target (opening :: (tokens ++ closing :: next :: more)))
      goal := by
  have read := sequence_reads [] next more (by decide) isClosing each written
  have fewer := length_lt_append (List.cons_ne_nil opening tokens) (closing :: next :: more)
  refine Meets.again ?_ (Nat.lt_of_succ_lt fewer) behind
  obtain ⟨first, rest, same⟩ := exists_cons_of_append tokens closing (next :: more)
  rw [same] at read ⊢
  refine .after (run_accept_other (is_symbol isOpening _ _)) (.after (run_accept (is_mark isOpening)) ?_)
  exact .before read rfl

-- An index that is known is a member, and every other one stays an index.

theorem indexed_known (target : Expression) {key : Expression} (known : key.IsKnownIndex) :
    ∃ property, indexed target key = .member target property := by
  unfold IsKnownIndex at known
  split at known
  · exact ⟨_, rfl⟩
  · next n =>
    obtain ⟨k, whole⟩ := known
    have key : indexKey? n = some (toString (min k Decimal.maxNatural)) := by
      unfold indexKey?
      rw [whole]
    unfold indexed
    dsimp only
    rw [key]
    exact ⟨_, rfl⟩
  · exact known.elim

theorem indexed_unknown {target key : Expression} (unknown : ¬ key.IsKnownIndex) :
    indexed target key = .index target key := by
  unfold indexed
  split
  · exact absurd trivial unknown
  · next n =>
    have none : indexKey? n = none := by
      unfold indexKey?
      split
      · next k whole => exact absurd ⟨k, whole⟩ unknown
      · rfl
    rw [none]
  · rfl

end Charter.Source.Grammar
