import Charter.Proofs.LexemeReading

/-!
The text of an expression is read as the tokens that it was written from.
-/

namespace Charter
open Text

-- A symbol whose text is that of one token.
def Symbol.IsWritten (symbol : Symbol) : Prop := Lexeme symbol.text symbol.kind symbol.value none

namespace Symbol

theorem isQuoted_escape (chars : List Char) : IsQuoted '\x22' (escape chars) := by
  induction chars with
  | nil => exact .nil
  | cons c rest ih =>
      unfold escape
      split
      · exact .escape c ih
      · next other =>
        obtain ⟨quote, slash⟩ := not_or.mp other
        exact .plain quote slash ih

theorem unescape_escaped (chars : List Char) : Scan.unescape (escape chars) = chars := by
  induction chars with
  | nil => rfl
  | cons c rest ih =>
      unfold escape
      split
      · next special =>
        rcases special with rfl | rfl <;> simp [Scan.unescape, ih]
      · next other =>
        obtain ⟨_, slash⟩ := not_or.mp other
        rw [Scan.unescape, ih]
        · intro same _
          exact slash same
        · intro _ _ same _
          exact slash same

theorem isWritten_string (value : String) : IsWritten ⟨.string, value⟩ := by
  have form : Lexeme (text ⟨.string, value⟩) _ _ none := Lexeme.string (.inl rfl) (isQuoted_escape value.toList)
  rwa [unescape_escaped, String.ofList_toList] at form

theorem isPlainWord_iff {name : String} : Source.isPlainWord name = true ↔ IsWord name.toList := by
  unfold Source.isPlainWord IsWord
  cases name.toList with
  | nil => simp
  | cons first rest => simp

-- Where the value of a token is its text, it is read from its value.
theorem isWritten_of {kind : TokenKind} {value : String} (other : kind ≠ .string)
    (lexeme : Lexeme value.toList kind (String.ofList value.toList) none) : IsWritten ⟨kind, value⟩ := by
  have own : text ⟨kind, value⟩ = value.toList := by
    cases kind with
    | string => exact absurd rfl other
    | keyword | identifier | number | operator | punctuation | newline | endOfInput => rfl
  rw [String.ofList_toList, ← own] at lexeme
  exact lexeme

theorem isWritten_identifier {name : String} (form : IsWord name.toList) (free : name ∉ keywords) :
    IsWritten ⟨.identifier, name⟩ := isWritten_of nofun (.identifier form (by rwa [String.ofList_toList]))

theorem isWritten_keyword {name : String} (form : IsWord name.toList) (reserved : name ∈ keywords) :
    IsWritten ⟨.keyword, name⟩ := isWritten_of nofun (.keyword form (by rwa [String.ofList_toList]))

theorem isWritten_number {value : String} (form : IsNumeral value.toList) : IsWritten ⟨.number, value⟩ :=
  isWritten_of nofun (.numeral form)

theorem isWritten_word {name : String} (form : IsWord name.toList) : (word name).IsWritten := by
  unfold word
  split
  · next reserved => exact isWritten_keyword form (List.contains_iff_mem.mp reserved)
  · next free => exact isWritten_identifier form fun listed => free (List.contains_iff_mem.mpr listed)

theorem isWritten_mark {value : String} {c : Char} (chars : value.toList = [c]) (listed : c ∈ punctuationCharacters) :
    (mark value).IsWritten := by
  refine isWritten_of nofun ?_
  rw [chars]
  exact .punctuation listed

theorem isWritten_sign {value : String} {c : Char} (chars : value.toList = [c]) (listed : c ∈ operatorCharacters) :
    (sign value).IsWritten := by
  refine isWritten_of nofun ?_
  rw [chars]
  exact .operator listed

theorem isWritten_pair {value : String} {c d : Char} (chars : value.toList = [c, d]) (listed : (c, d) ∈ operatorPairs) :
    (sign value).IsWritten := by
  refine isWritten_of nofun ?_
  rw [chars]
  exact .operatorPair listed

theorem isWritten_binary (operator : BinaryOperator) : (binary operator).IsWritten := by
  cases operator
  case either | fallback | both | equal | notEqual | lessOrEqual | greaterOrEqual => exact isWritten_pair rfl (by decide)
  case eitherWord | bothWord | is | isIn | contains => exact isWritten_keyword (isPlainWord_iff.mp rfl) (by decide)
  all_goals exact isWritten_sign rfl (by decide)

theorem isWritten_unary (operator : UnaryOperator) : (unary operator).IsWritten := by
  cases operator with
  | not | negate => exact isWritten_sign rfl (by decide)
  | notWord => exact isWritten_keyword (isPlainWord_iff.mp rfl) (by decide)

-- Whether all of them are.
def AllWritten (symbols : List Symbol) : Prop := ∀ symbol ∈ symbols, symbol.IsWritten

theorem AllWritten.append {symbols others : List Symbol} (first : AllWritten symbols) (second : AllWritten others) :
    AllWritten (symbols ++ others) := List.forall_mem_append.mpr ⟨first, second⟩

theorem AllWritten.cons {symbol : Symbol} {others : List Symbol} (first : symbol.IsWritten)
    (second : AllWritten others) : AllWritten (symbol :: others) := List.forall_mem_cons.mpr ⟨first, second⟩

theorem AllWritten.single {symbol : Symbol} (written : symbol.IsWritten) : AllWritten [symbol] :=
  .cons written (List.forall_mem_nil _)

theorem AllWritten.list {items : List (List Symbol)} (each : ∀ item ∈ items, AllWritten item) :
    AllWritten (list items) := by
  unfold Symbol.list
  induction items with
  | nil => exact List.forall_mem_nil _
  | cons item items ih =>
      obtain ⟨first, others⟩ := List.forall_mem_cons.mp each
      cases items with
      | nil => exact List.intercalate_singleton ▸ first
      | cons next rest =>
          rw [List.intercalate_cons_cons]
          exact (first.append (.single (isWritten_mark rfl (by decide)))).append (ih others)

-- What stands between two brackets.
theorem AllWritten.between {opening closing : String} {c d : Char} {symbols : List Symbol} (inside : AllWritten symbols)
    (chars : opening.toList = [c] ∧ closing.toList = [d])
    (listed : c ∈ punctuationCharacters ∧ d ∈ punctuationCharacters) :
    AllWritten (mark opening :: symbols ++ [mark closing]) :=
  .append (.cons (isWritten_mark chars.1 listed.1) inside) (.single (isWritten_mark chars.2 listed.2))

end Symbol

namespace Source.Expression
open Charter.Symbol
variable {numeral : Float → String} {number : Float → Prop} {e : Expression}

theorem allWritten_enclosed {symbols : List Symbol} (each : AllWritten symbols) (row : Nat) :
    AllWritten (enclosed row e symbols) := by
  unfold enclosed
  split
  · exact .between each ⟨rfl, rfl⟩ (by decide)
  · exact each

theorem allWritten_member (property : String) : AllWritten (memberSymbols property) := by
  unfold memberSymbols
  split
  · next plain =>
    exact .cons (isWritten_sign rfl (by decide)) (.single (isWritten_word (isPlainWord_iff.mp plain)))
  · exact .between (.single (isWritten_string property)) ⟨rfl, rfl⟩ (by decide)

theorem allWritten_parameters {params : List String} (lexes : ∀ name ∈ params, IsWord name.toList ∧ name ∉ keywords) :
    AllWritten (parameterSymbols params) := by
  have each : ∀ name ∈ params, AllWritten [⟨.identifier, name⟩] := fun name member =>
    .single (isWritten_identifier (lexes name member).1 (lexes name member).2)
  unfold parameterSymbols
  split
  · exact each _ (List.mem_singleton.mpr rfl)
  · refine .between (.list fun item member => ?_) ⟨rfl, rfl⟩ (by decide)
    obtain ⟨name, listed, rfl⟩ := List.mem_map.mp member
    exact each name listed

theorem isWord_of_isName {name : String} (lexes : IsName name) : IsWord name.toList := by
  rcases lexes with ⟨form, _⟩ | bound
  · exact form
  · simp only [List.mem_cons, List.not_mem_nil, or_false] at bound
    rcases bound with rfl | rfl | rfl | rfl <;> exact isPlainWord_iff.mp rfl

theorem isWritten_literal {value : Literal} (reads : ∀ n, value = .number n → ReadsBack numeral n) :
    (value.symbol numeral).IsWritten := by
  cases value with
  | string value => exact isWritten_string value
  | number n => exact isWritten_number (reads n rfl).form
  | boolean value => cases value <;> exact isWritten_word (isPlainWord_iff.mp rfl)
  | null => exact isWritten_word (isPlainWord_iff.mp rfl)

theorem allWritten_items {elements : List Expression}
    (each : ∀ element ∈ elements, AllWritten (element.symbols numeral)) :
    AllWritten (Symbol.list (symbols.items numeral elements)) := by
  refine .list fun item member => ?_
  rw [symbols_items] at member
  obtain ⟨element, listed, rfl⟩ := List.mem_map.mp member
  exact each element listed

-- Every token of a regular expression has a text of its own.
theorem Regular.allWritten (regular : Regular number e) (reads : ∀ n, number n → ReadsBack numeral n) :
    AllWritten (e.symbols numeral) := by
  induction regular with
  | literal written => exact .single (isWritten_literal fun n same => reads n (written n same))
  | identifier lexes => exact .single (isWritten_word (isWord_of_isName lexes))
  | member property _ ih => exact .append (allWritten_enclosed ih 8) (allWritten_member property)
  | index _ _ _ ih ih' =>
      refine .append (.append (allWritten_enclosed ih 8) ?_) (.single (isWritten_mark rfl (by decide)))
      exact .cons (isWritten_mark rfl (by decide)) ih'
  | binary operator _ _ ih ih' =>
      exact .append (allWritten_enclosed ih _) (.cons (isWritten_binary operator) (allWritten_enclosed ih' _))
  | unary operator _ ih => exact .cons (isWritten_unary operator) (allWritten_enclosed ih 7)
  | call _ _ ih ih' =>
      refine .append (.append (allWritten_enclosed ih 8) ?_) (.single (isWritten_mark rfl (by decide)))
      exact .cons (isWritten_mark rfl (by decide)) (allWritten_items ih')
  | conditional _ _ _ ih ih' ih'' =>
      refine .append (.append (allWritten_enclosed ih 1) ?_) ?_
      · exact .cons (isWritten_sign rfl (by decide)) ih'
      · exact .cons (isWritten_mark rfl (by decide)) ih''
  | array _ ih => exact .between (allWritten_items ih) ⟨rfl, rfl⟩ (by decide)
  | object _ ih =>
      refine .between (.list fun item member => ?_) ⟨rfl, rfl⟩ (by decide)
      rw [symbols_pairs] at member
      obtain ⟨entry, listed, rfl⟩ := List.mem_map.mp member
      exact .cons (isWritten_string entry.1) (.cons (isWritten_mark rfl (by decide)) (ih entry listed))
  | lambda lexes _ ih => exact .append (allWritten_parameters lexes) (.cons (isWritten_pair rfl (by decide)) ih)

-- The text of a regular expression is read as its tokens, with nothing else to say about it.
theorem Regular.lexed (regular : Regular number e) (reads : ∀ n, number n → ReadsBack numeral n) :
    ∃ tokens last, tokens.map Token.symbol = e.symbols numeral ∧
      Lexed.ofSource (e.print numeral) = ⟨tokens ++ [.endAt last], []⟩ := by
  obtain ⟨tokens, last, same, read⟩ := Symbol.ofCharacters_texts (regular.allWritten reads) .start
  exact ⟨tokens, last, same, by rw [Lexed.ofSource, print, String.toList_ofList, read]⟩

end Source.Expression
end Charter
