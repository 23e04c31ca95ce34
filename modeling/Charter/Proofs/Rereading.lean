import Charter.Proofs.Partition
import Charter.Proofs.Spelling
import Charter.Rendering

/-!
Tokens that are written down again. Whatever text they came from, with one blank between each two of them they are read
as they were: no token runs into the next one, and strings come back from between their quotes.
-/

namespace Charter

namespace Symbol

theorem escape_eq (chars : List Char) :
    escape chars = chars.flatMap fun c => if c == '\\' || c == '\x22' then ['\\', c] else [c] := by
  induction chars with
  | nil => rfl
  | cons c rest ih =>
      rw [escape, List.flatMap_cons, ← ih]
      by_cases quote : c = '\x22' <;> by_cases slash : c = '\\' <;> simp [quote, slash]

-- A string is written as the literal that it is the value of.
theorem text_string (value : String) :
    text ⟨.string, value⟩ = (Ir.Expression.render (.literal (.string value))).toList := by
  rw [Ir.Expression.render, Ir.Constant.render, Ir.quotedText, String.toList_ofList, ← escape_eq]
  rfl

end Symbol

-- Every token that is read has a text of its own, also where its string had no end.
theorem Lexeme.isWritten {text : List Char} {kind : TokenKind} {value : String} {anomaly : Option Anomaly}
    (lexeme : Lexeme text kind value anomaly) : Symbol.IsWritten ⟨kind, value⟩ := by
  have same (text : List Char) : text = (String.ofList text).toList := String.toList_ofList.symm
  cases lexeme with
  | newline => exact .newline
  | string | openString | template | openTemplate => exact Symbol.isWritten_string _
  | numeral form => exact Symbol.isWritten_number (same text ▸ form)
  | keyword form reserved => exact Symbol.isWritten_keyword (same text ▸ form) reserved
  | identifier form free => exact Symbol.isWritten_identifier (same text ▸ form) free
  | punctuation listed => exact Symbol.isWritten_mark (String.toList_singleton _) listed
  | operator listed => exact Symbol.isWritten_sign (String.toList_singleton _) listed
  | operatorPair listed => exact Symbol.isWritten_pair String.toList_ofList listed

namespace Token

-- A token as it is written down: a string as a literal, anything else as it is.
def written (t : Token) : String :=
  match t.kind with
  | .string => Ir.Expression.render (.literal (.string t.value))
  | _ => t.value

theorem toList_written (t : Token) : t.written.toList = t.symbol.text := by
  obtain ⟨kind, value, position⟩ := t
  cases kind with
  | string => exact (Symbol.text_string value).symm
  | keyword | identifier | number | operator | punctuation | newline | endOfInput => rfl

-- Tokens as a text, with blanks between them and nothing for the end.
def line (tokens : List Token) : String :=
  String.intercalate " " ((tokens.filter (·.kind != .endOfInput)).map written)

end Token

namespace Lexed

-- What is read from the tokens when they are written down.
def again (lexed : Lexed) : Lexed := ofSource (Token.line lexed.tokens)

-- The tokens of a text are tokens with texts of their own, and the end token behind them.
theorem tokens_written (source : String) : ∃ tokens last, (ofSource source).tokens = tokens ++ [.endAt last] ∧
    ∀ token ∈ tokens, token.kind ≠ .endOfInput ∧ token.symbol.IsWritten := by
  obtain ⟨pieces, _, fitting, read⟩ := ofCharacters_pieces [] source.toList
  refine ⟨_, _, congrArg Lexed.tokens read, fun token member => ?_⟩
  obtain ⟨piece, present, told⟩ := List.mem_filterMap.mp member
  obtain ⟨⟨kind, value⟩, is, rfl⟩ := Option.map_eq_some_iff.mp told
  have form := (fitting piece present).form
  rw [is] at form
  exact ⟨form.ne_endOfInput, form.isWritten⟩

-- Symbols that have texts are read from these texts, with an end token behind them.
theorem ofSource_texts {symbols : List Symbol} (each : ∀ symbol ∈ symbols, symbol.IsWritten) {text : String}
    (written : text.toList = [' '].intercalate (symbols.map Symbol.text)) :
    (ofSource text).tokens.map Token.symbol = symbols ++ [⟨.endOfInput, ""⟩] ∧ (ofSource text).anomalies = [] := by
  obtain ⟨tokens, last, same, read⟩ := Symbol.ofCharacters_texts each .start
  rw [ofSource, written, read, List.map_append, same]
  exact ⟨rfl, rfl⟩

end Lexed

-- The tokens of any text, written down with blanks between them, are read again as tokens of the same kinds and values,
-- with the end behind them and without an anomaly, whatever was wrong with the text. Every string is read from the
-- literal that stands for it.
theorem tokens_read_again (source : String) :
    (Lexed.ofSource source).again.tokens.map Token.symbol = (Lexed.ofSource source).tokens.map Token.symbol ∧
    (Lexed.ofSource source).again.anomalies = [] ∧
    ∀ text : String, (Lexed.ofSource (Ir.Expression.render (.literal (.string text)))).tokens.map Token.symbol =
      [⟨.string, text⟩, ⟨.endOfInput, ""⟩] := by
  obtain ⟨read, last, split, each⟩ := Lexed.tokens_written source
  have kept : (Lexed.ofSource source).tokens.filter (·.kind != .endOfInput) = read := by
    rw [split, List.filter_append, List.filter_eq_self.mpr fun token member => bne_iff_ne.mpr (each token member).1]
    exact List.append_nil read
  have written : (Token.line (Lexed.ofSource source).tokens).toList =
      [' '].intercalate ((read.map Token.symbol).map Symbol.text) := by
    rw [Token.line, kept, String.toList_intercalate, List.map_map, List.map_map]
    congr 1
    exact List.map_congr_left fun token _ => token.toList_written
  obtain ⟨symbols, silent⟩ :=
    Lexed.ofSource_texts (List.forall_mem_map.mpr fun token member => (each token member).2) written
  refine ⟨?_, silent, fun text => ?_⟩
  · rw [split, List.map_append]
    exact symbols
  · refine (Lexed.ofSource_texts (List.forall_mem_singleton.mpr (Symbol.isWritten_string text)) ?_).1
    rw [List.map_singleton, List.intercalate_singleton, Symbol.text_string]

end Charter
