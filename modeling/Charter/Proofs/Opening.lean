import Charter.Proofs.Printing

/-!
How the tokens of an expression begin: never with a mark that closes or separates, nor with what could be a list
of parameters.
-/

namespace Charter

-- Neither a newline nor a mark other than an opening one.
structure Symbol.Opens (symbol : Symbol) : Prop where
  notNewline : symbol.kind ≠ .newline
  mark : symbol.kind = .punctuation → symbol.value = "(" ∨ symbol.value = "[" ∨ symbol.value = "\x7b"

namespace Source

-- The first token, and the second one behind a name: it goes on with no list of parameters. What is tight does
-- not begin with a unary operator.
structure Begins (tight : Prop) (first : Symbol) (rest : List Symbol) : Prop where
  opens : Symbol.Opens first
  noUnary : tight → ∀ operator, first ≠ .unary operator
  noList : first.kind = .identifier → ∀ second behind, rest = second :: behind → second ≠ .mark "," ∧ second ≠ .mark ")"

def StartsWell (tight : Prop) (symbols : List Symbol) : Prop :=
  ∃ first rest, symbols = first :: rest ∧ Begins tight first rest

open Expression
variable {tight tight' : Prop} {numeral : Float → String} {number : Float → Prop} {e : Expression}

theorem StartsWell.imp {symbols : List Symbol} (starts : StartsWell tight symbols) (tighter : tight' → tight) :
    StartsWell tight' symbols := by
  obtain ⟨first, rest, same, begins⟩ := starts
  exact ⟨first, rest, same, begins.opens, fun is => begins.noUnary (tighter is), begins.noList⟩

theorem StartsWell.loosen {symbols : List Symbol} (starts : StartsWell tight symbols) : StartsWell False symbols :=
  starts.imp False.elim

-- The tokens that are written so.
theorem StartsWell.tokens {tokens : List Token} {symbols : List Symbol} (starts : StartsWell tight symbols)
    (written : tokens.map Token.symbol = symbols) :
    ∃ first rest, tokens = first :: rest ∧ Begins tight first.symbol (rest.map Token.symbol) := by
  obtain ⟨symbol, behind, rfl, begins⟩ := starts
  obtain ⟨first, rest, rfl, rfl, rfl⟩ := List.map_eq_cons_iff.mp written
  exact ⟨first, rest, rfl, begins⟩

theorem StartsWell.append {symbols behind : List Symbol} {symbol : Symbol} (starts : StartsWell tight symbols)
    (tighter : tight' → tight) (other : symbol ≠ .mark "," ∧ symbol ≠ .mark ")") :
    StartsWell tight' (symbols ++ symbol :: behind) := by
  obtain ⟨first, rest, rfl, begins⟩ := starts
  refine ⟨first, rest ++ symbol :: behind, rfl, begins.opens, fun is => begins.noUnary (tighter is), ?_⟩
  intro name second others same
  cases rest with
  | nil =>
      cases same
      exact other
  | cons next rest =>
      cases same
      exact begins.noList name _ _ rfl

theorem StartsWell.opening {symbols : List Symbol} {value : String} (mark : value = "(" ∨ value = "[" ∨ value = "\x7b") :
    StartsWell tight (.mark value :: symbols) := by
  refine ⟨.mark value, symbols, rfl, ⟨by simp [Symbol.mark], fun _ => mark⟩, fun _ operator same => ?_, fun name => ?_⟩
  · have kinds : TokenKind.punctuation = operator.tokenKind := congrArg Symbol.kind same
    cases operator <;> cases kinds
  · cases name

theorem StartsWell.enclosed {symbols : List Symbol} {row : Nat} (starts : StartsWell (8 ≤ e.tightness) symbols) :
    StartsWell (8 ≤ row) (Expression.enclosed row e symbols) := by
  unfold Expression.enclosed
  split
  · exact .opening (.inl rfl)
  · next tight => exact starts.imp fun bound => Nat.le_trans bound (Nat.le_of_not_lt tight)

theorem StartsWell.single {symbol : Symbol} (opens : symbol.Opens) (noUnary : ∀ operator, symbol ≠ .unary operator) :
    StartsWell tight [symbol] :=
  ⟨symbol, [], rfl, opens, fun _ => noUnary, fun _ _ _ same => by cases same⟩

theorem opens_of_kind {symbol : Symbol} (kind : TokenKind) (same : symbol.kind = kind) (newline : kind ≠ .newline)
    (punctuation : kind ≠ .punctuation) : symbol.Opens :=
  ⟨fun line => newline (same.symm.trans line), fun mark => absurd (same.symm.trans mark) punctuation⟩

theorem StartsWell.string (text : String) : StartsWell tight [⟨.string, text⟩] := by
  refine .single (opens_of_kind .string rfl (by decide) (by decide)) fun operator same => ?_
  cases operator <;> cases same

theorem StartsWell.word {name : String} (other : name ≠ "not") : StartsWell tight [.word name] := by
  refine .single ?_ fun operator same => ?_
  · unfold Symbol.word
    split
    · exact opens_of_kind .keyword rfl (by decide) (by decide)
    · exact opens_of_kind .identifier rfl (by decide) (by decide)
  · have value : name = operator.spelling := congrArg Symbol.value same
    have kind : (Symbol.word name).kind = operator.tokenKind := congrArg Symbol.kind same
    subst value
    cases operator with
    | notWord => exact other rfl
    | not | negate => cases kind

theorem StartsWell.parameters (params : List String) : StartsWell tight (parameterSymbols params) := by
  unfold parameterSymbols
  split
  · exact .single (opens_of_kind .identifier rfl (by decide) (by decide)) fun operator same => by
      cases operator <;> cases same
  · exact .opening (.inl rfl)

theorem Expression.Regular.startsWell (regular : Regular number e) (numeral : Float → String) :
    StartsWell (8 ≤ e.tightness) (e.symbols numeral) := by
  induction regular with
  | @literal value _ =>
      cases value with
      | string text => exact .string text
      | number n =>
          refine .single (opens_of_kind .number rfl (by decide) (by decide)) fun operator same => ?_
          cases operator <;> cases same
      | boolean value => exact .word (by cases value <;> decide)
      | null => exact .word (by decide)
  | identifier lexes =>
      refine .word ?_
      rintro rfl
      rcases lexes with ⟨_, free⟩ | bound
      · exact free (by decide)
      · exact absurd bound (by decide)
  | member property _ ih =>
      unfold symbols memberSymbols
      split
      · exact ih.enclosed.append id (by decide)
      · exact ih.enclosed.append id (by decide)
  | index _ _ _ ih _ =>
      unfold symbols
      rw [List.append_assoc]
      exact ih.enclosed.append id (by decide)
  | binary operator _ _ ih _ => exact ih.enclosed.append id (by cases operator <;> decide)
  | unary operator _ _ =>
      refine ⟨_, _, rfl, ?_, fun tight => absurd tight (show ¬ 8 ≤ 7 by decide), fun name => ?_⟩
      · exact opens_of_kind operator.tokenKind rfl (by cases operator <;> decide) (by cases operator <;> decide)
      · cases operator <;> cases name
  | call _ _ ih _ =>
      unfold symbols
      rw [List.append_assoc]
      exact ih.enclosed.append id (by decide)
  | conditional _ _ _ ih _ _ =>
      unfold symbols
      rw [List.append_assoc]
      exact ih.enclosed.append (fun tight => absurd tight (show ¬ 8 ≤ 0 by decide)) (by decide)
  | array _ _ => exact .opening (.inr (.inl rfl))
  | object _ _ => exact .opening (.inr (.inr rfl))
  | @lambda params body _ _ _ =>
      exact (StartsWell.parameters params).append id (by decide)

end Source
end Charter
