import Charter.Proofs.Regularity
import Charter.Proofs.Spelling
import Charter.Value

/-!
The tokens of a regular expression are read as the expression, in every row of the table of precedence that is
not tighter than its own. So is its text, up to the limit of nesting, and nothing but regular expressions is read.
-/

namespace Charter.Source
open Charter.Source.Parser Charter.Source.Grammar Charter.Source.Expression

variable {limit deep tight : Nat} {text : List Symbol} {e : Expression} {numeral : Float → String}
  {number : Float → Prop}

-- With every number of levels, a production reads the tokens before one of a kind and nothing else.
def Yields (limit : Nat) (text : List Symbol) (deep : Nat) (e : Expression) (kind : Token → Prop)
    (production : Nat → Parser Expression) : Prop :=
  ∀ levels tokens next more, tokens.map Token.symbol = text → kind next →
    Meets limit (deep ≤ levels) (production levels (tokens ++ next :: more)) ⟨.ok e, next :: more, []⟩

-- A production reads the tokens and goes on from the next one as another does.
def Continues (limit : Nat) (text : List Symbol) (deep : Nat) (kind : Token → Prop)
    (production behind : Nat → Parser Expression) : Prop :=
  ∀ levels tokens next more fits goal, tokens.map Token.symbol = text → kind next →
    Meets limit fits (behind levels (next :: more)) goal →
    Meets limit (deep ≤ levels ∧ fits) (production levels (tokens ++ next :: more)) goal

-- Behind a name that is no parameter there is no arrow.
def NoArrow (next : Token) : Prop := next.is .operator "=>" = false

-- The productions of the rows.

def expressions (limit levels : Nat) : Parser Expression :=
  conditional (nested limit levels .expression) (nested limit levels .operand)

def operands (limit row levels : Nat) : Parser Expression := tier (nested limit levels .operand) (7 - row)

def primaries (limit levels : Nat) : Parser Expression := primary (nested limit levels .expression)

def accessed (limit levels : Nat) : Parser Expression := accesses (nested limit levels .expression)

def moreOperands (limit level : Nat) (e : Expression) (levels : Nat) : Parser Expression :=
  loop (chainTurn level (operands limit (level + 2) levels)) e

def moreAccesses (limit : Nat) (e : Expression) (levels : Nat) : Parser Expression :=
  loop (accessTurn (nested limit levels .expression)) e

-- Tokens are read as an expression of a row in each row up to it, and an operator of the row may go on from it.
structure Reads (limit : Nat) (text : List Symbol) (tight deep : Nat) (e : Expression) : Prop where
  whole : Yields limit text deep e (Behind 0) (expressions limit)
  row : ∀ row, 1 ≤ row → row ≤ 7 → row ≤ tight → Yields limit text deep e (Behind row) (operands limit row)
  chain : ∀ level, level ≤ 5 → level + 1 ≤ tight → Continues limit text deep (Behind (level + 2))
    (operands limit (level + 1)) (moreOperands limit level e)
  access : 8 ≤ tight → Continues limit text deep NoArrow (accessed limit) (moreAccesses limit e)

theorem Yields.climb {row row' : Nat} (own : Yields limit text deep e (Behind row) (operands limit row))
    (bound : row ≤ 7) (low : 1 ≤ row') (down : row' ≤ row) :
    Yields limit text deep e (Behind row') (operands limit row') := by
  intro levels tokens next more written behind
  have row7 : 7 - (7 - row') = row' := by omega
  exact Grammar.climb (by omega) (by omega) (row7.symm ▸ behind) (own levels tokens next more written (behind.mono down))

theorem Yields.whole {row : Nat} (own : Yields limit text deep e (Behind row) (operands limit row))
    (low : 1 ≤ row) (bound : row ≤ 7) : Yields limit text deep e (Behind 0) (expressions limit) := by
  intro levels tokens next more written behind
  have loosest := own.climb bound le_rfl low levels tokens next more written (behind.mono (Nat.zero_le 1))
  exact conditional_read behind loosest

theorem operands_chain {level : Nat} (bound : level ≤ 5) (levels : Nat) : operands limit (level + 1) levels =
    operands limit (level + 2) levels >>= fun first => moreOperands limit level first levels := by
  have looser : 7 - (level + 1) = (5 - level) + 1 := by omega
  have same : 5 - (5 - level) = level := by omega
  have tighter : 7 - (level + 2) = 5 - level := by omega
  unfold moreOperands operands
  rw [looser, tier, chain_eq, same, tighter]

theorem Yields.chain {level : Nat} (own : Yields limit text deep e (Behind (level + 2)) (operands limit (level + 2)))
    (bound : level ≤ 5) : Continues limit text deep (Behind (level + 2)) (operands limit (level + 1))
      (moreOperands limit level e) := by
  intro levels tokens next more fits goal written next' behind
  rw [operands_chain bound]
  exact (own levels tokens next more written next').bind behind

-- What begins with no unary operator is an operand as it stands.
theorem operands_accessed (starts : StartsWell True text) {tokens : List Token}
    (written : tokens.map Token.symbol = text) (levels : Nat) (more : List Token) :
    operands limit 7 levels (tokens ++ more) = accessed limit levels (tokens ++ more) := by
  obtain ⟨first, rest, rfl, begins⟩ := starts.tokens written
  have plain : UnaryOperator.ofToken? first = none := by
    cases known : UnaryOperator.ofToken? first with
    | none => rfl
    | some operator => exact absurd (symbol_of_unary_ofToken? known) (begins.noUnary trivial operator)
  exact operand_of_access plain

namespace Reads

-- Of the row of unary operators, or tighter.
theorem of_operand (own : Yields limit text deep e (Behind 7) (operands limit 7))
    (access : 8 ≤ tight → Continues limit text deep NoArrow (accessed limit) (moreAccesses limit e)) :
    Reads limit text tight deep e where
  whole := own.whole (by decide) le_rfl
  row := fun _ low high _ => own.climb le_rfl low high
  chain := fun level bound _ => (own.climb le_rfl (Nat.succ_pos _) (Nat.add_le_add_right bound 2)).chain bound
  access := access

-- Of a row of binary operators.
theorem of_chain {level : Nat} (bound : level ≤ 5) (own : Continues limit text deep (Behind (level + 2))
    (operands limit (level + 1)) (moreOperands limit level e)) : Reads limit text (level + 1) deep e := by
  have yields : Yields limit text deep e (Behind (level + 1)) (operands limit (level + 1)) := by
    intro levels tokens next more written behind
    have ended : moreOperands limit level e levels (next :: more) = ⟨.ok e, next :: more, []⟩ :=
      chain_end fun operator read same => by have := behind.looser operator read; omega
    exact (own levels tokens next more True _ written (behind.mono (Nat.le_succ _)) (.of_eq ended trivial)).imp
      (iff_of_eq (and_true _)).symm
  constructor
  case whole => exact yields.whole (Nat.succ_pos _) (by omega)
  case row => exact fun row low _ tighter => yields.climb (by omega) low tighter
  case chain =>
    intro level' bound' tighter
    rcases Nat.eq_or_lt_of_le (Nat.le_of_succ_le_succ tighter) with rfl | looser
    · exact own
    · exact (yields.climb (by omega) (Nat.succ_pos _) (by omega)).chain bound'
  case access => exact fun tighter => absurd tighter (by omega)

-- Of the loosest row.
theorem of_whole (own : Yields limit text deep e (Behind 0) (expressions limit)) : Reads limit text 0 deep e where
  whole := own
  row := fun _ low _ high => absurd (Nat.le_trans low high) (by decide)
  chain := fun _ _ high => absurd high (Nat.not_succ_le_zero _)
  access := fun high => absurd high (by decide)

theorem of_access (starts : StartsWell True text)
    (own : Continues limit text deep NoArrow (accessed limit) (moreAccesses limit e)) :
    Reads limit text tight deep e := by
  refine of_operand (fun levels tokens next more written behind => ?_) fun _ => own
  have read := own levels tokens next more True _ written behind.arrow (.of_eq (access_end behind) trivial)
  rw [operands_accessed starts written]
  exact read.imp (iff_of_eq (and_true _)).symm

theorem of_primary (starts : StartsWell True text)
    (own : Yields limit text deep e NoArrow (primaries limit)) :
    Reads limit text tight deep e := by
  refine of_access starts fun levels tokens next more fits goal written arrow behind => ?_
  unfold accessed
  rw [accesses_eq]
  exact (own levels tokens next more written arrow).bind behind

-- One level down.
theorem enters (reads : Reads limit text tight deep e) (levels : Nat) : Enters limit levels text deep e := by
  intro tokens next more written behind
  cases levels with
  | zero => exact .fail (Nat.not_succ_le_zero deep)
  | succ levels => exact (reads.whole levels tokens next more written behind).imp Nat.succ_le_succ_iff

theorem parentheses (reads : Reads limit text tight deep e) (starts : StartsWell False text) :
    Reads limit (.mark "(" :: text ++ [.mark ")"]) 9 (deep + 1) e := by
  refine of_primary (.opening (.inl rfl)) fun levels tokens next more written arrow => ?_
  obtain ⟨opening, inner, closing, isOpening, ofInner, isClosing, same⟩ := tokens_between written
  rw [same]
  exact primary_parentheses isOpening isClosing ofInner starts (reads.enters levels) arrow

-- Where the table asks for a row.
theorem enclosed (reads : Reads limit (e.symbols numeral) e.tightness e.depth e)
    (starts : StartsWell False (e.symbols numeral)) {row : Nat} (bound : row ≤ 9) :
    ∃ tight, row ≤ tight ∧ Reads limit (Expression.enclosed row e (e.symbols numeral)) tight (sunk row e e.depth) e := by
  unfold Expression.enclosed sunk
  split
  · exact ⟨9, bound, reads.parentheses starts⟩
  · next tighter => exact ⟨e.tightness, Nat.le_of_not_lt tighter, reads⟩

end Reads

/-! One form of expression after the other. -/

section Forms
variable {target left right : Expression} {row : Nat}

theorem reads_literal {value : Literal} (known : ∀ n, value = .number n → Decimal.parse? (numeral n) = some n)
    (starts : StartsWell True [value.symbol numeral]) :
    Reads limit [value.symbol numeral] tight 0 (.literal value) := by
  refine .of_primary starts fun levels tokens next more written arrow => ?_
  obtain ⟨token, rfl, same⟩ := List.map_eq_singleton_iff.mp written
  exact .of_eq (primary_literal same known) (Nat.zero_le levels)

theorem reads_name {name : String} (lexes : IsName name) (starts : StartsWell True [.word name]) :
    Reads limit [.word name] tight 0 (.identifier name) := by
  refine .of_primary starts fun levels tokens next more written arrow => ?_
  obtain ⟨token, rfl, same⟩ := List.map_eq_singleton_iff.mp written
  exact .of_eq (primary_name same lexes arrow) (Nat.zero_le levels)

-- Something between brackets behind a target.
theorem continues_index {key result : Expression} {inner : List Symbol} {below : Nat}
    (object : Continues limit text deep NoArrow (accessed limit) (moreAccesses limit target))
    (inside : Reads limit inner row below key) (starts : StartsWell False inner)
    (known : indexed target key = result) :
    Continues limit (text ++ .mark "[" :: inner ++ [.mark "]"]) (max deep (below + 1))
      NoArrow (accessed limit) (moreAccesses limit result) := by
  intro levels tokens next more fits goal written arrow behind
  obtain ⟨front, opening, inner', closing, ofTarget, isOpening, ofInner, isClosing, same⟩ := tokens_behind written
  have read := inside.enters levels inner' closing (next :: more) ofInner (.mark isClosing (by decide))
  obtain ⟨first, inner', rfl, begins⟩ := starts.tokens ofInner
  rw [← known] at behind
  have still : isNewline (head (first :: inner' ++ closing :: next :: more)) = false :=
    isNewline_of_opens rfl begins.opens
  have fewer := length_lt_append (List.cons_ne_nil first inner') (closing :: next :: more)
  have bracket := access_index isOpening isClosing still (List.cons_ne_nil _ _)
    (Nat.lt_of_succ_lt (Nat.lt_of_succ_lt fewer)) read behind
  rw [same]
  refine (object levels front opening _ _ goal ofTarget (is_symbol isOpening _ _) bracket).imp ?_
  rw [Nat.max_le, and_assoc]

theorem reads_member {property : String} (object : Reads limit text tight deep target) (high : 8 ≤ tight)
    (starts : StartsWell True text) : Reads limit (text ++ memberSymbols property) row
      (max deep (if isPlainWord property then 0 else 1)) (.member target property) := by
  unfold memberSymbols
  split
  · refine .of_access (starts.append id (by decide)) fun levels tokens next more fits goal written arrow behind => ?_
    obtain ⟨front, last, rfl, ofTarget, ofLast⟩ := List.map_eq_append_iff.mp written
    obtain ⟨point, rest, rfl, isPoint, ofWord⟩ := List.map_eq_cons_iff.mp ofLast
    obtain ⟨word, rfl, isWord⟩ := List.map_eq_singleton_iff.mp ofWord
    have word' : Meets limit fits (moreAccesses limit target levels (point :: word :: next :: more)) goal := by
      unfold moreAccesses
      rw [access_word isPoint isWord]
      exact behind
    rw [List.append_assoc, Nat.max_eq_left (Nat.zero_le deep)]
    exact object.access high levels front point (word :: next :: more) fits goal ofTarget (is_symbol isPoint _ _) word'
  · have inside : Reads limit [(Literal.string property).symbol fun _ => ""] 9 0 (.literal (.string property)) :=
      reads_literal (fun n same => by cases same) (.string property)
    have bracket := continues_index (object.access high) inside (.string property) rfl
    rw [List.append_assoc] at bracket
    exact .of_access (starts.append id (by decide)) bracket

theorem reads_call {arguments : List Expression} (called : Reads limit text tight deep target) (high : 8 ≤ tight)
    (starts : StartsWell True text)
    (each : ∀ argument ∈ arguments, StartsWell False (argument.symbols numeral) ∧
      Reads limit (argument.symbols numeral) argument.tightness argument.depth argument) :
    Reads limit (text ++ .mark "(" :: Symbol.list (symbols.items numeral arguments) ++ [.mark ")"]) row
      (max deep (depth.items arguments)) (.call target arguments) := by
  refine .of_access ?_ fun levels tokens next more fits goal written arrow behind => ?_
  · rw [List.append_assoc]
    exact starts.append id (by decide)
  obtain ⟨front, opening, inner, closing, ofTarget, isOpening, ofInner, isClosing, same⟩ := tokens_behind written
  rw [symbols_items] at ofInner
  have each' := fun argument listed => (each argument listed).imp_right fun reads => reads.enters levels
  have call := access_call isOpening isClosing each' ofInner behind
  rw [same]
  refine (called.access high levels front opening _ _ goal ofTarget (is_symbol isOpening _ _) call).imp ?_
  rw [Nat.max_le, and_assoc]

theorem reads_array {elements : List Expression}
    (each : ∀ element ∈ elements, StartsWell False (element.symbols numeral) ∧
      Reads limit (element.symbols numeral) element.tightness element.depth element) :
    Reads limit (.mark "[" :: Symbol.list (symbols.items numeral elements) ++ [.mark "]"]) tight
      (depth.items elements) (.array elements) := by
  refine .of_primary (.opening (.inr (.inl rfl))) fun levels tokens next more written arrow => ?_
  obtain ⟨opening, inner, closing, isOpening, ofInner, isClosing, same⟩ := tokens_between written
  rw [symbols_items] at ofInner
  have each' := fun element listed => (each element listed).imp_right fun reads => reads.enters levels
  rw [same]
  exact primary_array isOpening isClosing each' ofInner

theorem reads_object {fields : List (String × Expression)}
    (each : ∀ field ∈ fields, StartsWell False (field.2.symbols numeral) ∧
      Reads limit (field.2.symbols numeral) field.2.tightness field.2.depth field.2) :
    Reads limit (.mark "\x7b" :: Symbol.list (symbols.pairs numeral fields) ++ [.mark "\x7d"]) tight
      (depth.pairs fields) (.object fields) := by
  refine .of_primary (.opening (.inr (.inr rfl))) fun levels tokens next more written arrow => ?_
  obtain ⟨opening, inner, closing, isOpening, ofInner, isClosing, same⟩ := tokens_between written
  have each' := fun field listed => (each field listed).imp_right fun reads => reads.enters levels
  rw [same]
  exact primary_object isOpening isClosing each' ofInner

-- The operand of a unary operator goes one level down.
theorem reads_unary {operator : UnaryOperator} {operand : Expression} (starts : StartsWell False text)
    (high : 7 ≤ tight) (reads : Reads limit text tight deep operand) :
    Reads limit (.unary operator :: text) 7 (deep + 1) (.unary operator operand) := by
  refine .of_operand (fun levels tokens next more written behind => ?_) fun high' => absurd high' (by decide)
  obtain ⟨sign, rest, rfl, isSign, ofOperand⟩ := List.map_eq_cons_iff.mp written
  have below := fun fewer => reads.row 7 (by decide) le_rfl high fewer rest next more ofOperand behind
  obtain ⟨first, rest, rfl, -⟩ := starts.tokens ofOperand
  exact operand_of_unary isSign (List.cons_ne_nil _ _) below

theorem reads_binary {operator : BinaryOperator} {text' : List Symbol} {tight' deep' : Nat}
    (first : Reads limit text tight deep left) (high : operator.level + 1 ≤ tight)
    (second : Reads limit text' tight' deep' right) (high' : operator.level + 2 ≤ tight')
    (starts : StartsWell False text') : Reads limit (text ++ .binary operator :: text') (operator.level + 1)
      (max deep deep') (.binary operator left right) := by
  have bound : operator.level ≤ 5 := by cases operator <;> decide
  refine .of_chain bound fun levels tokens next more fits goal written next' behind => ?_
  obtain ⟨front, rest, rfl, ofLeft, ofRest⟩ := List.map_eq_append_iff.mp written
  obtain ⟨sign, rest, rfl, isSign, ofRight⟩ := List.map_eq_cons_iff.mp ofRest
  have read := second.row _ (Nat.succ_pos _) (by omega) high' levels rest next more ofRight next'
  obtain ⟨token, rest, rfl, begins⟩ := starts.tokens ofRight
  have still : isNewline (head (token :: rest ++ next :: more)) = false := isNewline_of_opens rfl begins.opens
  have fewer := length_lt_append (List.cons_ne_nil token rest) (next :: more)
  have turn := chain_again isSign still (List.cons_ne_nil _ _) read (Nat.lt_of_succ_lt fewer) behind
  rw [List.append_assoc]
  refine (first.chain _ bound high levels front sign _ _ goal ofLeft (.operator isSign) turn).imp ?_
  rw [Nat.max_le, and_assoc]

theorem reads_conditional {condition consequent alternate : Expression} {text' text'' : List Symbol}
    {tight' tight'' deep' deep'' : Nat} (asked : Reads limit text tight deep condition) (high : 1 ≤ tight)
    (yes : Reads limit text' tight' deep' consequent) (starts' : StartsWell False text')
    (no : Reads limit text'' tight'' deep'' alternate) (starts'' : StartsWell False text'') :
    Reads limit (text ++ .sign "?" :: text' ++ .mark ":" :: text'') 0 (max deep (max (deep' + 1) (deep'' + 1)))
      (.conditional condition consequent alternate) := by
  refine .of_whole fun levels tokens next more written behind => ?_
  obtain ⟨front, rest, rfl, ofFront, ofRest⟩ := List.map_eq_append_iff.mp written
  obtain ⟨colon, other, rfl, isColon, ofOther⟩ := List.map_eq_cons_iff.mp ofRest
  obtain ⟨first, rest, rfl, ofFirst, ofRest⟩ := List.map_eq_append_iff.mp ofFront
  obtain ⟨question, one, rfl, isQuestion, ofOne⟩ := List.map_eq_cons_iff.mp ofRest
  have condition' := asked.row 1 le_rfl (by decide) high levels first question
    (one ++ colon :: (other ++ next :: more)) ofFirst (.question isQuestion)
  have consequent' := yes.enters levels one colon (other ++ next :: more) ofOne (.mark isColon (by decide))
  have alternate' := no.enters levels other next more ofOther behind
  obtain ⟨token, one, rfl, begins⟩ := starts'.tokens ofOne
  obtain ⟨token', other, rfl, begins'⟩ := starts''.tokens ofOther
  rw [List.append_assoc, List.append_assoc, Nat.max_le, Nat.max_le]
  refine Meets.bind condition' (.after (run_accept (is_symbol isQuestion _ _)) ?_)
  refine .after (run_skipWhile (isNewline_of_opens rfl begins.opens)) (Meets.bind consequent' ?_)
  refine .after (run_skipWhile (isNewline_mark isColon)) (.after (run_expect (is_mark isColon)) ?_)
  exact .after (run_skipWhile (isNewline_of_opens rfl begins'.opens)) (.before alternate' rfl)

theorem reads_lambda {params : List String} {body : Expression} (inside : Reads limit text tight deep body)
    (starts : StartsWell False text) :
    Reads limit (parameterSymbols params ++ .sign "=>" :: text) 0 (deep + 1) (.lambda params body) := by
  refine .of_whole fun levels tokens next more written behind => ?_
  obtain ⟨front, rest, rfl, ofFront, ofRest⟩ := List.map_eq_append_iff.mp written
  obtain ⟨arrow, body', rfl, isArrow, ofBody⟩ := List.map_eq_cons_iff.mp ofRest
  have read := inside.enters levels body' next more ofBody behind
  have tokens : StartsWell True (parameterSymbols params ++ .sign "=>" :: text) :=
    (StartsWell.parameters params).append id (by decide)
  obtain ⟨first, body', rfl, begins⟩ := starts.tokens ofBody
  have lambda := primary_lambda ofFront isArrow rfl begins.opens read
  have access : Meets limit (deep + 1 ≤ levels)
      (accessed limit levels (front ++ arrow :: first :: body' ++ next :: more))
      ⟨.ok (.lambda params body), next :: more, []⟩ := by
    unfold accessed
    rw [accesses_eq, List.append_assoc]
    exact lambda.before (access_end behind)
  rw [← operands_accessed tokens written] at access
  exact conditional_read behind (Grammar.climb (Nat.zero_le 6) le_rfl (behind.mono (Nat.zero_le 1)) access)

end Forms

-- The tokens of a regular expression are read as the expression.
theorem Expression.Regular.reads (regular : Regular number e)
    (known : ∀ n, number n → Decimal.parse? (numeral n) = some n) :
    Reads limit (e.symbols numeral) e.tightness e.depth e := by
  induction regular with
  | @literal value written =>
      have whole : Regular number (.literal value) := .literal written
      have starts : StartsWell True [value.symbol numeral] := (whole.startsWell numeral).imp fun _ => show 8 ≤ 9 by decide
      exact reads_literal (fun n same => known n (written n same)) starts
  | @identifier name lexes =>
      have whole : Regular number (.identifier name) := .identifier lexes
      exact reads_name lexes ((whole.startsWell numeral).imp fun _ => show 8 ≤ 9 by decide)
  | member property within ih =>
      have starts := within.startsWell numeral
      obtain ⟨tight, high, target⟩ := ih.enclosed starts.loosen (show 8 ≤ 9 by decide)
      exact reads_member target high (starts.enclosed.imp fun _ => le_rfl)
  | @index object key within asked unknown ih ih' =>
      have starts := within.startsWell numeral
      obtain ⟨tight, high, target⟩ := ih.enclosed starts.loosen (show 8 ≤ 9 by decide)
      have whole : Regular number (.index object key) := .index within asked unknown
      refine .of_access ((whole.startsWell numeral).imp fun _ => le_rfl) ?_
      exact continues_index (target.access high) ih' (asked.startsWell numeral).loosen (indexed_unknown unknown)
  | @binary operator left right first second ih ih' =>
      have bound : operator.level ≤ 5 := by cases operator <;> decide
      have starts := second.startsWell numeral
      have row : operator.level + 2 ≤ 9 := by omega
      obtain ⟨tight, high, left'⟩ := ih.enclosed (first.startsWell numeral).loosen (Nat.le_of_succ_le row)
      obtain ⟨tight', high', right'⟩ := ih'.enclosed starts.loosen row
      change Reads limit (Expression.enclosed operator.row left _ ++ .binary operator ::
        Expression.enclosed (operator.row + 1) right _) operator.row
        (max (sunk operator.row left _) (sunk (operator.row + 1) right _)) _
      rw [BinaryOperator.row_eq]
      exact reads_binary left' high right' high' starts.enclosed.loosen
  | unary operator behind ih =>
      have starts := behind.startsWell numeral
      obtain ⟨tight, high, operand⟩ := ih.enclosed starts.loosen (show 7 ≤ 9 by decide)
      exact reads_unary starts.enclosed.loosen high operand
  | call called each ih ih' =>
      have starts := called.startsWell numeral
      obtain ⟨tight, high, callee⟩ := ih.enclosed starts.loosen (show 8 ≤ 9 by decide)
      refine reads_call callee high (starts.enclosed.imp fun _ => le_rfl) fun argument listed => ?_
      exact ⟨((each argument listed).startsWell numeral).loosen, ih' argument listed⟩
  | conditional asked yes no ih ih' ih'' =>
      obtain ⟨tight, high, condition⟩ := ih.enclosed (asked.startsWell numeral).loosen (show 1 ≤ 9 by decide)
      exact reads_conditional condition high ih' (yes.startsWell numeral).loosen ih'' (no.startsWell numeral).loosen
  | array each ih =>
      exact reads_array fun element listed => ⟨((each element listed).startsWell numeral).loosen, ih element listed⟩
  | object each ih =>
      exact reads_object fun entry listed => ⟨((each entry listed).startsWell numeral).loosen, ih entry listed⟩
  | lambda lexes inside ih => exact reads_lambda ih (inside.startsWell numeral).loosen

/-! Whole texts. -/

theorem terminated_ended (tokens : List Token) (last : Position) :
    terminated (tokens ++ [.endAt last]) = tokens ++ [.endAt last] := by
  unfold terminated
  rw [List.getLast?_concat]
  rfl

-- Nothing but the end stands behind the tokens of a whole expression.
theorem Reads.wholeExpression (reads : Reads limit text tight deep e) (starts : StartsWell False text)
    {tokens : List Token} (written : tokens.map Token.symbol = text) (last : Position) :
    Meets limit (deep + 1 ≤ limit) (Grammar.wholeExpression limit (tokens ++ [.endAt last]))
      ⟨.ok e, [.endAt last], []⟩ := by
  have read := reads.enters limit tokens (.endAt last) [] written (.ended rfl)
  obtain ⟨first, rest, rfl, begins⟩ := starts.tokens written
  exact .after (run_skipWhile (isNewline_of_opens rfl begins.opens)) (.before read rfl)

-- The text of a regular expression is read as the expression if it is not nested too deeply, and else reported.
theorem Expression.Regular.ofSource (regular : Regular number e) (readsBack : ∀ n, number n → ReadsBack numeral n) :
    (e.depth < defaultNesting → Expression.ofSource (e.print numeral) = .ok e) ∧
    (defaultNesting ≤ e.depth → ∃ position, Expression.ofSource (e.print numeral) =
      .error (Report.diagnostic ⟨.tooDeep defaultNesting, position⟩)) := by
  obtain ⟨tokens, last, written, lexed⟩ := regular.lexed readsBack
  have reads : Reads defaultNesting (e.symbols numeral) e.tightness e.depth e :=
    regular.reads fun n holds => (readsBack n holds).value
  have whole := reads.wholeExpression (regular.startsWell numeral).loosen written last
  unfold Expression.ofSource
  rw [lexed]
  simp only [Lexed.diagnostics, AnomalyPolicy.severity?, List.map_nil, terminated_ended]
  constructor
  · intro shallow
    rw [whole.reaches shallow]
  · intro deep
    obtain ⟨position, rest, ran⟩ := whole.sinks (Nat.not_le_of_lt (Nat.lt_succ_of_le deep))
    exact ⟨position, by rw [ran]⟩

-- Expressions and their texts. A regular expression whose numbers have texts that are read back is read from its
-- text, in which parentheses stand only where the table of precedence needs them, as far down as nesting goes; below
-- that the text is reported. And every expression that is read from any text is regular.
theorem expression_text_reads (numeral : Float → String) :
    (∀ e : Expression, e.Regular (fun n => IsUnsigned n ∧ ReadsBack numeral n) →
      (e.depth < defaultNesting → Expression.ofSource (e.print numeral) = .ok e) ∧
      (defaultNesting ≤ e.depth → ∃ position, Expression.ofSource (e.print numeral) =
        .error (Report.diagnostic ⟨.tooDeep defaultNesting, position⟩))) ∧
    ∀ (source : String) (e : Expression), Expression.ofSource source = .ok e → e.Regular IsUnsigned :=
  ⟨fun _ regular => regular.ofSource fun _ holds => holds.2, fun _ _ read => Expression.regular_ofSource read⟩

-- A sum as a factor and a lambda as an operand, both in parentheses.
def scaledSum : Expression :=
  .binary .multiply (.binary .add (.identifier "x") (.literal (.number (Binary64.ofRatio false 5 2))))
    (.unary .negate (.lambda ["y"] (.member (.identifier "y") "of it")))

theorem scaledSum_text_reads :
    scaledSum.Regular (fun n => IsUnsigned n ∧ ReadsBack Value.numberLayout.write n) ∧
    scaledSum.depth < defaultNesting ∧
    scaledSum.print Value.numberLayout.write = "( x + 2.5 ) * - ( y => y [ \x22of it\x22 ] )" ∧
    Expression.ofSource "( x + 2.5 ) * - ( y => y [ \x22of it\x22 ] )" = .ok scaledSum ∧
    scaledSum.Regular IsUnsigned := by
  have text : Value.numberLayout.write (Binary64.ofRatio false 5 2) = "2.5" := by decide +kernel
  have unsigned : IsUnsigned (Binary64.ofRatio false 5 2) := .inr ⟨5629499534213120, -51, by decide +kernel⟩
  have digit : ∀ d, Text.isDigit d = true → IsDigits [d] := fun d is =>
    ⟨List.cons_ne_nil d [], List.forall_mem_singleton.mpr is⟩
  have numeral : IsNumeral "2.5".toList :=
    ⟨['2'], ['.', '5'], [], digit '2' rfl, .inr ⟨['5'], digit '5' rfl, rfl⟩, .inl rfl, rfl⟩
  have readsBack : ReadsBack Value.numberLayout.write (Binary64.ofRatio false 5 2) := by
    constructor
    case form => rw [text]; exact numeral
    case value => rw [text]; decide +kernel
  have x : IsWord "x".toList ∧ "x" ∉ keywords := ⟨Symbol.isPlainWord_iff.mp rfl, by decide⟩
  have y : IsWord "y".toList ∧ "y" ∉ keywords := ⟨Symbol.isPlainWord_iff.mp rfl, by decide⟩
  have regular : scaledSum.Regular (fun n => IsUnsigned n ∧ ReadsBack Value.numberLayout.write n) := by
    refine .binary _ (.binary _ (.identifier (.inl x)) (.literal fun n same => ?_)) ?_
    · cases same
      exact ⟨unsigned, readsBack⟩
    · exact .unary _ (.lambda (List.forall_mem_singleton.mpr y) (.member _ (.identifier (.inl y))))
  have shallow : scaledSum.depth < defaultNesting := by decide +kernel
  have printed : scaledSum.print Value.numberLayout.write = "( x + 2.5 ) * - ( y => y [ \x22of it\x22 ] )" := by
    decide +kernel
  have read := ((expression_text_reads Value.numberLayout.write).1 scaledSum regular).1 shallow
  exact ⟨regular, shallow, printed, printed ▸ read, (expression_text_reads Value.numberLayout.write).2 _ _ read⟩

end Charter.Source
