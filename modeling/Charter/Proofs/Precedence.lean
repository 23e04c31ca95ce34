import Charter.Proofs.Opening
import Charter.Proofs.Outcome

/-!
The rows of the table of precedence as productions. What is read in one row is read in every looser one, where
nothing stands behind it that the looser row goes on with.
-/

namespace Charter.Source
open Charter.Source.Parser

/-! Operators, by their symbols. -/

theorem ofToken?_of_symbol {token : Token} {operator : BinaryOperator} (same : token.symbol = .binary operator) :
    BinaryOperator.ofToken? token = some operator := by
  unfold BinaryOperator.ofToken?
  simp only [is_symbol same]
  cases operator <;> rfl

theorem unary_ofToken?_of_symbol {token : Token} {operator : UnaryOperator} (same : token.symbol = .unary operator) :
    UnaryOperator.ofToken? token = some operator := by
  unfold UnaryOperator.ofToken?
  simp only [is_symbol same]
  cases operator <;> rfl

theorem symbol_of_ofToken? {token : Token} {operator : BinaryOperator}
    (read : BinaryOperator.ofToken? token = some operator) : token.symbol = .binary operator := by
  have found := List.find?_some read
  obtain ⟨kind, value⟩ := Bool.and_eq_true_iff.mp found
  exact congrArg₂ Symbol.mk (beq_iff_eq.mp kind) (beq_iff_eq.mp value)

theorem symbol_of_unary_ofToken? {token : Token} {operator : UnaryOperator}
    (read : UnaryOperator.ofToken? token = some operator) : token.symbol = .unary operator := by
  have found := List.find?_some read
  obtain ⟨kind, value⟩ := Bool.and_eq_true_iff.mp found
  exact congrArg₂ Symbol.mk (beq_iff_eq.mp kind) (beq_iff_eq.mp value)

-- What may stand behind an expression that is written in a row: nothing that the row goes on with.
structure Behind (row : Nat) (next : Token) : Prop where
  access : next.is .operator "." = false ∧ next.is .punctuation "(" = false ∧ next.is .punctuation "[" = false
  arrow : next.is .operator "=>" = false
  looser : ∀ operator, BinaryOperator.ofToken? next = some operator → operator.level + 1 < row
  choice : row = 0 → next.is .operator "?" = false

namespace Behind
variable {row row' : Nat} {next : Token}

theorem mono (behind : Behind row next) (tighter : row ≤ row') : Behind row' next where
  access := behind.access
  arrow := behind.arrow
  looser := fun operator read => Nat.lt_of_lt_of_le (behind.looser operator read) tighter
  choice := fun zero => behind.choice (Nat.le_zero.mp (zero ▸ tighter))

-- A closing mark, a comma, a colon, or the end.

theorem mark {value : String} (same : next.symbol = .mark value) (other : value ≠ "(" ∧ value ≠ "[") :
    Behind row next where
  access := by simp [is_symbol same, Symbol.mark, other]
  arrow := is_symbol same _ _
  looser := fun operator read => by
    have kinds : TokenKind.punctuation = operator.tokenKind :=
      congrArg Symbol.kind (same.symm.trans (symbol_of_ofToken? read))
    cases operator <;> cases kinds
  choice := fun _ => is_symbol same _ _

theorem ended (last : next.kind = .endOfInput) : Behind row next where
  access := by simp [Token.is, last]
  arrow := by simp [Token.is, last]
  looser := fun operator read => by
    have kinds : next.kind = operator.tokenKind := congrArg Symbol.kind (symbol_of_ofToken? read)
    rw [last] at kinds
    cases operator <;> cases kinds
  choice := fun _ => by simp [Token.is, last]

-- A newline, a string and the like.
theorem quiet (operator : next.kind ≠ .operator) (keyword : next.kind ≠ .keyword) (mark : next.kind ≠ .punctuation) :
    Behind row next where
  access := by simp [Token.is, operator, mark]
  arrow := by simp [Token.is, operator]
  looser := fun other read => by
    have kinds : next.kind = other.tokenKind := congrArg Symbol.kind (symbol_of_ofToken? read)
    cases other <;> first | exact absurd kinds operator | exact absurd kinds keyword
  choice := fun _ => by simp [Token.is, operator]

-- The mark of a conditional behind its condition, and an operator behind its first operand.

theorem question (same : next.symbol = .sign "?") : Behind 1 next where
  access := by simp [is_symbol same, Symbol.sign]
  arrow := is_symbol same _ _
  looser := fun operator read => by
    have spelled := congrArg Symbol.value (same.symm.trans (symbol_of_ofToken? read))
    cases operator <;> exact absurd spelled (by decide)
  choice := fun zero => absurd zero (by decide)

theorem operator {operator : BinaryOperator} (same : next.symbol = .binary operator) :
    Behind (operator.level + 2) next where
  access := by
    simp only [is_symbol same]
    cases operator <;> decide
  arrow := by
    rw [is_symbol same]
    cases operator <;> rfl
  looser := fun other read => by
    cases (ofToken?_of_symbol same).symm.trans read
    exact Nat.lt_succ_self _
  choice := fun zero => by cases zero

end Behind

namespace Grammar
variable {limit : Nat} {fits fits' : Prop} {expression operand : Parser Expression} {e left right : Expression}
  {tokens more : List Token} {token next : Token}

/-! Operators of one level. -/

theorem run_current : current (token :: tokens) = ⟨.ok token, token :: tokens, []⟩ := rfl

theorem binaryOperator?_some {operator : BinaryOperator} (read : BinaryOperator.ofToken? token = some operator)
    (level : Nat) : binaryOperator? level (token :: tokens) = (if operator.level == level then (do
        let _ ← advance
        return some operator)
      else return none : Parser (Option BinaryOperator)) (token :: tokens) := by
  unfold binaryOperator?
  rw [run_bind run_current, read]

theorem binaryOperator?_other {level : Nat}
    (other : ∀ operator, BinaryOperator.ofToken? next = some operator → operator.level ≠ level) :
    binaryOperator? level (next :: more) = ⟨.ok none, next :: more, []⟩ := by
  cases read : BinaryOperator.ofToken? next with
  | none =>
      unfold binaryOperator?
      rw [run_bind run_current, read]
      rfl
  | some operator =>
      rw [binaryOperator?_some read, if_neg (mt beq_iff_eq.mp (other operator read))]
      rfl

theorem binaryOperator?_found {operator : BinaryOperator} (same : token.symbol = .binary operator) :
    binaryOperator? operator.level (token :: next :: more) = ⟨.ok (some operator), next :: more, []⟩ := by
  rw [binaryOperator?_some (ofToken?_of_symbol same), if_pos (beq_self_eq_true operator.level)]
  rfl

theorem chain_end {level : Nat}
    (other : ∀ operator, BinaryOperator.ofToken? next = some operator → operator.level ≠ level) :
    loop (chainTurn level operand) e (next :: more) = ⟨.ok e, next :: more, []⟩ :=
  run_loop_done (run_bind (binaryOperator?_other other))

theorem chain_again {operator : BinaryOperator} (same : token.symbol = .binary operator) {tokens : List Token}
    (still : isNewline (head tokens) = false) (nonempty : tokens ≠ []) {goal : Parsed Expression}
    (second : Meets limit fits (operand tokens) ⟨.ok right, next :: more, []⟩) (shorter : more.length < tokens.length)
    (behind : Meets limit fits'
      (loop (chainTurn operator.level operand) (.binary operator left right) (next :: more)) goal) :
    Meets limit (fits ∧ fits') (loop (chainTurn operator.level operand) left (token :: tokens)) goal := by
  cases tokens with
  | nil => exact absurd rfl nonempty
  | cons first tokens =>
      have fewer : (next :: more).length < (token :: first :: tokens).length := Nat.succ_lt_succ shorter
      refine Meets.again (.after (binaryOperator?_found same) ?_) fewer behind
      exact .after (run_skipWhile still) (.before second rfl)

/-! Members, indexes and calls. -/

def accessTurn (expression : Parser Expression) (target : Expression) : Parser (Turn Expression Expression) := do
  if ← accept .operator "." then return .again (.member target (← name "member"))
  else if ← accept .punctuation "(" then return .again (.call target (← sequence expression ")"))
  else if ← accept .punctuation "[" then
    skipNewlines
    let index ← expression
    skipNewlines
    let _ ← expect .punctuation "]"
    return .again (indexed target index)
  else return .done target

theorem accesses_eq (expression : Parser Expression) :
    accesses expression = primary expression >>= fun first => loop (accessTurn expression) first := rfl

theorem access_end {row : Nat} (behind : Behind row next) :
    loop (accessTurn expression) e (next :: more) = ⟨.ok e, next :: more, []⟩ := by
  obtain ⟨point, call, bracket⟩ := behind.access
  refine run_loop_done ((run_bind (run_accept_other point)).trans ?_)
  exact (run_bind (run_accept_other call)).trans (run_bind (run_accept_other bracket))

variable {target key : Expression} {goal : Parsed Expression}

theorem access_word {property : String} {point word : Token} (isPoint : point.symbol = .sign ".")
    (isWord : word.symbol = .word property) : loop (accessTurn expression) target (point :: word :: next :: more) =
      loop (accessTurn expression) (.member target property) (next :: more) := by
  have turn : accessTurn expression target (point :: word :: next :: more) =
      ⟨.ok (.again (.member target property)), next :: more, []⟩ :=
    (run_bind (run_accept (is_symbol isPoint _ _))).trans (run_bind (run_word isWord "member"))
  exact run_loop_again turn (Nat.lt_succ_of_lt (Nat.lt_succ_self _))

theorem access_index {opening closing : Token} {tokens : List Token} (isOpening : opening.symbol = .mark "[")
    (isClosing : closing.symbol = .mark "]") (still : isNewline (head tokens) = false) (nonempty : tokens ≠ [])
    (shorter : more.length < tokens.length)
    (second : Meets limit fits (expression tokens) ⟨.ok key, closing :: next :: more, []⟩)
    (behind : Meets limit fits' (loop (accessTurn expression) (indexed target key) (next :: more)) goal) :
    Meets limit (fits ∧ fits') (loop (accessTurn expression) target (opening :: tokens)) goal := by
  cases tokens with
  | nil => exact absurd rfl nonempty
  | cons first tokens =>
      have fewer : (next :: more).length < (opening :: first :: tokens).length := Nat.succ_lt_succ shorter
      have closes : isNewline closing = false := by
        have kind : closing.kind = .punctuation := congrArg Symbol.kind isClosing
        rw [isNewline, kind]
        rfl
      refine Meets.again ?_ fewer behind
      refine .after (run_accept_other (is_symbol isOpening _ _)) (.after (run_accept_other (is_symbol isOpening _ _)) ?_)
      refine .after (run_accept (is_symbol isOpening _ _)) (.after (run_skipWhile still) ?_)
      refine .before second ?_
      exact (run_bind (run_skipWhile closes)).trans (run_bind (run_expect (is_symbol isClosing _ _)))

/-! Rows. -/

-- So many levels of binary operators over operands, from the tightest.
def tier (operand : Parser Expression) : Nat → Parser Expression
  | 0 => operand
  | looser + 1 => chain (5 - looser) (tier operand looser)

theorem binary_eq (operand : Parser Expression) : binary operand = tier operand 6 := rfl

theorem climb {fewer looser : Nat} (up : fewer ≤ looser) (bound : looser ≤ 6) (behind : Behind (7 - looser) next)
    (read : Meets limit fits (tier operand fewer tokens) ⟨.ok e, next :: more, []⟩) :
    Meets limit fits (tier operand looser tokens) ⟨.ok e, next :: more, []⟩ := by
  induction looser, up using Nat.le_induction with
  | base => exact read
  | succ looser up ih =>
      have below := ih (by omega) (behind.mono (by omega))
      rw [tier, chain_eq]
      refine below.before (chain_end fun operator known same => ?_)
      have := behind.looser operator known
      omega

theorem conditional_read (behind : Behind 0 next)
    (read : Meets limit fits (tier operand 6 tokens) ⟨.ok e, next :: more, []⟩) :
    Meets limit fits (conditional expression operand tokens) ⟨.ok e, next :: more, []⟩ := by
  unfold conditional
  rw [binary_eq]
  exact .before read (run_bind (run_accept_other (behind.choice rfl)))

theorem signed_plain {plain : Parser Expression} (none : UnaryOperator.ofToken? token = none) :
    signed operand plain (token :: tokens) = plain (token :: tokens) := by
  unfold signed
  rw [run_bind run_current, none]

theorem signed_unary {plain : Parser Expression} {operator : UnaryOperator} {second : Token}
    (same : token.symbol = .unary operator)
    (read : Meets limit fits (operand (second :: tokens)) ⟨.ok e, next :: more, []⟩) :
    Meets limit fits (signed operand plain (token :: second :: tokens)) ⟨.ok (.unary operator e), next :: more, []⟩ := by
  unfold signed
  refine .after run_current ?_
  rw [unary_ofToken?_of_symbol same]
  exact .after run_advance (.before read rfl)

theorem operand_of_access {levels : Nat} (none : UnaryOperator.ofToken? token = none) :
    nested limit levels .operand (token :: tokens) = accesses (nested limit levels .expression) (token :: tokens) := by
  cases levels with
  | zero => exact signed_plain none
  | succ levels => exact signed_plain none

-- A unary operator takes one level of nesting for its operand.
theorem operand_of_unary {levels deep : Nat} {operator : UnaryOperator} (same : token.symbol = .unary operator)
    (nonempty : tokens ≠ [])
    (read : ∀ fewer, Meets limit (deep ≤ fewer) (nested limit fewer .operand tokens) ⟨.ok e, next :: more, []⟩) :
    Meets limit (deep + 1 ≤ levels) (nested limit levels .operand (token :: tokens))
      ⟨.ok (.unary operator e), next :: more, []⟩ := by
  cases tokens with
  | nil => exact absurd rfl nonempty
  | cons second tokens =>
      cases levels with
      | zero => exact signed_unary same (.fail (Nat.not_succ_le_zero deep))
      | succ levels => exact (signed_unary same (read levels)).imp Nat.succ_le_succ_iff

end Grammar
end Charter.Source
