import Charter.Proofs.Progress

/-!
No repetition turns in place. Where a text has an end, a turn that asks for another one has taken a token: it has
read something that begins with a name, a mark, an operand or a word, and these are never the end.
-/

namespace Charter.Source
open Charter.Source.Parser

set_option synthInstance.maxSize 100000

-- A kind of token that does not end a text.
class Inner (kind : TokenKind) : Prop where
  going : kind ≠ .endOfInput

instance : Inner .keyword := ⟨by decide⟩

instance : Inner .identifier := ⟨by decide⟩

instance : Inner .string := ⟨by decide⟩

instance : Inner .number := ⟨by decide⟩

instance : Inner .operator := ⟨by decide⟩

instance : Inner .punctuation := ⟨by decide⟩

theorem Inner.of_eq {kind kind' : TokenKind} [inner : Inner kind] (same : kind' = kind) : Inner kind' := same ▸ inner

theorem Inner.of_is {token : Token} {kind : TokenKind} {value : String} [Inner kind]
    (found : token.is kind value = true) : Inner token.kind :=
  .of_eq (eq_of_beq (Bool.and_eq_true_iff.mp found).1)

namespace Parser
variable {α β σ : Type} {p q : Parser α} {next : α → Parser β} {token : Token}

theorem drop_shorter {tokens : List Token} (ended : Terminated tokens) (inner : Inner (head tokens).kind) :
    (drop tokens).length < tokens.length := by
  obtain ⟨first, second, rest, rfl⟩ := ended.more inner.going
  exact Nat.lt_succ_self _

theorem run_current_bind {next : Token → Parser β} (tokens : List Token) :
    (current >>= next) tokens = next (head tokens) tokens := rfl

theorem run_advance_bind {next : Token → Parser β} (tokens : List Token) :
    (advance >>= next) tokens = next (head tokens) (drop tokens) := rfl

theorem run_isAt_bind {kind : TokenKind} {value : String} {next : Bool → Parser β} (tokens : List Token) :
    (isAt kind value >>= next) tokens = next ((head tokens).is kind value) tokens := rfl

theorem run_accept_head {kind : TokenKind} {value : String} {tokens : List Token} : accept kind value tokens =
    if (head tokens).is kind value = true then ⟨.ok true, drop tokens, []⟩ else ⟨.ok false, tokens, []⟩ := by
  have looked : isAt kind value tokens = ⟨.ok ((head tokens).is kind value), tokens, []⟩ := rfl
  unfold accept
  rw [run_bind_ok looked]
  split <;> rfl

theorem run_expect_head {kind : TokenKind} {value : String} {tokens : List Token} : expect kind value tokens =
    if (head tokens).is kind value = true then ⟨.ok (head tokens), drop tokens, []⟩
    else ⟨.error ⟨.expected s!"'{value}'" (head tokens), (head tokens).position⟩, tokens, []⟩ := by
  have looked : expect kind value tokens = (if (head tokens).is kind value = true then advance
    else fail (.expected s!"'{value}'" (head tokens)) : Parser Token) tokens := rfl
  rw [looked]
  split <;> rfl

-- Whatever is read takes a token, where the text has an end.
class Consumes (p : Parser α) : Prop where
  shorter : ∀ {tokens value}, Terminated tokens → (p tokens).result = .ok value → (p tokens).rest.length < tokens.length

-- So much is known where it is known which token is the current one.
class ConsumesAt (token : Token) (p : Parser α) : Prop where
  shorter : ∀ {tokens value}, Terminated tokens → head tokens = token → (p tokens).result = .ok value →
    (p tokens).rest.length < tokens.length

-- A turn that asks for another one has taken a token.
class Advances (turn : Parser (Turn σ α)) : Prop where
  shorter : ∀ {tokens state}, Terminated tokens → (turn tokens).result = .ok (.again state) →
    (turn tokens).rest.length < tokens.length

class AdvancesAt (token : Token) (turn : Parser (Turn σ α)) : Prop where
  shorter : ∀ {tokens state}, Terminated tokens → head tokens = token → (turn tokens).result = .ok (.again state) →
    (turn tokens).rest.length < tokens.length

-- A sequence was read if its parts were, the second one from an end of the tokens.
theorem bind_read {tokens : List Token} {last : β} (read : ((p >>= next) tokens).result = .ok last) :
    ∃ value, (p tokens).result = .ok value ∧ (next value (p tokens).rest).result = .ok last ∧
      ((p >>= next) tokens).rest = (next value (p tokens).rest).rest := by
  cases ran : p tokens with
  | mk result rest reports =>
      cases result with
      | error report =>
          rw [run_bind_error ran] at read
          cases read
      | ok value =>
          rw [run_bind_ok ran] at read ⊢
          exact ⟨value, rfl, read, rfl⟩

namespace Consumes

instance bind_first [first : Consumes p] [behind : ∀ value, Shrinks (next value)] : Consumes (p >>= next) := by
  constructor
  intro tokens last ended read
  obtain ⟨value, began, went, left⟩ := bind_read read
  rw [left]
  exact Nat.lt_of_le_of_lt ((behind value).suffix _).length_le (first.shorter ended began)

instance bind_second [first : Shrinks p] [behind : ∀ value, Consumes (next value)] : Consumes (p >>= next) := by
  constructor
  intro tokens last ended read
  obtain ⟨value, began, went, left⟩ := bind_read read
  rw [left]
  have suffix := first.suffix tokens
  exact Nat.lt_of_lt_of_le ((behind value).shorter (ended.suffix suffix) went) suffix.length_le

instance ite {c : Prop} [Decidable c] [yes : Consumes p] [no : Consumes q] : Consumes (if c then p else q) := by
  split
  · exact yes
  · exact no

instance failAt (position : Position) (fault : Fault) : Consumes (failAt position fault : Parser α) :=
  ⟨fun _ read => by cases read⟩

instance fail (fault : Fault) : Consumes (fail fault : Parser α) := ⟨fun _ read => by cases read⟩

instance fail_bind (fault : Fault) : Consumes (Parser.fail fault >>= next) := ⟨fun _ read => by cases read⟩

/-! The rules for parts that are not found as instances. -/

theorem of_first (first : Consumes p) (behind : ∀ value, Shrinks (next value)) : Consumes (p >>= next) := bind_first

theorem of_second (first : Shrinks p) (behind : ∀ value, Consumes (next value)) : Consumes (p >>= next) := bind_second

theorem of_current {next : Token → Parser β} (each : ∀ token, ConsumesAt token (next token)) :
    Consumes (current >>= next) :=
  ⟨fun {tokens} _ ended read => (each (head tokens)).shorter ended rfl read⟩

instance at_token [consumes : Consumes p] : ConsumesAt token p := ⟨fun ended _ read => consumes.shorter ended read⟩

end Consumes

namespace ConsumesAt

instance advance [inner : Inner token.kind] : ConsumesAt token advance :=
  ⟨fun ended same _ => drop_shorter ended (same ▸ inner)⟩

instance bind [first : ConsumesAt token p] [behind : ∀ value, Shrinks (next value)] :
    ConsumesAt token (p >>= next) := by
  constructor
  intro tokens last ended same read
  obtain ⟨value, began, went, left⟩ := bind_read read
  rw [left]
  exact Nat.lt_of_le_of_lt ((behind value).suffix _).length_le (first.shorter ended same began)

theorem of_advance [Inner token.kind] {next : Token → Parser β} (behind : ∀ value, Shrinks (next value)) :
    ConsumesAt token (Parser.advance >>= next) := bind

end ConsumesAt

namespace Consumes

instance expect (kind : TokenKind) [inner : Inner kind] (value : String) : Consumes (expect kind value) := by
  unfold Parser.expect
  refine of_current fun token => ?_
  split
  · next found =>
    have := Inner.of_is found
    infer_instance
  · infer_instance

instance name (what : String) : Consumes (Parser.name what) := by
  unfold Parser.name
  refine of_current fun token => ?_
  split
  · next kind =>
    have := Inner.of_eq kind
    infer_instance
  · next kind =>
    have := Inner.of_eq kind
    infer_instance
  · infer_instance

instance declaredName (what : String) : Consumes (Parser.declaredName what) := by
  unfold Parser.declaredName
  refine of_current fun token => ?_
  split
  · next kind =>
    have := Inner.of_eq kind
    infer_instance
  · next kind =>
    have := Inner.of_eq kind
    infer_instance
  · infer_instance

-- What is accepted is taken.
instance accept_ite (kind : TokenKind) [inner : Inner kind] (value : String) [yes : Shrinks p] [no : Consumes q] :
    Consumes (accept kind value >>= fun found => if found = true then p else q) := by
  constructor
  intro tokens last ended read
  cases found : (head tokens).is kind value with
  | true =>
      rw [run_bind_ok (run_accept_head.trans (if_pos found))]
      exact Nat.lt_of_le_of_lt (yes.suffix (drop tokens)).length_le (drop_shorter ended (Inner.of_is found))
  | false =>
      have ran := run_accept_head.trans (if_neg (ne_true_of_eq_false found))
      rw [run_bind_ok ran] at read ⊢
      exact no.shorter ended read

-- A repetition has had at least one turn.
instance loop {step : σ → Parser (Turn σ α)} [each : ∀ state, Consumes (step state)]
    [shrinks : ∀ state, Shrinks (step state)] (state : σ) : Consumes (Parser.loop step state) := by
  constructor
  intro tokens last ended read
  cases ran : step state tokens with
  | mk result rest reports =>
  have one : ∀ turn, (step state tokens).result = .ok turn → (step state tokens).rest.length < tokens.length :=
    fun _ => (each state).shorter ended
  rw [ran] at one
  cases result with
  | error report =>
      rw [run_loop_error ran] at read
      cases read
  | ok turn =>
      have shorter := one turn rfl
      cases turn with
      | done value =>
          rw [run_loop_done ran]
          exact shorter
      | again next =>
          rw [run_loop_again ran shorter]
          exact Nat.lt_of_le_of_lt (Shrinks.suffix (p := Parser.loop step next) rest).length_le shorter

instance string (what : String) : Consumes (Parser.string what) := by
  unfold Parser.string
  refine of_current fun token => ?_
  split
  · next kind =>
    have := Inner.of_eq (eq_of_beq kind)
    infer_instance
  · infer_instance

instance nameOrString (what : String) : Consumes (Parser.nameOrString what) := by
  unfold Parser.nameOrString
  refine of_current fun token => ?_
  split
  · next kind =>
    have := Inner.of_eq (eq_of_beq kind)
    infer_instance
  · infer_instance

end Consumes

namespace Advances

variable {turn other : Parser (Turn σ α)} {behind : β → Parser (Turn σ α)} {first : Parser β}

instance consumes [taken : Consumes turn] : Advances turn := ⟨taken.shorter⟩

instance done (value : α) : Advances (pure (.done value) : Parser (Turn σ α)) := ⟨fun _ read => by cases read⟩

instance bind [shrinks : Shrinks first] [advances : ∀ value, Advances (behind value)] :
    Advances (first >>= behind) := by
  constructor
  intro tokens state ended read
  obtain ⟨value, began, went, left⟩ := bind_read read
  rw [left]
  have suffix := shrinks.suffix tokens
  exact Nat.lt_of_lt_of_le ((advances value).shorter (ended.suffix suffix) went) suffix.length_le

instance ite {c : Prop} [Decidable c] [yes : Advances turn] [no : Advances other] :
    Advances (if c then turn else other) := by
  split
  · exact yes
  · exact no

theorem of_bind (shrinks : Shrinks first) (advances : ∀ value, Advances (behind value)) :
    Advances (first >>= behind) := bind

theorem of_current {next : Token → Parser (Turn σ α)} (each : ∀ token, AdvancesAt token (next token)) :
    Advances (current >>= next) :=
  ⟨fun {tokens} _ ended read => (each (head tokens)).shorter ended rfl read⟩

end Advances

namespace AdvancesAt
variable {turn other : Parser (Turn σ α)} {behind : Token → Parser (Turn σ α)}

instance consumes [taken : ConsumesAt token turn] : AdvancesAt token turn := ⟨taken.shorter⟩

instance done (value : α) : AdvancesAt token (pure (.done value) : Parser (Turn σ α)) := ⟨fun _ _ read => by cases read⟩

-- Looking ahead takes nothing.
instance following [each : ∀ value, AdvancesAt token (behind value)] : AdvancesAt token (following >>= behind) := by
  constructor
  intro tokens state ended same read
  obtain ⟨value, began, went, left⟩ := bind_read read
  rw [left]
  exact (each value).shorter ended same went

instance ite {c : Prop} [Decidable c] [yes : AdvancesAt token turn] [no : AdvancesAt token other] :
    AdvancesAt token (if c then turn else other) := by
  split
  · exact yes
  · exact no

end AdvancesAt
end Parser

namespace Grammar

section Expression
variable {expression operand plain : Parser Expression} [Shrinks expression] [Consumes operand] [Shrinks operand]

instance (level : Nat) : Consumes (chain level operand) := by rw [chain_eq]; infer_instance

instance (level : Nat) (left : Expression) : Advances (chainTurn level operand left) := by
  unfold chainTurn
  refine .of_bind inferInstance fun operator => ?_
  split <;> infer_instance

instance : Consumes (binary operand) := by unfold binary; infer_instance

instance : Consumes (conditional expression operand) := by unfold conditional; infer_instance

instance [Consumes plain] : Consumes (signed operand plain) := by
  unfold signed
  refine .of_second inferInstance fun token => ?_
  split <;> infer_instance

instance [Consumes expression] (close : String) : Consumes (sequence expression close) := by
  unfold sequence; infer_instance

instance : Consumes (entries expression) := by unfold entries; infer_instance

theorem lambdaHead?_shorter {tokens rest : List Token} {names : List String}
    (read : lambdaHead? tokens = some (names, rest)) : rest.length < tokens.length := by
  obtain ⟨opening, others, arrow, rfl, -, inside, -⟩ := lambdaHead?_parts read
  have behind := (parameterNames?_suffix inside).length_le
  simp only [List.length_cons] at behind ⊢
  omega

instance : Consumes (parenthesized expression) := by
  constructor
  intro tokens value ended read
  unfold parenthesized at read ⊢
  obtain ⟨found, began, went, left⟩ := bind_read read
  rw [left]
  cases head : lambdaHead? tokens with
  | some found =>
      obtain ⟨names, body⟩ := found
      have ran : lambdaParameters? tokens = ⟨.ok (some names), body, []⟩ := by rw [lambdaParameters?, head]
      rw [ran] at began ⊢
      cases began
      exact Nat.lt_of_le_of_lt (Shrinks.suffix (p := lambda expression names) body).length_le (lambdaHead?_shorter head)
  | none =>
      have ran : lambdaParameters? tokens = ⟨.ok none, tokens, []⟩ := by rw [lambdaParameters?, head]
      rw [ran] at began went ⊢
      cases began
      exact Consumes.shorter ended went

instance : Consumes (primary expression) := by
  unfold primary
  refine .of_current fun token => ?_
  split
  · next kind =>
    have := Inner.of_eq kind
    refine .of_advance fun _ => ?_
    split <;> infer_instance
  · next kind =>
    have := Inner.of_eq kind
    infer_instance
  · next kind =>
    have := Inner.of_eq kind
    split <;> infer_instance
  · next kind =>
    have := Inner.of_eq kind
    infer_instance
  · next kind =>
    have := Inner.of_eq kind
    split <;> infer_instance
  · infer_instance

instance : Consumes (accesses expression) := by unfold accesses; infer_instance

instance nested_consumes (limit levels : Nat) (production : Production) :
    Consumes (nested limit levels production) := by
  induction levels generalizing production with
  | zero =>
      cases production with
      | expression => exact (inferInstance : Consumes (fail (.tooDeep limit)))
      | operand => exact (inferInstance : Consumes (signed (fail (.tooDeep limit)) (accesses (fail (.tooDeep limit)))))
  | succ levels ih =>
      have deeper := ih .expression
      have operand := ih .operand
      cases production with
      | expression =>
          exact (inferInstance : Consumes
            (conditional (nested limit levels .expression) (nested limit levels .operand)))
      | operand =>
          exact (inferInstance : Consumes (signed (nested limit levels .operand)
            (accesses (conditional (nested limit levels .expression) (nested limit levels .operand)))))

instance (limit : Nat) : Consumes (Grammar.expression limit) := nested_consumes limit limit .expression

end Expression

section Declaration
variable (limit : Nat)

instance (word : String) : Consumes (keyword word) := by unfold keyword; infer_instance

theorem modifier?_inner {token : Token} {modifier : Modifier} (found : modifier? token = some modifier) :
    Inner token.kind := by
  rcases kind_of_modifier? found with kind | kind
  · exact .of_eq kind
  · exact .of_eq kind

instance (modifiers : List Modifier) : Advances (leadingTurn modifiers) := by
  unfold leadingTurn
  refine .of_current fun token => ?_
  split
  · infer_instance
  · next found =>
    have := modifier?_inner found
    infer_instance

instance (modifiers : List Modifier) : Advances (trailingTurn modifiers) := by
  unfold trailingTurn
  refine .of_current fun token => ?_
  split
  · infer_instance
  · next found =>
    have := modifier?_inner found
    infer_instance

instance : Consumes (property limit) := by unfold property; infer_instance

instance : Consumes (computed limit) := by unfold computed; infer_instance

instance (kind : RelationshipKind) : Consumes (relationship kind) := by unfold relationship; infer_instance

instance : Consumes (literalValue limit) := by
  unfold literalValue
  refine .of_first inferInstance fun value => ?_
  split <;> infer_instance

instance : Consumes (transition limit) := by unfold transition; infer_instance

instance (fields : ConstraintFields) : Consumes (constraintField limit fields) := by
  unfold constraintField
  refine .of_second inferInstance fun start => .of_first inferInstance fun key => .of_bind inferInstance fun _ => ?_
  split
  case h_1 | h_5 | h_7 =>
    refine .of_bind inferInstance fun value => ?_
    split <;> infer_instance
  all_goals infer_instance

instance : Consumes (constraint limit) := by unfold constraint; infer_instance

instance : Consumes (parameter limit) := by unfold parameter; infer_instance

instance : Consumes (command limit) := by unfold command; infer_instance

instance : Consumes (policy limit) := by unfold policy; infer_instance

instance (entity : String) : Consumes (entityStore limit entity) := by unfold entityStore; infer_instance

instance (command : Command) : Consumes (statement limit command) := by
  unfold statement
  refine .of_current fun token => ?_
  dsimp only
  by_cases word : token.kind = .keyword
  · have := Inner.of_eq word
    rw [if_neg (by simp [word])]
    split
    case h_4 =>
      split
      · next known =>
        have := action?_shrinks limit known
        infer_instance
      · infer_instance
    all_goals infer_instance
  · rw [if_pos (by simp [word])]
    infer_instance

instance (fields : List EventField) : Consumes (eventField limit fields) := by unfold eventField; infer_instance

instance (entity : Entity) : Consumes (entityMember limit entity) := by
  unfold entityMember
  refine .of_second inferInstance fun token => ?_
  split
  case h_9 => split <;> infer_instance
  all_goals infer_instance

instance (steps : List FlowStep) : Consumes (flowStep limit steps) := by unfold flowStep; infer_instance

instance : Consumes dottedPath := by unfold dottedPath; infer_instance

instance (composition : Composition) : Consumes (compositionItem composition) := by
  unfold compositionItem; infer_instance

end Declaration

section Program
variable (limit : Nat)

-- Where a text goes on, what is read or the passing over it takes a token.
instance {α : Type} {p : Parser α} [Shrinks p] [Takes p] (instead : α) (insideBlock : Bool) {token : Token}
    [inner : Inner token.kind] : ConsumesAt token (recover instead p (resume insideBlock)) := by
  constructor
  intro tokens value ended same read
  obtain ⟨next, rest, reports, ran, shorter⟩ := recover_takes (p := p) instead insideBlock ended (same ▸ inner.going)
  rw [ran]
  exact shorter

-- Behind the check that the text goes on, it does.
theorem consumes_notEnded {α : Type} {p : Parser α} (what name : String)
    (going : ∀ token : Token, Inner token.kind → ConsumesAt token p) :
    Consumes (notEnded what name >>= fun _ => p) := by
  constructor
  intro tokens value ended read
  by_cases last : (head tokens).kind = .endOfInput
  · have ran : notEnded what name tokens =
        ⟨.error ⟨.unterminated what name, (head tokens).position⟩, tokens, []⟩ := by
      change (if (head tokens).kind == .endOfInput then fail (.unterminated what name) else pure ()) tokens = _
      rw [last]
      rfl
    rw [run_bind_error ran] at read
    cases read
  · have ran : notEnded what name tokens = ⟨.ok (), tokens, []⟩ := by
      change (if (head tokens).kind == .endOfInput then fail (.unterminated what name) else pure ()) tokens = _
      rw [if_neg (by simpa using last)]
      rfl
    rw [run_bind_ok ran] at read ⊢
    exact (going (head tokens) ⟨last⟩).shorter ended rfl read

-- A turn over a module takes a token, whether it is the last one or asks for another.
instance (name : String) (m : Module) : Consumes (moduleTurn limit name m) := by
  unfold moduleTurn
  have := consumes_notEnded "module" name
    (p := recover m (moduleMember limit m) (resume true) >>= fun next => pure (.again next : Turn Module Module))
    fun token _ => inferInstance
  infer_instance

instance (program : Program) : Advances (programTurn limit program) := by
  constructor
  intro tokens state ended read
  rcases programTurn_takes limit program ended with ⟨_, ran, _⟩ | ⟨_, _, _, ran, _, shorter⟩
  · rw [ran] at read
    cases read
  · rw [ran]
    exact shorter

end Program
end Grammar
end Charter.Source
