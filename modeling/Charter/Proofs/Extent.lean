import Charter.Proofs.Blindness
import Charter.Proofs.Nesting
import Charter.Proofs.RoundTrip

/-!
How far an expression goes. A text that is an expression on its own is the same expression in front of whatever does
not go on with one: the reader looks no further than the token behind it, and asks of that only whether it goes on.
-/

namespace Charter.Source
open Charter.Source.Parser Charter.Source.Grammar

set_option synthInstance.maxSize 100000

class Ended (token : Token) : Prop where
  kind : token.kind = .endOfInput

abbrev EndToken := { token : Token // token.kind = .endOfInput }

instance (last : EndToken) : Ended last.val := ⟨last.property⟩

-- A token that begins no expression.
class Barren (token : Token) : Prop where
  closed : token.kind = .newline ∨ token.kind = .endOfInput ∨
    token.kind = .punctuation ∧ token.value ≠ "(" ∧ token.value ≠ "[" ∧ token.value ≠ "\x7b"

instance {token : Token} [ended : Ended token] : Barren token := ⟨.inr (.inl ended.kind)⟩

theorem Ended.punctuation {token : Token} (ended : Ended token) (mark : String) :
    token.is .punctuation mark = false := by
  simp [Token.is, ended.kind]

theorem Ended.operator {token : Token} (ended : Ended token) (sign : String) : token.is .operator sign = false := by
  simp [Token.is, ended.kind]

def Parsed.Fails {α : Type} (run : Parsed α) : Prop := ∃ report rest reports, run = ⟨.error report, rest, reports⟩

namespace Parser
variable {α β σ : Type} {p q : Parser α} {next : α → Parser β} {token : Token} {tokens : List Token}

/-! Productions that need something else than the current token. -/

class Refuses (token : Token) (p : Parser α) : Prop where
  fails : ∀ tokens, (p (token :: tokens)).Fails

namespace Refuses

instance bind [first : Refuses token p] : Refuses token (p >>= next) := by
  constructor
  intro tokens
  obtain ⟨report, rest, reports, ran⟩ := first.fails tokens
  exact ⟨report, rest, reports, run_bind_error ran⟩

instance fail (fault : Fault) : Refuses token (fail fault : Parser α) := ⟨fun _ => ⟨_, _, _, rfl⟩⟩

instance current_bind {next : Token → Parser β} [refuses : Refuses token (next token)] :
    Refuses token (current >>= next) := ⟨fun tokens => refuses.fails tokens⟩

theorem of_current {next : Token → Parser β} (refuses : Refuses token (next token)) : Refuses token (current >>= next) :=
  current_bind

-- What is passed over where the text has ended is nothing.

theorem skip_bind {kind : Token → Bool} {next : Unit → Parser β} (other : kind token = false)
    [refuses : Refuses token (next ())] : Refuses token (skipWhile kind >>= next) := by
  constructor
  intro tokens
  rw [run_bind (run_skipWhile other)]
  exact refuses.fails tokens

theorem accept_bind {kind : TokenKind} {mark : String} {next : Bool → Parser β} (other : token.is kind mark = false)
    [refuses : Refuses token (next false)] : Refuses token (accept kind mark >>= next) := by
  constructor
  intro tokens
  rw [run_bind (run_accept_other other)]
  exact refuses.fails tokens

theorem expect {kind : TokenKind} {mark : String} (other : token.is kind mark = false) :
    Refuses token (expect kind mark) := by
  refine of_current ?_
  rw [if_neg (Bool.eq_false_iff.mp other)]
  infer_instance

section
variable [ended : Ended token]

instance skipNewlines_bind {next : Unit → Parser β} [Refuses token (next ())] : Refuses token (skipNewlines >>= next) :=
  skip_bind (by rw [isNewline, ended.kind]; rfl)

instance skipListSeparators_bind {next : Unit → Parser β} [Refuses token (next ())] :
    Refuses token (skipListSeparators >>= next) := by
  have other : isListSeparator token = false := by
    simp [isListSeparator, isSeparator, isNewline, ended.kind, ended.punctuation]
  exact skip_bind other

instance accept_mark {mark : String} {next : Bool → Parser β} [Refuses token (next false)] :
    Refuses token (accept .punctuation mark >>= next) := accept_bind (ended.punctuation mark)

instance expect_mark {mark : String} : Refuses token (Parser.expect .punctuation mark) :=
  expect (ended.punctuation mark)

instance name (what : String) : Refuses token (name what) := by
  refine of_current ?_
  rw [ended.kind]
  infer_instance

instance nameOrString (what : String) : Refuses token (nameOrString what) := by
  refine of_current ?_
  rw [if_neg (by simp [ended.kind])]
  exact name what

end

instance if_false [refuses : Refuses token q] : Refuses token (if false = true then p else q) := refuses

end Refuses

/-! Productions that end where nothing goes on. -/

-- What was read in front of the end is read in front of every token that does not go on with an expression, and the
-- same is left in front of it.
structure Settled (p : Parser α) (tokens : List Token) : Prop where
  through : ∀ (last : EndToken) {value rest reports}, p (tokens ++ [last.val]) = ⟨.ok value, rest, reports⟩ →
    ∃ left, rest = left ++ [last.val] ∧ ∀ next, Behind 0 next → ∀ more,
      p (tokens ++ next :: more) = ⟨.ok value, left ++ next :: more, reports⟩

class Settles (p : Parser α) : Prop where
  settled : ∀ tokens, Settled p tokens

-- The same, where a token stands in front of the end.
class SettlesAt (token : Token) (p : Parser α) : Prop where
  settled : ∀ tokens, Settled p (token :: tokens)

namespace Settled

theorem bind (first : Settled p tokens) (behind : ∀ value left, Settled (next value) left) :
    Settled (p >>= next) tokens := by
  constructor
  intro last value rest reports ran
  cases one : p (tokens ++ [last.val]) with
  | mk result rest' reports' =>
      cases result with
      | error report => cases (run_bind_error one).symm.trans ran
      | ok middle =>
          obtain ⟨left, rfl, through⟩ := first.through last one
          rw [run_bind_ok one] at ran
          cases two : next middle (left ++ [last.val]) with
          | mk result rest'' reports'' =>
              rw [two] at ran
              cases ran
              obtain ⟨left', rfl, through'⟩ := (behind middle left).through last two
              refine ⟨left', rfl, fun stop stops more => ?_⟩
              rw [run_bind_ok (through stop stops more), through' stop stops more]
              rfl

theorem of_eq {tokens' : List Token} (settled : Settled q tokens')
    (same : ∀ stop, Behind 0 stop → ∀ more, p (tokens ++ stop :: more) = q (tokens' ++ stop :: more)) :
    Settled p tokens := by
  constructor
  intro last value rest reports ran
  rw [same last.val (.ended last.property)] at ran
  obtain ⟨left, rfl, through⟩ := settled.through last ran
  exact ⟨left, rfl, fun stop stops more => (same stop stops more).trans (through stop stops more)⟩

-- Where the run in front of the end fails, there is nothing to say.
theorem of_fails (fails : ∀ last : EndToken, (p (tokens ++ [last.val])).Fails) : Settled p tokens := by
  constructor
  intro last value rest reports ran
  obtain ⟨report, rest', reports', failed⟩ := fails last
  cases failed.symm.trans ran

theorem loop {step : σ → Parser (Turn σ α)} (each : ∀ state tokens, Settled (step state) tokens) (state : σ)
    (tokens : List Token) : Settled (Parser.loop step state) tokens := by
  induction size : tokens.length using Nat.strongRecOn generalizing tokens state with
  | ind length ih =>
  subst size
  constructor
  intro last value rest reports ran
  cases one : step state (tokens ++ [last.val]) with
  | mk result rest' reports' =>
      cases result with
      | error report => cases (run_loop_error one).symm.trans ran
      | ok turn =>
          obtain ⟨left, rfl, through⟩ := (each state tokens).through last one
          cases turn with
          | done value =>
              cases (run_loop_done one).symm.trans ran
              exact ⟨left, rfl, fun stop stops more => run_loop_done (through stop stops more)⟩
          | again state' =>
              by_cases shorter : left.length < tokens.length
              · have lengths (after : List Token) : (left ++ after).length < (tokens ++ after).length := by
                  simpa using shorter
                rw [run_loop_again one (lengths _)] at ran
                cases others : Parser.loop step state' (left ++ [last.val]) with
                | mk result rest'' reports'' =>
                    rw [others] at ran
                    cases ran
                    obtain ⟨left', rfl, through'⟩ := (ih left.length shorter state' left rfl).through last others
                    refine ⟨left', rfl, fun stop stops more => ?_⟩
                    rw [run_loop_again (through stop stops more) (lengths _), through' stop stops more]
                    rfl
              · cases (run_loop_stalled one (by simpa using shorter)).symm.trans ran

end Settled

namespace Settles

instance pure (value : α) : Settles (Pure.pure value : Parser α) := by
  constructor
  refine fun tokens => ⟨fun {last value' rest reports} ran => ?_⟩
  cases ran
  exact ⟨tokens, rfl, fun _ _ _ => rfl⟩

instance bind [first : Settles p] [behind : ∀ value, Settles (next value)] : Settles (p >>= next) :=
  ⟨fun tokens => (first.settled tokens).bind fun value left => (behind value).settled left⟩

instance loop {step : σ → Parser (Turn σ α)} [each : ∀ state, Settles (step state)] (state : σ) :
    Settles (Parser.loop step state) :=
  ⟨Settled.loop (fun state => (each state).settled) state⟩

theorem of_bind (first : Settles p) (behind : ∀ value, Settles (next value)) : Settles (p >>= next) := bind

theorem of_loop {step : σ → Parser (Turn σ α)} (each : ∀ state, Settles (step state)) (state : σ) :
    Settles (Parser.loop step state) := loop state

instance ite {c : Prop} [Decidable c] [yes : Settles p] [no : Settles q] : Settles (if c then p else q) := by
  split
  · exact yes
  · exact no

instance failAt (position : Position) (fault : Fault) : Settles (failAt position fault : Parser α) :=
  ⟨fun _ => .of_fails fun _ => ⟨_, _, _, rfl⟩⟩

instance fail (fault : Fault) : Settles (fail fault : Parser α) := ⟨fun _ => .of_fails fun _ => ⟨_, _, _, rfl⟩⟩

-- Nothing is read behind a fault.
instance fail_bind (fault : Fault) : Settles (Parser.fail fault >>= next) :=
  ⟨fun _ => .of_fails fun _ => ⟨_, _, _, rfl⟩⟩

-- What needs a token does not look at the one behind the end.
instance (priority := low) of_settlesAt [enters : ∀ token, SettlesAt token p]
    [refuses : ∀ last : EndToken, Refuses last.val p] : Settles p := by
  constructor
  intro tokens
  cases tokens with
  | nil => exact .of_fails fun last => (refuses last).fails []
  | cons token tokens => exact (enters token).settled tokens

end Settles

namespace SettlesAt

instance (priority := low) of_settles [settles : Settles p] : SettlesAt token p :=
  ⟨fun tokens => settles.settled (token :: tokens)⟩

instance bind [first : SettlesAt token p] [behind : ∀ value, Settles (next value)] : SettlesAt token (p >>= next) :=
  ⟨fun tokens => (first.settled tokens).bind fun value left => (behind value).settled left⟩

instance ite {c : Prop} [Decidable c] [yes : SettlesAt token p] [no : SettlesAt token q] :
    SettlesAt token (if c then p else q) := by
  split
  · exact yes
  · exact no

instance current_bind {next : Token → Parser β} [enters : SettlesAt token (next token)] :
    SettlesAt token (current >>= next) := ⟨fun tokens => ⟨(enters.settled tokens).through⟩⟩

theorem of_current {next : Token → Parser β} (enters : SettlesAt token (next token)) : SettlesAt token (current >>= next) :=
  current_bind

instance advance : SettlesAt token Parser.advance := by
  constructor
  intro tokens
  refine (Settles.settled (p := Pure.pure token) tokens).of_eq fun stop _ more => ?_
  obtain ⟨second, rest, same⟩ := exists_cons_of_append tokens stop more
  rw [List.cons_append, same]
  rfl

instance accept (kind : TokenKind) (mark : String) : SettlesAt token (accept kind mark) := by
  rw [accept_eq]
  infer_instance

-- A token that is not the mark is looked at once more.
instance accept_bind {kind : TokenKind} {mark : String} {next : Bool → Parser β} [taken : Settles (next true)]
    [other : SettlesAt token (next false)] : SettlesAt token (Parser.accept kind mark >>= next) := by
  constructor
  intro tokens
  by_cases found : token.is kind mark = true
  · refine (taken.settled tokens).of_eq fun stop _ more => ?_
    obtain ⟨second, rest, same⟩ := exists_cons_of_append tokens stop more
    rw [List.cons_append, same, run_bind (run_accept found)]
  · refine (other.settled tokens).of_eq fun _ _ _ => ?_
    exact run_bind (run_accept_other (Bool.eq_false_iff.mpr found))

instance isAt_bind {kind : TokenKind} {mark : String} {next : Bool → Parser β} [enters : ∀ here, SettlesAt token (next here)] :
    SettlesAt token (isAt kind mark >>= next) :=
  ⟨fun tokens => ⟨((enters (token.is kind mark)).settled tokens).through⟩⟩

instance expect (kind : TokenKind) (mark : String) : SettlesAt token (expect kind mark) := by
  unfold Parser.expect
  infer_instance

instance name (what : String) : SettlesAt token (name what) := by
  refine of_current ?_
  split <;> infer_instance

instance nameOrString (what : String) : SettlesAt token (nameOrString what) := by
  unfold Parser.nameOrString
  infer_instance

end SettlesAt

/-! Productions that take a mark, from among the tokens. -/

class Awaits (mark : String) (p : Parser α) : Prop where
  present : ∀ {tokens value}, (p tokens).result = .ok value → ∃ token ∈ tokens, token.is .punctuation mark = true

namespace Awaits
variable {mark : String}

instance expect : Awaits mark (Parser.expect .punctuation mark) := by
  constructor
  intro tokens value read
  have same : Parser.expect .punctuation mark tokens =
      (if (head tokens).is .punctuation mark then Parser.advance
        else Parser.fail (.expected s!"'{mark}'" (head tokens)) : Parser Token) tokens := rfl
  by_cases found : (head tokens).is .punctuation mark = true
  · cases tokens with
    | nil => cases found
    | cons token rest => exact ⟨token, List.mem_cons_self, found⟩
  · rw [same, if_neg found] at read
    cases read

theorem first [awaits : Awaits mark p] : Awaits mark (p >>= next) := by
  constructor
  intro tokens value read
  cases ran : p tokens with
  | mk result rest reports =>
      cases result with
      | error report =>
          rw [run_bind_error ran] at read
          cases read
      | ok middle => exact awaits.present (congrArg Parsed.result ran)

theorem second [shrinks : Shrinks p] (awaits : ∀ value, Awaits mark (next value)) : Awaits mark (p >>= next) := by
  constructor
  intro tokens value read
  cases ran : p tokens with
  | mk result rest reports =>
      cases result with
      | error report =>
          rw [run_bind_error ran] at read
          cases read
      | ok middle =>
          rw [run_bind_ok ran] at read
          obtain ⟨token, member, found⟩ := (awaits middle).present read
          have suffix := shrinks.suffix tokens
          rw [ran] at suffix
          exact ⟨token, suffix.mem member, found⟩

end Awaits

/-! Marks that an expression goes on with are not among the tokens behind it. -/

class Barred (kind : TokenKind) (mark : String) : Prop where
  behind : ∀ {next}, Behind 0 next → next.is kind mark = false
  ended : ∀ {last}, Ended last → last.is kind mark = false

instance : Barred .operator "." := ⟨fun behind => behind.access.1, fun ended => ended.operator _⟩
instance : Barred .punctuation "(" := ⟨fun behind => behind.access.2.1, fun ended => ended.punctuation _⟩
instance : Barred .punctuation "[" := ⟨fun behind => behind.access.2.2, fun ended => ended.punctuation _⟩
instance : Barred .operator "=>" := ⟨fun behind => behind.arrow, fun ended => ended.operator _⟩
instance : Barred .operator "?" := ⟨fun behind => behind.choice rfl, fun ended => ended.operator _⟩

instance Settles.accept (kind : TokenKind) (mark : String) [barred : Barred kind mark] : Settles (accept kind mark) := by
  constructor
  intro tokens
  cases tokens with
  | nil =>
      refine ⟨fun {last value rest reports} ran => ?_⟩
      cases (run_accept_other (barred.ended inferInstance)).symm.trans ran
      exact ⟨[], rfl, fun stop stops more => run_accept_other (barred.behind stops)⟩
  | cons token tokens => exact SettlesAt.settled tokens

-- A skip ends in the text, or at its end, where what follows fails.
theorem Settles.skip_bind {kind : Token → Bool} {next : Unit → Parser β} [settles : Settles (next ())]
    (refuses : ∀ last : EndToken, Refuses last.val (next ())) : Settles (skipWhile kind >>= next) := by
  constructor
  intro tokens
  induction tokens with
  | nil => exact .of_fails fun last => (refuses last).fails []
  | cons token tokens ih =>
      cases passed : kind token with
      | true =>
          refine ih.of_eq fun stop _ more => ?_
          obtain ⟨second, rest, same⟩ := exists_cons_of_append tokens stop more
          have skipped : skipWhile kind (token :: second :: rest) = skipWhile kind (second :: rest) := by
            rw [skipWhile, dropWhile, if_pos passed]
            rfl
          rw [List.cons_append, same]
          exact congrArg (fun first : Parsed Unit => Parser.bind (fun _ => first) next []) skipped
      | false => exact (settles.settled (token :: tokens)).of_eq fun _ _ _ => run_bind (run_skipWhile passed)

instance Settles.skipNewlines_bind {next : Unit → Parser β} [Settles (next ())]
    [refuses : ∀ last : EndToken, Refuses last.val (next ())] : Settles (skipNewlines >>= next) :=
  .skip_bind refuses

instance Settles.skipListSeparators_bind {next : Unit → Parser β} [Settles (next ())]
    [refuses : ∀ last : EndToken, Refuses last.val (next ())] : Settles (skipListSeparators >>= next) :=
  .skip_bind refuses

end Parser

namespace Grammar
section
variable {expression operand plain : Parser Expression} {token : Token}

/-! Expressions need a token that begins one. -/

instance (level : Nat) [Refuses token operand] : Refuses token (chain level operand) := by
  unfold chain
  infer_instance

instance [Refuses token operand] : Refuses token (binary operand) := by
  unfold binary
  infer_instance

instance [Refuses token operand] : Refuses token (conditional expression operand) := by
  unfold conditional
  infer_instance

theorem noUnary_of_barren (barren : Barren token) : UnaryOperator.ofToken? token = none := by
  refine List.find?_eq_none.mpr fun operator _ found => ?_
  have kind := beq_iff_eq.mp (Bool.and_eq_true_iff.mp found).1
  rcases barren.closed with newline | ended | ⟨mark, _⟩
  · cases operator <;> cases newline.symm.trans kind
  · cases operator <;> cases ended.symm.trans kind
  · cases operator <;> cases mark.symm.trans kind

instance [barren : Barren token] [refuses : Refuses token plain] : Refuses token (signed operand plain) := by
  refine .of_current ?_
  rw [noUnary_of_barren barren]
  exact refuses

instance [barren : Barren token] : Refuses token (primary expression) := by
  refine .of_current ?_
  rcases barren.closed with newline | ended | ⟨mark, call, array, object⟩
  · rw [newline]
    infer_instance
  · rw [ended]
    infer_instance
  · simp only [mark]
    infer_instance

instance [Barren token] : Refuses token (accesses expression) := by
  unfold accesses
  infer_instance

instance nested_refuses [Barren token] (limit levels : Nat) (production : Production) :
    Refuses token (nested limit levels production) := by
  induction levels generalizing production with
  | zero =>
      cases production with
      | expression => exact (inferInstance : Refuses token (fail (.tooDeep limit)))
      | operand =>
          exact (inferInstance : Refuses token (signed (fail (.tooDeep limit)) (accesses (fail (.tooDeep limit)))))
  | succ levels ih =>
      have deeper := ih .expression
      have operand := ih .operand
      cases production with
      | expression =>
          exact (inferInstance : Refuses token
            (conditional (nested limit levels .expression) (nested limit levels .operand)))
      | operand =>
          exact (inferInstance : Refuses token (signed (nested limit levels .operand)
            (accesses (conditional (nested limit levels .expression) (nested limit levels .operand)))))

instance [Barren token] (limit : Nat) : Refuses token (Grammar.expression limit) := nested_refuses limit limit .expression

/-! Lambdas and parentheses. -/

-- The names of a parameter list are found among the tokens, or cannot be, or the list is not closed among them.
theorem parameterNames?_fixed (tokens : List Token) :
    (∃ names left, ∀ after, parameterNames? (tokens ++ after) = some (names, left ++ after)) ∨
    (∀ after, parameterNames? (tokens ++ after) = none) ∨
    (∀ last : EndToken, parameterNames? (tokens ++ [last.val]) = none) ∧
      ∀ token ∈ tokens, token.is .punctuation ")" = false := by
  have ended (last : EndToken) : Ended last.val := inferInstance
  fun_induction parameterNames? tokens with
  | case1 =>
      refine .inr (.inr ⟨fun last => ?_, by simp⟩)
      simp [parameterNames?, (ended last).punctuation, last.property]
  | case2 token rest closes => exact .inl ⟨[], rest, fun after => parameterNames?_closing closes (rest ++ after)⟩
  | case3 token closes name =>
      refine .inr (.inr ⟨fun last => ?_, ?_⟩)
      · simp [parameterNames?, closes, (ended last).punctuation]
      · simpa using closes
  | case4 token closes name mark others comma ih =>
      simp only [List.cons_append, parameterNames?, if_neg closes, if_pos name, if_pos comma]
      rcases ih with ⟨names, left, reads⟩ | missing | ⟨missing, others'⟩
      · exact .inl ⟨token.value :: names, left, fun after => by rw [reads, Option.map_some]⟩
      · exact .inr (.inl fun after => by rw [missing, Option.map_none])
      · refine .inr (.inr ⟨fun last => by rw [missing, Option.map_none], ?_⟩)
        have comma : mark.is .punctuation ")" = false := by
          obtain ⟨kind, value⟩ := isPunctuation_of_is comma
          simp [Token.is, kind, value]
        exact List.forall_mem_cons.mpr ⟨Bool.eq_false_iff.mpr closes, List.forall_mem_cons.mpr ⟨comma, others'⟩⟩
  | case5 token closes name mark others comma closes' =>
      refine .inl ⟨[token.value], others, fun after => ?_⟩
      simp only [List.cons_append, parameterNames?, if_neg closes, if_pos name, if_neg comma, if_pos closes']
  | case6 token closes name mark others comma closes' =>
      refine .inr (.inl fun after => ?_)
      simp only [List.cons_append, parameterNames?, if_neg closes, if_pos name, if_neg comma, if_neg closes']
  | case7 token rest closes name =>
      refine .inr (.inl fun after => ?_)
      rw [List.cons_append]
      cases rest ++ after with
      | nil => rw [parameterNames?, if_neg closes, if_neg name]
      | cons => rw [parameterNames?, if_neg closes, if_neg name]

-- So are the parameters of a lambda in parentheses.
theorem lambdaHead?_fixed (tokens : List Token) :
    (∃ names left, ∀ after, lambdaHead? (tokens ++ after) = some (names, left ++ after)) ∨
    (∀ stop, Behind 0 stop → ∀ more, lambdaHead? (tokens ++ stop :: more) = none) ∨
    (∀ last : EndToken, lambdaHead? (tokens ++ [last.val]) = none) ∧
      ∀ token ∈ tokens, token.is .punctuation ")" = false := by
  cases tokens with
  | nil => exact .inr (.inl fun stop stops more => by simp [lambdaHead?, stops.access])
  | cons opening rest =>
      by_cases opens : opening.is .punctuation "(" = true
      · simp only [List.cons_append, lambdaHead?, if_pos opens]
        rcases parameterNames?_fixed rest with ⟨names, left, reads⟩ | missing | ⟨missing, others⟩
        · simp only [reads]
          cases left with
          | nil => exact .inr (.inl fun stop stops more => by simp [stops.arrow])
          | cons arrow body =>
              by_cases found : arrow.is .operator "=>" = true
              · exact .inl ⟨names, body, fun after => by simp [found]⟩
              · exact .inr (.inl fun stop stops more => by simp [found])
        · exact .inr (.inl fun stop stops more => by rw [missing])
        · refine .inr (.inr ⟨fun last => by rw [missing], List.forall_mem_cons.mpr ⟨?_, others⟩⟩)
          obtain ⟨kind, value⟩ := isPunctuation_of_is opens
          simp [Token.is, kind, value]
      · exact .inr (.inl fun stop stops more => by simp [lambdaHead?, opens])

-- What is read in parentheses that are no list of parameters.
def grouped (expression : Parser Expression) : Parser Expression := do
  let _ ← expect .punctuation "("
  skipNewlines
  let inner ← expression
  skipNewlines
  let _ ← expect .punctuation ")"
  return inner

theorem parenthesized_lambda {names : List String} {body : List Token} (found : lambdaHead? tokens = some (names, body)) :
    parenthesized expression tokens = lambda expression names body := by
  have read : lambdaParameters? tokens = ⟨.ok (some names), body, []⟩ := by rw [lambdaParameters?, found]
  exact run_bind read

theorem parenthesized_grouped (missing : lambdaHead? tokens = none) :
    parenthesized expression tokens = grouped expression tokens := by
  have read : lambdaParameters? tokens = ⟨.ok none, tokens, []⟩ := by rw [lambdaParameters?, missing]
  exact run_bind read

instance [Shrinks expression] : Awaits ")" (grouped expression) := by
  unfold grouped
  exact .second fun _ => .second fun _ => .second fun _ => .second fun _ => .first

/-! Expressions end where nothing goes on with them. -/

theorem ofToken?_behind {next : Token} (behind : Behind 0 next) : BinaryOperator.ofToken? next = none := by
  cases read : BinaryOperator.ofToken? next with
  | none => rfl
  | some operator => exact absurd (behind.looser operator read) (Nat.not_lt_zero _)

instance (level : Nat) : Settles (binaryOperator? level) := by
  have none {next : Token} (behind : Behind 0 next) (more : List Token) :
      binaryOperator? level (next :: more) = ⟨.ok none, next :: more, []⟩ :=
    binaryOperator?_other fun operator read => by cases (ofToken?_behind behind).symm.trans read
  constructor
  intro tokens
  cases tokens with
  | nil =>
      refine ⟨fun {last value rest reports} ran => ?_⟩
      cases (none (.ended last.property) []).symm.trans ran
      exact ⟨[], rfl, fun stop stops more => none stops more⟩
  | cons token tokens =>
      have enters : SettlesAt token (binaryOperator? level) := by
        refine .of_current ?_
        split <;> infer_instance
      exact enters.settled tokens

variable [Settles expression] [∀ last : EndToken, Refuses last.val expression]
  [Settles operand] [∀ last : EndToken, Refuses last.val operand]

instance (level : Nat) : Settles (chain level operand) := by
  unfold chain
  refine .of_bind inferInstance fun first => .of_loop (fun left => .of_bind inferInstance fun operator => ?_) first
  split <;> infer_instance

instance : Settles (binary operand) := by unfold binary; infer_instance

instance : Settles (conditional expression operand) := by unfold conditional; infer_instance

instance [Settles plain] [∀ last : EndToken, Refuses last.val plain] : Settles (signed operand plain) := by
  have enters (token : Token) : SettlesAt token (signed operand plain) := by
    refine .of_current ?_
    split <;> infer_instance
  infer_instance

-- Behind an item stands a comma, which is taken, or the closing mark.
def itemEnd (close : String) (items : List Expression) : Parser (Turn (List Expression) (List Expression)) := do
  if !(← accept .punctuation ",") && !(← isAt .punctuation close) then
    fail (.expected s!"',' or '{close}'" (← current))
  return .again items

theorem sequenceTurn_eq (expression : Parser Expression) (close : String) (items : List Expression) :
    sequenceTurn expression close items = (do
      skipNewlines
      if ← accept .punctuation close then return .done items
      let item ← expression
      skipNewlines
      itemEnd close (items ++ [item])) := rfl

instance (close : String) (items : List Expression) (last : EndToken) : Refuses last.val (itemEnd close items) := by
  have ended : Ended last.val := inferInstance
  constructor
  intro tokens
  have other : isAt .punctuation close (last.val :: tokens) = ⟨.ok false, last.val :: tokens, []⟩ := by
    rw [← ended.punctuation close]
    rfl
  unfold itemEnd
  exact ⟨_, _, _, (run_bind (run_accept_other (ended.punctuation ","))).trans (run_bind other)⟩

instance (close : String) (items : List Expression) : SettlesAt token (itemEnd close items) := by
  have taken : Settles (do
      if !true && !(← isAt .punctuation close) then
        fail (.expected s!"',' or '{close}'" (← current))
      return .again items : Parser (Turn (List Expression) (List Expression))) :=
    (inferInstance : Settles (pure (Turn.again items)))
  unfold itemEnd
  infer_instance

instance (close : String) (items : List Expression) : Settles (sequenceTurn expression close items) := by
  rw [sequenceTurn_eq]
  infer_instance

instance (close : String) : Settles (sequence expression close) := by
  rw [sequence_eq]
  infer_instance

def entryEnd (pairs : List (String × Expression)) :
    Parser (Turn (List (String × Expression)) (List (String × Expression))) := do
  let next ← current
  if !next.is .punctuation "," && !next.is .punctuation "\x7d" && !isNewline next then
    fail (.expected "',' or '\x7d' in object" next)
  return .again pairs

theorem entriesTurn_eq (expression : Parser Expression) (pairs : List (String × Expression)) :
    entriesTurn expression pairs = (do
      skipListSeparators
      if ← accept .punctuation "\x7d" then return .done pairs
      let key ← nameOrString "object key"
      let _ ← expect .punctuation ":"
      skipNewlines
      let value ← expression
      entryEnd (pairs ++ [(key, value)])) := rfl

instance (pairs : List (String × Expression)) (last : EndToken) : Refuses last.val (entryEnd pairs) := by
  have ended : Ended last.val := inferInstance
  refine .of_current ?_
  rw [if_pos (by simp [ended.punctuation, isNewline, ended.kind])]
  infer_instance

instance (pairs : List (String × Expression)) : SettlesAt token (entryEnd pairs) := by
  unfold entryEnd
  infer_instance

instance (pairs : List (String × Expression)) : Settles (entriesTurn expression pairs) := by
  rw [entriesTurn_eq]
  infer_instance

instance : Settles (entries expression) := by
  rw [entries_eq]
  infer_instance

instance (params : List String) : Settles (lambda expression params) := by unfold lambda; infer_instance

instance : Settles (grouped expression) := by unfold grouped; infer_instance

instance [Shrinks expression] : Settles (parenthesized expression) := by
  constructor
  intro tokens
  rcases lambdaHead?_fixed tokens with ⟨names, left, reads⟩ | missing | ⟨missing, unclosed⟩
  · exact (Settles.settled left).of_eq fun stop _ more => parenthesized_lambda (reads (stop :: more))
  · exact (Settles.settled tokens).of_eq fun stop stops more => parenthesized_grouped (missing stop stops more)
  · -- The closing parenthesis would have to be the end.
    refine .of_fails fun last => ?_
    rw [parenthesized_grouped (missing last)]
    cases ran : grouped expression (tokens ++ [last.val]) with
    | mk result rest reports =>
        cases result with
        | error report => exact ⟨report, rest, reports, rfl⟩
        | ok value =>
            have awaits : Awaits ")" (grouped expression) := inferInstance
            obtain ⟨token, member, closes⟩ := awaits.present (congrArg Parsed.result ran)
            have ended : Ended last.val := inferInstance
            rcases List.mem_append.mp member with inside | last
            · cases (unclosed token inside).symm.trans closes
            · cases List.mem_singleton.mp last
              cases (ended.punctuation ")").symm.trans closes

instance [Shrinks expression] : Settles (primary expression) := by
  have enters (token : Token) : SettlesAt token (primary expression) := by
    refine .of_current ?_
    split
    · have (value : Option Float) : Settles (match value with
          | some value => pure (.literal (.number value))
          | none => failAt token.position (.invalidNumber token.value) : Parser Expression) := by
        split <;> infer_instance
      infer_instance
    · infer_instance
    · split <;> infer_instance
    · infer_instance
    · split <;> infer_instance
    · infer_instance
  infer_instance

instance [Shrinks expression] : Settles (accesses expression) := by
  unfold accesses
  infer_instance

instance nested_settles (limit levels : Nat) (production : Production) : Settles (nested limit levels production) := by
  induction levels generalizing production with
  | zero =>
      cases production with
      | expression => exact (inferInstance : Settles (fail (.tooDeep limit)))
      | operand => exact (inferInstance : Settles (signed (fail (.tooDeep limit)) (accesses (fail (.tooDeep limit)))))
  | succ levels ih =>
      have deeper := ih .expression
      have operand := ih .operand
      cases production with
      | expression =>
          exact (inferInstance : Settles (conditional (nested limit levels .expression) (nested limit levels .operand)))
      | operand =>
          exact (inferInstance : Settles (signed (nested limit levels .operand)
            (accesses (conditional (nested limit levels .expression) (nested limit levels .operand)))))

instance (limit : Nat) : Settles (Grammar.expression limit) := nested_settles limit limit .expression

end
end Grammar

-- A text that is an expression: with nothing behind it, it is read to its end.
def Spells (limit : Nat) (text : List Symbol) (e : Expression) : Prop :=
  ∃ tokens last, tokens.map Token.symbol = text ∧ last.kind = .endOfInput ∧
    expression limit (tokens ++ [last]) = ⟨.ok e, [last], []⟩

variable {limit : Nat} {text : List Symbol} {e : Expression} {tokens : List Token} {next : Token}

-- Wherever it stands, it is read as the expression, in front of whatever does not go on with one.
theorem Spells.read (spells : Spells limit text e) (written : tokens.map Token.symbol = text) (stops : Behind 0 next)
    (more : List Token) : expression limit (tokens ++ next :: more) = ⟨.ok e, next :: more, []⟩ := by
  obtain ⟨others, last, written', ended, ran⟩ := spells
  have there : expression limit (others ++ next :: more) = ⟨.ok e, next :: more, []⟩ := by
    obtain ⟨left, same, through⟩ := (Settles.settled others).through ⟨last, ended⟩ ran
    obtain rfl : left = [] := by simpa using same
    exact through next stops more
  have same : (others ++ next :: more).map Token.unplaced = (tokens ++ next :: more).map Token.unplaced := by
    rw [List.map_append, List.map_append, unplaced_of_symbols (written'.trans written.symm)]
  have tracks := Blind.tracks (p := expression limit) (others ++ next :: more)
  rw [same, Blind.tracks (p := expression limit) (tokens ++ next :: more), there] at tracks
  have suffix := Shrinks.suffix (p := expression limit) (tokens ++ next :: more)
  cases here : expression limit (tokens ++ next :: more) with
  | mk result rest reports =>
      rw [here] at tracks suffix
      obtain ⟨value, behind, none⟩ := Parsed.mk.inj tracks
      have length : rest.length = (next :: more).length := by
        simpa only [List.length_map] using congrArg List.length behind
      obtain rfl := List.map_eq_nil_iff.mp none
      obtain rfl : rest = next :: more :=
        (List.suffix_of_suffix_length_le suffix (List.suffix_append tokens _) length.le).eq_of_length length
      cases result with
      | error report => cases value
      | ok value' =>
          cases value
          rfl

-- It begins with no newline, and with no mark that closes or separates.
theorem Spells.begins (spells : Spells limit text e) :
    ∃ first behind, text = first :: behind ∧ first.Opens ∧ first.kind ≠ .endOfInput := by
  obtain ⟨tokens, last, rfl, ended, ran⟩ := spells
  have fruitful {token : Token} {rest : List Token} (same : tokens ++ [last] = token :: rest) (barren : Barren token) :
      False := by
    have refuses : Refuses token (expression limit) := inferInstance
    obtain ⟨report, rest', reports, failed⟩ := refuses.fails rest
    rw [same] at ran
    cases ran.symm.trans failed
  cases tokens with
  | nil => exact (fruitful rfl ⟨.inr (.inl ended)⟩).elim
  | cons token rest =>
      refine ⟨token.symbol, rest.map Token.symbol, rfl, ⟨fun newline => fruitful rfl ⟨.inl newline⟩, fun mark => ?_⟩, ?_⟩
      · by_contra closes
        obtain ⟨call, others⟩ := not_or.mp closes
        obtain ⟨array, object⟩ := not_or.mp others
        exact fruitful rfl ⟨.inr (.inr ⟨mark, call, array, object⟩)⟩
      · exact fun ended => fruitful rfl ⟨.inr (.inl ended)⟩

-- The tokens of a text, which stand nowhere.
def placed (text : List Symbol) : List Token := text.map fun symbol => ⟨symbol.kind, symbol.value, .nowhere⟩

theorem placed_symbols (text : List Symbol) : (placed text).map Token.symbol = text := by
  unfold placed
  rw [List.map_map]
  exact List.map_id text

-- Every regular expression has a text.
theorem Expression.Regular.spells {number : Float → Prop} (regular : Regular number e) (numeral : Float → String)
    (known : ∀ n, number n → Decimal.parse? (numeral n) = some n) (shallow : e.depth < limit) :
    Spells limit (e.symbols numeral) e := by
  have written := placed_symbols (e.symbols numeral)
  refine ⟨placed (e.symbols numeral), .endAt .nowhere, written, rfl, ?_⟩
  exact ((regular.reads known).enters limit _ (.endAt .nowhere) [] written (.ended rfl)).reaches shallow

end Charter.Source
