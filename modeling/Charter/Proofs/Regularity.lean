import Charter.Proofs.Numeral
import Charter.Proofs.Operand
import Charter.Proofs.Partition

/-!
Every expression that is read from a text is regular: its names and numbers are what the text holds, and an index
that is known has become a member.
-/

namespace Charter

-- A token that holds what its kind says.
structure Token.IsRead (token : Token) : Prop where
  numeral : token.kind = .number → IsNumeral token.value.toList
  free : token.kind = .identifier → IsWord token.value.toList ∧ token.value ∉ keywords

theorem Token.isRead_other {token : Token} (number : token.kind ≠ .number) (identifier : token.kind ≠ .identifier) :
    token.IsRead := ⟨fun same => absurd same number, fun same => absurd same identifier⟩

theorem Lexeme.isRead {text : List Char} {kind : TokenKind} {value : String} {anomaly : Option Anomaly}
    (lexeme : Lexeme text kind value anomaly) (position : Position) : Token.IsRead ⟨kind, value, position⟩ := by
  cases lexeme with
  | numeral form => exact ⟨fun _ => by rwa [String.toList_ofList], fun same => by cases same⟩
  | identifier form free => exact ⟨TokenKind.noConfusion, fun _ => ⟨by rwa [String.toList_ofList], free⟩⟩
  | _ => exact Token.isRead_other TokenKind.noConfusion TokenKind.noConfusion

theorem Lexed.isRead (source : String) : ∀ token ∈ (Lexed.ofSource source).tokens, token.IsRead := by
  obtain ⟨pieces, _, fitting, read⟩ := Lexed.ofCharacters_pieces [] source.toList
  have whole : Lexed.ofSource source = _ := read
  rw [whole]
  intro token member
  rcases List.mem_append.mp member with inside | last
  · obtain ⟨piece, present, told⟩ := List.mem_filterMap.mp inside
    obtain ⟨⟨kind, value⟩, read, rfl⟩ := Option.map_eq_some_iff.mp told
    have form := (fitting piece present).form
    rw [read] at form
    exact form.isRead _
  · cases List.mem_singleton.mp last
    exact Token.isRead_other TokenKind.noConfusion TokenKind.noConfusion

namespace Source
open Charter.Source.Parser Charter.Source.Expression

-- What a repetition carries on, and what it ends with.
def Turn.Each {σ α : Type} (state : σ → Prop) (value : α → Prop) : Turn σ α → Prop
  | .again next => state next
  | .done result => value result

variable {α β σ : Type} {known : Token → Prop} {p : Parser α} {next : α → Parser β} {good : α → Prop}
  {good' : β → Prop}

-- What is read from tokens of which something is known is good.
def Gives (known : Token → Prop) (p : Parser α) (good : α → Prop) : Prop :=
  ∀ tokens value, (∀ token ∈ tokens, known token) → (p tokens).result = .ok value → good value

namespace Gives

theorem trivial : Gives known p fun _ => True := fun _ _ _ _ => .intro

theorem imp {weaker : α → Prop} (gives : Gives known p good) (less : ∀ value, good value → weaker value) :
    Gives known p weaker :=
  fun tokens value each ran => less value (gives tokens value each ran)

theorem pure {value : α} (holds : good value) : Gives known (Pure.pure value) good := by
  intro tokens result _ ran
  cases ran
  exact holds

theorem failAt (position : Position) (fault : Fault) : Gives known (Parser.failAt position fault : Parser α) good := by
  intro tokens value _ ran
  cases ran

theorem fail (fault : Fault) : Gives known (Parser.fail fault : Parser α) good := by
  intro tokens value _ ran
  cases ran

-- Nothing is read behind a fault.
theorem fail_bind (fault : Fault) : Gives known (Parser.fail fault >>= next) good' := by
  intro tokens value _ ran
  cases ran

theorem bind [Shrinks p] (first : Gives known p good)
    (behind : ∀ value, good value → Gives known (next value) good') : Gives known (p >>= next) good' := by
  intro tokens result each ran
  have suffix := Shrinks.suffix (p := p) tokens
  cases parsed : p tokens with
  | mk outcome rest reports =>
      rw [parsed] at suffix
      cases outcome with
      | error report => rw [run_bind_error parsed] at ran; cases ran
      | ok value =>
          rw [run_bind_ok parsed] at ran
          have holds := first tokens value each (by rw [parsed])
          exact behind value holds rest result (fun token member => each token (suffix.subset member)) ran

-- Where nothing is asked of the first part.
theorem after [Shrinks p] (behind : ∀ value, Gives known (next value) good') : Gives known (p >>= next) good' :=
  trivial.bind fun value _ => behind value

theorem loop {step : σ → Parser (Turn σ α)} [∀ state, Shrinks (step state)] {kept : σ → Prop}
    (each : ∀ state, kept state → Gives known (step state) (Turn.Each kept good)) {state : σ} (start : kept state) :
    Gives known (Parser.loop step state) good := by
  intro tokens value read ran
  fun_induction Parser.loop step state tokens with
  | case1 => cases ran
  | case2 state tokens turn result ended =>
      cases ran
      exact each state start tokens (.done value) read ended
  | case3 state tokens turn next again shorter others ih =>
      have suffix := Shrinks.suffix (p := step state) tokens
      have holds := each state start tokens (.again next) read again
      exact ih holds (fun token member => read token (suffix.subset member)) ran
  | case4 => cases ran

theorem ite {c : Prop} [Decidable c] {q : Parser α} (yes : Gives known p good) (no : Gives known q good) :
    Gives known (if c then p else q) good := by
  split
  · exact yes
  · exact no

-- Behind the last token there is nothing but the end.
theorem current : Gives known Parser.current fun token => token.kind ≠ .endOfInput → known token := by
  intro tokens value each ran
  cases ran
  cases tokens with
  | nil => exact fun ended => absurd rfl ended
  | cons token rest => exact fun _ => each token List.mem_cons_self

end Gives

-- What is known of tokens makes sure of the names and numbers that they are read as.
structure Vouches (known : Token → Prop) (number : Float → Prop) : Prop where
  free : ∀ token, known token → token.kind = .identifier → IsWord token.value.toList ∧ token.value ∉ keywords
  numeral : ∀ token n, known token → token.kind = .number → Decimal.parse? token.value = some n → number n

theorem vouches_isRead : Vouches Token.IsRead IsUnsigned where
  free _ read := read.free
  numeral _ _ read kind := Decimal.isUnsigned_parse (read.numeral kind)

namespace Grammar
variable {expression operand plain : Parser Expression} {fine : Expression → Prop} {number : Float → Prop}

section Turns
set_option synthInstance.maxSize 100000
variable [Shrinks expression] [Shrinks operand]

instance (close : String) (items : List Expression) : Shrinks (sequenceTurn expression close items) := by
  unfold sequenceTurn; infer_instance

instance (pairs : List (String × Expression)) : Shrinks (entriesTurn expression pairs) := by
  unfold entriesTurn; infer_instance

instance (target : Expression) : Shrinks (accessTurn expression target) := by unfold accessTurn; infer_instance

end Turns

theorem gives_chainTurn [Shrinks operand] (level : Nat) (each : Gives known operand (Regular number))
    {left : Expression} (first : Regular number left) :
    Gives known (chainTurn level operand left) (Turn.Each (Regular number) (Regular number)) := by
  refine .after fun operator => ?_
  cases operator with
  | none => exact .pure first
  | some operator => exact .after fun _ => each.bind fun right second => .pure (Regular.binary operator first second)

theorem gives_chain [Shrinks operand] (level : Nat) (each : Gives known operand (Regular number)) :
    Gives known (chain level operand) (Regular number) := by
  rw [chain_eq]
  exact each.bind fun first start => .loop (fun left regular => gives_chainTurn level each regular) start

theorem gives_binary [Shrinks operand] (each : Gives known operand (Regular number)) :
    Gives known (binary operand) (Regular number) := by
  unfold binary
  repeat apply gives_chain
  exact each

theorem gives_conditional [Shrinks expression] [Shrinks operand] (whole : Gives known expression (Regular number))
    (each : Gives known operand (Regular number)) :
    Gives known (conditional expression operand) (Regular number) := by
  refine (gives_binary each).bind fun condition asked => .after fun choice => .ite ?_ (.pure asked)
  refine .after fun _ => whole.bind fun consequent yes => .after fun _ => .after fun _ => .after fun _ => ?_
  exact whole.bind fun alternate no => .pure (.conditional asked yes no)

theorem gives_signed [Shrinks operand] (each : Gives known operand (Regular number))
    (other : Gives known plain (Regular number)) : Gives known (signed operand plain) (Regular number) := by
  refine .after fun token => ?_
  split
  · next operator _ => exact .after fun _ => each.bind fun behind regular => .pure (.unary operator regular)
  · exact other

theorem gives_sequenceTurn [Shrinks expression] (close : String) (each : Gives known expression fine)
    {items : List Expression} (before : ∀ item ∈ items, fine item) :
    Gives known (sequenceTurn expression close items)
      (Turn.Each (∀ item ∈ ·, fine item) (∀ item ∈ ·, fine item)) := by
  refine .after fun _ => .after fun closes => .ite (.pure before) ?_
  refine each.bind fun item holds => .after fun _ => .after fun comma => .after fun closing => ?_
  refine .ite (.after fun _ => .fail_bind _) (.pure ?_)
  exact List.forall_mem_append.mpr ⟨before, List.forall_mem_singleton.mpr holds⟩

theorem gives_sequence [Shrinks expression] (close : String) (each : Gives known expression fine) :
    Gives known (sequence expression close) (∀ item ∈ ·, fine item) := by
  rw [sequence_eq]
  exact .loop (fun items before => gives_sequenceTurn close each before) (List.forall_mem_nil _)

theorem gives_entriesTurn [Shrinks expression] (each : Gives known expression fine) {pairs : List (String × Expression)}
    (before : ∀ pair ∈ pairs, fine pair.2) : Gives known (entriesTurn expression pairs)
      (Turn.Each (∀ pair ∈ ·, fine pair.2) (∀ pair ∈ ·, fine pair.2)) := by
  refine .after fun _ => .after fun closes => .ite (.pure before) ?_
  refine .after fun key => .after fun _ => .after fun _ => each.bind fun value holds => .after fun next => ?_
  refine .ite (.fail_bind _) (.pure ?_)
  exact List.forall_mem_append.mpr ⟨before, List.forall_mem_singleton.mpr holds⟩

theorem gives_entries [Shrinks expression] (each : Gives known expression fine) :
    Gives known (entries expression) (∀ pair ∈ ·, fine pair.2) := by
  rw [entries_eq]
  exact .after fun _ => .loop (fun pairs before => gives_entriesTurn each before) (List.forall_mem_nil _)

-- The parameters of a lambda are free words.

theorem parameterNames?_free (vouched : Vouches known number) {tokens rest : List Token} {names : List String}
    (each : ∀ token ∈ tokens, known token) (read : parameterNames? tokens = some (names, rest)) :
    ∀ name ∈ names, IsWord name.toList ∧ name ∉ keywords := by
  fun_induction parameterNames? tokens generalizing names with
  | case1 => cases read
  | case2 token rest _ => cases read; exact List.forall_mem_nil _
  | case3 => cases read
  | case4 token _ word mark others _ ih =>
      obtain ⟨first, behind⟩ := List.forall_mem_cons.mp each
      obtain ⟨⟨_, _⟩, inner, same⟩ := Option.map_eq_some_iff.mp read
      cases same
      exact List.forall_mem_cons.mpr
        ⟨vouched.free token first (beq_iff_eq.mp word), ih (List.forall_mem_cons.mp behind).2 inner⟩
  | case5 token _ word mark others _ _ =>
      cases read
      exact List.forall_mem_singleton.mpr
        (vouched.free token (List.forall_mem_cons.mp each).1 (beq_iff_eq.mp word))
  | case6 => cases read
  | case7 => cases read

theorem lambdaHead?_free (vouched : Vouches known number) {tokens rest : List Token} {names : List String}
    (each : ∀ token ∈ tokens, known token) (read : lambdaHead? tokens = some (names, rest)) :
    ∀ name ∈ names, IsWord name.toList ∧ name ∉ keywords := by
  obtain ⟨opening, others, arrow, rfl, -, inside, -⟩ := lambdaHead?_parts read
  exact parameterNames?_free vouched (List.forall_mem_cons.mp each).2 inside

theorem gives_lambdaParameters (vouched : Vouches known number) : Gives known lambdaParameters? fun found =>
    ∀ names, found = some names → ∀ name ∈ names, IsWord name.toList ∧ name ∉ keywords := by
  intro tokens found each ran names same
  subst same
  unfold lambdaParameters? at ran
  split at ran
  · next read =>
    cases ran
    exact lambdaHead?_free vouched each read
  · cases ran

theorem gives_lambda [Shrinks expression] (each : Gives known expression (Regular number)) {params : List String}
    (free : ∀ name ∈ params, IsWord name.toList ∧ name ∉ keywords) :
    Gives known (lambda expression params) (Regular number) :=
  .after fun _ => each.bind fun _ inside => .pure (.lambda free inside)

theorem gives_parenthesized (vouched : Vouches known number) [Shrinks expression]
    (each : Gives known expression (Regular number)) : Gives known (parenthesized expression) (Regular number) := by
  refine (gives_lambdaParameters vouched).bind fun found free => ?_
  cases found with
  | some params => exact gives_lambda each (free params rfl)
  | none =>
      refine .after fun _ => .after fun _ => each.bind fun inner holds => ?_
      exact .after fun _ => .after fun _ => .pure holds

theorem regular_keywordOperand {word : String} {operand : Expression} (known : keywordOperand word = some operand) :
    Regular number operand := by
  have literal : ∀ value : Literal, (∀ n, value ≠ .number n) → Regular number (.literal value) := fun value other =>
    .literal fun n same => absurd same (other n)
  have bound : ∀ name ∈ ["self", "this", "user", "context"], Regular number (.identifier name) := fun name listed =>
    .identifier (.inr listed)
  unfold keywordOperand at known
  split at known
  · cases known; exact literal _ fun _ => Literal.noConfusion
  · cases known; exact literal _ fun _ => Literal.noConfusion
  · cases known; exact literal _ fun _ => Literal.noConfusion
  · cases known; exact bound _ (by decide)
  · cases known; exact bound _ (by decide)
  · cases known; exact bound _ (by decide)
  · cases known; exact bound _ (by decide)
  · cases known

theorem gives_primary (vouched : Vouches known number) [Shrinks expression]
    (each : Gives known expression (Regular number)) : Gives known (primary expression) (Regular number) := by
  refine Gives.current.bind fun token read => ?_
  split
  · next kind =>
    refine .after fun _ => ?_
    split
    · next value parsed =>
      refine .pure (.literal fun n same => ?_)
      cases same
      exact vouched.numeral token value (read (by rw [kind]; exact TokenKind.noConfusion)) kind parsed
    · exact .failAt _ _
  · exact .after fun _ => .pure (.literal fun n same => by cases same)
  · split
    · next operand known => exact .after fun _ => .pure (regular_keywordOperand known)
    · exact .fail _
  · next kind =>
    have free := vouched.free token (read (by rw [kind]; exact TokenKind.noConfusion)) kind
    refine .after fun _ => .after fun arrow => .ite ?_ (.pure (.identifier (.inl free)))
    exact gives_lambda each (List.forall_mem_singleton.mpr free)
  · split
    · exact gives_parenthesized vouched each
    · exact .after fun _ => (gives_sequence "]" each).bind fun items holds => .pure (.array holds)
    · exact (gives_entries each).bind fun pairs holds => .pure (.object holds)
    · exact .fail _
  · exact .fail _

theorem regular_indexed {target key : Expression} (within : Regular number target) (asked : Regular number key) :
    Regular number (indexed target key) := by
  by_cases known : key.IsKnownIndex
  · obtain ⟨property, same⟩ := indexed_known target known
    rw [same]
    exact .member property within
  · rw [indexed_unknown known]
    exact .index within asked known

theorem gives_accessTurn [Shrinks expression] (each : Gives known expression (Regular number)) {target : Expression}
    (within : Regular number target) :
    Gives known (accessTurn expression target) (Turn.Each (Regular number) (Regular number)) := by
  refine .after fun point => .ite (.after fun property => .pure (.member property within)) ?_
  refine .after fun call => .ite ((gives_sequence ")" each).bind fun arguments holds => .pure (.call within holds)) ?_
  refine .after fun bracket => .ite (.after fun _ => each.bind fun key asked => ?_) (.pure within)
  exact .after fun _ => .after fun _ => .pure (regular_indexed within asked)

theorem gives_accesses (vouched : Vouches known number) [Shrinks expression]
    (each : Gives known expression (Regular number)) : Gives known (accesses expression) (Regular number) := by
  rw [accesses_eq]
  refine (gives_primary vouched each).bind fun first start => ?_
  exact .loop (fun target within => gives_accessTurn each within) start

theorem gives_nested (vouched : Vouches known number) (limit levels : Nat) (production : Production) :
    Gives known (nested limit levels production) (Regular number) := by
  induction levels generalizing production with
  | zero =>
      have deep : Gives known (fail (.tooDeep limit)) (Regular number) := .fail _
      cases production with
      | expression => exact deep
      | operand => exact gives_signed deep (gives_accesses vouched deep)
  | succ levels ih =>
      have whole := gives_conditional (ih .expression) (ih .operand)
      cases production with
      | expression => exact whole
      | operand => exact gives_signed (ih .operand) (gives_accesses vouched whole)

theorem gives_wholeExpression (vouched : Vouches known number) (limit : Nat) :
    Gives known (wholeExpression limit) (Regular number) := by
  refine .after fun _ => (gives_nested vouched limit limit .expression).bind fun result holds => ?_
  exact .after fun _ => .after fun next => .ite (.pure holds) (.fail _)

end Grammar

-- The end alone may be put behind the tokens.
theorem terminated_each (ended : ∀ position, known (.endAt position)) {tokens : List Token}
    (each : ∀ token ∈ tokens, known token) : ∀ token ∈ terminated tokens, known token := by
  unfold terminated
  split
  · split
    · exact each
    · exact List.forall_mem_append.mpr ⟨each, List.forall_mem_singleton.mpr (ended _)⟩
  · exact List.forall_mem_singleton.mpr (ended _)

theorem terminated_isRead {tokens : List Token} (each : ∀ token ∈ tokens, token.IsRead) :
    ∀ token ∈ terminated tokens, token.IsRead :=
  terminated_each (fun _ => Token.isRead_other TokenKind.noConfusion TokenKind.noConfusion) each

theorem Expression.regular_ofSource {source : String} {e : Expression} (read : ofSource source = .ok e) :
    e.Regular IsUnsigned := by
  unfold ofSource at read
  dsimp only at read
  split at read
  · cases read
  · split at read
    · next parsed =>
      cases read
      exact Grammar.gives_wholeExpression vouches_isRead _ _ _ (terminated_isRead (Lexed.isRead source)) parsed
    · cases read

end Source
end Charter
