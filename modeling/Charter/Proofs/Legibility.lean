import Charter.Proofs.Advance
import Charter.Proofs.LongestNumeral
import Charter.Proofs.Regularity

/-!
Numbers of a text can always be read. A production that is given what was read from a text tells of no number that it
cannot read: such a fault is told of by a primary expression alone, and there every number is a numeral.
`numbers_always_read` says so of every text.
-/

namespace Charter.Source
open Charter.Source.Parser

set_option synthInstance.maxSize 100000

-- A fault other than that of a number that cannot be read.
class Fault.Legible (fault : Fault) : Prop where
  other : ∀ value, fault ≠ .invalidNumber value

namespace Fault.Legible

instance expected (wanted : String) (found : Token) : Legible (.expected wanted found) := ⟨nofun⟩

instance unexpected (found : Token) (place : String) : Legible (.unexpected found place) := ⟨nofun⟩

instance unexpectedKeyword (word place : String) : Legible (.unexpectedKeyword word place) := ⟨nofun⟩

instance tooDeep (limit : Nat) : Legible (.tooDeep limit) := ⟨nofun⟩

instance trailing (value : String) : Legible (.trailing value) := ⟨nofun⟩

instance unterminated (what name : String) : Legible (.unterminated what name) := ⟨nofun⟩

instance notLiteral : Legible .notLiteral := ⟨nofun⟩

instance notDetails : Legible .notDetails := ⟨nofun⟩

instance notFlag : Legible .notFlag := ⟨nofun⟩

instance notConfiguration : Legible .notConfiguration := ⟨nofun⟩

instance unknownSeverity (word : String) : Legible (.unknownSeverity word) := ⟨nofun⟩

instance unknownConstraintField (field : String) : Legible (.unknownConstraintField field) := ⟨nofun⟩

instance missingExpression (constraint : String) : Legible (.missingExpression constraint) := ⟨nofun⟩

instance reserved (word what : String) : Legible (.reserved word what) := ⟨nofun⟩

instance stalled : Legible .stalled := ⟨nofun⟩

end Fault.Legible

-- No fault that is told is that of a number, neither one that was reported nor one in which reading ended.
structure Parsed.Legible {α : Type} (parsed : Parsed α) : Prop where
  reported : ∀ report ∈ parsed.reports, report.fault.Legible
  ending : ∀ report, parsed.result = .error report → report.fault.Legible

namespace Parsed.Legible
variable {α : Type}

theorem ok {value : α} {rest : List Token} {reports : List Report}
    (reported : ∀ report ∈ reports, report.fault.Legible) : Legible ⟨.ok value, rest, reports⟩ := ⟨reported, nofun⟩

theorem silent (value : α) (rest : List Token) : Legible ⟨.ok value, rest, []⟩ := .ok (List.forall_mem_nil _)

theorem prefixed {parsed : Parsed α} {reports : List Report} (later : parsed.Legible)
    (before : ∀ report ∈ reports, report.fault.Legible) : (parsed.prefixed reports).Legible :=
  ⟨List.forall_mem_append.mpr ⟨before, later.reported⟩, later.ending⟩

end Parsed.Legible

namespace Parser
variable {α β σ : Type} {p q : Parser α} {next : α → Parser β}

-- Behind the last token there is nothing but the end, which is no number.
theorem isRead_head {tokens : List Token} (read : ∀ token ∈ tokens, token.IsRead) : (head tokens).IsRead := by
  cases tokens with
  | nil => exact Token.isRead_other TokenKind.noConfusion TokenKind.noConfusion
  | cons token rest => exact read token List.mem_cons_self

-- Of tokens that were read from a text a production tells of no number.
class Legible (p : Parser α) : Prop where
  told : ∀ tokens, (∀ token ∈ tokens, token.IsRead) → (p tokens).Legible

namespace Legible

instance pure (value : α) : Legible (Pure.pure value : Parser α) := ⟨fun tokens _ => .silent value tokens⟩

instance bind [shrinks : Shrinks p] [first : Legible p] [behind : ∀ value, Legible (next value)] :
    Legible (p >>= next) := by
  constructor
  intro tokens read
  have told := first.told tokens read
  have suffix := shrinks.suffix tokens
  cases ran : p tokens with
  | mk result rest reports =>
      rw [ran] at told suffix
      cases result with
      | error report =>
          rw [run_bind_error ran]
          exact ⟨told.reported, fun _ ended => by cases ended; exact told.ending report rfl⟩
      | ok value =>
          rw [run_bind_ok ran]
          exact ((behind value).told rest fun token member => read token (suffix.subset member)).prefixed told.reported

theorem of_current {next : Token → Parser β} (each : ∀ token, token.IsRead → Legible (next token)) :
    Legible (current >>= next) :=
  ⟨fun tokens read => (each (head tokens) (isRead_head read)).told tokens read⟩

instance ite {c : Prop} [Decidable c] [yes : Legible p] [no : Legible q] : Legible (if c then p else q) := by
  split
  · exact yes
  · exact no

instance loop {step : σ → Parser (Turn σ α)} [shrinks : ∀ state, Shrinks (step state)]
    [each : ∀ state, Legible (step state)] (state : σ) : Legible (Parser.loop step state) := by
  constructor
  intro tokens
  fun_induction Parser.loop step state tokens with
  | case1 state tokens turn report failed =>
      intro read
      have told := (each state).told tokens read
      exact ⟨told.reported, fun _ ended => by cases ended; exact told.ending report failed⟩
  | case2 state tokens turn value ended =>
      intro read
      exact .ok ((each state).told tokens read).reported
  | case3 state tokens turn next again shorter others ih =>
      intro read
      have suffix := (shrinks state).suffix tokens
      exact (ih fun token member => read token (suffix.subset member)).prefixed ((each state).told tokens read).reported
  | case4 state tokens turn next again stalled =>
      intro read
      exact ⟨((each state).told tokens read).reported, fun _ ended => by cases ended; exact .stalled⟩

-- The fault from which reading goes on is one of those that were told.
instance recover [attempt : Legible p] (instead : α) (resume : List Token → List Token → List Token) :
    Legible (Parser.recover instead p resume) := by
  constructor
  intro tokens read
  have told := attempt.told tokens read
  unfold Parser.recover
  dsimp only
  split
  · exact told
  · next report failed =>
    exact .ok (List.forall_mem_append.mpr ⟨told.reported, List.forall_mem_singleton.mpr (told.ending report failed)⟩)

-- For parts that are not found as instances, such as choices by the form of a value.
theorem of_bind [Shrinks p] (first : Legible p) (behind : ∀ value, Legible (next value)) : Legible (p >>= next) := bind

instance current : Legible Parser.current := ⟨fun tokens _ => .silent _ tokens⟩

instance following : Legible Parser.following := ⟨fun tokens _ => .silent _ tokens⟩

instance advance : Legible Parser.advance := ⟨fun tokens _ => .silent _ (drop tokens)⟩

instance skipWhile (q : Token → Bool) : Legible (Parser.skipWhile q) := ⟨fun _ _ => .silent _ _⟩

instance skipNewlinesBeforeBrace : Legible Parser.skipNewlinesBeforeBrace := ⟨fun _ _ => .silent _ _⟩

instance failAt (position : Position) (fault : Fault) [legible : fault.Legible] :
    Legible (Parser.failAt position fault : Parser α) :=
  ⟨fun _ _ => ⟨List.forall_mem_nil _, fun _ ended => by cases ended; exact legible⟩⟩

instance fail (fault : Fault) [fault.Legible] : Legible (Parser.fail fault : Parser α) := by
  unfold Parser.fail; infer_instance

-- Nothing is read behind a fault.
instance fail_bind (fault : Fault) [fault.Legible] : Legible (Parser.fail fault >>= next) := by
  constructor
  intro tokens read
  have told := (inferInstance : Legible (Parser.fail fault : Parser α)).told tokens read
  exact ⟨told.reported, fun _ ended => by cases ended; exact told.ending _ rfl⟩

instance report (report : Report) [legible : report.fault.Legible] : Legible (Parser.report report) :=
  ⟨fun _ _ => .ok (List.forall_mem_singleton.mpr legible)⟩

instance isAt (kind : TokenKind) (value : String) : Legible (isAt kind value) := by unfold Parser.isAt; infer_instance

instance accept (kind : TokenKind) (value : String) : Legible (accept kind value) := by
  unfold Parser.accept; infer_instance

instance expect (kind : TokenKind) (value : String) : Legible (expect kind value) := by
  unfold Parser.expect; infer_instance

instance skipNewlines : Legible skipNewlines := by unfold Parser.skipNewlines; infer_instance

instance skipSeparators : Legible skipSeparators := by unfold Parser.skipSeparators; infer_instance

instance skipListSeparators : Legible skipListSeparators := by unfold Parser.skipListSeparators; infer_instance

instance name (what : String) : Legible (Parser.name what) := by
  unfold Parser.name
  refine of_bind inferInstance fun token => ?_
  split <;> infer_instance

instance declaredName (what : String) : Legible (Parser.declaredName what) := by
  unfold Parser.declaredName
  refine of_bind inferInstance fun token => ?_
  split <;> infer_instance

instance string (what : String) : Legible (Parser.string what) := by unfold Parser.string; infer_instance

instance nameOrString (what : String) : Legible (Parser.nameOrString what) := by
  unfold Parser.nameOrString; infer_instance

instance message? : Legible Parser.message? := by unfold Parser.message?; infer_instance

instance after? (kind : TokenKind) (mark : String) [Shrinks p] [Legible p] :
    Legible (Parser.after? kind mark p) := by
  unfold Parser.after?; infer_instance

end Legible
end Parser

namespace Grammar

section Expression
variable {expression operand plain : Parser Expression} [Shrinks expression] [Shrinks operand] [Shrinks plain]
  [Legible expression] [Legible operand] [Legible plain]

instance (level : Nat) : Legible (binaryOperator? level) := by
  unfold binaryOperator?
  refine .of_bind inferInstance fun token => ?_
  split <;> infer_instance

instance (level : Nat) (left : Expression) : Legible (chainTurn level operand left) := by
  unfold chainTurn
  refine .of_bind inferInstance fun operator => ?_
  split <;> infer_instance

instance (level : Nat) : Legible (chain level operand) := by rw [chain_eq]; infer_instance

instance : Legible (binary operand) := by unfold binary; infer_instance

instance : Legible (conditional expression operand) := by unfold conditional; infer_instance

instance : Legible (signed operand plain) := by
  unfold signed
  refine .of_bind inferInstance fun token => ?_
  split <;> infer_instance

instance (close : String) : Legible (sequence expression close) := by unfold sequence; infer_instance

instance : Legible (entries expression) := by unfold entries; infer_instance

instance : Legible lambdaParameters? := by
  constructor
  intro tokens _
  unfold lambdaParameters?
  split
  · exact .silent _ _
  · exact .silent _ _

instance (params : List String) : Legible (lambda expression params) := by unfold lambda; infer_instance

instance : Legible (parenthesized expression) := by
  unfold parenthesized
  refine .of_bind inferInstance fun params => ?_
  split <;> infer_instance

-- The one place where a number is read: there it is a numeral, so the other branch is not taken.
instance : Legible (primary expression) := by
  unfold primary
  refine .of_current fun token read => ?_
  split
  · next kind =>
    obtain ⟨n, parsed⟩ := Decimal.parse_isSome (read.numeral kind)
    rw [parsed]
    infer_instance
  · infer_instance
  · split <;> infer_instance
  · infer_instance
  · split <;> infer_instance
  · infer_instance

instance : Legible (accesses expression) := by unfold accesses; infer_instance

instance nested_legible (limit levels : Nat) (production : Production) :
    Legible (nested limit levels production) := by
  induction levels generalizing production with
  | zero =>
      cases production with
      | expression => exact (inferInstance : Legible (fail (.tooDeep limit)))
      | operand =>
          exact (inferInstance : Legible (signed (fail (.tooDeep limit)) (accesses (fail (.tooDeep limit)))))
  | succ levels ih =>
      have deeper := ih .expression
      have operand := ih .operand
      cases production with
      | expression =>
          exact (inferInstance : Legible
            (conditional (nested limit levels .expression) (nested limit levels .operand)))
      | operand =>
          exact (inferInstance : Legible (signed (nested limit levels .operand)
            (accesses (conditional (nested limit levels .expression) (nested limit levels .operand)))))

instance (limit : Nat) : Legible (Grammar.expression limit) := nested_legible limit limit .expression

instance (limit : Nat) : Legible (wholeExpression limit) := by unfold wholeExpression; infer_instance

end Expression

section Declaration
variable (limit : Nat)

instance (word : String) : Legible (keyword word) := by unfold keyword; infer_instance

instance {σ : Type} {separators unclosed : Parser Unit} {item : σ → Parser σ} [Shrinks separators] [Shrinks unclosed]
    [∀ state, Shrinks (item state)] [Legible separators] [Legible unclosed] [∀ state, Legible (item state)]
    (start : σ) : Legible (braced separators unclosed item start) := by
  unfold braced; infer_instance

instance (what name : String) : Legible (notEnded what name) := by unfold notEnded; infer_instance

instance {argument : Parser TypeRef} [Shrinks argument] [Legible argument] : Legible (typeForm argument) := by
  unfold typeForm; infer_instance

instance nestedType_legible (levels : Nat) : Legible (nestedType limit levels) := by
  induction levels with
  | zero => exact (inferInstance : Legible (typeForm (fail (.tooDeep limit))))
  | succ levels ih => exact (inferInstance : Legible (typeForm (nestedType limit levels)))

instance : Legible (type limit) := nestedType_legible limit limit

instance (modifiers : List Modifier) : Legible (leadingTurn modifiers) := by
  unfold leadingTurn
  refine .of_bind inferInstance fun token => ?_
  split <;> infer_instance

instance (modifiers : List Modifier) : Legible (trailingTurn modifiers) := by
  unfold trailingTurn
  refine .of_bind inferInstance fun token => ?_
  split <;> infer_instance

instance : Legible leadingModifiers := by rw [leadingModifiers_eq]; infer_instance

instance : Legible trailingModifiers := by rw [trailingModifiers_eq]; infer_instance

instance : Legible (property limit) := by unfold property; infer_instance

instance : Legible (computed limit) := by unfold computed; infer_instance

instance (kind : RelationshipKind) : Legible (relationship kind) := by unfold relationship; infer_instance

instance : Legible (literalValue limit) := by
  unfold literalValue
  refine .of_bind inferInstance fun value => ?_
  split <;> infer_instance

instance : Legible (literalList limit) := by unfold literalList; infer_instance

instance : Legible (transition limit) := by unfold transition; infer_instance

instance : Legible inlineSeverity? := by
  unfold inlineSeverity?
  refine .of_bind inferInstance fun token => .of_bind inferInstance fun next => ?_
  refine @Legible.ite _ _ _ _ _ ?_ inferInstance
  split <;> infer_instance

instance (fields : ConstraintFields) : Legible (constraintField limit fields) := by
  unfold constraintField
  refine .of_bind inferInstance fun start => .of_bind inferInstance fun key => .of_bind inferInstance fun _ => ?_
  split
  case h_1 | h_5 | h_7 =>
    refine .of_bind inferInstance fun value => ?_
    split <;> infer_instance
  all_goals infer_instance

instance (name : String) (severity : Option Enforcement) (position : Position) :
    Legible (constraintBlock limit name severity position) := by
  unfold constraintBlock
  refine .of_bind inferInstance fun _ => .of_bind inferInstance fun fields => ?_
  split <;> infer_instance

instance : Legible (constraint limit) := by unfold constraint; infer_instance

instance : Legible (parameter limit) := by unfold parameter; infer_instance

instance : Legible (parameters limit) := by unfold parameters; infer_instance

instance : Legible actionTarget := by unfold actionTarget; infer_instance

theorem action?_legible {word : String} {action : Parser (ActionKind × Option String × Expression)}
    (known : action? limit word = some action) : Legible action := by
  unfold action? at known
  split at known <;> cases known <;> infer_instance

instance (command : Command) : Legible (statement limit command) := by
  unfold statement
  refine .of_bind inferInstance fun token => @Legible.ite _ _ _ _ _ inferInstance ?_
  dsimp only
  split
  case h_4 =>
    split
    · next known =>
      have := action?_shrinks limit known
      have := action?_legible limit known
      infer_instance
    · infer_instance
  all_goals infer_instance

instance : Legible (command limit) := by unfold command; infer_instance

instance : Legible policyAction := by
  unfold policyAction
  refine .of_bind inferInstance fun token => @Legible.ite _ _ _ _ _ inferInstance ?_
  split <;> infer_instance

instance : Legible (policy limit) := by unfold policy; infer_instance

instance : Legible (configuration limit) := by
  unfold configuration
  refine .of_bind inferInstance fun _ => .of_bind inferInstance fun _ => @Legible.ite _ _ _ _ _ ?_ inferInstance
  refine .of_bind inferInstance fun value => ?_
  split <;> infer_instance

instance (entity : String) : Legible (entityStore limit entity) := by unfold entityStore; infer_instance

instance : Legible (store limit) := by unfold store; infer_instance

instance (fields : List EventField) : Legible (eventField limit fields) := by unfold eventField; infer_instance

instance : Legible (event limit) := by unfold event; infer_instance

instance (entity : Entity) : Legible (entityMember limit entity) := by
  unfold entityMember
  refine .of_bind inferInstance fun token => ?_
  split
  case h_9 => split <;> infer_instance
  all_goals infer_instance

instance : Legible (entity limit) := by unfold entity; infer_instance

instance (steps : List FlowStep) : Legible (flowStep limit steps) := by unfold flowStep; infer_instance

instance : Legible (flow limit) := by unfold flow; infer_instance

instance : Legible (effect limit) := by unfold effect; infer_instance

instance : Legible exposure := by unfold exposure; infer_instance

instance : Legible dottedPath := by unfold dottedPath; infer_instance

instance (composition : Composition) : Legible (compositionItem composition) := by
  unfold compositionItem; infer_instance

instance : Legible composition := by unfold composition; infer_instance

instance (m : Module) : Legible (moduleMember limit m) := by
  unfold moduleMember
  refine .of_bind inferInstance fun token => ?_
  split <;> infer_instance

instance : Legible (module limit) := by unfold module; infer_instance

instance (program : Program) : Legible (declaration limit program) := by
  unfold declaration
  refine .of_bind inferInstance fun token => @Legible.ite _ _ _ _ _ inferInstance ?_
  dsimp only
  split <;> infer_instance

instance : Legible (program limit) := by unfold program; infer_instance

end Declaration

-- Where a number stands, a primary expression is its value.
theorem primary_number {tokens : List Token} (read : (head tokens).IsRead) (number : (head tokens).kind = .number) :
    ∃ n, Decimal.parse? (head tokens).value = some n ∧
      ∀ expression, primary expression tokens = ⟨.ok (.literal (.number n)), drop tokens, []⟩ := by
  obtain ⟨n, parsed⟩ := Decimal.parse_isSome (read.numeral number)
  refine ⟨n, parsed, fun expression => ?_⟩
  unfold primary
  rw [run_current_bind, number]
  dsimp only
  rw [parsed]
  rfl

end Grammar

/-! No other message reads like the one about a number that cannot be read: it alone begins with an I. -/

section Message

def BeginsWith (letter : Char) (text : String) : Prop := text.toList.head? = some letter

theorem BeginsWith.append {letter : Char} {first : String} (begins : BeginsWith letter first) (rest : String) :
    BeginsWith letter (first ++ rest) := by
  unfold BeginsWith at begins ⊢
  rw [String.toList_append, List.head?_append, begins]
  rfl

-- The first letter of the message of a fault.
def Fault.letter : Fault → Char
  | invalidNumber _ => 'I'
  | expected .. | tooDeep _ | notLiteral | notConfiguration => 'E'
  | unexpected .. | unexpectedKeyword .. | trailing _ | unterminated .. | unknownSeverity _
  | unknownConstraintField _ => 'U'
  | notDetails | missingExpression _ => 'C'
  | notFlag => '\x27'
  | reserved .. => 'R'
  | stalled => 'N'

theorem Fault.message_begins (fault : Fault) : BeginsWith fault.letter fault.message := by
  cases fault <;> dsimp only [letter, message] <;> (repeat with_reducible apply BeginsWith.append) <;> rfl

theorem BeginsWith.ne {letter : Char} {text : String} (begins : BeginsWith letter text) (other : letter ≠ 'I')
    (value : String) : text ≠ (Fault.invalidNumber value).message := by
  rintro rfl
  exact other (Option.some.inj (begins.symm.trans (Fault.invalidNumber value).message_begins))

theorem Fault.Legible.letter {fault : Fault} (legible : fault.Legible) : fault.letter ≠ 'I' := by
  cases fault with
  | invalidNumber value => exact absurd rfl (legible.other value)
  | _ => exact ne_of_beq_false rfl

theorem Fault.Legible.message {fault : Fault} (legible : fault.Legible) (value : String) :
    fault.message ≠ (invalidNumber value).message := fault.message_begins.ne legible.letter value

theorem anomaly_message (anomaly : Anomaly) (value : String) :
    anomaly.message ≠ (Fault.invalidNumber value).message := by
  have begins : BeginsWith 'U' anomaly.message := by
    cases anomaly <;> dsimp only [Anomaly.message] <;> (repeat with_reducible apply BeginsWith.append) <;> rfl
  exact begins.ne (by decide) value

theorem anomalies_message {lexed : Lexed} {policy : AnomalyPolicy} {d : Diagnostic}
    (member : d ∈ lexed.diagnostics policy) (value : String) : d.message ≠ (Fault.invalidNumber value).message := by
  unfold Lexed.diagnostics at member
  split at member
  · cases member
  · obtain ⟨⟨anomaly, place⟩, _, rfl⟩ := List.mem_map.mp member
    exact anomaly_message anomaly value

end Message

theorem Program.ofTokens_legible (limit : Nat) {tokens : List Token} (read : ∀ token ∈ tokens, token.IsRead) :
    ∀ report ∈ (ofTokens limit tokens).2, report.fault.Legible := by
  have told := (inferInstance : Legible (Grammar.program limit)).told _ (terminated_isRead read)
  unfold ofTokens
  dsimp only
  split
  · exact told.reported
  · next report failed =>
    exact List.forall_mem_append.mpr ⟨told.reported, List.forall_mem_singleton.mpr (told.ending report failed)⟩

theorem Document.legible (policy : AnomalyPolicy) (limit : Nat) (source value : String) :
    ∀ d ∈ (ofSource policy limit source).diagnostics, d.message ≠ (Fault.invalidNumber value).message := by
  refine List.forall_mem_append.mpr ⟨fun d member => anomalies_message member value, List.forall_mem_map.mpr ?_⟩
  intro report member
  exact (Program.ofTokens_legible limit (Lexed.isRead source) report member).message value

theorem Expression.legible {source : String} {d : Diagnostic} (failed : ofSource source = .error d) (value : String) :
    d.message ≠ (Fault.invalidNumber value).message := by
  unfold ofSource at failed
  dsimp only at failed
  split at failed
  · next first others told =>
    cases failed
    exact anomalies_message (told ▸ List.mem_cons_self) value
  · split at failed
    · cases failed
    · next report ended =>
      cases failed
      have told := (inferInstance : Legible (Grammar.wholeExpression defaultNesting)).told _
        (terminated_isRead (Lexed.isRead source))
      exact (told.ending report ended).message value

-- Every number of a text is the longest numeral at its place in the text. Wherever one is read in an expression it is
-- a number, and nothing that is told of a text or of an expression is about a number that cannot be read.
theorem numbers_always_read (source : String) :
    (∃ pieces, Piece.Tile 0 pieces source.toList.length ∧
      (Lexed.ofSource source).tokens =
        pieces.filterMap (Piece.token? source.toList) ++ [.endAt (.behind source.toList)] ∧
      ∀ piece ∈ pieces, ∀ value, piece.token = some (.number, value) →
        value.toList = piece.text source.toList ∧
          IsLongestNumeral value.toList (source.toList.drop piece.start)) ∧
    (∀ rest, rest <:+ terminated (Lexed.ofSource source).tokens → (head rest).kind = .number →
      ∃ n, Decimal.parse? (head rest).value = some n ∧
        ∀ expression, Grammar.primary expression rest = ⟨.ok (.literal (.number n)), drop rest, []⟩) ∧
    (∀ policy limit, ∀ d ∈ (Document.ofSource policy limit source).diagnostics, ∀ value,
      d.message ≠ (Fault.invalidNumber value).message) ∧
    ∀ d, Expression.ofSource source = .error d → ∀ value, d.message ≠ (Fault.invalidNumber value).message := by
  refine ⟨?_, fun rest suffix number => ?_, fun policy limit d member value =>
    Document.legible policy limit source value d member, fun d failed => Expression.legible failed⟩
  · obtain ⟨pieces, tiled, steps, read⟩ := Lexed.ofCharacters_steps [] source.toList
    have whole : Lexed.ofSource source = _ := read
    rw [whole]
    exact ⟨pieces, tiled, rfl, fun piece present value => (steps piece present).numeral⟩
  · have read := terminated_isRead (Lexed.isRead source)
    exact Grammar.primary_number (isRead_head fun token member => read token (suffix.subset member)) number

-- A mark without digits behind it is no exponent: the number ends in front of it.
theorem number_before_mark_read :
    let tokens := terminated (Lexed.ofSource "4e-x").tokens
    (head tokens).kind = .number ∧ (head tokens).value = "4" ∧ ∃ n, Decimal.parse? "4" = some n ∧
      ∀ expression, Grammar.primary expression tokens = ⟨.ok (.literal (.number n)), drop tokens, []⟩ := by
  intro tokens
  have kind : (head tokens).kind = .number := by decide +kernel
  have value : (head tokens).value = "4" := by decide +kernel
  exact ⟨kind, value, value ▸ (numbers_always_read "4e-x").2.1 tokens (List.suffix_refl tokens) kind⟩

end Charter.Source
