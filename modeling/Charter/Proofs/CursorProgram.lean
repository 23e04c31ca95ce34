import Charter.Proofs.Cursor

/-!
The grammar as a script, and what comes of running it: a text is read to its end with the cursor inside of it all
the time, every turn of every list moves the cursor on, and no level stays open behind a declaration.
-/

namespace Charter.Source
open Charter.Source.Parser

set_option synthInstance.maxSize 100000

-- A production with the script that carries it out where `depth` levels are open.
class Scripted (limit depth : Nat) {α : Type} (p : Parser α) where
  script : Script α
  carries : ∀ {tokens}, Terminated tokens → depth ≤ limit → Carries limit depth tokens (script.run limit tokens) p

namespace Scripted
variable {limit depth : Nat} {α β σ : Type} {p q : Parser α} {next : α → Parser β}

instance pure (value : α) : Scripted limit depth (Pure.pure value : Parser α) := ⟨.pure value, fun _ _ => .pure value⟩

instance bind [first : Scripted limit depth p] [behind : ∀ value, Scripted limit depth (next value)] :
    Scripted limit depth (p >>= next) :=
  ⟨.bind first.script fun value => (behind value).script,
    fun ended fits => .bind (first.carries ended fits) fun value => (behind value).carries ended fits⟩

instance loop {step : σ → Parser (Turn σ α)} [each : ∀ state, Scripted limit depth (step state)]
    [∀ state, Advances (step state)] (state : σ) : Scripted limit depth (Parser.loop step state) :=
  ⟨.loop (fun state => (each state).script) state,
    fun ended fits => .loop ended (fun state => (each state).carries ended fits) state⟩

instance ite {c : Prop} [Decidable c] [yes : Scripted limit depth p] [no : Scripted limit depth q] :
    Scripted limit depth (if c then p else q) := by
  split
  · exact yes
  · exact no

instance current : Scripted limit depth Parser.current := ⟨.current, fun _ _ => .current⟩

instance following : Scripted limit depth Parser.following := ⟨.following, fun _ _ => .following⟩

instance advance : Scripted limit depth Parser.advance := ⟨.advance, fun _ fits => .advance fits⟩

instance failAt (position : Position) (fault : Fault) :
    Scripted limit depth (Parser.failAt position fault : Parser α) :=
  ⟨.failAt position fault, fun _ _ => .failAt position fault⟩

instance report (told : Report) : Scripted limit depth (Parser.report told) := ⟨.report told, fun _ _ => .report told⟩

instance tentatively {look : Parser (Option α)} [looked : Scripted limit depth look] :
    Scripted limit depth (Parser.tentatively look) :=
  ⟨.tentatively looked.script, fun ended fits => .tentatively fits (looked.carries ended fits)⟩

-- Only declarations are recovered from, and no level is open around them.
instance recover [whole : Scripted limit 0 p] (instead : α) (insideBlock : Bool) :
    Scripted limit 0 (Parser.recover instead p (Grammar.resume insideBlock)) :=
  ⟨.recover instead insideBlock whole.script, fun ended fits => .recover (whole.carries ended fits)⟩

@[reducible] def deeper (open' : depth < limit) (whole : Scripted limit (depth + 1) p) : Scripted limit depth p :=
  ⟨.deeper whole.script, fun ended _ => .deeper open' (whole.carries ended open')⟩

@[reducible] def congr (same : ∀ tokens, Terminated tokens → p tokens = q tokens) (whole : Scripted limit depth q) :
    Scripted limit depth p :=
  ⟨whole.script, fun ended fits => .congr ended same (whole.carries ended fits)⟩

/-! The rules for parts that are not found as instances. -/

@[reducible] def of_bind (first : Scripted limit depth p) (behind : ∀ value, Scripted limit depth (next value)) :
    Scripted limit depth (p >>= next) := bind

@[reducible] def of_loop {step : σ → Parser (Turn σ α)} (each : ∀ state, Scripted limit depth (step state))
    (advances : ∀ state, Advances (step state)) (state : σ) : Scripted limit depth (Parser.loop step state) :=
  loop state

instance fail (fault : Fault) : Scripted limit depth (Parser.fail fault : Parser α) := by
  unfold Parser.fail; infer_instance

-- Nothing is read behind a fault.
instance fail_bind (fault : Fault) : Scripted limit depth (Parser.fail fault >>= next) :=
  congr (q := Parser.fail fault) (fun _ _ => rfl) inferInstance

-- Where all levels are open, what stands inside of another one is not begun.
@[reducible] def full : Scripted limit limit (Parser.fail (.tooDeep limit) : Parser α) :=
  ⟨.deeper (.failAt .nowhere (.tooDeep limit)), fun _ _ => .deeper_full⟩

instance isAt (kind : TokenKind) (value : String) : Scripted limit depth (Parser.isAt kind value) := by
  unfold Parser.isAt; infer_instance

instance accept (kind : TokenKind) (value : String) : Scripted limit depth (Parser.accept kind value) := by
  unfold Parser.accept; infer_instance

instance expect (kind : TokenKind) (value : String) : Scripted limit depth (Parser.expect kind value) := by
  unfold Parser.expect; infer_instance

@[reducible] def skipWhile {q : Token → Bool} (inner : ∀ token, q token = true → Inner token.kind) :
    Scripted limit depth (Parser.skipWhile q) := by
  have advances := fun state => skipTurn_advances inner state
  refine congr (fun tokens ended => skipWhile_eq inner ended) (of_loop (fun _ => ?_) advances ())
  unfold skipTurn
  infer_instance

instance skipNewlines : Scripted limit depth Parser.skipNewlines := skipWhile fun _ => isNewline_inner

instance skipSeparators : Scripted limit depth Parser.skipSeparators :=
  skipWhile fun _ => isSeparator_inner

instance skipListSeparators : Scripted limit depth Parser.skipListSeparators :=
  skipWhile fun _ => isListSeparator_inner

instance skipNewlinesBeforeBrace : Scripted limit depth Parser.skipNewlinesBeforeBrace := by
  have : Scripted limit depth braceAhead? := by unfold braceAhead?; infer_instance
  exact congr (fun tokens _ => congrFun skipNewlinesBeforeBrace_eq tokens) inferInstance

instance lambdaParameters? : Scripted limit depth Grammar.lambdaParameters? := by
  have turn (names : List String) : Scripted limit depth (scanTurn names) := by unfold scanTurn; infer_instance
  have arrow (found : Option (List String)) : Scripted limit depth (scanArrow found) := by
    unfold scanArrow
    split <;> infer_instance
  have : Scripted limit depth scanParameters := by unfold scanParameters; infer_instance
  exact congr (fun tokens ended => lambdaParameters?_eq ended) inferInstance

instance name (what : String) : Scripted limit depth (Parser.name what) := by
  unfold Parser.name
  refine of_bind inferInstance fun token => ?_
  split <;> infer_instance

instance declaredName (what : String) : Scripted limit depth (Parser.declaredName what) := by
  unfold Parser.declaredName
  refine of_bind inferInstance fun token => ?_
  split <;> infer_instance

instance string (what : String) : Scripted limit depth (Parser.string what) := by unfold Parser.string; infer_instance

instance nameOrString (what : String) : Scripted limit depth (Parser.nameOrString what) := by
  unfold Parser.nameOrString; infer_instance

instance message? : Scripted limit depth Parser.message? := by unfold Parser.message?; infer_instance

instance after? (kind : TokenKind) (mark : String) [Scripted limit depth p] :
    Scripted limit depth (Parser.after? kind mark p) := by
  unfold Parser.after?; infer_instance

end Scripted

namespace Grammar

section Expression
variable {limit depth : Nat} {expression operand plain : Parser Expression} [Shrinks expression] [Shrinks operand]
  [Consumes expression] [Consumes operand] [Scripted limit depth expression] [Scripted limit depth operand]
  [Scripted limit depth plain]

instance (level : Nat) : Scripted limit depth (binaryOperator? level) := by
  unfold binaryOperator?
  refine .of_bind inferInstance fun token => ?_
  split <;> infer_instance

instance (level : Nat) : Scripted limit depth (chain level operand) := by
  have turn (left : Expression) : Scripted limit depth (chainTurn level operand left) := by
    unfold chainTurn
    refine .of_bind inferInstance fun operator => ?_
    split <;> infer_instance
  rw [chain_eq]
  infer_instance

instance : Scripted limit depth (binary operand) := by unfold binary; infer_instance

instance : Scripted limit depth (conditional expression operand) := by unfold conditional; infer_instance

instance : Scripted limit depth (signed operand plain) := by
  unfold signed
  refine .of_bind inferInstance fun token => ?_
  split <;> infer_instance

instance (close : String) : Scripted limit depth (sequence expression close) := by unfold sequence; infer_instance

instance : Scripted limit depth (entries expression) := by unfold entries; infer_instance

instance (params : List String) : Scripted limit depth (lambda expression params) := by unfold lambda; infer_instance

instance : Scripted limit depth (parenthesized expression) := by
  unfold parenthesized
  refine .of_bind inferInstance fun params => ?_
  split <;> infer_instance

instance : Scripted limit depth (primary expression) := by
  unfold primary
  refine .of_bind inferInstance fun token => ?_
  split
  · refine .of_bind inferInstance fun _ => ?_
    split <;> infer_instance
  · infer_instance
  · split <;> infer_instance
  · infer_instance
  · split <;> infer_instance
  · infer_instance

instance : Scripted limit depth (accesses expression) := by unfold accesses; infer_instance

-- With `levels` left, the others are open. An expression opens one more level, and so does what stands behind a
-- unary operator.
@[reducible] def nestedScripted (limit : Nat) : (levels depth : Nat) → depth + levels = limit →
    (production : Production) → Scripted limit depth (nested limit levels production)
  | 0, depth, open', .expression => by
    obtain rfl : depth = limit := open'
    exact .full
  | 0, depth, open', .operand => by
    obtain rfl : depth = limit := open'
    have : Scripted depth depth (fail (.tooDeep depth) : Parser Expression) := .full
    exact (inferInstance : Scripted depth depth (signed (fail (.tooDeep depth)) (accesses (fail (.tooDeep depth)))))
  | levels + 1, depth, open', .expression => by
    have deeper := nestedScripted limit levels (depth + 1) (by omega) .expression
    have operand := nestedScripted limit levels (depth + 1) (by omega) .operand
    exact .deeper (by omega) (inferInstance :
      Scripted limit (depth + 1) (conditional (nested limit levels .expression) (nested limit levels .operand)))
  | levels + 1, depth, open', .operand => by
    have inner := nestedScripted limit levels (depth + 1) (by omega) .operand
    have operand : Scripted limit depth (nested limit levels .operand) := .deeper (by omega) inner
    have deeper := nestedScripted limit levels (depth + 1) (by omega) .expression
    have expression :
        Scripted limit depth (conditional (nested limit levels .expression) (nested limit levels .operand)) :=
      .deeper (by omega) inferInstance
    exact (inferInstance : Scripted limit depth (signed (nested limit levels .operand)
      (accesses (conditional (nested limit levels .expression) (nested limit levels .operand)))))

instance (limit : Nat) : Scripted limit 0 (Grammar.expression limit) :=
  nestedScripted limit limit 0 (Nat.zero_add limit) .expression

end Expression

section Declaration
variable (limit : Nat)

instance (word : String) : Scripted limit 0 (keyword word) := by unfold keyword; infer_instance

instance {σ : Type} {separators unclosed : Parser Unit} {item : σ → Parser σ} [Scripted limit 0 separators]
    [Scripted limit 0 unclosed] [∀ state, Scripted limit 0 (item state)] [Shrinks separators] [Shrinks unclosed]
    [∀ state, Consumes (item state)] (start : σ) : Scripted limit 0 (braced separators unclosed item start) := by
  unfold braced; infer_instance

instance (what name : String) : Scripted limit 0 (notEnded what name) := by unfold notEnded; infer_instance

instance {depth : Nat} {argument : Parser TypeRef} [Scripted limit depth argument] :
    Scripted limit depth (typeForm argument) := by
  unfold typeForm; infer_instance

-- The argument of a type stands one level further down.
@[reducible] def nestedTypeScripted : (levels depth : Nat) → depth + levels = limit →
    Scripted limit depth (nestedType limit levels)
  | 0, depth, open' => by
    obtain rfl : depth = limit := open'
    have : Scripted depth depth (fail (.tooDeep depth) : Parser TypeRef) := .full
    exact (inferInstance : Scripted depth depth (typeForm (fail (.tooDeep depth))))
  | levels + 1, depth, open' => by
    have inner := nestedTypeScripted levels (depth + 1) (by omega)
    have argument : Scripted limit depth (nestedType limit levels) := .deeper (by omega) inner
    exact (inferInstance : Scripted limit depth (typeForm (nestedType limit levels)))

instance : Scripted limit 0 (type limit) := nestedTypeScripted limit limit 0 (Nat.zero_add limit)

instance : Scripted limit 0 leadingModifiers := by
  have turn (modifiers : List Modifier) : Scripted limit 0 (leadingTurn modifiers) := by
    unfold leadingTurn
    refine .of_bind inferInstance fun token => ?_
    split <;> infer_instance
  rw [leadingModifiers_eq]
  infer_instance

instance : Scripted limit 0 trailingModifiers := by
  have turn (modifiers : List Modifier) : Scripted limit 0 (trailingTurn modifiers) := by
    unfold trailingTurn
    refine .of_bind inferInstance fun token => ?_
    split <;> infer_instance
  rw [trailingModifiers_eq]
  infer_instance

instance : Scripted limit 0 (property limit) := by unfold property; infer_instance

instance : Scripted limit 0 (computed limit) := by unfold computed; infer_instance

instance (kind : RelationshipKind) : Scripted limit 0 (relationship kind) := by unfold relationship; infer_instance

instance : Scripted limit 0 (literalValue limit) := by
  unfold literalValue
  refine .of_bind inferInstance fun value => ?_
  split <;> infer_instance

instance : Scripted limit 0 (literalList limit) := by unfold literalList; infer_instance

instance : Scripted limit 0 (transition limit) := by unfold transition; infer_instance

instance : Scripted limit 0 inlineSeverity? := by
  unfold inlineSeverity?
  refine .of_bind inferInstance fun token => .of_bind inferInstance fun next => ?_
  refine @Scripted.ite _ _ _ _ _ _ _ ?_ inferInstance
  split <;> infer_instance

instance (fields : ConstraintFields) : Scripted limit 0 (constraintField limit fields) := by
  unfold constraintField
  refine .of_bind inferInstance fun start => .of_bind inferInstance fun key => .of_bind inferInstance fun _ => ?_
  split
  case h_1 | h_5 | h_7 =>
    refine .of_bind inferInstance fun value => ?_
    split <;> infer_instance
  all_goals infer_instance

instance (name : String) (severity : Option Enforcement) (position : Position) :
    Scripted limit 0 (constraintBlock limit name severity position) := by
  unfold constraintBlock
  refine .of_bind inferInstance fun _ => .of_bind inferInstance fun fields => ?_
  split <;> infer_instance

instance : Scripted limit 0 (constraint limit) := by unfold constraint; infer_instance

instance : Scripted limit 0 (parameter limit) := by unfold parameter; infer_instance

instance : Scripted limit 0 (parameters limit) := by unfold parameters; infer_instance

instance : Scripted limit 0 actionTarget := by unfold actionTarget; infer_instance

@[reducible] def actionScripted {word : String} {action : Parser (ActionKind × Option String × Expression)}
    (known : action? limit word = some action) : Scripted limit 0 action := by
  unfold action? at known
  split at known <;> cases known <;> infer_instance

instance (command : Command) : Scripted limit 0 (statement limit command) := by
  unfold statement
  refine .of_bind inferInstance fun token => @Scripted.ite _ _ _ _ _ _ _ inferInstance ?_
  dsimp only
  split
  case h_4 =>
    split
    · next known =>
      have := actionScripted limit known
      infer_instance
    · infer_instance
  all_goals infer_instance

instance : Scripted limit 0 (command limit) := by unfold command; infer_instance

instance : Scripted limit 0 policyAction := by
  unfold policyAction
  refine .of_bind inferInstance fun token => @Scripted.ite _ _ _ _ _ _ _ inferInstance ?_
  split <;> infer_instance

instance : Scripted limit 0 (policy limit) := by unfold policy; infer_instance

instance : Scripted limit 0 (configuration limit) := by
  unfold configuration
  refine .of_bind inferInstance fun _ => .of_bind inferInstance fun _ => @Scripted.ite _ _ _ _ _ _ _ ?_ inferInstance
  refine .of_bind inferInstance fun value => ?_
  split <;> infer_instance

instance (entity : String) : Scripted limit 0 (entityStore limit entity) := by unfold entityStore; infer_instance

instance : Scripted limit 0 (store limit) := by unfold store; infer_instance

instance (fields : List EventField) : Scripted limit 0 (eventField limit fields) := by unfold eventField; infer_instance

instance : Scripted limit 0 (event limit) := by unfold event; infer_instance

instance (entity : Entity) : Scripted limit 0 (entityMember limit entity) := by
  unfold entityMember
  refine .of_bind inferInstance fun token => ?_
  split
  case h_9 => split <;> infer_instance
  all_goals infer_instance

instance : Scripted limit 0 (entity limit) := by unfold entity; infer_instance

instance (steps : List FlowStep) : Scripted limit 0 (flowStep limit steps) := by unfold flowStep; infer_instance

instance : Scripted limit 0 (flow limit) := by unfold flow; infer_instance

instance : Scripted limit 0 (effect limit) := by unfold effect; infer_instance

instance : Scripted limit 0 exposure := by unfold exposure; infer_instance

instance : Scripted limit 0 dottedPath := by unfold dottedPath; infer_instance

instance (composition : Composition) : Scripted limit 0 (compositionItem composition) := by
  unfold compositionItem; infer_instance

instance : Scripted limit 0 composition := by unfold composition; infer_instance

instance (m : Module) : Scripted limit 0 (moduleMember limit m) := by
  unfold moduleMember
  refine .of_bind inferInstance fun token => ?_
  split <;> infer_instance

instance : Scripted limit 0 (module limit) := by
  have turn (name : String) (m : Module) : Scripted limit 0 (moduleTurn limit name m) := by
    unfold moduleTurn; infer_instance
  rw [module_eq]
  infer_instance

instance (program : Program) : Scripted limit 0 (declaration limit program) := by
  unfold declaration
  refine .of_bind inferInstance fun token => @Scripted.ite _ _ _ _ _ _ _ inferInstance ?_
  dsimp only
  split <;> infer_instance

instance : Scripted limit 0 (Grammar.program limit) := by
  have turn (program : Program) : Scripted limit 0 (programTurn limit program) := by
    unfold programTurn; infer_instance
  rw [program_eq]
  infer_instance

end Declaration
end Grammar

-- The grammar of a text, as a script.
def programScript (limit : Nat) : Script Program := Scripted.script limit 0 (Grammar.program limit)

-- What it is to get on with a text: a turn over the text is done at its end, or asks for another with fewer tokens
-- left, a turn over a module leaves fewer tokens whether it is the last or not, and the run of the whole grammar, which
-- does what the grammar does, comes to the end and is sound on its way, with no level open.
structure Progresses (limit : Nat) (text : List Token) : Prop where
  text_turn : ∀ program tokens, tokens <:+ text →
    (∃ rest, Grammar.programTurn limit program tokens = ⟨.ok (.done program), rest, []⟩ ∧
      (head rest).kind = .endOfInput) ∨
    ∃ next rest reports, Grammar.programTurn limit program tokens = ⟨.ok (.again next), rest, reports⟩ ∧
      rest <:+ tokens ∧ rest.length < tokens.length
  module_turn : ∀ name m tokens turn, tokens <:+ text → (Grammar.moduleTurn limit name m tokens).result = .ok turn →
    (Grammar.moduleTurn limit name m tokens).rest.length < tokens.length
  whole_run : ∃ program cursor reports marks,
    (programScript limit).run limit text {} = (.ok program, ⟨cursor, 0, reports, marks⟩) ∧
      Grammar.program limit text = ⟨.ok program, text.drop cursor, reports⟩ ∧
      cursor < text.length ∧ (Reader.tokenAt text cursor).kind = .endOfInput ∧
      ∀ mark ∈ marks, mark.Sound limit text

theorem reading_progresses (limit : Nat) (tokens : List Token) : Progresses limit (terminated tokens) := by
  obtain ⟨ended, more⟩ := terminates tokens
  refine ⟨fun program rest suffix => Grammar.programTurn_takes limit program (ended.suffix suffix),
    fun name m rest turn suffix read => Consumes.shorter (ended.suffix suffix) read, ?_⟩
  obtain ⟨result, cursor, reports, marks, read, ran, -, inside, sound⟩ :=
    Scripted.carries (p := Grammar.program limit) ended (Nat.zero_le limit) 0 [] [] (List.length_pos_iff.mpr more)
  obtain ⟨program, rest, reports', whole, last⟩ := Grammar.loop_programTurn_ok limit {} ended
  rw [List.drop_zero, Grammar.program_eq, whole] at read
  obtain ⟨rfl, rfl, rfl⟩ := Parsed.mk.inj read
  refine ⟨program, cursor, reports', marks, ran, ?_, inside, ?_, sound⟩
  · rw [Grammar.program_eq, whole]
  · rw [tokenAt_eq inside]
    exact last

end Charter.Source
