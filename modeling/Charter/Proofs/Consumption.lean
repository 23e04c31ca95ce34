import Charter.Source.Grammar.Program

/-!
Productions take tokens from the front only: what is left behind one is an end of what it was given, whether
it succeeds or fails. The fact is a class, so that a production has it as soon as its parts do.
-/

namespace Charter.Source
open Charter.Source.Parser

set_option synthInstance.maxSize 100000

-- The same, with faults that were reported before.
def Parsed.prefixed {α : Type} (reports : List Report) (parsed : Parsed α) : Parsed α :=
  { parsed with reports := reports ++ parsed.reports }

namespace Parser
variable {α β σ : Type} {p q : Parser α} {next : α → Parser β}

theorem run_bind_ok {tokens rest : List Token} {value : α} {reports : List Report}
    (ran : p tokens = { result := .ok value, rest, reports }) :
    (p >>= next) tokens = (next value rest).prefixed reports := by
  change Parser.bind p next tokens = _
  simp only [Parser.bind, ran, Parsed.prefixed]

theorem run_bind_error {tokens rest : List Token} {report : Report} {reports : List Report}
    (ran : p tokens = { result := .error report, rest, reports }) :
    (p >>= next) tokens = { result := .error report, rest, reports } := by
  change Parser.bind p next tokens = _
  simp only [Parser.bind, ran]

theorem run_loop_again {step : σ → Parser (Turn σ α)} {state state' : σ} {tokens rest : List Token}
    {reports : List Report} (ran : step state tokens = { result := .ok (.again state'), rest, reports })
    (shorter : rest.length < tokens.length) :
    loop step state tokens = (loop step state' rest).prefixed reports := by
  rw [loop]
  simp only [ran, if_pos shorter, Parsed.prefixed]

theorem run_loop_done {step : σ → Parser (Turn σ α)} {state : σ} {tokens rest : List Token} {value : α}
    {reports : List Report} (ran : step state tokens = { result := .ok (.done value), rest, reports }) :
    loop step state tokens = { result := .ok value, rest, reports } := by
  rw [loop]
  simp only [ran]

theorem run_loop_error {step : σ → Parser (Turn σ α)} {state : σ} {tokens rest : List Token} {report : Report}
    {reports : List Report} (ran : step state tokens = { result := .error report, rest, reports }) :
    loop step state tokens = { result := .error report, rest, reports } := by
  rw [loop]
  simp only [ran]

theorem run_loop_stalled {step : σ → Parser (Turn σ α)} {state state' : σ} {tokens rest : List Token}
    {reports : List Report} (ran : step state tokens = { result := .ok (.again state'), rest, reports })
    (stalled : ¬ rest.length < tokens.length) :
    loop step state tokens = { result := .error ⟨.stalled, (head rest).position⟩, rest, reports } := by
  rw [loop]
  simp only [ran, if_neg stalled]

/-! Whatever is read without a fault is read in parts without one. -/

section Clean
variable {tokens rest : List Token} {value : α}

theorem prefixed_eq_clean {parsed : Parsed α} {reports : List Report} :
    parsed.prefixed reports = ⟨.ok value, rest, []⟩ ↔ reports = [] ∧ parsed = ⟨.ok value, rest, []⟩ := by
  obtain ⟨result, behind, others⟩ := parsed
  simp only [Parsed.prefixed, Parsed.mk.injEq, List.append_eq_nil_iff]
  constructor
  · rintro ⟨ended, left, before, after⟩
    exact ⟨before, ended, left, after⟩
  · rintro ⟨before, ended, left, after⟩
    exact ⟨ended, left, before, after⟩

theorem run_bind (ran : p tokens = ⟨.ok value, rest, []⟩) : (p >>= next) tokens = next value rest := run_bind_ok ran

theorem bind_clean {last : β} (ran : (p >>= next) tokens = ⟨.ok last, rest, []⟩) :
    ∃ value middle, p tokens = ⟨.ok value, middle, []⟩ ∧ next value middle = ⟨.ok last, rest, []⟩ := by
  cases began : p tokens with
  | mk result middle reports =>
      cases result with
      | error report => rw [run_bind_error began] at ran; cases ran
      | ok value =>
          rw [run_bind_ok began] at ran
          obtain ⟨rfl, went⟩ := prefixed_eq_clean.mp ran
          exact ⟨value, middle, rfl, went⟩

theorem loop_clean {step : σ → Parser (Turn σ α)} {state : σ} (ran : loop step state tokens = ⟨.ok value, rest, []⟩) :
    step state tokens = ⟨.ok (.done value), rest, []⟩ ∨
      ∃ next middle, step state tokens = ⟨.ok (.again next), middle, []⟩ ∧ middle.length < tokens.length ∧
        loop step next middle = ⟨.ok value, rest, []⟩ := by
  cases began : step state tokens with
  | mk result middle reports =>
      cases result with
      | error report => rw [run_loop_error began] at ran; cases ran
      | ok turn =>
          cases turn with
          | done last =>
              rw [run_loop_done began] at ran
              cases ran
              exact .inl rfl
          | again next =>
              by_cases shorter : middle.length < tokens.length
              · rw [run_loop_again began shorter] at ran
                obtain ⟨rfl, went⟩ := prefixed_eq_clean.mp ran
                exact .inr ⟨next, middle, rfl, shorter, went⟩
              · rw [run_loop_stalled began shorter] at ran
                cases ran

-- A fault that reading goes on from is reported.
theorem recover_clean {instead : α} {resume : List Token → List Token → List Token}
    (ran : recover instead p resume tokens = ⟨.ok value, rest, []⟩) : p tokens = ⟨.ok value, rest, []⟩ := by
  unfold recover at ran
  dsimp only at ran
  split at ran
  · exact ran
  · exact absurd (congrArg Parsed.reports ran) (List.append_ne_nil_of_right_ne_nil _ (List.cons_ne_nil _ _))

end Clean

-- What is left is an end of what was given.
class Shrinks (p : Parser α) : Prop where
  suffix : ∀ tokens, (p tokens).rest <:+ tokens

namespace Shrinks

instance pure (value : α) : Shrinks (Pure.pure value : Parser α) := ⟨List.suffix_refl⟩

instance bind [first : Shrinks p] [behind : ∀ value, Shrinks (next value)] : Shrinks (p >>= next) := by
  constructor
  intro tokens
  have before := first.suffix tokens
  cases ran : p tokens with
  | mk result rest reports =>
      rw [ran] at before
      cases result with
      | error report => rw [run_bind_error ran]; exact before
      | ok value => rw [run_bind_ok ran]; exact ((behind value).suffix rest).trans before

instance loop {step : σ → Parser (Turn σ α)} [each : ∀ state, Shrinks (step state)] (state : σ) :
    Shrinks (Parser.loop step state) := by
  constructor
  intro tokens
  fun_induction Parser.loop step state tokens with
  | case1 state tokens turn report failed => exact (each state).suffix tokens
  | case2 state tokens turn value ended => exact (each state).suffix tokens
  | case3 state tokens turn next again shorter others ih => exact ih.trans ((each state).suffix tokens)
  | case4 state tokens turn next again stalled => exact (each state).suffix tokens

instance ite {c : Prop} [Decidable c] [yes : Shrinks p] [no : Shrinks q] : Shrinks (if c then p else q) := by
  split
  · exact yes
  · exact no

-- For parts that are not found as instances, such as choices by the form of a value.
theorem of_bind (first : Shrinks p) (behind : ∀ value, Shrinks (next value)) : Shrinks (p >>= next) := bind

theorem drop_suffix (tokens : List Token) : drop tokens <:+ tokens := by
  unfold drop
  split
  · exact List.suffix_cons _ _
  · exact List.suffix_refl _

theorem dropWhile_suffix (q : Token → Bool) (tokens : List Token) : dropWhile q tokens <:+ tokens := by
  fun_induction dropWhile q tokens with
  | case1 token next rest _ ih => exact ih.trans (List.suffix_cons _ _)
  | case2 => exact List.suffix_refl _
  | case3 => exact List.suffix_refl _

instance current : Shrinks Parser.current := ⟨List.suffix_refl⟩

instance following : Shrinks Parser.following := ⟨List.suffix_refl⟩

instance advance : Shrinks Parser.advance := ⟨drop_suffix⟩

instance skipWhile (q : Token → Bool) : Shrinks (Parser.skipWhile q) := ⟨dropWhile_suffix q⟩

instance failAt (position : Position) (fault : Fault) : Shrinks (failAt position fault : Parser α) :=
  ⟨List.suffix_refl⟩

instance report (report : Report) : Shrinks (Parser.report report) := ⟨List.suffix_refl⟩

instance skipNewlinesBeforeBrace : Shrinks Parser.skipNewlinesBeforeBrace := by
  constructor
  intro tokens
  unfold Parser.skipNewlinesBeforeBrace
  dsimp only
  split
  · exact dropWhile_suffix _ _
  · exact List.suffix_refl _

instance fail (fault : Fault) : Shrinks (fail fault : Parser α) := by unfold Parser.fail; infer_instance

-- Nothing is read behind a fault.
instance fail_bind (fault : Fault) : Shrinks (Parser.fail fault >>= next) := ⟨List.suffix_refl⟩

instance isAt (kind : TokenKind) (value : String) : Shrinks (isAt kind value) := by unfold Parser.isAt; infer_instance

instance accept (kind : TokenKind) (value : String) : Shrinks (accept kind value) := by
  unfold Parser.accept; infer_instance

instance expect (kind : TokenKind) (value : String) : Shrinks (expect kind value) := by
  unfold Parser.expect; infer_instance

instance skipNewlines : Shrinks skipNewlines := by unfold Parser.skipNewlines; infer_instance

instance skipSeparators : Shrinks skipSeparators := by unfold Parser.skipSeparators; infer_instance

instance skipListSeparators : Shrinks skipListSeparators := by unfold Parser.skipListSeparators; infer_instance

instance name (what : String) : Shrinks (Parser.name what) := by
  unfold Parser.name
  refine of_bind inferInstance fun token => ?_
  split <;> infer_instance

instance declaredName (what : String) : Shrinks (Parser.declaredName what) := by
  unfold Parser.declaredName
  refine of_bind inferInstance fun token => ?_
  split <;> infer_instance

instance string (what : String) : Shrinks (Parser.string what) := by unfold Parser.string; infer_instance

instance nameOrString (what : String) : Shrinks (Parser.nameOrString what) := by
  unfold Parser.nameOrString; infer_instance

instance message? : Shrinks Parser.message? := by unfold Parser.message?; infer_instance

instance after? (kind : TokenKind) (mark : String) [Shrinks p] : Shrinks (Parser.after? kind mark p) := by
  unfold Parser.after?; infer_instance

end Shrinks
end Parser

namespace Grammar
open Charter.Source.Parser

-- One more operator of a level, with its operand.
def chainTurn (level : Nat) (operand : Parser Expression) (left : Expression) :
    Parser (Turn Expression Expression) := do
  match ← binaryOperator? level with
  | none => return .done left
  | some operator =>
    skipNewlines
    return .again (.binary operator left (← operand))

theorem chain_eq (level : Nat) (operand : Parser Expression) :
    chain level operand = operand >>= fun first => loop (chainTurn level operand) first := rfl

section Expression
variable {expression operand plain : Parser Expression} [Shrinks expression] [Shrinks operand] [Shrinks plain]

instance (level : Nat) : Shrinks (binaryOperator? level) := by
  unfold binaryOperator?
  refine .of_bind inferInstance fun token => ?_
  split <;> infer_instance

instance (level : Nat) (left : Expression) : Shrinks (chainTurn level operand left) := by
  unfold chainTurn
  refine .of_bind inferInstance fun operator => ?_
  split <;> infer_instance

instance (level : Nat) : Shrinks (chain level operand) := by rw [chain_eq]; infer_instance

instance : Shrinks (binary operand) := by unfold binary; infer_instance

instance : Shrinks (conditional expression operand) := by unfold conditional; infer_instance

instance : Shrinks (signed operand plain) := by
  unfold signed
  refine .of_bind inferInstance fun token => ?_
  split <;> infer_instance

instance (close : String) : Shrinks (sequence expression close) := by unfold sequence; infer_instance

instance : Shrinks (entries expression) := by unfold entries; infer_instance

theorem parameterNames?_closing {token : Token} (closes : token.is .punctuation ")" = true) (rest : List Token) :
    parameterNames? (token :: rest) = some ([], rest) := by
  cases rest with
  | nil => rw [parameterNames?, if_pos closes]
  | cons => rw [parameterNames?, if_pos closes]

theorem parameterNames?_suffix {tokens rest : List Token} {names : List String}
    (read : parameterNames? tokens = some (names, rest)) : rest <:+ tokens := by
  fun_induction parameterNames? tokens generalizing names with
  | case1 => cases read
  | case2 token rest _ => cases read; exact List.suffix_cons _ _
  | case3 => cases read
  | case4 token mark others _ _ _ ih =>
      obtain ⟨⟨_, _⟩, inner, same⟩ := Option.map_eq_some_iff.mp read
      cases same
      exact (ih inner).trans ((List.suffix_cons _ _).trans (List.suffix_cons _ _))
  | case5 => cases read; exact (List.suffix_cons _ _).trans (List.suffix_cons _ _)
  | case6 => cases read
  | case7 => cases read

-- The head of a lambda is a parenthesis, the names up to the other one, and an arrow.
theorem lambdaHead?_parts {tokens body : List Token} {names : List String}
    (read : lambdaHead? tokens = some (names, body)) :
    ∃ opening others arrow, tokens = opening :: others ∧ opening.is .punctuation "(" = true ∧
      parameterNames? others = some (names, arrow :: body) ∧ arrow.is .operator "=>" = true := by
  unfold lambdaHead? at read
  split at read
  · cases read
  · next opening others =>
    split at read
    · next opens =>
      split at read
      · next arrow _ inside =>
        split at read
        · next found =>
          cases read
          exact ⟨opening, others, arrow, rfl, opens, inside, found⟩
        · cases read
      · cases read
    · cases read

theorem lambdaHead?_suffix {tokens rest : List Token} {names : List String}
    (read : lambdaHead? tokens = some (names, rest)) : rest <:+ tokens := by
  obtain ⟨opening, others, arrow, rfl, -, inside, -⟩ := lambdaHead?_parts read
  exact (List.suffix_cons _ _).trans ((parameterNames?_suffix inside).trans (List.suffix_cons _ _))

instance : Shrinks lambdaParameters? := by
  constructor
  intro tokens
  unfold lambdaParameters?
  split
  · next read => exact lambdaHead?_suffix read
  · exact List.suffix_refl _

instance (params : List String) : Shrinks (lambda expression params) := by unfold lambda; infer_instance

instance : Shrinks (parenthesized expression) := by
  unfold parenthesized
  refine .of_bind inferInstance fun params => ?_
  split <;> infer_instance

instance : Shrinks (primary expression) := by
  unfold primary
  refine .of_bind inferInstance fun token => ?_
  split
  · refine .of_bind inferInstance fun _ => ?_
    split <;> infer_instance
  · infer_instance
  · split <;> infer_instance
  · infer_instance
  · split <;> infer_instance
  · infer_instance

instance : Shrinks (accesses expression) := by unfold accesses; infer_instance

instance nested_shrinks (limit levels : Nat) (production : Production) : Shrinks (nested limit levels production) := by
  induction levels generalizing production with
  | zero =>
      cases production with
      | expression => exact (inferInstance : Shrinks (fail (.tooDeep limit)))
      | operand => exact (inferInstance : Shrinks (signed (fail (.tooDeep limit)) (accesses (fail (.tooDeep limit)))))
  | succ levels ih =>
      have deeper := ih .expression
      have operand := ih .operand
      cases production with
      | expression =>
          exact (inferInstance : Shrinks (conditional (nested limit levels .expression) (nested limit levels .operand)))
      | operand =>
          exact (inferInstance : Shrinks (signed (nested limit levels .operand)
            (accesses (conditional (nested limit levels .expression) (nested limit levels .operand)))))

instance (limit : Nat) : Shrinks (Grammar.expression limit) := nested_shrinks limit limit .expression

end Expression

section Declaration
variable (limit : Nat)

instance (word : String) : Shrinks (keyword word) := by unfold keyword; infer_instance

instance {σ : Type} {separators unclosed : Parser Unit} {item : σ → Parser σ} [Shrinks separators] [Shrinks unclosed]
    [∀ state, Shrinks (item state)] (start : σ) : Shrinks (braced separators unclosed item start) := by
  unfold braced; infer_instance

instance (what name : String) : Shrinks (notEnded what name) := by unfold notEnded; infer_instance

instance {argument : Parser TypeRef} [Shrinks argument] : Shrinks (typeForm argument) := by
  unfold typeForm; infer_instance

instance nestedType_shrinks (levels : Nat) : Shrinks (nestedType limit levels) := by
  induction levels with
  | zero => exact (inferInstance : Shrinks (typeForm (fail (.tooDeep limit))))
  | succ levels ih => exact (inferInstance : Shrinks (typeForm (nestedType limit levels)))

instance : Shrinks (type limit) := nestedType_shrinks limit limit

theorem kind_of_modifier? {token : Token} {modifier : Modifier} (read : modifier? token = some modifier) :
    token.kind = .identifier ∨ token.kind = .keyword := by
  unfold modifier? at read
  split at read
  · next kind => exact .inl kind
  · next kind => exact .inr kind
  · cases read

-- One more modifier, in front of the name and behind the type.

def leadingTurn (modifiers : List Modifier) : Parser (Turn (List Modifier) (List Modifier)) := do
  match modifier? (← current) with
  | none => return .done modifiers
  | some modifier =>
    if (← following).is .punctuation ":" then return .done modifiers
    let _ ← advance
    return .again (modifiers ++ [modifier])

def trailingTurn (modifiers : List Modifier) : Parser (Turn (List Modifier) (List Modifier)) := do
  match modifier? (← current) with
  | none => return .done modifiers
  | some modifier =>
    let _ ← advance
    return .again (modifiers ++ [modifier])

theorem leadingModifiers_eq : leadingModifiers = loop leadingTurn [] := rfl

theorem trailingModifiers_eq : trailingModifiers = loop trailingTurn [] := rfl

instance (modifiers : List Modifier) : Shrinks (leadingTurn modifiers) := by
  unfold leadingTurn
  refine .of_bind inferInstance fun token => ?_
  split <;> infer_instance

instance (modifiers : List Modifier) : Shrinks (trailingTurn modifiers) := by
  unfold trailingTurn
  refine .of_bind inferInstance fun token => ?_
  split <;> infer_instance

instance : Shrinks leadingModifiers := by rw [leadingModifiers_eq]; infer_instance

instance : Shrinks trailingModifiers := by rw [trailingModifiers_eq]; infer_instance

instance : Shrinks (property limit) := by unfold property; infer_instance

instance : Shrinks (computed limit) := by unfold computed; infer_instance

instance (kind : RelationshipKind) : Shrinks (relationship kind) := by unfold relationship; infer_instance

instance : Shrinks (literalValue limit) := by
  unfold literalValue
  refine .of_bind inferInstance fun value => ?_
  split <;> infer_instance

instance : Shrinks (literalList limit) := by unfold literalList; infer_instance

instance : Shrinks (transition limit) := by unfold transition; infer_instance

instance : Shrinks inlineSeverity? := by
  unfold inlineSeverity?
  refine .of_bind inferInstance fun token => .of_bind inferInstance fun next => ?_
  refine @Shrinks.ite _ _ _ _ _ ?_ inferInstance
  split <;> infer_instance

instance (fields : ConstraintFields) : Shrinks (constraintField limit fields) := by
  unfold constraintField
  refine .of_bind inferInstance fun start => .of_bind inferInstance fun key => .of_bind inferInstance fun _ => ?_
  split
  case h_1 | h_5 | h_7 =>
    refine .of_bind inferInstance fun value => ?_
    split <;> infer_instance
  all_goals infer_instance

instance (name : String) (severity : Option Enforcement) (position : Position) :
    Shrinks (constraintBlock limit name severity position) := by
  unfold constraintBlock
  refine .of_bind inferInstance fun _ => .of_bind inferInstance fun fields => ?_
  split <;> infer_instance

instance : Shrinks (constraint limit) := by unfold constraint; infer_instance

instance : Shrinks (parameter limit) := by unfold parameter; infer_instance

instance : Shrinks (parameters limit) := by unfold parameters; infer_instance

instance : Shrinks actionTarget := by unfold actionTarget; infer_instance

theorem action?_shrinks {word : String} {action : Parser (ActionKind × Option String × Expression)}
    (known : action? limit word = some action) : Shrinks action := by
  unfold action? at known
  split at known <;> cases known <;> infer_instance

instance (command : Command) : Shrinks (statement limit command) := by
  unfold statement
  refine .of_bind inferInstance fun token => @Shrinks.ite _ _ _ _ _ inferInstance ?_
  dsimp only
  split
  case h_4 =>
    split
    · next known =>
      have := action?_shrinks limit known
      infer_instance
    · infer_instance
  all_goals infer_instance

instance : Shrinks (command limit) := by unfold command; infer_instance

instance : Shrinks policyAction := by
  unfold policyAction
  refine .of_bind inferInstance fun token => @Shrinks.ite _ _ _ _ _ inferInstance ?_
  split <;> infer_instance

instance : Shrinks (policy limit) := by unfold policy; infer_instance

instance : Shrinks (configuration limit) := by
  unfold configuration
  refine .of_bind inferInstance fun _ => .of_bind inferInstance fun _ => @Shrinks.ite _ _ _ _ _ ?_ inferInstance
  refine .of_bind inferInstance fun value => ?_
  split <;> infer_instance

instance (entity : String) : Shrinks (entityStore limit entity) := by unfold entityStore; infer_instance

instance : Shrinks (store limit) := by unfold store; infer_instance

instance (fields : List EventField) : Shrinks (eventField limit fields) := by unfold eventField; infer_instance

instance : Shrinks (event limit) := by unfold event; infer_instance

instance (entity : Entity) : Shrinks (entityMember limit entity) := by
  unfold entityMember
  refine .of_bind inferInstance fun token => ?_
  split
  case h_9 => split <;> infer_instance
  all_goals infer_instance

instance : Shrinks (entity limit) := by unfold entity; infer_instance

instance (steps : List FlowStep) : Shrinks (flowStep limit steps) := by unfold flowStep; infer_instance

instance : Shrinks (flow limit) := by unfold flow; infer_instance

instance : Shrinks (effect limit) := by unfold effect; infer_instance

instance : Shrinks exposure := by unfold exposure; infer_instance

instance : Shrinks dottedPath := by unfold dottedPath; infer_instance

instance (composition : Composition) : Shrinks (compositionItem composition) := by
  unfold compositionItem; infer_instance

instance : Shrinks composition := by unfold composition; infer_instance

end Declaration

theorem skipToDeclaration_suffix (insideBlock : Bool) (depth : Nat) (tokens : List Token) :
    skipToDeclaration insideBlock depth tokens <:+ tokens := by
  fun_induction skipToDeclaration insideBlock depth tokens with
  | case1 => exact List.suffix_refl _
  | case2 depth token next rest _ _ ih => exact ih.trans (List.suffix_cons _ _)
  | case3 => exact List.suffix_refl _
  | case4 depth token next rest _ _ _ _ ih => exact ih.trans (List.suffix_cons _ _)
  | case5 depth token next rest _ _ _ ih => exact ih.trans (List.suffix_cons _ _)
  | case6 => exact List.suffix_refl _

theorem skipToDeclaration_ne_nil {insideBlock : Bool} {depth : Nat} {tokens : List Token} (more : tokens ≠ []) :
    skipToDeclaration insideBlock depth tokens ≠ [] := by
  fun_induction skipToDeclaration insideBlock depth tokens with
  | case1 => exact List.cons_ne_nil _ _
  | case2 _ _ _ _ _ _ ih => exact ih (List.cons_ne_nil _ _)
  | case3 => exact List.cons_ne_nil _ _
  | case4 _ _ _ _ _ _ _ _ ih => exact ih (List.cons_ne_nil _ _)
  | case5 _ _ _ _ _ _ _ ih => exact ih (List.cons_ne_nil _ _)
  | case6 => exact more

theorem resume_suffix (insideBlock : Bool) (start tokens : List Token) :
    resume insideBlock start tokens <:+ tokens := by
  unfold resume
  dsimp only
  split
  · exact (skipToDeclaration_suffix ..).trans (Shrinks.drop_suffix tokens)
  · exact skipToDeclaration_suffix ..

instance {α : Type} {p : Parser α} [shrinks : Shrinks p] (instead : α) (insideBlock : Bool) :
    Shrinks (recover instead p (resume insideBlock)) := by
  constructor
  intro tokens
  unfold recover
  dsimp only
  split
  · exact shrinks.suffix tokens
  · exact (resume_suffix ..).trans (shrinks.suffix tokens)

section Program
variable (limit : Nat)

instance (m : Module) : Shrinks (moduleMember limit m) := by
  unfold moduleMember
  refine .of_bind inferInstance fun token => ?_
  split <;> infer_instance

instance : Shrinks (module limit) := by unfold module; infer_instance

instance (program : Program) : Shrinks (declaration limit program) := by
  unfold declaration
  refine .of_bind inferInstance fun token => @Shrinks.ite _ _ _ _ _ inferInstance ?_
  dsimp only
  split <;> infer_instance

end Program
end Grammar
end Charter.Source
