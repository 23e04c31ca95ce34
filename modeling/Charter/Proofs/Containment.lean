import Charter.Proofs.Nesting

/-!
Every production of the grammar closes the brackets that it opens, and none goes over the end of a text whose
brackets are closed.
-/

namespace Charter.Source.Grammar
open Charter.Source.Parser

set_option synthInstance.maxSize 100000

section Expression
variable {brackets : Brackets} {expression operand plain : Parser Expression} [Keeps brackets expression]
  [Stops expression] [Keeps brackets operand] [Stops operand] [Keeps brackets plain]

theorem isPlain_of_ofToken? {token : Token} {operator : BinaryOperator}
    (read : BinaryOperator.ofToken? token = some operator) : IsPlain token := by
  have found := List.find?_some read
  have kind : token.kind = operator.tokenKind := beq_iff_eq.mp (Bool.and_eq_true_iff.mp found).1
  exact isPlain_of_kind kind (by cases operator <;> nofun) (by cases operator <;> nofun)

theorem isPlain_of_unary {token : Token} {operator : UnaryOperator}
    (read : UnaryOperator.ofToken? token = some operator) : IsPlain token := by
  have found := List.find?_some read
  have kind : token.kind = operator.tokenKind := beq_iff_eq.mp (Bool.and_eq_true_iff.mp found).1
  exact isPlain_of_kind kind (by cases operator <;> nofun) (by cases operator <;> nofun)

instance (level : Nat) : Keeps brackets (binaryOperator? level) := by
  unfold binaryOperator?
  refine .of_current fun token => ?_
  split
  · next read =>
    have := isPlain_of_ofToken? read
    infer_instance
  · infer_instance

instance (level : Nat) : Keeps brackets (chain level operand) := by
  unfold chain
  refine .of_bind inferInstance fun first => @Keeps.loop _ _ _ _ (fun left => ?_) first
  refine .of_bind inferInstance fun operator => ?_
  split <;> infer_instance

instance (level : Nat) : Stops (chain level operand) := by unfold chain; infer_instance

instance : Keeps brackets (binary operand) := by unfold binary; infer_instance

instance : Stops (binary operand) := by unfold binary; infer_instance

instance : Keeps brackets (conditional expression operand) := by unfold conditional; infer_instance

instance : Stops (conditional expression operand) := by unfold conditional; infer_instance

instance : Keeps brackets (signed operand plain) := by
  unfold signed
  refine .of_current fun token => ?_
  split
  · next read =>
    have := isPlain_of_unary read
    infer_instance
  · infer_instance

instance {close : String} [Bracket close] : Closes brackets close (sequence expression close) := by
  unfold sequence; infer_instance

instance : Keeps brackets (entries expression) := by unfold entries; infer_instance

-- The names of a parameter list that is closed are found among the tokens up to its end, or not at all.
theorem parameterNames?_nested {awaited : List String} {tokens : List Token}
    (nested : Balanced brackets (brackets.await ")" awaited) tokens) :
    (∃ names rest, Balanced brackets awaited rest ∧ ∀ place after,
      parameterNames? (tokens ++ newlineAt place :: after) = some (names, rest ++ newlineAt place :: after)) ∨
    ∀ place after, parameterNames? (tokens ++ newlineAt place :: after) = none := by
  fun_induction parameterNames? tokens with
  | case1 =>
      refine .inr fun place after => ?_
      cases after <;> rfl
  | case2 token rest closes =>
      exact .inl ⟨[], rest, (balanced_closing closes).mp nested, fun _ _ => parameterNames?_closing closes _⟩
  | case3 token closes name =>
      refine .inr fun place after => ?_
      rw [List.cons_append, List.nil_append, parameterNames?, if_neg closes, if_pos name]
      exact if_neg (Bool.eq_false_iff.mp rfl)
  | case4 token closes name mark others comma ih =>
      have plain := isPlain_identifier name
      have behind := (balanced_plain plain.noBracket).mp nested
      have inside := (balanced_plain (PlainMark.isPlain comma).noBracket).mp behind
      rcases ih inside with ⟨names, rest, nested', reads⟩ | missing
      · refine .inl ⟨token.value :: names, rest, nested', fun place after => ?_⟩
        rw [List.cons_append, List.cons_append, parameterNames?, if_neg closes, if_pos name, if_pos comma, reads,
          Option.map_some]
      · refine .inr fun place after => ?_
        rw [List.cons_append, List.cons_append, parameterNames?, if_neg closes, if_pos name, if_pos comma, missing,
          Option.map_none]
  | case5 token closes name mark others comma closes' =>
      have plain := isPlain_identifier name
      have behind := (balanced_closing closes').mp ((balanced_plain plain.noBracket).mp nested)
      refine .inl ⟨[token.value], others, behind, fun place after => ?_⟩
      rw [List.cons_append, List.cons_append, parameterNames?, if_neg closes, if_pos name, if_neg comma, if_pos closes']
  | case6 token closes name mark others comma closes' =>
      refine .inr fun place after => ?_
      rw [List.cons_append, List.cons_append, parameterNames?, if_neg closes, if_pos name, if_neg comma, if_neg closes']
  | case7 token rest closes name =>
      refine .inr fun place after => ?_
      cases rest with
      | nil => rw [List.cons_append, List.nil_append, parameterNames?, if_neg closes, if_neg name]
      | cons => rw [List.cons_append, List.cons_append, parameterNames?, if_neg closes, if_neg name]

theorem lambdaHead?_nested {awaited : List String} {tokens : List Token} (nested : Balanced brackets awaited tokens) :
    (∃ names rest, Balanced brackets awaited rest ∧ ∀ place after,
      lambdaHead? (tokens ++ newlineAt place :: after) = some (names, rest ++ newlineAt place :: after)) ∨
    ∀ place after, lambdaHead? (tokens ++ newlineAt place :: after) = none := by
  cases tokens with
  | nil => exact .inr fun _ _ => rfl
  | cons token tokens =>
      by_cases opens : token.is .punctuation "(" = true
      · have inside : Balanced brackets (brackets.await ")" awaited) tokens := (balanced_opening opens).mp nested
        rcases parameterNames?_nested inside with ⟨names, rest, nested', reads⟩ | missing
        · cases rest with
          | nil =>
              refine .inr fun place after => ?_
              rw [List.cons_append, lambdaHead?, if_pos opens, reads]
              exact if_neg (Bool.eq_false_iff.mp rfl)
          | cons arrow body =>
              by_cases found : arrow.is .operator "=>" = true
              · have behind := (balanced_plain (PlainMark.isPlain found).noBracket).mp nested'
                refine .inl ⟨names, body, behind, fun place after => ?_⟩
                rw [List.cons_append, lambdaHead?, if_pos opens, reads]
                exact if_pos found
              · refine .inr fun place after => ?_
                rw [List.cons_append, lambdaHead?, if_pos opens, reads]
                exact if_neg found
        · refine .inr fun place after => ?_
          rw [List.cons_append, lambdaHead?, if_pos opens, missing]
      · refine .inr fun place after => ?_
        rw [List.cons_append, lambdaHead?, if_neg opens]

-- The same the other way round.

theorem parameterNames?_front {names : List String} {awaited : List String} {tokens rest : List Token}
    (read : parameterNames? tokens = some (names, rest)) (behind : Balanced brackets awaited rest) :
    Balanced brackets (brackets.await ")" awaited) tokens := by
  fun_induction parameterNames? tokens generalizing names with
  | case1 => cases read
  | case2 token rest closes =>
      cases read
      exact (balanced_closing closes).mpr behind
  | case3 => cases read
  | case4 token closes name mark others comma ih =>
      obtain ⟨⟨names, rest⟩, read, same⟩ := Option.map_eq_some_iff.mp read
      cases same
      exact (balanced_plain (isPlain_identifier name).noBracket).mpr
        ((balanced_plain (PlainMark.isPlain comma).noBracket).mpr (ih read))
  | case5 token closes name mark others comma closes' =>
      cases read
      exact (balanced_plain (isPlain_identifier name).noBracket).mpr ((balanced_closing closes').mpr behind)
  | case6 => cases read
  | case7 => cases read

theorem lambdaHead?_front {names : List String} {awaited : List String} {tokens rest : List Token}
    (read : lambdaHead? tokens = some (names, rest)) (behind : Balanced brackets awaited rest) :
    Balanced brackets awaited tokens := by
  obtain ⟨opening, others, arrow, rfl, opens, inside, found⟩ := lambdaHead?_parts read
  have arrowed := (balanced_plain (PlainMark.isPlain found).noBracket).mpr behind
  exact (balanced_opening opens).mpr (parameterNames?_front inside arrowed)

instance : Keeps brackets lambdaParameters? where
  ends {place _ tokens} nested := by
    rcases lambdaHead?_nested nested with ⟨names, rest, nested', reads⟩ | missing
    · refine .passes (some names) rest [] (fun after _ => ?_) nested'
      rw [lambdaParameters?, reads place after]
    · refine .passes none tokens [] (fun after _ => ?_) nested
      rw [lambdaParameters?, missing place after]
  traces {_ tokens} ended value rest read := by
    have suffix := Shrinks.suffix (p := lambdaParameters?) tokens
    rw [read] at suffix
    refine ⟨ended.suffix suffix, fun behind => ?_⟩
    unfold lambdaParameters? at read
    split at read
    · next found =>
      cases read
      exact lambdaHead?_front found behind
    · cases read
      exact behind

instance (params : List String) : Keeps brackets (lambda expression params) := by unfold lambda; infer_instance

instance : Keeps brackets (parenthesized expression) := by
  unfold parenthesized
  refine .of_bind inferInstance fun params => ?_
  split <;> infer_instance

instance : Keeps brackets (primary expression) := by
  unfold primary
  refine .of_current fun token => ?_
  split
  · next kind =>
    have (value : Option Float) : Keeps brackets (match value with
        | some value => pure (.literal (.number value))
        | none => failAt token.position (.invalidNumber token.value) : Parser Expression) := by
      split <;> infer_instance
    have := isPlain_of_kind kind nofun nofun
    infer_instance
  · next kind =>
    have := isPlain_of_kind kind nofun nofun
    infer_instance
  · next kind =>
    split
    · have := isPlain_of_kind kind nofun nofun
      infer_instance
    · infer_instance
  · next kind =>
    have := isPlain_of_kind kind nofun nofun
    infer_instance
  · next kind =>
    split
    · infer_instance
    · next value => exact .advance_opening "[" (by simp [Token.is, kind, value])
    · infer_instance
    · infer_instance
  · infer_instance

instance : Keeps brackets (accesses expression) := by unfold accesses; infer_instance

-- No expression begins where a declaration begins or a text ends.

theorem keywordOperand_declaration {word : String} (begins : declarationKeywords.contains word = true) :
    keywordOperand word = none := by
  simp only [declarationKeywords, List.contains_iff_mem, List.mem_cons, List.not_mem_nil, or_false] at begins
  rcases begins with rfl | rfl | rfl | rfl | rfl | rfl | rfl | rfl | rfl | rfl <;> rfl

instance : Stops (primary expression) := by
  refine .of_current fun after boundary => ?_
  rcases kind_of_boundary boundary with kind | ⟨kind, begins⟩
  · simp only [kind]
    exact ⟨_, rfl⟩
  · simp only [kind, keywordOperand_declaration begins]
    exact ⟨_, rfl⟩

instance : Stops (accesses expression) := by unfold accesses; infer_instance

theorem ofToken?_boundary {after : List Token} (boundary : Boundary after) :
    UnaryOperator.ofToken? (head after) = none := by
  refine List.find?_eq_none.mpr fun operator _ found => ?_
  obtain ⟨kind, value⟩ := Bool.and_eq_true_iff.mp found
  have kind := beq_iff_eq.mp kind
  have value := beq_iff_eq.mp value
  rcases kind_of_boundary boundary with ended | ⟨keyword, begins⟩
  · rw [ended] at kind
    cases operator <;> cases kind
  · rw [value] at begins
    rw [keyword] at kind
    cases operator with
    | not | negate => cases kind
    | notWord => exact absurd begins (by decide)

instance [stops : Stops plain] : Stops (signed operand plain) := by
  refine .of_current fun after boundary => ?_
  rw [ofToken?_boundary boundary]
  exact stops.fails boundary

theorem nested_keeps (limit levels : Nat) (production : Production) :
    Keeps brackets (nested limit levels production) ∧ Stops (nested limit levels production) := by
  induction levels generalizing production with
  | zero =>
      cases production with
      | expression =>
          exact ⟨(inferInstance : Keeps brackets (fail (.tooDeep limit))),
            (inferInstance : Stops (fail (.tooDeep limit)))⟩
      | operand =>
          exact ⟨(inferInstance : Keeps brackets (signed (fail (.tooDeep limit)) (accesses (fail (.tooDeep limit))))),
            (inferInstance : Stops (signed (fail (.tooDeep limit)) (accesses (fail (.tooDeep limit)))))⟩
  | succ levels ih =>
      obtain ⟨_, _⟩ := ih .expression
      obtain ⟨_, _⟩ := ih .operand
      cases production with
      | expression =>
          exact ⟨(inferInstance : Keeps brackets
              (conditional (nested limit levels .expression) (nested limit levels .operand))),
            (inferInstance : Stops (conditional (nested limit levels .expression) (nested limit levels .operand)))⟩
      | operand =>
          exact ⟨(inferInstance : Keeps brackets (signed (nested limit levels .operand)
              (accesses (conditional (nested limit levels .expression) (nested limit levels .operand))))),
            (inferInstance : Stops (signed (nested limit levels .operand)
              (accesses (conditional (nested limit levels .expression) (nested limit levels .operand)))))⟩

instance (limit : Nat) : Keeps brackets (Grammar.expression limit) := (nested_keeps limit limit .expression).1

instance (limit : Nat) : Stops (Grammar.expression limit) := (@nested_keeps .all limit limit .expression).2

end Expression
section Declaration
variable {brackets : Brackets} (limit : Nat)

instance (word : String) : Keeps brackets (keyword word) := by unfold keyword; infer_instance

instance {σ : Type} {separators unclosed : Parser Unit} {item : σ → Parser σ} [Skips separators]
    [Keeps brackets unclosed] [∀ state, Keeps brackets (item state)] (start : σ) :
    Closes brackets "\x7d" (braced separators unclosed item start) := by
  unfold braced; infer_instance

instance (what name : String) : Keeps brackets (notEnded what name) := by unfold notEnded; infer_instance

instance {argument : Parser TypeRef} [Keeps brackets argument] : Keeps brackets (typeForm argument) := by
  unfold typeForm; infer_instance

theorem nestedType_keeps (levels : Nat) : Keeps brackets (nestedType limit levels) := by
  induction levels with
  | zero => exact (inferInstance : Keeps brackets (typeForm (fail (.tooDeep limit))))
  | succ levels ih => exact (inferInstance : Keeps brackets (typeForm (nestedType limit levels)))

instance : Keeps brackets (type limit) := nestedType_keeps limit limit

theorem isPlain_of_word {token : Token} (word : token.kind = .identifier ∨ token.kind = .keyword) : IsPlain token := by
  rcases word with kind | kind <;> exact isPlain_of_kind kind nofun nofun

instance : Keeps brackets leadingModifiers := by
  unfold leadingModifiers
  refine @Keeps.loop _ _ _ _ (fun modifiers => .of_current fun token => ?_) _
  split
  · infer_instance
  · next read =>
    have word := kind_of_modifier? read
    have := isPlain_of_word word
    exact .following_bind (by rcases word with kind | kind <;> rw [kind] <;> nofun)

instance : Keeps brackets trailingModifiers := by
  unfold trailingModifiers
  refine @Keeps.loop _ _ _ _ (fun modifiers => .of_current fun token => ?_) _
  split
  · infer_instance
  · next read =>
    have := isPlain_of_word (kind_of_modifier? read)
    infer_instance

instance : Keeps brackets (property limit) := by unfold property; infer_instance

section Current
variable {token : Token} [IsPlain token]

instance : KeepsAt brackets token (computed limit) := by unfold computed; infer_instance

instance (kind : RelationshipKind) : KeepsAt brackets token (relationship kind) := by
  unfold relationship; infer_instance

end Current

instance : Keeps brackets (literalValue limit) := by
  unfold literalValue
  refine .of_bind inferInstance fun value => ?_
  split <;> infer_instance

instance : Closes brackets "]" (literalList limit) := by unfold literalList; infer_instance

instance : Keeps brackets (transition limit) := by unfold transition; infer_instance

instance : Keeps brackets inlineSeverity? := by
  unfold inlineSeverity?
  refine .of_current fun token => ?_
  cases identifier : token.kind == .identifier with
  | false =>
      exact ⟨fun _ nested => .passes none _ [] (fun _ _ => rfl) nested, fun _ ended => .of_ok rfl ended id⟩
  | true =>
      have kind := beq_iff_eq.mp identifier
      have := isPlain_identifier identifier
      have (next : Token) : KeepsAt brackets token (match Enforcement.ofWord? token.value with
          | some severity => do
            let _ ← advance
            pure (some severity)
          | none => pure none : Parser (Option Enforcement)) := by
        split <;> infer_instance
      exact .following_bind (kind ▸ nofun)

instance (fields : ConstraintFields) : Keeps brackets (constraintField limit fields) := by
  unfold constraintField
  refine .of_bind inferInstance fun start => .of_bind inferInstance fun key => .of_bind inferInstance fun _ => ?_
  split
  case h_1 | h_5 | h_7 =>
    refine .of_bind inferInstance fun value => ?_
    split <;> infer_instance
  all_goals infer_instance

instance (name : String) (severity : Option Enforcement) (position : Position) :
    Keeps brackets (constraintBlock limit name severity position) := by
  unfold constraintBlock
  have (fields : ConstraintFields) : Keeps brackets (match fields.expression with
      | none => failAt position (.missingExpression name)
      | some expression => pure {
          name, expression, position
          code := fields.code
          severity := fields.severity
          message := fields.message
          details := fields.details
          overrideable := fields.overrideable
          overridePolicy := fields.overridePolicy } : Parser Constraint) := by
    split <;> infer_instance
  infer_instance

instance : Keeps brackets (constraint limit) := by unfold constraint; infer_instance

instance : Keeps brackets (parameter limit) := by unfold parameter; infer_instance

instance : Wants (parameter limit) := by unfold parameter; infer_instance

instance : Keeps brackets (parameters limit) := by unfold parameters; infer_instance

theorem actionTarget_run (tokens : List Token) : actionTarget tokens =
    if ((head tokens).is .keyword "self" || (head tokens).is .keyword "this") &&
        (head (drop tokens)).is .operator "." then Parser.name "mutation target" (drop (drop tokens))
    else Parser.name "mutation target" tokens := by
  have run : actionTarget tokens =
      (if ((head tokens).is .keyword "self" || (head tokens).is .keyword "this") &&
          (head (drop tokens)).is .operator "." then (do
        let _ ← advance
        let _ ← advance
        Parser.name "mutation target")
      else Parser.name "mutation target") tokens := rfl
  rw [run]
  split
  · rfl
  · rfl

-- The instance and the point behind it are passed together, or neither is.
theorem actionTarget_ends {place : Position} {awaited : List String} {tokens : List Token}
    (nested : Balanced brackets awaited tokens) :
    Ends brackets place awaited actionTarget tokens fun _ rest => Balanced brackets awaited rest := by
  have stay (same : ∀ after, actionTarget (tokens ++ newlineAt place :: after) =
      Parser.name "mutation target" (tokens ++ newlineAt place :: after)) :
      Ends brackets place awaited actionTarget tokens fun _ rest => Balanced brackets awaited rest :=
    ((Keeps.name _).ends nested).prefixed [] fun after _ => same after
  match tokens with
  | [] => exact stay fun after => (actionTarget_run _).trans (if_neg nofun)
  | [owner] =>
      refine stay fun after => (actionTarget_run _).trans (if_neg fun taken => ?_)
      cases (Bool.and_eq_true_iff.mp taken).2
  | owner :: point :: rest =>
      by_cases taken : ((owner.is .keyword "self" || owner.is .keyword "this") && point.is .operator ".") = true
      · obtain ⟨instances, points⟩ := Bool.and_eq_true_iff.mp taken
        have first : IsPlain owner := by
          rcases Bool.or_eq_true_iff.mp instances with self | this
          · exact PlainMark.isPlain self
          · exact PlainMark.isPlain this
        have second : IsPlain point := PlainMark.isPlain points
        have inside := (balanced_plain second.noBracket).mp ((balanced_plain first.noBracket).mp nested)
        refine ((Keeps.name "mutation target").ends inside).prefixed [] fun after _ => (actionTarget_run _).trans ?_
        rw [← drop_cons_append point place rest after]
        exact if_pos taken
      · exact stay fun after => (actionTarget_run _).trans (if_neg taken)

instance : Keeps brackets actionTarget where
  ends nested := actionTarget_ends nested
  traces {_ tokens} ended value rest read := by
    rw [actionTarget_run] at read
    split at read
    · next taken =>
      obtain ⟨instances, points⟩ := Bool.and_eq_true_iff.mp taken
      have first : IsPlain (head tokens) := by
        rcases Bool.or_eq_true_iff.mp instances with self | this
        · exact PlainMark.isPlain self
        · exact PlainMark.isPlain this
      have second : IsPlain (head (drop tokens)) := PlainMark.isPlain points
      have ended := ended.suffix ((Shrinks.drop_suffix _).trans (Shrinks.drop_suffix tokens))
      exact ((Keeps.name "mutation target").traces ended value rest read).imp_right fun inside held =>
        balanced_of_drop first (balanced_of_drop second (inside held))
    · exact (Keeps.name "mutation target").traces ended value rest read

theorem action?_keeps {word : String} {action : Parser (ActionKind × Option String × Expression)}
    (known : action? limit word = some action) : Keeps brackets action := by
  unfold action? at known
  split at known <;> cases known <;> infer_instance

instance (command : Command) : Keeps brackets (statement limit command) := by
  unfold statement
  refine .of_current fun token => ?_
  dsimp only
  split
  · infer_instance
  · next other =>
    have kind : token.kind = .keyword := by simpa using other
    have := isPlain_of_kind kind nofun nofun
    split
    case h_4 =>
      split
      · next known =>
        have : Keeps brackets _ := action?_keeps limit known
        infer_instance
      · infer_instance
    all_goals infer_instance

instance : Keeps brackets (command limit) := by unfold command; infer_instance

-- The word of an action is no bracket, whatever the kind of its token.
theorem isPlain_of_policyAction {token : Token} {action : PolicyAction}
    (read : PolicyAction.ofWord? token.value = some action) : IsPlain token := by
  have found := List.find?_some read
  have word : action.word = token.value := beq_iff_eq.mp found
  constructor
  · intro _
    rw [← word]
    cases action <;> decide
  · intro _
    rw [← word]
    cases action <;> decide

instance : Keeps brackets policyAction := by
  unfold policyAction
  refine .of_current fun token => @KeepsAt.ite _ _ _ _ _ _ _ inferInstance ?_
  split
  · next read =>
    have := isPlain_of_policyAction read
    infer_instance
  · infer_instance

instance : Keeps brackets (policy limit) := by unfold policy; infer_instance

instance : Keeps brackets (configuration limit) := by
  unfold configuration
  refine .of_bind inferInstance fun _ => .of_bind inferInstance fun _ => @Keeps.ite _ _ _ _ _ _ ?_ inferInstance
  refine .of_bind inferInstance fun value => ?_
  split <;> infer_instance

instance (entity : String) : Keeps brackets (entityStore limit entity) := by unfold entityStore; infer_instance

instance : Keeps brackets (store limit) := by unfold store; infer_instance

instance (fields : List EventField) : Keeps brackets (eventField limit fields) := by unfold eventField; infer_instance

instance : Keeps brackets (event limit) := by unfold event; infer_instance

instance (entity : Entity) : Keeps brackets (entityMember limit entity) := by
  unfold entityMember
  refine .of_current fun token => ?_
  split
  case h_2 kind _ | h_3 kind _ | h_10 kind _ | h_11 kind _ =>
    have := isPlain_of_kind kind nofun nofun
    infer_instance
  case h_9 kind _ _ _ _ _ _ _ _ =>
    have := isPlain_of_kind kind nofun nofun
    split <;> infer_instance
  all_goals infer_instance

instance : Keeps brackets (entity limit) := by unfold entity; infer_instance

instance (steps : List FlowStep) : Keeps brackets (flowStep limit steps) := by unfold flowStep; infer_instance

instance : Keeps brackets (flow limit) := by unfold flow; infer_instance

instance : Keeps brackets (effect limit) := by unfold effect; infer_instance

instance : Keeps brackets exposure := by unfold exposure; infer_instance

instance : Keeps brackets dottedPath := by unfold dottedPath; infer_instance

instance (composition : Composition) : Keeps brackets (compositionItem composition) := by
  unfold compositionItem
  refine .of_current fun token => ?_
  split
  · next found =>
    have := PlainMark.isPlain found
    infer_instance
  · infer_instance

instance : Keeps brackets composition := by unfold composition; infer_instance

end Declaration
end Charter.Source.Grammar
