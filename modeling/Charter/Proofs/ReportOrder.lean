import Charter.Proofs.SourceOrder

/-!
Productions of expressions and of members report nothing themselves; they end in at most one fault, told of at a token
that they took or left. Names that are declared are reported on the way. So whatever is told of a text comes in its
order, each time at one of its tokens.
-/

namespace Charter
namespace Source
open Charter.Source.Parser

set_option synthInstance.maxSize 100000

namespace Grammar
variable {since : Position}

section Expression
variable {expression operand plain : Parser Expression} [Shrinks expression] [Shrinks operand] [Shrinks plain]
  [∀ since, Quiet since expression] [∀ since, Quiet since operand] [∀ since, Quiet since plain]

instance (level : Nat) : Quiet since (binaryOperator? level) := by
  unfold binaryOperator?
  refine .of_bind inferInstance fun token => ?_
  split <;> infer_instance

instance (level : Nat) (left : Expression) : Quiet since (chainTurn level operand left) := by
  unfold chainTurn
  refine .of_bind inferInstance fun operator => ?_
  split <;> infer_instance

instance (level : Nat) : Quiet since (chain level operand) := by rw [chain_eq]; infer_instance

instance : Quiet since (binary operand) := by unfold binary; infer_instance

instance : Quiet since (conditional expression operand) := by unfold conditional; infer_instance

instance : Quiet since (signed operand plain) := by
  unfold signed
  refine .of_bind inferInstance fun token => ?_
  split <;> infer_instance

instance (close : String) : Quiet since (sequence expression close) := by unfold sequence; infer_instance

instance : Quiet since (entries expression) := by unfold entries; infer_instance

-- An arrow does not end a text.
theorem lambdaHead?_ne_nil {tokens rest : List Token} {names : List String} (ended : Terminated tokens)
    (read : lambdaHead? tokens = some (names, rest)) : rest ≠ [] := by
  obtain ⟨opening, others, arrow, rfl, -, inside, found⟩ := lambdaHead?_parts read
  have suffix := (parameterNames?_suffix inside).trans (List.suffix_cons opening others)
  obtain ⟨_, _, _, same⟩ := (ended.suffix suffix).more (Inner.of_is found).going
  cases same
  exact List.cons_ne_nil _ _

instance : Quiet since lambdaParameters? := by
  constructor
  intro tokens ready _
  unfold lambdaParameters?
  cases read : lambdaHead? tokens with
  | none => exact ⟨ready.more, rfl, fun _ ended => by cases ended⟩
  | some found => exact ⟨lambdaHead?_ne_nil ready.ended read, rfl, fun _ ended => by cases ended⟩

instance (params : List String) : Quiet since (lambda expression params) := by unfold lambda; infer_instance

instance : Quiet since (parenthesized expression) := by
  unfold parenthesized
  refine .of_bind inferInstance fun params => ?_
  split <;> infer_instance

instance : Quiet since (primary expression) := by
  unfold primary
  refine .of_current (inferInstanceAs (Shrinks (primary expression))) fun token => ?_
  split
  · refine .of_bind inferInstance fun _ => ?_
    split <;> infer_instance
  · infer_instance
  · split <;> infer_instance
  · infer_instance
  · split <;> infer_instance
  · infer_instance

instance : Quiet since (accesses expression) := by unfold accesses; infer_instance

instance nested_quiet (limit levels : Nat) (production : Production) (since : Position) :
    Quiet since (nested limit levels production) := by
  induction levels generalizing production since with
  | zero =>
      cases production with
      | expression => exact (inferInstance : Quiet since (fail (.tooDeep limit)))
      | operand =>
          exact (inferInstance : Quiet since (signed (fail (.tooDeep limit)) (accesses (fail (.tooDeep limit)))))
  | succ levels ih =>
      have deeper := ih .expression
      have operand := ih .operand
      cases production with
      | expression =>
          exact (inferInstance : Quiet since
            (conditional (nested limit levels .expression) (nested limit levels .operand)))
      | operand =>
          exact (inferInstance : Quiet since (signed (nested limit levels .operand)
            (accesses (conditional (nested limit levels .expression) (nested limit levels .operand)))))

instance (limit : Nat) : Quiet since (Grammar.expression limit) := nested_quiet limit limit .expression since

end Expression

section Declaration
variable (limit : Nat)

instance (word : String) : Quiet since (keyword word) := by unfold keyword; infer_instance

instance {σ : Type} {separators unclosed : Parser Unit} {item : σ → Parser σ} [Shrinks separators] [Shrinks unclosed]
    [∀ state, Shrinks (item state)] [Quiet since separators] [Quiet since unclosed] [∀ state, Quiet since (item state)]
    (start : σ) : Quiet since (braced separators unclosed item start) := by
  unfold braced; infer_instance

instance (what name : String) : Quiet since (notEnded what name) := by unfold notEnded; infer_instance

instance {argument : Parser TypeRef} [Shrinks argument] [Quiet since argument] : Quiet since (typeForm argument) := by
  unfold typeForm; infer_instance

instance nestedType_quiet (levels : Nat) : Quiet since (nestedType limit levels) := by
  induction levels with
  | zero => exact (inferInstance : Quiet since (typeForm (fail (.tooDeep limit))))
  | succ levels ih => exact (inferInstance : Quiet since (typeForm (nestedType limit levels)))

instance : Quiet since (type limit) := nestedType_quiet limit limit

instance (modifiers : List Modifier) : Quiet since (leadingTurn modifiers) := by
  unfold leadingTurn
  refine .of_bind inferInstance fun token => ?_
  split <;> infer_instance

instance (modifiers : List Modifier) : Quiet since (trailingTurn modifiers) := by
  unfold trailingTurn
  refine .of_bind inferInstance fun token => ?_
  split <;> infer_instance

instance : Quiet since leadingModifiers := by rw [leadingModifiers_eq]; infer_instance

instance : Quiet since trailingModifiers := by rw [trailingModifiers_eq]; infer_instance

instance : Quiet since (property limit) := by unfold property; infer_instance

instance : Quiet since (computed limit) := by unfold computed; infer_instance

instance (kind : RelationshipKind) : Quiet since (relationship kind) := by unfold relationship; infer_instance

instance : Quiet since (literalValue limit) := by
  unfold literalValue
  refine .of_bind inferInstance fun value => ?_
  split <;> infer_instance

instance : Quiet since (literalList limit) := by unfold literalList; infer_instance

instance : Quiet since (transition limit) := by unfold transition; infer_instance

instance : Quiet since inlineSeverity? := by
  unfold inlineSeverity?
  refine .of_bind inferInstance fun token => .of_bind inferInstance fun next => ?_
  refine @Quiet.ite _ _ _ _ _ _ ?_ inferInstance
  split <;> infer_instance

instance (fields : ConstraintFields) : Quiet since (constraintField limit fields) := by
  unfold constraintField
  refine .of_current (inferInstanceAs (Shrinks (constraintField limit fields))) fun token =>
    .of_bind inferInstance fun key => .of_bind inferInstance fun _ => ?_
  split
  case h_1 | h_5 | h_7 =>
    refine .of_bind inferInstance fun value => ?_
    split <;> infer_instance
  all_goals infer_instance

instance (name : String) (severity : Option Enforcement) : Quiet since (constraintBlock limit name severity since) := by
  unfold constraintBlock
  refine .of_bind inferInstance fun _ => .of_bind inferInstance fun fields => ?_
  split <;> infer_instance

instance : Quiet since (constraint limit) := by
  unfold constraint
  exact .of_expect (inferInstanceAs (Shrinks (constraint limit))) fun token => inferInstance

instance : Quiet since actionTarget := by unfold actionTarget; infer_instance

theorem action?_quiet {word : String} {action : Parser (ActionKind × Option String × Expression)}
    (known : action? limit word = some action) : Quiet since action := by
  unfold action? at known
  split at known <;> cases known <;> infer_instance

instance (command : Command) : Quiet since (statement limit command) := by
  unfold statement
  refine .of_current (inferInstanceAs (Shrinks (statement limit command))) fun token =>
    @Quiet.ite _ _ _ _ _ _ inferInstance ?_
  dsimp only
  split
  case h_4 =>
    split
    · next known =>
      have := action?_shrinks limit known
      have := @action?_quiet token.position limit _ _ known
      infer_instance
    · infer_instance
  all_goals infer_instance

instance : Quiet since policyAction := by
  unfold policyAction
  refine .of_bind inferInstance fun token => @Quiet.ite _ _ _ _ _ _ inferInstance ?_
  split <;> infer_instance

instance : Quiet since (policy limit) := by unfold policy; infer_instance

instance : Quiet since (configuration limit) := by
  unfold configuration
  refine .of_bind inferInstance fun _ => .of_bind inferInstance fun _ => @Quiet.ite _ _ _ _ _ _ ?_ inferInstance
  refine .of_bind inferInstance fun value => ?_
  split <;> infer_instance

instance (entity : String) : Quiet since (entityStore limit entity) := by unfold entityStore; infer_instance

instance : Quiet since (store limit) := by unfold store; infer_instance

instance (fields : List EventField) : Quiet since (eventField limit fields) := by unfold eventField; infer_instance

instance : Quiet since (event limit) := by unfold event; infer_instance

instance (steps : List FlowStep) : Quiet since (flowStep limit steps) := by unfold flowStep; infer_instance

instance : Quiet since exposure := by unfold exposure; infer_instance

instance : Quiet since dottedPath := by unfold dottedPath; infer_instance

instance (composition : Composition) : Quiet since (compositionItem composition) := by
  unfold compositionItem; infer_instance

end Declaration

/-! With the names that are declared. -/

section Names
variable (limit : Nat) {start : Position}

instance : Orderly start (parameter limit) := by
  unfold parameter; infer_instance

instance : Orderly start (parameters limit) := by unfold parameters; infer_instance

instance {σ : Type} {separators unclosed : Parser Unit} {item : σ → Parser σ} [Shrinks separators] [Shrinks unclosed]
    [∀ state, Shrinks (item state)] [∀ start, Orderly start separators] [∀ start, Orderly start unclosed]
    [∀ state start, Orderly start (item state)] (first : σ) :
    Orderly start (braced separators unclosed item first) := by
  unfold braced; infer_instance

instance : Orderly start (command limit) := by unfold command; infer_instance

instance (entity : Entity) : Orderly start (entityMember limit entity) := by
  unfold entityMember
  refine .of_current fun token => ?_
  split
  case h_9 => split <;> infer_instance
  all_goals infer_instance

instance : Orderly start (entity limit) := by unfold entity; infer_instance

instance : Orderly start (flow limit) := by unfold flow; infer_instance

instance : Orderly start (effect limit) := by unfold effect; infer_instance

instance : Orderly start composition := by unfold composition; infer_instance

instance (m : Module) : Orderly start (moduleMember limit m) := by
  unfold moduleMember
  refine .of_current fun token => ?_
  split <;> infer_instance

instance : Orderly start (module limit) := by unfold module; infer_instance

instance (program : Program) : Orderly start (declaration limit program) := by
  unfold declaration
  refine .of_current fun token => @Orderly.ite _ _ _ _ _ _ inferInstance ?_
  dsimp only
  split <;> infer_instance

instance : Orderly start (program limit) := by unfold program; infer_instance

end Names
end Grammar

-- The faults of a text that was made of tokens are told of in order.
theorem Program.ofTokens_inOrder (limit : Nat) {tokens : List Token} (ready : Ready tokens) :
    ∃ rest, InOrder tokens rest ((ofTokens limit tokens).2.map (·.position)) := by
  obtain ⟨program, rest, reports, read, _⟩ := Grammar.loop_programTurn_ok limit {} ready.ended
  have whole : Grammar.program limit tokens = ⟨.ok program, rest, reports⟩ := Grammar.program_eq limit ▸ read
  have ordered := (Orderly.inOrder (p := Grammar.program limit) tokens ready rfl).2
  rw [whole, Parsed.places_ok] at ordered
  rw [ofTokens_eq ready.ended ready.more read]
  exact ⟨rest, ordered⟩

end Source

namespace Diagnostic

def StandsAt (d : Diagnostic) (place : Position) : Prop := d.line = some place.line ∧ d.column = some place.column

-- Both have a place, and that of the first is not behind that of the second.
def NotAfter (d d' : Diagnostic) : Prop := ∃ place place', d.StandsAt place ∧ d'.StandsAt place' ∧ place ≤ place'

end Diagnostic

namespace Source

theorem Report.diagnostic_standsAt (report : Report) : report.diagnostic.StandsAt report.position := ⟨rfl, rfl⟩

-- Whatever the limit of nesting and the policy for anomalies, the diagnostics of a text are those of its characters
-- and then those of its form. The latter come in the order of the text, each at a token of it.
theorem form_diagnostics_in_order (policy : AnomalyPolicy) (limit : Nat) (source : String) :
    ∃ told, (Document.ofSource policy limit source).diagnostics = (Lexed.ofSource source).diagnostics policy ++ told ∧
      told.Pairwise Diagnostic.NotAfter ∧
      ∀ d ∈ told, ∃ token ∈ (Lexed.ofSource source).tokens, d.StandsAt token.position := by
  obtain ⟨rest, ordered, shown⟩ := Program.ofTokens_inOrder limit (ready_ofSource source)
  refine ⟨(Program.ofTokens limit (Lexed.ofSource source).tokens).2.map Report.diagnostic, rfl, ?_, ?_⟩
  · refine List.pairwise_map.mpr ((List.pairwise_map.mp ordered).imp fun {first second} before => ?_)
    exact ⟨_, _, first.diagnostic_standsAt, second.diagnostic_standsAt, before⟩
  · intro d member
    obtain ⟨report, reported, rfl⟩ := List.mem_map.mp member
    obtain ⟨⟨token, present, same⟩, _⟩ := shown _ (List.mem_map_of_mem reported)
    exact ⟨token, present, same ▸ report.diagnostic_standsAt⟩

end Source
end Charter
