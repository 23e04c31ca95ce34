import Charter.Source.Grammar.Program
import Charter.Proofs.Blindness

/-!
Declarations are read without looking at positions: the tree that comes from tokens without them is the tree that
comes from the tokens, without its positions.
-/

namespace Charter.Source.Grammar
open Charter.Source.Parser

set_option synthInstance.maxSize 100000

variable (limit : Nat)

instance (word : String) : Blind Token.unplaced (keyword word) := Blind.expect .keyword word

theorem braced_tracks {σ : Type} {view : σ → σ} {separators unclosed : Parser Unit} {item : σ → Parser σ}
    [Blind (fun value => value) separators] [Blind (fun value => value) unclosed]
    (each : ∀ state, Tracks view (item (view state)) (item state)) (start : σ) :
    Tracks view (braced separators unclosed item (view start)) (braced separators unclosed item start) := by
  refine .loop view (fun state => ?_) start
  refine .read fun _ => ?_
  refine .read fun closes => .ite (.pure rfl) ?_
  refine .read fun _ => ?_
  exact .bind (each state) fun _ => .pure rfl

instance (what name : String) : Blind (fun value => value) (notEnded what name) := by
  constructor
  refine .read fun token => ?_
  exact .ite (.fail rfl) (.pure rfl)

instance : Blind (fun value => value) (Pure.pure () : Parser Unit) := ⟨.pure rfl⟩

instance {argument : Parser TypeRef} [Blind (fun type => type) argument] :
    Blind (fun type => type) (typeForm argument) := by
  have inner : Blind (fun type => type) (do
      let inner ← argument
      let _ ← expect .operator ">"
      return inner) := by
    constructor
    repeat refine .read fun _ => ?_
    exact .pure rfl
  constructor
  repeat refine .read fun _ => ?_
  exact .pure rfl

instance nestedType_blind (levels : Nat) : Blind (fun type => type) (nestedType limit levels) := by
  have deepest : Blind (fun type => type) (fail (.tooDeep limit) : Parser TypeRef) := ⟨.fail rfl⟩
  induction levels with
  | zero => exact (inferInstance : Blind _ (typeForm (fail (.tooDeep limit))))
  | succ levels ih => exact (inferInstance : Blind _ (typeForm (nestedType limit levels)))

instance : Blind (fun type => type) (type limit) := nestedType_blind limit limit

theorem modifier?_unplaced (token : Token) : modifier? token.unplaced = modifier? token := rfl

instance : Blind (fun modifiers => modifiers) leadingModifiers := by
  constructor
  refine .loop (fun modifiers => modifiers) (fun modifiers => ?_) []
  refine .read fun token => ?_
  rw [modifier?_unplaced]
  split
  · exact .pure rfl
  · refine .read fun next => ?_
    refine .ite (.pure rfl) ?_
    refine .read fun _ => ?_
    exact .pure rfl

instance : Blind (fun modifiers => modifiers) trailingModifiers := by
  constructor
  refine .loop (fun modifiers => modifiers) (fun modifiers => ?_) []
  refine .read fun token => ?_
  rw [modifier?_unplaced]
  split
  · exact .pure rfl
  · refine .read fun _ => ?_
    exact .pure rfl

instance : Blind Property.unplaced (property limit) := by
  constructor
  repeat refine .read fun _ => ?_
  exact .pure rfl

instance : Blind Computed.unplaced (computed limit) := by
  constructor
  repeat refine .read fun _ => ?_
  exact .pure rfl

instance (kind : RelationshipKind) : Blind Relationship.unplaced (relationship kind) := by
  constructor
  repeat refine .read fun _ => ?_
  exact .pure rfl

instance : Blind (fun literal => literal) (literalValue limit) := by
  constructor
  refine .read fun value => ?_
  split
  · exact .pure rfl
  · exact .pure rfl
  · exact .fail rfl

instance : Blind (fun literals => literals) (literalList limit) := by
  constructor
  refine .loop (fun literals => literals) (fun literals => ?_) []
  refine .read fun _ => ?_
  refine .read fun closes => .ite (.pure rfl) ?_
  refine .read fun _ => ?_
  exact .pure rfl

instance : Blind Transition.unplaced (transition limit) := by
  constructor
  repeat refine .read fun _ => ?_
  refine .ite ?_ ?_
  · refine .read fun _ => ?_
    exact .pure rfl
  · refine .read fun _ => ?_
    exact .pure rfl

instance : Blind (fun severity => severity) inlineSeverity? := by
  constructor
  refine .read fun token => ?_
  refine .read fun next => ?_
  refine .ite ?_ (.pure rfl)
  rw [Token.unplaced_value]
  split
  · refine .read fun _ => ?_
    exact .pure rfl
  · exact .pure rfl

instance (fields : ConstraintFields) : Blind (fun fields => fields) (constraintField limit fields) := by
  constructor
  refine .read fun start => ?_
  refine .read fun key => ?_
  refine .read fun _ => ?_
  split
  · refine .read fun word => ?_
    split
    · exact .pure rfl
    · exact .failAt rfl
  · refine .read fun _ => ?_
    exact .pure rfl
  · refine .read fun _ => ?_
    exact .pure rfl
  · refine .read fun _ => ?_
    exact .pure rfl
  · refine .read fun value => ?_
    split
    · exact .pure rfl
    · exact .fail rfl
  · refine .read fun _ => ?_
    exact .pure rfl
  · refine .read fun value => ?_
    split
    · exact .pure rfl
    · exact .fail rfl
  · exact .failAt rfl

theorem constraintBlock_tracks (name : String) (severity : Option Enforcement) (position : Position) :
    Tracks Constraint.unplaced (constraintBlock limit name severity .nowhere)
      (constraintBlock limit name severity position) := by
  refine .read fun _ => ?_
  refine .bind (braced_tracks (fun _ => Blind.tracks) _) fun fields => ?_
  split
  · exact .failAt rfl
  · exact .pure rfl

instance : Blind Constraint.unplaced (constraint limit) := by
  constructor
  refine .read fun start => ?_
  refine .read fun name => ?_
  refine .read fun typed => ?_
  refine .either Blind.tracks (.pure rfl) fun severity => ?_
  refine .read fun _ => ?_
  refine .read fun block => .ite (constraintBlock_tracks limit name severity start.position) ?_
  repeat refine .read fun _ => ?_
  exact .pure rfl

instance : Blind Parameter.unplaced (parameter limit) := by
  constructor
  repeat refine .read fun _ => ?_
  exact .pure rfl

instance : Blind (List.map Parameter.unplaced) (parameters limit) := by
  constructor
  refine .read fun _ => ?_
  refine .loop (List.map Parameter.unplaced) (fun items => ?_) []
  refine .read fun _ => ?_
  refine .read fun closes => .ite (.pure rfl) ?_
  refine .read fun item => ?_
  refine .read fun next => ?_
  refine .ite (.fail_bind rfl) (.pure ?_)
  rw [Turn.unplaced, List.map_append]
  rfl

instance : Blind (fun target => target) actionTarget := by
  constructor
  refine .read fun token => ?_
  refine .read fun next => ?_
  refine .ite ?_ Blind.tracks
  refine .read fun _ => ?_
  refine .read fun _ => ?_
  exact Blind.tracks

theorem action?_blind {word : String} {action : Parser (ActionKind × Option String × Expression)}
    (known : action? limit word = some action) : Blind (fun action => action) action := by
  unfold action? at known
  constructor
  split at known
  · cases known
    repeat refine .read fun _ => ?_
    exact .pure rfl
  · cases known
    repeat refine .read fun _ => ?_
    exact .pure rfl
  · cases known
    refine .read fun event => ?_
    refine .read fun next => ?_
    refine .ite (.pure rfl) ?_
    refine .read fun _ => ?_
    exact .pure rfl
  · cases known
    refine .read fun _ => ?_
    exact .pure rfl
  · cases known
    exact .pure rfl
  · cases known
    refine .read fun _ => ?_
    exact .pure rfl
  · cases known

theorem statement_tracks (command : Command) :
    Tracks Command.unplaced (statement limit command.unplaced) (statement limit command) := by
  refine .read fun token => ?_
  refine .ite (.fail_bind rfl) ?_
  rw [Token.unplaced_value]
  split
  · repeat refine .read fun _ => ?_
    exact .pure rfl
  · refine .read fun _ => .pure ?_
    simp only [Command.unplaced, List.map_append, List.map_cons, List.map_nil]
  · repeat refine .read fun _ => ?_
    exact .pure rfl
  · split
    · next known =>
      have := action?_blind limit known
      repeat refine .read fun _ => ?_
      refine .pure ?_
      simp only [Command.unplaced, List.map_append, List.map_cons, List.map_nil]
      rfl
    · exact .failAt rfl

instance : Blind Command.unplaced (command limit) := by
  constructor
  refine .read fun start => ?_
  refine .read fun name => ?_
  refine .read fun parameters => ?_
  refine .read fun returns => ?_
  refine .read fun _ => ?_
  refine .read fun _ => ?_
  exact braced_tracks (statement_tracks limit) { name, parameters, returns, position := start.position }

instance : Blind (fun action => action) policyAction := by
  constructor
  refine .read fun token => ?_
  refine .ite (.pure rfl) ?_
  rw [Token.unplaced_value]
  split
  · refine .read fun _ => ?_
    exact .pure rfl
  · exact .fail rfl

instance : Blind Policy.unplaced (policy limit) := by
  constructor
  repeat refine .read fun _ => ?_
  exact .pure rfl

instance : Blind (fun entries => entries) (configuration limit) := by
  constructor
  refine .read fun _ => ?_
  refine .read fun block => .ite ?_ (.pure rfl)
  refine .read fun value => ?_
  split
  · exact .pure rfl
  · exact .fail rfl

instance (entity : String) : Blind Store.unplaced (entityStore limit entity) := by
  constructor
  repeat refine .read fun _ => ?_
  exact .pure rfl

instance : Blind Store.unplaced (store limit) := by
  constructor
  repeat refine .read fun _ => ?_
  exact .pure rfl

instance (fields : List EventField) : Blind (fun fields => fields) (eventField limit fields) := by
  constructor
  repeat refine .read fun _ => ?_
  exact .pure rfl

-- Items whose state has no position in it.
instance {σ : Type} {separators unclosed : Parser Unit} {item : σ → Parser σ}
    [Blind (fun value => value) separators] [Blind (fun value => value) unclosed]
    [each : ∀ state, Blind (fun state => state) (item state)] (start : σ) :
    Blind (fun state => state) (braced separators unclosed item start) :=
  ⟨braced_tracks (fun state => (each state).tracks) start⟩

instance : Blind Event.unplaced (event limit) := by
  constructor
  refine .read fun start => ?_
  refine .read fun name => ?_
  refine .read fun channel => ?_
  refine .read fun _ => ?_
  refine .read fun listed => ?_
  exact .either Blind.tracks (.pure rfl) fun payload => .pure rfl

theorem entityMember_tracks (entity : Entity) :
    Tracks Entity.unplaced (entityMember limit entity.unplaced) (entityMember limit entity) := by
  refine .read fun token => ?_
  rw [Token.unplaced_kind, Token.unplaced_value]
  split
  case h_9 =>
    split
    · refine .read fun _ => .pure ?_
      simp only [Entity.unplaced, List.map_append, List.map_cons, List.map_nil]
    · exact .fail rfl
  case h_7 =>
    refine .read fun _ => .pure ?_
    rfl
  case h_10 | h_11 =>
    repeat refine .read fun _ => ?_
    exact .pure rfl
  case h_12 => exact .fail rfl
  all_goals
    refine .read fun _ => .pure ?_
    simp only [Entity.unplaced, List.map_append, List.map_cons, List.map_nil]

instance : Blind Entity.unplaced (entity limit) := by
  constructor
  refine .read fun start => ?_
  refine .read fun name => ?_
  refine .read fun _ => ?_
  refine .read fun _ => ?_
  exact braced_tracks (entityMember_tracks limit) { name, position := start.position }

instance (steps : List FlowStep) : Blind (fun steps => steps) (flowStep limit steps) := by
  constructor
  repeat refine .read fun _ => ?_
  exact .pure rfl

instance : Blind Flow.unplaced (flow limit) := by
  constructor
  refine .read fun start => ?_
  refine .read fun name => ?_
  refine .read fun parenthesis => ?_
  refine .either Blind.tracks (.pure rfl) fun parameters => ?_
  repeat refine .read fun _ => ?_
  exact .pure rfl

instance : Blind Effect.unplaced (effect limit) := by
  constructor
  repeat refine .read fun _ => ?_
  exact .pure rfl

instance : Blind Exposure.unplaced exposure := by
  have operation (names : List String) : Blind (fun names => names) (do return names ++ [← name "operation"]) := by
    constructor
    refine .read fun _ => ?_
    exact .pure rfl
  constructor
  refine .read fun start => ?_
  refine .read fun entity => ?_
  refine .read fun _ => ?_
  refine .read fun protocol => ?_
  refine .read fun _ => ?_
  refine .read fun listed => ?_
  exact .either Blind.tracks (.pure rfl) fun operations => .pure rfl

instance : Blind (fun path => path) dottedPath := by
  constructor
  refine .read fun first => ?_
  refine .loop (fun path => path) (fun path => ?_) first
  refine .read fun point => .ite ?_ (.pure rfl)
  refine .read fun _ => ?_
  exact .pure rfl

theorem compositionItem_tracks (composition : Composition) :
    Tracks Composition.unplaced (compositionItem composition.unplaced) (compositionItem composition) := by
  refine .read fun token => ?_
  refine .ite ?_ ?_
  · repeat refine .read fun _ => ?_
    exact .pure rfl
  · refine .read fun _ => ?_
    exact .pure rfl

instance : Blind Composition.unplaced composition := by
  constructor
  refine .read fun start => ?_
  refine .read fun name => ?_
  refine .read fun _ => ?_
  refine .read fun _ => ?_
  exact braced_tracks compositionItem_tracks ⟨name, [], [], start.position⟩

/-! What is skipped behind a fault is told by the tokens without positions. -/

theorem openBraces_unplaced (tokens : List Token) : openBraces (tokens.map Token.unplaced) = openBraces tokens := by
  simp only [openBraces, List.map_map]
  rfl

theorem skipToDeclaration_unplaced (insideBlock : Bool) (depth : Nat) (tokens : List Token) :
    skipToDeclaration insideBlock depth (tokens.map Token.unplaced) =
      (skipToDeclaration insideBlock depth tokens).map Token.unplaced := by
  induction tokens generalizing depth with
  | nil => cases depth <;> rfl
  | cons token rest ih =>
      cases rest with
      | nil => cases depth <;> rfl
      | cons next rest =>
          simp only [List.map_cons, skipToDeclaration, Token.unplaced_is, apply_ite (List.map _)] at ih ⊢
          simp only [ih]
          rfl

theorem resume_unplaced (insideBlock : Bool) (start tokens : List Token) :
    resume insideBlock (start.map Token.unplaced) (tokens.map Token.unplaced) =
      (resume insideBlock start tokens).map Token.unplaced := by
  unfold resume
  simp only [List.length_map, ← List.map_take, openBraces_unplaced, List.isEmpty_map, drop_unplaced,
    ← skipToDeclaration_unplaced, apply_ite (List.map _)]

theorem moduleMember_tracks (m : Module) :
    Tracks Module.unplaced (moduleMember limit m.unplaced) (moduleMember limit m) := by
  refine .read fun token => ?_
  rw [Token.unplaced_kind, Token.unplaced_value]
  split
  case h_6 => exact .fail rfl
  all_goals
    refine .read fun _ => .pure ?_
    simp only [Module.unplaced, List.map_append, List.map_cons, List.map_nil]

instance : Blind Module.unplaced (module limit) := by
  constructor
  refine .read fun start => ?_
  refine .read fun name => ?_
  refine .read fun _ => ?_
  refine .read fun _ => ?_
  exact braced_tracks (fun m => .recover (moduleMember_tracks limit m) (resume_unplaced true))
    { name, position := start.position }

theorem declaration_tracks (program : Program) :
    Tracks Program.unplaced (declaration limit program.unplaced) (declaration limit program) := by
  refine .read fun token => ?_
  refine .ite (.fail_bind rfl) ?_
  rw [Token.unplaced_value]
  split
  case h_11 => exact .failAt rfl
  all_goals
    refine .read fun _ => .pure ?_
    simp only [Program.unplaced, List.map_append, List.map_cons, List.map_nil]

instance : Blind Program.unplaced (program limit) := by
  constructor
  refine .loop Program.unplaced (fun program => ?_) {}
  refine .read fun _ => ?_
  refine .read fun token => ?_
  refine .ite (.pure rfl) ?_
  exact .bind (.recover (declaration_tracks limit program) (resume_unplaced false)) fun _ => .pure rfl

end Charter.Source.Grammar

namespace Charter.Source

theorem terminated_unplaced (tokens : List Token) :
    terminated (tokens.map Token.unplaced) = (terminated tokens).map Token.unplaced := by
  unfold terminated
  rw [List.getLast?_map]
  cases tokens.getLast? with
  | none => rfl
  | some last =>
      simp only [Option.map_some, Token.unplaced_kind, apply_ite (List.map _), List.map_append]
      rfl

-- Read from tokens without positions, a program and the faults in it are the same without positions.
theorem Program.ofTokens_unplaced (limit : Nat) (tokens : List Token) :
    Program.ofTokens limit (tokens.map Token.unplaced) =
      ((Program.ofTokens limit tokens).1.unplaced, (Program.ofTokens limit tokens).2.map Report.unplaced) := by
  have tracks : Parser.Tracks Program.unplaced (Grammar.program limit) (Grammar.program limit) := Parser.Blind.tracks
  unfold Program.ofTokens
  rw [terminated_unplaced, tracks]
  dsimp only [Parsed.unplaced]
  cases (Grammar.program limit (terminated tokens)).result with
  | ok program => rfl
  | error report => rw [List.map_append]; rfl

end Charter.Source
