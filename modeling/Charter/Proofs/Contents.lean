import Charter.Proofs.Regularity

/-!
The expressions of a program, wherever its declarations hold them, and the literals of its transitions. What is true of
each expression and literal that is read is true of all of them.
-/

namespace Charter.Source
open Charter.Source.Parser

def Property.expressions (p : Property) : List Expression := p.default?.toList

def Constraint.expressions (c : Constraint) : List Expression := c.expression :: c.details.map (·.2)

def Parameter.expressions (p : Parameter) : List Expression := p.default?.toList

def Command.expressions (c : Command) : List Expression :=
  c.parameters.flatMap Parameter.expressions ++ c.guards ++ c.constraints.flatMap Constraint.expressions ++
    c.actions.map (·.expression)

def Store.expressions (s : Store) : List Expression := s.config.map (·.2)

def Entity.expressions (e : Entity) : List Expression :=
  e.properties.flatMap Property.expressions ++ e.computed.map (·.expression) ++
    e.commands.flatMap Command.expressions ++ e.constraints.flatMap Constraint.expressions ++
    e.policies.map (·.expression) ++ e.store.toList.flatMap Store.expressions

def Flow.expressions (f : Flow) : List Expression :=
  f.parameters.flatMap Parameter.expressions ++ f.steps.map (·.expression)

def Effect.expressions (e : Effect) : List Expression := e.config.map (·.2)

def Module.expressions (m : Module) : List Expression :=
  m.entities.flatMap Entity.expressions ++ m.commands.flatMap Command.expressions ++ m.policies.map (·.expression) ++
    m.stores.flatMap Store.expressions

-- Literals, as in transitions, are no expressions of their own.
def Program.expressions (p : Program) : List Expression :=
  p.modules.flatMap Module.expressions ++ p.entities.flatMap Entity.expressions ++
    p.commands.flatMap Command.expressions ++ p.policies.map (·.expression) ++ p.stores.flatMap Store.expressions ++
    p.flows.flatMap Flow.expressions ++ p.effects.flatMap Effect.expressions

/-! The contents of a declaration are its expressions, and with them the literals of transitions. -/

def Transition.literals (t : Transition) : List Expression := (t.source :: t.targets).map .literal

def Entity.contents (e : Entity) : List Expression := e.expressions ++ e.transitions.flatMap Transition.literals

def Module.contents (m : Module) : List Expression :=
  m.expressions ++ m.entities.flatMap fun e => e.transitions.flatMap Transition.literals

def Program.contents (p : Program) : List Expression :=
  p.expressions ++ (p.modules.flatMap (·.entities) ++ p.entities).flatMap fun e =>
    e.transitions.flatMap Transition.literals

/-! All contents of a declaration, part by part. -/

section Parts
variable {fine : Expression → Prop}

theorem forall_mem_snoc {α : Type} {good : α → Prop} {items : List α} {last : α} (before : ∀ item ∈ items, good item)
    (holds : good last) : ∀ item ∈ items ++ [last], good item :=
  List.forall_mem_append.mpr ⟨before, List.forall_mem_singleton.mpr holds⟩

theorem Constraint.forall_expressions {c : Constraint} : (∀ e ∈ c.expressions, fine e) ↔
    fine c.expression ∧ ∀ entry ∈ c.details, fine entry.2 := by
  simp only [expressions, List.forall_mem_cons, List.forall_mem_map]

theorem Command.forall_expressions {c : Command} : (∀ e ∈ c.expressions, fine e) ↔
    (∀ p ∈ c.parameters, ∀ e ∈ p.expressions, fine e) ∧ (∀ guard ∈ c.guards, fine guard) ∧
      (∀ k ∈ c.constraints, ∀ e ∈ k.expressions, fine e) ∧ ∀ action ∈ c.actions, fine action.expression := by
  simp only [expressions, List.forall_mem_append, List.forall_mem_flatMap, List.forall_mem_map, and_assoc]

theorem Transition.forall_literals {t : Transition} : (∀ e ∈ t.literals, fine e) ↔
    fine (.literal t.source) ∧ ∀ target ∈ t.targets, fine (.literal target) := by
  simp only [literals, List.forall_mem_map, List.forall_mem_cons]

theorem Entity.forall_contents {entity : Entity} : (∀ e ∈ entity.contents, fine e) ↔
    (∀ p ∈ entity.properties, ∀ e ∈ p.expressions, fine e) ∧ (∀ c ∈ entity.computed, fine c.expression) ∧
      (∀ c ∈ entity.commands, ∀ e ∈ c.expressions, fine e) ∧
      (∀ k ∈ entity.constraints, ∀ e ∈ k.expressions, fine e) ∧ (∀ p ∈ entity.policies, fine p.expression) ∧
      (∀ s ∈ entity.store.toList, ∀ e ∈ s.expressions, fine e) ∧
      ∀ t ∈ entity.transitions, ∀ e ∈ t.literals, fine e := by
  simp only [contents, expressions, List.forall_mem_append, List.forall_mem_flatMap, List.forall_mem_map, and_assoc]

theorem Module.forall_contents {m : Module} : (∀ e ∈ m.contents, fine e) ↔
    (∀ entity ∈ m.entities, ∀ e ∈ entity.contents, fine e) ∧ (∀ c ∈ m.commands, ∀ e ∈ c.expressions, fine e) ∧
      (∀ p ∈ m.policies, fine p.expression) ∧ ∀ s ∈ m.stores, ∀ e ∈ s.expressions, fine e := by
  simp only [contents, Entity.contents, expressions, List.forall_mem_append, List.forall_mem_flatMap,
    List.forall_mem_map, forall_and, and_assoc]
  tauto

theorem Program.forall_contents {program : Program} : (∀ e ∈ program.contents, fine e) ↔
    (∀ m ∈ program.modules, ∀ e ∈ m.contents, fine e) ∧
      (∀ entity ∈ program.entities, ∀ e ∈ entity.contents, fine e) ∧
      (∀ c ∈ program.commands, ∀ e ∈ c.expressions, fine e) ∧ (∀ p ∈ program.policies, fine p.expression) ∧
      (∀ s ∈ program.stores, ∀ e ∈ s.expressions, fine e) ∧ (∀ f ∈ program.flows, ∀ e ∈ f.expressions, fine e) ∧
      ∀ effect ∈ program.effects, ∀ e ∈ effect.expressions, fine e := by
  simp only [contents, Module.contents, Entity.contents, expressions, List.forall_mem_append, List.forall_mem_flatMap,
    List.forall_mem_map, forall_and, and_assoc]
  tauto

end Parts

section Combinators
variable {α σ : Type} {known : Token → Prop} {p : Parser α} {good : α → Prop}

theorem Gives.after? [Shrinks p] (kind : TokenKind) (mark : String) (each : Gives known p good) :
    Gives known (Parser.after? kind mark p) (∀ value ∈ ·.toList, good value) :=
  .after fun _ => .ite (each.bind fun value holds => .pure (by simpa using holds)) (.pure (by simp))

theorem Gives.recover {instead : α} {resume : List Token → List Token → List Token} (each : Gives known p good)
    (otherwise : good instead) : Gives known (Parser.recover instead p resume) good := by
  intro tokens value read ran
  unfold Parser.recover at ran
  cases parsed : p tokens with
  | mk result rest reports =>
      rw [parsed] at ran
      cases result with
      | error report => cases ran; exact otherwise
      | ok found => cases ran; exact each tokens _ read (by rw [parsed])

theorem Gives.braced {separators unclosed : Parser Unit} {item : σ → Parser σ} [Shrinks separators]
    [Shrinks unclosed] [∀ state, Shrinks (item state)] {kept : σ → Prop}
    (each : ∀ state, kept state → Gives known (item state) kept) {start : σ} (first : kept start) :
    Gives known (Grammar.braced separators unclosed item start) kept := by
  refine .loop (fun state keeps => ?_) first
  refine .after fun _ => .after fun closes => .ite (.pure keeps) (.after fun _ => ?_)
  exact (each state keeps).bind fun _ holds => .pure holds

end Combinators

namespace Grammar
variable {known : Token → Prop} {limit : Nat} {fine : Expression → Prop}

-- What holds of every expression and literal that is read, of the entries where an object is taken apart, and of the
-- few that stand for nothing written.
structure Supplies (known : Token → Prop) (limit : Nat) (fine : Expression → Prop) : Prop where
  whole : Gives known (expression limit) fine
  first : Gives known (primary (expression limit)) fine
  literal : Gives known (literalValue limit) fun value => fine (.literal value)
  entries : ∀ entries, fine (.object entries) → ∀ entry ∈ entries, fine entry.2
  self : fine (.identifier "self")
  empty : fine (.object [])

namespace Supplies
variable (supplies : Supplies known limit fine)
include supplies

theorem property : Gives known (property limit) (∀ e ∈ ·.expressions, fine e) := by
  refine .after fun _ => .after fun _ => .after fun _ => .after fun _ => .after fun _ => .after fun _ => ?_
  exact (supplies.whole.after? _ _).bind fun _ holds => .pure holds

theorem computed : Gives known (computed limit) (fine ·.expression) := by
  refine .after fun _ => .after fun _ => .after fun _ => .after fun _ => .after fun _ => ?_
  exact supplies.whole.bind fun _ holds => .pure holds

theorem literalList : Gives known (literalList limit) (∀ value ∈ ·, fine (.literal value)) := by
  refine .loop (fun values (before : ∀ value ∈ values, fine (.literal value)) => ?_) nofun
  refine .after fun _ => .after fun closes => .ite (.pure before) ?_
  exact supplies.literal.bind fun value holds => .pure (forall_mem_snoc before holds)

theorem transition : Gives known (transition limit) (∀ e ∈ ·.literals, fine e) := by
  refine .after fun _ => .after fun _ => .after fun _ => supplies.literal.bind fun source holds => ?_
  refine .after fun _ => .after fun listed => .ite (supplies.literalList.bind fun targets each => ?_)
    (supplies.literal.bind fun target each => ?_)
  · exact .pure (Transition.forall_literals.mpr ⟨holds, each⟩)
  · exact .pure (Transition.forall_literals.mpr ⟨holds, List.forall_mem_singleton.mpr each⟩)

theorem constraintField (fields : ConstraintFields)
    (before : (∀ e ∈ fields.expression.toList, fine e) ∧ ∀ entry ∈ fields.details, fine entry.2) :
    Gives known (constraintField limit fields) fun fields =>
      (∀ e ∈ fields.expression.toList, fine e) ∧ ∀ entry ∈ fields.details, fine entry.2 := by
  refine .after fun _ => .after fun key => .after fun _ => ?_
  split
  · refine .after fun word => ?_
    split
    · exact .pure before
    · exact .failAt _ _
  · exact supplies.whole.bind fun e holds => .pure ⟨by simpa using holds, before.2⟩
  · exact .after fun _ => .pure before
  · exact .after fun _ => .pure before
  · refine supplies.whole.bind fun e holds => ?_
    split
    · exact .pure ⟨before.1, supplies.entries _ holds⟩
    · exact .fail _
  · exact .after fun _ => .pure before
  · refine .after fun e => ?_
    split
    · exact .pure before
    · exact .fail _
  · exact .failAt _ _

theorem constraintBlock (name : String) (severity : Option Enforcement) (position : Position) :
    Gives known (constraintBlock limit name severity position) (∀ e ∈ ·.expressions, fine e) := by
  have empty : (∀ e ∈ (none : Option Expression).toList, fine e) ∧
      ∀ entry ∈ ([] : List (String × Expression)), fine entry.2 := ⟨nofun, nofun⟩
  refine .after fun _ => (Gives.braced supplies.constraintField empty).bind fun fields holds => ?_
  split
  · exact .failAt _ _
  · next e read =>
    rw [read] at holds
    exact .pure (Constraint.forall_expressions.mpr ⟨holds.1 e (by simp), holds.2⟩)

theorem constraint : Gives known (constraint limit) (∀ e ∈ ·.expressions, fine e) := by
  refine .after fun _ => .after fun name => .after fun colon => .ite (.after fun severity => ?_) (.after fun severity => ?_)
  all_goals
    refine .after fun _ => .after fun block => .ite (supplies.constraintBlock _ _ _) ?_
    exact supplies.whole.bind fun e holds => .after fun _ => .pure (Constraint.forall_expressions.mpr ⟨holds, nofun⟩)

theorem parameter : Gives known (parameter limit) (∀ e ∈ ·.expressions, fine e) := by
  refine .after fun _ => .after fun _ => .after fun _ => ?_
  exact (supplies.whole.after? _ _).bind fun _ holds => .pure holds

theorem parameters : Gives known (parameters limit) (∀ p ∈ ·, ∀ e ∈ p.expressions, fine e) := by
  refine .after fun _ => .loop (fun items (before : ∀ p ∈ items, ∀ e ∈ p.expressions, fine e) => ?_) nofun
  refine .after fun _ => .after fun closes => .ite (.pure before) ?_
  refine supplies.parameter.bind fun item holds => .after fun next => .ite (.fail_bind _) (.pure ?_)
  exact forall_mem_snoc before holds

theorem action {word : String} {action : Parser (ActionKind × Option String × Expression)}
    (meant : action? limit word = some action) : Gives known action (fine ·.2.2) := by
  unfold action? at meant
  split at meant
  · cases meant
    exact .after fun _ => .after fun _ => supplies.whole.bind fun _ holds => .pure holds
  · cases meant
    exact .after fun _ => .after fun _ => supplies.whole.bind fun _ holds => .pure holds
  · cases meant
    refine .after fun event => .after fun next => .ite (.pure supplies.empty) ?_
    exact supplies.whole.bind fun _ holds => .pure holds
  · cases meant
    exact supplies.whole.bind fun _ holds => .pure holds
  · cases meant
    exact .pure supplies.self
  · cases meant
    exact supplies.whole.bind fun _ holds => .pure holds
  · cases meant

theorem statement (command : Command) (before : ∀ e ∈ command.expressions, fine e) :
    Gives known (statement limit command) (∀ e ∈ ·.expressions, fine e) := by
  obtain ⟨parameters, guards, constraints, actions⟩ := Command.forall_expressions.mp before
  refine .after fun token => .ite (.fail_bind _) ?_
  split
  · refine .after fun _ => supplies.whole.bind fun guard holds => .pure ?_
    exact Command.forall_expressions.mpr ⟨parameters, forall_mem_snoc guards holds, constraints, actions⟩
  · refine supplies.constraint.bind fun constraint holds => .pure ?_
    exact Command.forall_expressions.mpr ⟨parameters, guards, forall_mem_snoc constraints holds, actions⟩
  · exact .after fun _ => .after fun _ => .pure before
  · split
    · next meant =>
      have := action?_shrinks limit meant
      refine .after fun _ => (supplies.action meant).bind fun action holds => .pure ?_
      exact Command.forall_expressions.mpr ⟨parameters, guards, constraints, forall_mem_snoc actions holds⟩
    · exact .failAt _ _

theorem command : Gives known (command limit) (∀ e ∈ ·.expressions, fine e) := by
  refine .after fun _ => .after fun name => supplies.parameters.bind fun parameters given => ?_
  refine .after fun returns => .after fun _ => .after fun _ => .braced supplies.statement ?_
  exact Command.forall_expressions.mpr ⟨given, nofun, nofun, nofun⟩

theorem policy : Gives known (policy limit) (fine ·.expression) := by
  refine .after fun _ => .after fun _ => .after fun _ => .after fun _ => ?_
  exact supplies.whole.bind fun _ holds => .after fun _ => .pure holds

theorem configuration : Gives known (configuration limit) (∀ entry ∈ ·, fine entry.2) := by
  refine .after fun _ => .after fun block => .ite (supplies.first.bind fun e holds => ?_) (.pure nofun)
  split
  · exact .pure (supplies.entries _ holds)
  · exact .fail _

theorem entityStore (entity : String) : Gives known (entityStore limit entity) (∀ e ∈ ·.expressions, fine e) := by
  refine .after fun _ => .after fun _ => .after fun _ => supplies.configuration.bind fun _ holds => .pure ?_
  exact List.forall_mem_map.mpr holds

theorem store : Gives known (store limit) (∀ e ∈ ·.expressions, fine e) := by
  refine .after fun _ => .after fun _ => .after fun _ => .after fun _ => ?_
  exact supplies.configuration.bind fun _ holds => .pure (List.forall_mem_map.mpr holds)

theorem entityMember (entity : Entity) (before : ∀ e ∈ entity.contents, fine e) :
    Gives known (entityMember limit entity) (∀ e ∈ ·.contents, fine e) := by
  obtain ⟨properties, computeds, commands, constraints, policies, stores, transitions⟩ :=
    Entity.forall_contents.mp before
  refine .after fun token => ?_
  split
  · refine supplies.property.bind fun property holds => .pure ?_
    exact Entity.forall_contents.mpr
      ⟨forall_mem_snoc properties holds, computeds, commands, constraints, policies, stores, transitions⟩
  · refine supplies.computed.bind fun computed holds => .pure ?_
    exact Entity.forall_contents.mpr
      ⟨properties, forall_mem_snoc computeds holds, commands, constraints, policies, stores, transitions⟩
  · refine supplies.computed.bind fun computed holds => .pure ?_
    exact Entity.forall_contents.mpr
      ⟨properties, forall_mem_snoc computeds holds, commands, constraints, policies, stores, transitions⟩
  · refine supplies.command.bind fun command holds => .pure ?_
    exact Entity.forall_contents.mpr
      ⟨properties, computeds, forall_mem_snoc commands holds, constraints, policies, stores, transitions⟩
  · refine supplies.constraint.bind fun constraint holds => .pure ?_
    exact Entity.forall_contents.mpr
      ⟨properties, computeds, commands, forall_mem_snoc constraints holds, policies, stores, transitions⟩
  · refine supplies.policy.bind fun policy holds => .pure ?_
    exact Entity.forall_contents.mpr
      ⟨properties, computeds, commands, constraints, forall_mem_snoc policies holds, stores, transitions⟩
  · refine (supplies.entityStore _).bind fun store holds => .pure ?_
    exact Entity.forall_contents.mpr
      ⟨properties, computeds, commands, constraints, policies, List.forall_mem_singleton.mpr holds, transitions⟩
  · refine supplies.transition.bind fun transition holds => .pure ?_
    exact Entity.forall_contents.mpr
      ⟨properties, computeds, commands, constraints, policies, stores, forall_mem_snoc transitions holds⟩
  · split
    · exact .after fun _ => .pure before
    · exact .fail _
  · exact .after fun _ => .after fun _ => .pure before
  · exact .after fun _ => .after fun _ => .pure before
  · exact .fail _

theorem entity : Gives known (entity limit) (∀ e ∈ ·.contents, fine e) := by
  refine .after fun _ => .after fun name => .after fun _ => .after fun _ => .braced supplies.entityMember ?_
  exact Entity.forall_contents.mpr ⟨nofun, nofun, nofun, nofun, nofun, nofun, nofun⟩

theorem flowStep (steps : List FlowStep) (before : ∀ step ∈ steps, fine step.expression) :
    Gives known (flowStep limit steps) (∀ step ∈ ·, fine step.expression) :=
  .after fun _ => .after fun _ => supplies.whole.bind fun _ holds => .pure (forall_mem_snoc before holds)

theorem flow : Gives known (flow limit) (∀ e ∈ ·.expressions, fine e) := by
  have none : Gives known (pure [] : Parser (List Parameter)) (∀ p ∈ ·, ∀ e ∈ p.expressions, fine e) :=
    .pure nofun
  have start : ∀ step ∈ ([] : List FlowStep), fine step.expression := nofun
  refine .after fun _ => .after fun _ => .after fun listed =>
    .ite (supplies.parameters.bind fun parameters given => ?_) (none.bind fun parameters given => ?_)
  all_goals
    refine .after fun returns => .after fun _ => .after fun _ => ?_
    refine (Gives.braced supplies.flowStep start).bind fun steps holds => .pure ?_
    exact List.forall_mem_append.mpr ⟨List.forall_mem_flatMap.mpr given, List.forall_mem_map.mpr holds⟩

theorem effect : Gives known (effect limit) (∀ e ∈ ·.expressions, fine e) := by
  refine .after fun _ => .after fun _ => .after fun _ => .after fun _ => ?_
  exact supplies.configuration.bind fun _ holds => .pure (List.forall_mem_map.mpr holds)

theorem moduleMember (m : Module) (before : ∀ e ∈ m.contents, fine e) :
    Gives known (moduleMember limit m) (∀ e ∈ ·.contents, fine e) := by
  obtain ⟨entities, commands, policies, stores⟩ := Module.forall_contents.mp before
  refine .after fun token => ?_
  split
  · refine supplies.entity.bind fun entity holds => .pure ?_
    exact Module.forall_contents.mpr ⟨forall_mem_snoc entities holds, commands, policies, stores⟩
  · refine supplies.command.bind fun command holds => .pure ?_
    exact Module.forall_contents.mpr ⟨entities, forall_mem_snoc commands holds, policies, stores⟩
  · refine supplies.policy.bind fun policy holds => .pure ?_
    exact Module.forall_contents.mpr ⟨entities, commands, forall_mem_snoc policies holds, stores⟩
  · refine supplies.store.bind fun store holds => .pure ?_
    exact Module.forall_contents.mpr ⟨entities, commands, policies, forall_mem_snoc stores holds⟩
  · exact .after fun _ => .pure before
  · exact .fail _

theorem module : Gives known (module limit) (∀ e ∈ ·.contents, fine e) := by
  refine .after fun _ => .after fun name => .after fun _ => .after fun _ => ?_
  refine .braced (fun m before => .recover (supplies.moduleMember m before) before) ?_
  exact Module.forall_contents.mpr ⟨nofun, nofun, nofun, nofun⟩

theorem declaration (program : Program) (before : ∀ e ∈ program.contents, fine e) :
    Gives known (declaration limit program) (∀ e ∈ ·.contents, fine e) := by
  obtain ⟨modules, entities, commands, policies, stores, flows, effects⟩ := Program.forall_contents.mp before
  refine .after fun token => .ite (.fail_bind _) ?_
  split
  · refine supplies.module.bind fun module holds => .pure ?_
    exact Program.forall_contents.mpr
      ⟨forall_mem_snoc modules holds, entities, commands, policies, stores, flows, effects⟩
  · refine supplies.entity.bind fun entity holds => .pure ?_
    exact Program.forall_contents.mpr
      ⟨modules, forall_mem_snoc entities holds, commands, policies, stores, flows, effects⟩
  · refine supplies.command.bind fun command holds => .pure ?_
    exact Program.forall_contents.mpr
      ⟨modules, entities, forall_mem_snoc commands holds, policies, stores, flows, effects⟩
  · refine supplies.policy.bind fun policy holds => .pure ?_
    exact Program.forall_contents.mpr
      ⟨modules, entities, commands, forall_mem_snoc policies holds, stores, flows, effects⟩
  · refine supplies.store.bind fun store holds => .pure ?_
    exact Program.forall_contents.mpr
      ⟨modules, entities, commands, policies, forall_mem_snoc stores holds, flows, effects⟩
  · exact .after fun _ => .pure before
  · refine supplies.flow.bind fun flow holds => .pure ?_
    exact Program.forall_contents.mpr
      ⟨modules, entities, commands, policies, stores, forall_mem_snoc flows holds, effects⟩
  · refine supplies.effect.bind fun effect holds => .pure ?_
    exact Program.forall_contents.mpr
      ⟨modules, entities, commands, policies, stores, flows, forall_mem_snoc effects holds⟩
  · exact .after fun _ => .pure before
  · exact .after fun _ => .pure before
  · exact .failAt _ _

theorem program : Gives known (program limit) (∀ e ∈ ·.contents, fine e) := by
  refine .loop (fun program (before : ∀ e ∈ program.contents, fine e) => ?_) ?_
  · refine .after fun _ => .after fun token => .ite (.pure before) ?_
    exact (Gives.recover (supplies.declaration program before) before).bind fun _ holds => .pure holds
  · exact Program.forall_contents.mpr ⟨nofun, nofun, nofun, nofun, nofun, nofun, nofun⟩

end Supplies
end Grammar
end Charter.Source
