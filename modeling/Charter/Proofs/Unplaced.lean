import Charter.Compile.Finding
import Charter.Proofs.Printing
import Charter.Source.Fault

/-!
Source trees, faults and findings without the positions in them. What is compiled from a tree, and what is found
wrong with it, is told by the tree without positions.
-/

namespace Charter

def Token.unplaced (t : Token) : Token := { t with position := .nowhere }

@[simp] theorem Token.unplaced_kind (t : Token) : t.unplaced.kind = t.kind := rfl

@[simp] theorem Token.unplaced_value (t : Token) : t.unplaced.value = t.value := rfl

@[simp] theorem Token.unplaced_position (t : Token) : t.unplaced.position = .nowhere := rfl

@[simp] theorem Token.unplaced_is (t : Token) (kind : TokenKind) (value : String) :
    t.unplaced.is kind value = t.is kind value := rfl

theorem unplaced_of_symbols {tokens tokens' : List Token}
    (same : tokens.map Token.symbol = tokens'.map Token.symbol) :
    tokens.map Token.unplaced = tokens'.map Token.unplaced := by
  have placed := congrArg (List.map fun symbol => (⟨symbol.kind, symbol.value, .nowhere⟩ : Token)) same
  rwa [List.map_map, List.map_map] at placed

-- Severity, code and message.
def Diagnostic.unplaced (d : Diagnostic) : Diagnostic := { d with line := none, column := none }

namespace Source

-- A fault may show the token that was found.
def Fault.unplaced : Fault → Fault
  | .expected wanted found => .expected wanted found.unplaced
  | .unexpected found place => .unexpected found.unplaced place
  | other => other

def Report.unplaced (r : Report) : Report := ⟨r.fault.unplaced, .nowhere⟩

theorem Fault.unplaced_message (fault : Fault) : fault.unplaced.message = fault.message := by
  cases fault <;> rfl

theorem Fault.unplaced_code (fault : Fault) : fault.unplaced.code = fault.code := by
  cases fault <;> rfl

theorem Report.unplaced_diagnostic (r : Report) : r.unplaced.diagnostic.unplaced = r.diagnostic.unplaced := by
  unfold unplaced diagnostic
  rw [Fault.unplaced_message, Fault.unplaced_code]
  rfl

def Property.unplaced (p : Property) : Property := { p with position := .nowhere }

def Computed.unplaced (c : Computed) : Computed := { c with position := .nowhere }

def Relationship.unplaced (r : Relationship) : Relationship := { r with position := .nowhere }

def Constraint.unplaced (c : Constraint) : Constraint := { c with position := .nowhere }

def Parameter.unplaced (p : Parameter) : Parameter := { p with position := .nowhere }

def Action.unplaced (a : Action) : Action := { a with position := .nowhere }

def Command.unplaced (c : Command) : Command :=
  { c with
    parameters := c.parameters.map Parameter.unplaced
    constraints := c.constraints.map Constraint.unplaced
    actions := c.actions.map Action.unplaced
    position := .nowhere }

def Policy.unplaced (p : Policy) : Policy := { p with position := .nowhere }

def Store.unplaced (s : Store) : Store := { s with position := .nowhere }

def Transition.unplaced (t : Transition) : Transition := { t with position := .nowhere }

def Entity.unplaced (e : Entity) : Entity :=
  { e with
    properties := e.properties.map Property.unplaced
    computed := e.computed.map Computed.unplaced
    relationships := e.relationships.map Relationship.unplaced
    commands := e.commands.map Command.unplaced
    constraints := e.constraints.map Constraint.unplaced
    policies := e.policies.map Policy.unplaced
    store := e.store.map Store.unplaced
    transitions := e.transitions.map Transition.unplaced
    position := .nowhere }

def Event.unplaced (e : Event) : Event := { e with position := .nowhere }

def Flow.unplaced (f : Flow) : Flow :=
  { f with parameters := f.parameters.map Parameter.unplaced, position := .nowhere }

def Effect.unplaced (e : Effect) : Effect := { e with position := .nowhere }

def Exposure.unplaced (e : Exposure) : Exposure := { e with position := .nowhere }

def Composition.unplaced (c : Composition) : Composition := { c with position := .nowhere }

def Module.unplaced (m : Module) : Module :=
  { m with
    entities := m.entities.map Entity.unplaced
    commands := m.commands.map Command.unplaced
    policies := m.policies.map Policy.unplaced
    stores := m.stores.map Store.unplaced
    events := m.events.map Event.unplaced
    position := .nowhere }

def Program.unplaced (p : Program) : Program where
  modules := p.modules.map Module.unplaced
  entities := p.entities.map Entity.unplaced
  commands := p.commands.map Command.unplaced
  policies := p.policies.map Policy.unplaced
  stores := p.stores.map Store.unplaced
  events := p.events.map Event.unplaced
  flows := p.flows.map Flow.unplaced
  effects := p.effects.map Effect.unplaced
  exposures := p.exposures.map Exposure.unplaced
  compositions := p.compositions.map Composition.unplaced

def Scope.unplaced (s : Scope) : Scope :=
  { s with
    entities := s.entities.map Entity.unplaced
    commands := s.commands.map Command.unplaced
    policies := s.policies.map Policy.unplaced
    stores := s.stores.map Store.unplaced
    events := s.events.map Event.unplaced }

theorem Program.unplaced_scopes (p : Program) : p.unplaced.scopes = p.scopes.map Scope.unplaced := by
  unfold scopes
  rw [List.map_append, unplaced, List.map_map, List.map_map]
  rfl

/-! The compiled form has no positions. -/

theorem Command.unplaced_lower (module entity : Option String) (c : Command) :
    c.unplaced.lower module entity = c.lower module entity := by
  simp only [lower, unplaced, List.map_map]
  rfl

theorem Entity.unplaced_lower (module : Option String) (e : Entity) : e.unplaced.lower module = e.lower module := by
  simp only [lower, unplaced, List.map_map]
  rfl

theorem Module.unplaced_lower (m : Module) : m.unplaced.lower = m.lower := by
  simp only [lower, unplaced, List.map_map]
  rfl

theorem Scope.unplaced_loweredCommands (s : Scope) : s.unplaced.loweredCommands = s.loweredCommands := by
  have each (entity : Option String) :
      (Command.lower s.module entity) ∘ Command.unplaced = Command.lower s.module entity :=
    funext fun c => c.unplaced_lower s.module entity
  simp only [loweredCommands, unplaced, List.flatMap_map, Entity.unplaced, List.map_map, each]

theorem Scope.unplaced_loweredPolicies (s : Scope) : s.unplaced.loweredPolicies = s.loweredPolicies := by
  simp only [loweredPolicies, unplaced, List.flatMap_map, Entity.unplaced, List.map_map]
  rfl

theorem Scope.unplaced_loweredStores (s : Scope) : s.unplaced.loweredStores = s.loweredStores := by
  simp only [loweredStores, unplaced, List.flatMap_map, Entity.unplaced, List.map_map, Option.map_map]
  rfl

theorem Program.unplaced_lower (provenance : Ir.Provenance) (p : Program) :
    p.unplaced.lower provenance = p.lower provenance := by
  have modules : Module.lower ∘ Module.unplaced = Module.lower := funext Module.unplaced_lower
  have entities (s : Scope) : (Entity.lower s.module) ∘ Entity.unplaced = Entity.lower s.module :=
    funext fun e => e.unplaced_lower s.module
  have scopes := p.unplaced_scopes
  unfold lower
  rw [scopes]
  simp only [List.flatMap_map, Scope.unplaced_loweredCommands, Scope.unplaced_loweredPolicies,
    Scope.unplaced_loweredStores]
  simp only [unplaced, Scope.unplaced, List.map_map, modules, entities]
  rfl

end Source

namespace Compile
open Source

def Finding.unplaced (f : Finding) : Finding := { f with position := .nowhere }

theorem Finding.unplaced_diagnostic (f : Finding) : f.unplaced.diagnostic.unplaced = f.diagnostic.unplaced := rfl

/-! What is found without positions is what is found with them. -/

theorem constantFindings_unplaced (what : String) (position : Position) (default? : Option Source.Expression) :
    constantFindings what .nowhere default? = (constantFindings what position default?).map Finding.unplaced := by
  unfold constantFindings
  split
  · split <;> rfl
  · rfl

theorem codeFindings_unplaced (scope : String) (constraints : List Constraint) :
    codeFindings scope (constraints.map Constraint.unplaced) =
      (codeFindings scope constraints).map Finding.unplaced := by
  unfold codeFindings
  rw [List.zipIdx_map, List.filterMap_map, List.map_filterMap]
  congr 1
  funext ⟨c, index⟩
  simp only [Function.comp_apply, Prod.map_apply, id, ← List.map_take, List.find?_map, Option.map_map]
  rfl

theorem commandFindings_unplaced (c : Command) :
    commandFindings c.unplaced = (commandFindings c).map Finding.unplaced := by
  unfold commandFindings
  rw [List.map_append, List.map_flatMap, ← codeFindings_unplaced]
  simp only [← constantFindings_unplaced]
  simp only [Command.unplaced, List.flatMap_map]
  rfl

theorem storeFindings_unplaced (s : Store) : storeFindings s.unplaced = (storeFindings s).map Finding.unplaced := by
  unfold storeFindings
  rw [List.map_flatMap]
  simp only [← constantFindings_unplaced]
  rfl

theorem cycleFindings_unplaced (e : Entity) : cycleFindings e.unplaced = (cycleFindings e).map Finding.unplaced := by
  unfold cycleFindings
  rw [List.map_filterMap]
  simp only [Entity.unplaced, List.map_map, List.getElem?_map, Option.map_map]
  rfl

theorem entityFindings_unplaced (e : Entity) : entityFindings e.unplaced = (entityFindings e).map Finding.unplaced := by
  unfold entityFindings
  simp only [List.map_append, List.map_flatMap, ← constantFindings_unplaced, ← cycleFindings_unplaced,
    ← codeFindings_unplaced, ← commandFindings_unplaced, ← storeFindings_unplaced]
  simp only [Entity.unplaced, List.flatMap_map, Option.toList_map]
  rfl

theorem scopeFindings_unplaced (s : Scope) : scopeFindings s.unplaced = (scopeFindings s).map Finding.unplaced := by
  unfold scopeFindings
  simp only [List.map_append, List.map_flatMap, ← entityFindings_unplaced, ← commandFindings_unplaced,
    ← storeFindings_unplaced]
  simp only [Scope.unplaced, List.flatMap_map]

theorem unloweredFindings_unplaced (p : Program) :
    unloweredFindings p.unplaced = (unloweredFindings p).map Finding.unplaced := by
  unfold unloweredFindings
  simp only [List.map_append, List.map_map, Program.unplaced]
  rfl

theorem findings_unplaced (p : Program) : findings p.unplaced = (findings p).map Finding.unplaced := by
  unfold findings
  rw [List.map_append, List.map_flatMap, p.unplaced_scopes, List.flatMap_map, unloweredFindings_unplaced]
  simp only [scopeFindings_unplaced]

end Compile
end Charter
