import Charter.Proofs.Admission

/-!
How far policies that a module declares itself reach. A command is asked by them wherever it stands, so a
change of such policies goes unnoticed where the changed ones let the command pass: then its outcome, the
stores and the log stay the same, but for the hashes of the program that events tell.

Two runs are compared that start from states alike and do the same; only the events differ, and only in
the program that they name.
-/

namespace Charter

-- An event without the program that it came from.
def Event.unattributed (event : Event) : Event := { event with provenance := none }

def CommandOutcome.unattributed : CommandOutcome → CommandOutcome
  | succeeded result constraints events => .succeeded result constraints (events.map Event.unattributed)
  | writeRejected target write events => .writeRejected target write (events.map Event.unattributed)
  | outcome => outcome

-- States with the same stores, and with the same log but for the programs that events came from. What
-- listeners heard is left open.
structure EngineState.Twin (s t : EngineState) : Prop where
  stores : s.stores = t.stores
  usage : s.usage = t.usage
  log : s.journal.log.map Event.unattributed = t.journal.log.map Event.unattributed

theorem EngineState.Twin.refl (s : EngineState) : s.Twin s := ⟨rfl, rfl, rfl⟩

namespace Transaction
variable {α β γ δ : Type} {R : α → β → Prop} {S : γ → δ → Prop}

-- Two runs end in related values or in one error, and in states alike.
inductive TwinEnds (R : α → β → Prop) :
    Except EngineError α × EngineState → Except EngineError β × EngineState → Prop where
  | ok {a : α} {b : β} {s t : EngineState} (related : R a b) (twin : s.Twin t) : TwinEnds R (.ok a, s) (.ok b, t)
  | error {error : EngineError} {s t : EngineState} (twin : s.Twin t) : TwinEnds R (.error error, s) (.error error, t)

def Twins (R : α → β → Prop) (here : Transaction α) (there : Transaction β) : Prop :=
  ∀ s t, s.Twin t → TwinEnds R (here s) (there t)

namespace Twins

theorem pure {a : α} {b : β} (related : R a b) :
    Twins R (Pure.pure a : Transaction α) (Pure.pure b : Transaction β) :=
  fun _ _ twin => .ok related twin

theorem bind {here : Transaction α} {there : Transaction β} {next : α → Transaction γ}
    {next' : β → Transaction δ} (first : Twins R here there) (behind : ∀ a b, R a b → Twins S (next a) (next' b)) :
    Twins S (here >>= next) (there >>= next') := by
  intro s t twin
  have ended := first s t twin
  cases ran : here s with
  | mk result after =>
      cases ran' : there t with
      | mk result' after' =>
          rw [ran, ran'] at ended
          cases ended with
          | ok related twin =>
              rw [Step.bind_of_ok ran, Step.bind_of_ok ran']
              exact behind _ _ related _ _ twin
          | error twin =>
              rw [Step.bind_of_error ran, Step.bind_of_error ran']
              exact .error twin

-- Runs that begin alike go on from the same value.
theorem after {first : Transaction α} {next : α → Transaction γ} {next' : α → Transaction δ}
    (same : Twins Eq first first) (behind : ∀ a, Twins S (next a) (next' a)) :
    Twins S (first >>= next) (first >>= next') :=
  same.bind fun a _ same => same ▸ behind a

/-! What a transaction takes from the stores and from its surroundings is the same in states alike. -/

theorem need (value : Option α) (error : EngineError) :
    Twins Eq (Transaction.need value error) (Transaction.need value error) := by
  intro s t twin
  cases value with
  | none => exact .error twin
  | some value => exact .ok rfl twin

theorem ofReply (reply : Store.Reply α) :
    Twins Eq (Transaction.ofReply reply) (Transaction.ofReply reply) := by
  intro s t twin
  cases reply with
  | error request => exact .error twin
  | ok value => exact .ok rfl twin

theorem evaluate (evaluation : Evaluation α) :
    Twins Eq (Transaction.evaluate evaluation) (Transaction.evaluate evaluation) := by
  rintro s t ⟨stores, usage, log⟩
  unfold Transaction.evaluate
  rw [← usage]
  cases evaluation s.usage with
  | mk result after =>
      cases result with
      | error error => exact .error ⟨stores, rfl, log⟩
      | ok value => exact .ok rfl ⟨stores, rfl, log⟩

theorem store (entity : String) : Twins Eq (Transaction.store entity) (Transaction.store entity) := by
  intro s t twin
  unfold Transaction.store
  rw [← twin.stores]
  exact need _ _ s t twin

theorem putStore (entity : String) (store : Store) :
    Twins Eq (Transaction.putStore entity store) (Transaction.putStore entity store) :=
  fun _ _ twin => .ok rfl ⟨congrArg (Fields.put · entity store) twin.stores, twin.usage, twin.log⟩

theorem record? (entity id : String) : Twins Eq (Transaction.record? entity id) (Transaction.record? entity id) :=
  (store entity).after fun _ => ofReply _

theorem updateRecord (entity id : String) (patch : Record) :
    Twins Eq (Transaction.updateRecord entity id patch) (Transaction.updateRecord entity id patch) :=
  (store entity).after fun _ => (ofReply _).after fun _ => (putStore entity _).after fun _ => pure rfl

theorem publish {event event' : Event} (same : event.unattributed = event'.unattributed) :
    Twins Eq (Transaction.publish event) (Transaction.publish event') := by
  rintro s t ⟨stores, usage, log⟩
  refine .ok rfl ⟨stores, usage, ?_⟩
  simp only [Journal.publish, List.map_append, List.map_cons, List.map_nil, log, same]

end Twins
end Transaction

-- The engine of a program with other policies, which has another hash and lists other names in its modules.
def Engine.repoliced (engine : Engine) (policies : List Ir.Policy) (modules : List Ir.Module)
    (provenance : Ir.Provenance) : Engine :=
  { engine with ir := { engine.ir with policies, modules, provenance } }

namespace Engine
variable {engine : Engine} {policies : List Ir.Policy} {modules : List Ir.Module} {provenance : Ir.Provenance}
  {env : Environment} {command : Ir.Command} {entity : Option String} {overrides : List String}

/-! Gates. -/

-- A condition holds whatever was taken from the surroundings before, and takes nothing from them itself.
def Passes (engine : Engine) (env : Environment) (e : Ir.Expression) : Prop :=
  ∀ usage, engine.holds env e usage = (.ok true, usage)

open Classical in
-- Policies that pass might as well not be asked.
theorem denial?_filter (engine : Engine) (env : Environment) (asked : List Ir.Policy) :
    engine.denial? env (asked.filter fun policy => ¬ engine.Passes env policy.expression) =
      engine.denial? env asked := by
  induction asked with
  | nil => rfl
  | cons policy rest ih =>
      by_cases passes : engine.Passes env policy.expression
      · rw [List.filter_cons_of_neg (by simpa using passes), ih]
        funext usage
        rw [denial?, Step.bind_of_ok (passes usage)]
        rfl
      · rw [List.filter_cons_of_pos (by simpa using passes)]
        simp only [denial?, ih]

open Classical in
-- A command is denied alike under policies that are the same but for those that do not guard it or let it pass.
theorem denial?_asked
    (felt : policies.filter (fun policy => ¬ engine.Passes env policy.expression &&
        (policy.action.guardsExecution && (policy.entity.isNone || policy.entity == entity))) =
      engine.ir.policies.filter (fun policy => ¬ engine.Passes env policy.expression &&
        (policy.action.guardsExecution && (policy.entity.isNone || policy.entity == entity)))) :
    engine.denial? env (engine.executionPolicies entity) =
      engine.denial? env ((engine.repoliced policies modules provenance).executionPolicies entity) := by
  rw [← denial?_filter engine env (engine.executionPolicies entity),
    ← denial?_filter engine env (executionPolicies _ entity)]
  unfold executionPolicies
  rw [List.filter_filter, List.filter_filter]
  exact congrArg _ felt.symm

theorem scopedPolicy?_congr {ir other : Ir} {name : String}
    (same : other.policies.filter (·.name == name) = ir.policies.filter (·.name == name))
    (entity module : Option String) : other.scopedPolicy? name entity module = ir.scopedPolicy? name entity module := by
  have first (ir : Ir) : ir.policy? name = (ir.policies.filter (·.name == name)).head? := by
    rw [List.head?_filter]
    rfl
  simp only [Ir.scopedPolicy?, first, same]

-- A constraint is overridden alike if the policies of the name that it tells are the same.
theorem isOverridden_repoliced {constraint : Ir.Constraint} (scope : PolicyScope)
    (same : ∀ name, constraint.overridePolicy = some name →
      policies.filter (·.name == name) = engine.ir.policies.filter (·.name == name)) (passed : Bool) :
    (engine.repoliced policies modules provenance).isOverridden env scope overrides constraint passed =
      engine.isOverridden env scope overrides constraint passed := by
  unfold isOverridden allowsOverride
  cases named : constraint.overridePolicy with
  | none => rfl
  | some name =>
      have found := @scopedPolicy?_congr engine.ir (engine.repoliced policies modules provenance).ir name
        (same name named) scope.entity scope.module
      simp only [found]
      rfl

theorem judgeAll_congr {other : Engine} {constraints : List Ir.Constraint} {scope : PolicyScope}
    (around : other.around = engine.around)
    (same : ∀ constraint ∈ constraints,
      other.isOverridden env scope overrides constraint = engine.isOverridden env scope overrides constraint) :
    other.judgeAll env scope overrides constraints = engine.judgeAll env scope overrides constraints := by
  have evaluated : other.evaluate = engine.evaluate := by unfold evaluate; rw [around]
  have judged (constraint) (present : constraint ∈ constraints) :
      other.judge env scope overrides constraint = engine.judge env scope overrides constraint := by
    unfold judge holds details leaves
    rw [same constraint present, around, evaluated]
  exact Step.each_congr judged

-- Constraints are judged alike if the policies of the names that they tell are the same.
theorem judgeAll_repoliced {constraints : List Ir.Constraint} (scope : PolicyScope)
    (same : ∀ constraint ∈ constraints, ∀ name, constraint.overridePolicy = some name →
      policies.filter (·.name == name) = engine.ir.policies.filter (·.name == name)) :
    (engine.repoliced policies modules provenance).judgeAll env scope overrides constraints =
      engine.judgeAll env scope overrides constraints :=
  judgeAll_congr rfl fun constraint present =>
    funext fun passed => isOverridden_repoliced scope (same constraint present) passed

-- Nothing is overridden where no code is named.
theorem isOverridden_unasked (scope : PolicyScope) (constraint : Ir.Constraint) (passed : Bool) :
    engine.isOverridden env scope [] constraint passed = pure false := by
  unfold isOverridden
  rw [List.contains_nil, Bool.and_false]
  rfl

theorem violations_repoliced : (engine.repoliced policies modules provenance).violations = engine.violations := by
  funext owner record
  have judged : (engine.repoliced policies modules provenance).judgeRecord owner record =
      engine.judgeRecord owner record :=
    judgeAll_congr rfl fun constraint _ => funext fun passed => by
      rw [isOverridden_unasked, isOverridden_unasked]
  unfold violations
  rw [judged]

theorem update_repoliced : (engine.repoliced policies modules provenance).update = engine.update := by
  have planned : (engine.repoliced policies modules provenance).planUpdate = engine.planUpdate := by
    funext owner existing patch
    unfold planUpdate
    rw [violations_repoliced]
    rfl
  funext name id patch
  unfold update
  rw [planned]
  rfl

theorem denial?_repoliced (asked : List Ir.Policy) :
    (engine.repoliced policies modules provenance).denial? env asked = engine.denial? env asked := by
  induction asked with
  | nil => rfl
  | cons policy rest ih =>
      simp only [denial?, ih]
      rfl

theorem guardFailure?_repoliced (index : Nat) (guards : List Ir.Expression) :
    (engine.repoliced policies modules provenance).guardFailure? env index guards =
      engine.guardFailure? env index guards := by
  induction guards generalizing index with
  | nil => rfl
  | cons guard rest ih =>
      simp only [guardFailure?, ih]
      rfl

-- The gates open alike if the policies that are asked deny alike.
theorem gates_repoliced
    (asked : engine.denial? env (engine.executionPolicies entity) =
      engine.denial? env ((engine.repoliced policies modules provenance).executionPolicies entity))
    (same : ∀ constraint ∈ command.constraints, ∀ name, constraint.overridePolicy = some name →
      policies.filter (·.name == name) = engine.ir.policies.filter (·.name == name)) :
    (engine.repoliced policies modules provenance).gates command entity overrides env =
      engine.gates command entity overrides env := by
  unfold gates
  rw [denial?_repoliced, ← asked, guardFailure?_repoliced, judgeAll_repoliced _ same]

/-! What comes behind the gates. -/

theorem update_twins (name id : String) (patch : Record) :
    Transaction.Twins Eq (engine.update name id patch) (engine.update name id patch) := by
  refine (Transaction.Twins.need _ _).after fun owner => (Transaction.Twins.record? name id).after fun found => ?_
  cases found with
  | none => exact .pure rfl
  | some existing =>
      refine (Transaction.Twins.evaluate _).after fun planned => ?_
      cases planned with
      | error outcome => exact .pure rfl
      | ok plan =>
          refine (Transaction.Twins.updateRecord name id plan.1).after fun written => ?_
          cases written with
          | none => exact .pure rfl
          | some record => exact .pure rfl

-- How far actions have come, but for the programs that events came from.
structure ProgressTwin (p q : Progress) : Prop where
  env : p.env = q.env
  record : p.record = q.record
  result : p.result = q.result
  events : p.events.map Event.unattributed = q.events.map Event.unattributed

inductive ActedTwin : Except CommandOutcome Progress → Except CommandOutcome Progress → Prop where
  | stopped {one other : CommandOutcome} (same : one.unattributed = other.unattributed) :
      ActedTwin (.error one) (.error other)
  | advanced {p q : Progress} (twin : ProgressTwin p q) : ActedTwin (.ok p) (.ok q)

variable {p q : Progress}

theorem publish_twins (name : String) (payload : Json) :
    Transaction.Twins (fun event event' => event.unattributed = event'.unattributed)
      (engine.publish name payload) ((engine.repoliced policies modules provenance).publish name payload) := by
  refine (Transaction.Twins.evaluate _).after fun time => ?_
  have same : (engine.event name payload time).unattributed =
      ((engine.repoliced policies modules provenance).event name payload time).unattributed := rfl
  exact (Transaction.Twins.publish same).bind fun _ _ _ => .pure same

theorem publishAll_twins (payload : Json) : ∀ names : List String,
    Transaction.Twins (fun events events' => events.map Event.unattributed = events'.map Event.unattributed)
      (Step.each (engine.publish · payload) names)
      (Step.each ((engine.repoliced policies modules provenance).publish · payload) names)
  | [] => .pure rfl
  | name :: rest =>
    (publish_twins name payload).bind fun _ _ one => (publishAll_twins payload rest).bind fun _ _ others =>
      .pure (List.cons_eq_cons.mpr ⟨one, others⟩)

theorem assign_twins (target : String) (value : Value) (twin : ProgressTwin p q) :
    Transaction.Twins ActedTwin (engine.assign entity p target value)
      ((engine.repoliced policies modules provenance).assign entity q target value) := by
  obtain ⟨env, record, result, events⟩ := twin
  unfold assign
  rw [update_repoliced, ← record, ← env]
  split
  · refine (update_twins _ _ _).after fun outcome => ?_
    cases outcome with
    | written record violations => exact .pure (.advanced ⟨rfl, rfl, result, events⟩)
    | rejected rejection violations => exact .pure (.stopped (congrArg (CommandOutcome.writeRejected _ _) events))
  · exact .pure (.advanced ⟨rfl, rfl, result, events⟩)

theorem act_twins (action : Ir.Action) (twin : ProgressTwin p q) :
    Transaction.Twins ActedTwin (engine.act command entity p action)
      ((engine.repoliced policies modules provenance).act command entity q action) := by
  obtain ⟨env, record, result, events⟩ := p
  obtain ⟨env, record, result, events'⟩ := q
  obtain ⟨rfl, rfl, rfl, same⟩ := twin
  refine (Transaction.Twins.evaluate _).after fun value => ?_
  have twin : ProgressTwin ⟨env, record, value, events⟩ ⟨env, record, value, events'⟩ := ⟨rfl, rfl, rfl, same⟩
  obtain ⟨kind, target, expression⟩ := action
  cases kind with
  | publish =>
      refine (publish_twins _ _).bind fun event event' published => .pure (.advanced ⟨rfl, rfl, rfl, ?_⟩)
      simp only [List.map_append, same, List.map_cons, published, List.map_nil]
  | mutate | compute =>
      cases target with
      | none => exact .pure (.advanced twin)
      | some target => exact assign_twins target value twin
  | effect | persist => exact .pure (.advanced twin)

theorem actAll_twins : ∀ (actions : List Ir.Action) {p q : Progress}, ProgressTwin p q →
    Transaction.Twins ActedTwin (engine.actAll command entity actions p)
      ((engine.repoliced policies modules provenance).actAll command entity actions q)
  | [], _, _, twin => .pure (.advanced twin)
  | action :: rest, _, _, twin => by
    refine (act_twins action twin).bind fun one other acted => ?_
    cases acted with
    | stopped same => exact .pure (.stopped same)
    | advanced twin => exact actAll_twins rest twin

theorem carryOut_twins (input : Record) (constraints : List ConstraintOutcome) (start : Progress) :
    Transaction.Twins (fun one other => one.unattributed = other.unattributed)
      (engine.carryOut command entity input constraints start)
      ((engine.repoliced policies modules provenance).carryOut command entity input constraints start) := by
  refine (actAll_twins command.actions ⟨rfl, rfl, rfl, rfl⟩).bind fun one other acted => ?_
  cases acted with
  | stopped same => exact .pure same
  | advanced twin =>
      simp only [twin.result]
      refine (publishAll_twins _ command.emits).bind fun declared declared' same => .pure ?_
      simp only [CommandOutcome.unattributed, List.map_append, twin.events, same]

theorem attend_twins (input : Record) (request : CommandRequest) (record : Option Record)
    (same : (engine.repoliced policies modules provenance).gates command entity request.overrides
      (engine.commandScope command record input) =
        engine.gates command entity request.overrides (engine.commandScope command record input)) :
    Transaction.Twins (fun one other => one.unattributed = other.unattributed)
      (engine.attend command entity input request record)
      ((engine.repoliced policies modules provenance).attend command entity input request record) := by
  have scope : (engine.repoliced policies modules provenance).commandScope = engine.commandScope := rfl
  simp only [attend, scope, same]
  refine (Transaction.Twins.evaluate _).after fun answer => ?_
  cases answer with
  | error outcome => exact .pure rfl
  | ok constraints => exact carryOut_twins input constraints _

end Engine

namespace Source
variable {program : Program} {place : Nat} {home : Module} {policies : List Policy} {changed : Policy → Bool}
  {provenance provenance' : Ir.Provenance}

-- Lists of policies that agree on all but the changed ones.
def AlikeBut (changed : Policy → Bool) (one other : List Policy) : Prop :=
  one.filter (!changed ·) = other.filter (!changed ·)

-- A program where the module at a place declares other policies of its own.
def Program.withPolicies (program : Program) (place : Nat) (policies : List Policy) : Program :=
  { program with modules := program.modules.modify place fun home => { home with policies } }

-- What does not look at the policies of a module does not change with them.
theorem Program.flatMap_scopes {α : Type} {look : Scope → List α}
    (blind : ∀ home : Module, look { home with policies }.scope = look home.scope) :
    (program.withPolicies place policies).scopes.flatMap look = program.scopes.flatMap look := by
  have modules (modules : List Module) (place : Nat) :
      (modules.modify place fun home => { home with policies }).map (look ∘ Module.scope) =
        modules.map (look ∘ Module.scope) := by
    induction modules generalizing place with
    | nil => cases place <;> rfl
    | cons home rest ih =>
        cases place with
        | zero => exact congrArg (· :: rest.map _) (blind home)
        | succ place => exact congrArg (look home.scope :: ·) (ih place)
  simp only [Program.scopes, List.flatMap_def, List.map_append, List.map_map, Program.withPolicies, modules]
  rfl

theorem Program.lower_withPolicies :
    let other := (program.withPolicies place policies).lower provenance'
    other = { program.lower provenance with
      policies := other.policies, modules := other.modules, provenance := provenance' } := by
  unfold Program.lower
  congr 1 <;> exact Program.flatMap_scopes fun _ => rfl

theorem Policy.filter_alike {keep : Ir.Policy → Bool} {one other : List Policy} {module : String}
    (alike : AlikeBut changed one other)
    (apart : ∀ policy ∈ one ++ other, changed policy = true → keep (policy.lower (some module) none) = false) :
    (one.map (Policy.lower (some module) none)).filter keep =
      (other.map (Policy.lower (some module) none)).filter keep := by
  have narrowed (policies : List Policy) (among : ∀ policy ∈ policies, policy ∈ one ++ other) :
      policies.filter (keep ∘ Policy.lower (some module) none) =
        (policies.filter (!changed ·)).filter (keep ∘ Policy.lower (some module) none) := by
    rw [List.filter_filter]
    refine List.filter_congr fun policy present => ?_
    cases differs : changed policy with
    | true => simp [apart policy (among policy present) differs]
    | false => simp
  rw [List.filter_map, List.filter_map, narrowed one fun _ => List.mem_append_left _,
    narrowed other fun _ => List.mem_append_right _, alike]

-- Policies that are kept apart from the changed ones are the same.
theorem Program.policies_withPolicies {keep : Ir.Policy → Bool} (found : program.modules[place]? = some home)
    (alike : AlikeBut changed home.policies policies)
    (apart : ∀ policy ∈ home.policies ++ policies, changed policy = true →
      keep (policy.lower (some home.name) none) = false) :
    ((program.withPolicies place policies).lower provenance').policies.filter keep =
      (program.lower provenance).policies.filter keep := by
  obtain ⟨within, rfl⟩ := List.getElem?_eq_some_iff.mp found
  obtain ⟨before, module, behind, parted, rfl, modified⟩ :=
    List.exists_of_modify (fun home : Module => { home with policies }) within
  have home : program.modules[before.length] = module := by simp [parted]
  rw [home] at alike apart
  have kept := Policy.filter_alike alike apart
  have old : program.scopes = before.map Module.scope ++ module.scope ::
      (behind.map Module.scope ++ [program.outerScope]) := by
    simp [Program.scopes, parted]
  have new : (program.withPolicies before.length policies).scopes =
      before.map Module.scope ++ { module with policies }.scope ::
        (behind.map Module.scope ++ [program.outerScope]) := by
    simp [Program.scopes, Program.withPolicies, modified, Program.outerScope]
  have inside : { module with policies }.scope.loweredPolicies.filter keep =
      module.scope.loweredPolicies.filter keep := by
    simp only [Scope.loweredPolicies, Module.scope, List.filter_append, kept]
  simp only [Program.lower, old, new, List.flatMap_append, List.flatMap_cons, List.filter_append, inside]

end Source

namespace Engine
variable {engine : Engine} {name : String} {input : Record} {request : CommandRequest} {state : EngineState}

theorem addressed_twins {α β : Type} {R : α → β → Prop} {entity id : Option String}
    {next : Option Record → Transaction α} {next' : Option Record → Transaction β}
    (behind : ∀ record, state.Addresses entity id record →
      Transaction.TwinEnds R (next record state) (next' record state)) :
    Transaction.TwinEnds R ((addressed entity id >>= next) state) ((addressed entity id >>= next') state) := by
  cases read : addressed entity id state with
  | mk answer after =>
      cases answer with
      | error error =>
          rw [Step.bind_of_error read, Step.bind_of_error read]
          exact .error (.refl _)
      | ok record =>
          obtain ⟨_, _, impossible⟩ | ⟨found, addresses, _⟩ :=
            addressed_then ((congrFun (Step.bind_pure (addressed entity id)) state).trans read)
          · cases impossible
          · rw [Step.bind_of_ok (addressed_of addresses), Step.bind_of_ok (addressed_of addresses)]
            exact behind found addresses

-- A run goes the same way under other policies if the gates of the command that it calls do.
theorem run_twins {policies : List Ir.Policy} {modules : List Ir.Module} {provenance : Ir.Provenance}
    (same : ∀ command entity record, engine.Called name request state command entity record →
      (engine.repoliced policies modules provenance).gates command entity request.overrides
        (engine.commandScope command record input) =
          engine.gates command entity request.overrides (engine.commandScope command record input)) :
    let here := engine.run name input request state
    let there := (engine.repoliced policies modules provenance).run name input request state
    here.1.unattributed = there.1.unattributed ∧ here.2.Twin there.2 := by
  have ended : Transaction.TwinEnds (fun one other => one.unattributed = other.unattributed)
      (engine.runNamed name input request state)
      ((engine.repoliced policies modules provenance).runNamed name input request state) := by
    have called : (engine.repoliced policies modules provenance).ir.command? = engine.ir.command? := rfl
    unfold runNamed
    rw [called]
    cases named : engine.ir.command? name request.entity with
    | none => exact .error (.refl _)
    | some command =>
        simp only [execute_eq]
        exact addressed_twins fun record read =>
          attend_twins input request record (same command _ record ⟨named, rfl, read⟩) _ _ (.refl _)
  simp only [run_eq]
  revert ended
  generalize engine.runNamed name input request state = one
  generalize (engine.repoliced policies modules provenance).runNamed name input request state = other
  intro ended
  cases ended with
  | ok related twin => exact ⟨related, twin⟩
  | error twin => exact ⟨rfl, twin⟩

-- Policies that a module declares itself may be changed unnoticed by a run, inside or outside of the module, if no
-- constraint of a command names a changed one and the changed ones let the called command pass.
theorem policies_isolated {program : Source.Program} {place : Nat} {home : Source.Module}
    {policies : List Source.Policy} {changed : Source.Policy → Bool} {provenance : Ir.Provenance}
    (runs : engine.ir = program.lower provenance) (found : program.modules[place]? = some home)
    (alike : Source.AlikeBut changed home.policies policies)
    (unnamed : ∀ policy ∈ home.policies ++ policies, changed policy = true → ∀ command ∈ engine.ir.commands,
      ∀ constraint ∈ command.constraints, constraint.overridePolicy ≠ some policy.name)
    (passing : ∀ policy ∈ home.policies ++ policies, changed policy = true →
      policy.action.guardsExecution = true → ∀ command entity record,
        engine.Called name request state command entity record →
          engine.Passes (engine.commandScope command record input) policy.expression.lower)
    (provenance' : Ir.Provenance) :
    let other := { engine with ir := (program.withPolicies place policies).lower provenance' }
    let here := engine.run name input request state
    let there := other.run name input request state
    here.1.unattributed = there.1.unattributed ∧ here.2.Twin there.2 := by
  intro other
  have repoliced : other = engine.repoliced other.ir.policies other.ir.modules provenance' := by
    unfold repoliced
    rw [runs]
    exact congrArg (fun ir => { engine with ir }) Source.Program.lower_withPolicies
  have kept {keep : Ir.Policy → Bool} (apart : ∀ policy ∈ home.policies ++ policies, changed policy = true →
      keep (policy.lower (some home.name) none) = false) :
      other.ir.policies.filter keep = engine.ir.policies.filter keep := by
    rw [runs]
    exact Source.Program.policies_withPolicies found alike apart
  rw [repoliced]
  refine run_twins fun command entity record called => gates_repoliced ?_ ?_
  · classical
    refine denial?_asked (kept fun policy present differs => ?_)
    cases guards : policy.action.guardsExecution with
    | false => simp [Source.Policy.lower, guards]
    | true =>
        have passes := passing policy present differs guards command entity record called
        simp [Source.Policy.lower, passes]
  · intro constraint present name named
    refine kept fun policy among differs => ?_
    have declared : command ∈ engine.ir.commands := List.mem_of_find?_eq_some called.named
    have other := unnamed policy among differs command declared constraint present
    rw [named] at other
    simpa [Source.Policy.lower] using fun same => other (congrArg some same.symm)

-- The command stands outside of the module, and the policy is true for the user who runs it.
theorem command_beside_passing_policy :
    let active : Source.Policy :=
      ⟨"active", .execute, .member (.identifier "user") "active", none, { line := 2, column := 3 }⟩
    let billing : Source.Module := { name := "billing", policies := [active], position := { line := 1, column := 1 } }
    let ping : Source.Command :=
      { name := "ping", parameters := [], emits := ["Pinged"], returns := none, position := { line := 5, column := 1 } }
    let program : Source.Program := { modules := [billing], commands := [ping] }
    let engine : Engine :=
      { ir := program.lower ⟨"", "with", "", "", ""⟩
        around := ⟨fun _ => 0, fun _ => "fresh"⟩
        context := { user := some (.object [("active", .boolean true)]) } }
    let other : Engine := { engine with ir := (program.withPolicies 0 []).lower ⟨"", "without", "", "", ""⟩ }
    let here := engine.run "ping" [] {} {}
    let there := other.run "ping" [] {} {}
    here.1.isSuccess = true ∧ here.1.unattributed = there.1.unattributed ∧ here.2.Twin there.2 := by
  intro active billing ping program engine other here there
  have alike : Source.AlikeBut (fun _ => true) billing.policies [] := rfl
  have isolated := @policies_isolated engine "ping" [] {} {} program 0 billing [] (fun _ => true) _ rfl rfl alike ?_ ?_
    ⟨"", "without", "", "", ""⟩
  · exact ⟨rfl, isolated⟩
  · intro policy _ _ command declared constraint present
    cases List.mem_singleton.mp declared
    cases present
  · intro policy among _ _ command entity record called usage
    cases List.mem_singleton.mp among
    obtain ⟨named, rfl, read⟩ := called
    cases named
    cases read
    rfl

end Engine
end Charter
