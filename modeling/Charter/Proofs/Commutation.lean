import Charter.Proofs.Place
import Charter.Proofs.Steadiness

/-!
Commands on different records. A command reads and writes nothing but its own record, and what it does with that
depends on nothing else in any store. So it does the same before and after a command on another record, and both
orders leave the same stores.
-/

namespace Charter

open Stores Step

-- Two states that a run from `here` and one from `there` may have reached: each differs from its start in the record
-- of one place, which is the same in both, and the next fresh id is the same.
structure Beside (owner id : String) (here there : Fields Store) (s t : EngineState) : Prop where
  ids : s.usage.SameIds t.usage
  stores : ∃ record, Record.id? record = some id ∧ s.stores = replaced here owner id record ∧
    t.stores = replaced there owner id record

namespace Transaction
variable {α β : Type} {R : α → β → Prop} {owner id : String} {here there : Fields Store}

theorem need_coupled {I : EngineState → EngineState → Prop} (value : Option α) (error : EngineError) :
    Coupled I Eq (need value error) (need value error) := by
  cases value with
  | none => exact .fail error
  | some value => exact .pure rfl

theorem evaluate_beside {evaluation : Evaluation α} {evaluation' : Evaluation β}
    (coupled : Coupled Usage.SameIds R evaluation evaluation') :
    Coupled (Beside owner id here there) R (Transaction.evaluate evaluation) (Transaction.evaluate evaluation') := by
  rintro s t ⟨ids, stores⟩
  unfold Transaction.evaluate
  match evaluation s.usage, evaluation' t.usage, coupled s.usage t.usage ids with
  | _, _, .ok related kept => exact .ok related ⟨kept, stores⟩
  | _, _, .error kept => exact .error ⟨kept, stores⟩

theorem publish_beside (event : Event) :
    Coupled (Beside owner id here there) Eq (Transaction.publish event) (Transaction.publish event) :=
  .total fun _ _ ⟨ids, stores⟩ => ⟨rfl, ids, stores⟩

variable {old old' : Record} (serves : Serves here owner id old) (serves' : Serves there owner id old')
include serves serves'

theorem record?_beside : Coupled (Beside owner id here there) Eq (record? owner id) (record? owner id) := by
  rintro s t ⟨ids, record, named, stores, stores'⟩
  obtain ⟨opened, serving, found⟩ := serves.replaced record
  obtain ⟨opened', serving', found'⟩ := serves'.replaced record
  rw [record?_of (stores ▸ opened) (Store.get?_of_serving serving found),
    record?_of (stores' ▸ opened') (Store.get?_of_serving serving' found')]
  exact .ok rfl ⟨ids, record, named, stores, stores'⟩

theorem updateRecord_beside (patch : Record) :
    Coupled (Beside owner id here there)
      (fun one other => one = other ∧ ∃ record, one = some record ∧ Record.id? record = some id)
      (updateRecord owner id patch) (updateRecord owner id patch) := by
  rintro s t ⟨ids, record, named, stores, stores'⟩
  obtain ⟨opened, serving, found⟩ := serves.replaced record
  obtain ⟨opened', serving', found'⟩ := serves'.replaced record
  have patched : Record.id? (Record.patched record patch) = some id := (Record.id?_patched record patch).trans named
  rw [updateRecord_of (stores ▸ opened) serving found patch, updateRecord_of (stores' ▸ opened') serving' found' patch]
  refine .ok ⟨rfl, _, rfl, patched⟩ ⟨ids, _, patched, ?_, ?_⟩
  · rw [EngineState.insert, stores, ← replaced_of opened, serves.replaced_replaced]
  · rw [EngineState.insert, stores', ← replaced_of opened', serves'.replaced_replaced]

end Transaction

namespace Engine
variable {engine : Engine} {command : Ir.Command} {owner id : String} {here there : Fields Store}

-- How far two runs have come: to the same, but for lambdas in the result so far.
structure Abreast (id : String) (p q : Progress) : Prop where
  env : p.env = q.env
  record : p.record = q.record
  result : p.result.toJson = q.result.toJson
  events : p.events = q.events
  data : p.env.Data
  own : p.record.bind Record.id? = some id

inductive ActedAlike (id : String) : Except CommandOutcome Progress → Except CommandOutcome Progress → Prop where
  | stopped (outcome : CommandOutcome) : ActedAlike id (.error outcome) (.error outcome)
  | advanced {p q : Progress} (abreast : Abreast id p q) : ActedAlike id (.ok p) (.ok q)

variable (standing : engine.around.Standing)
include standing

theorem publish_coupled (name : String) (payload : Json) :
    Coupled (Beside owner id here there) Eq (engine.publish name payload) (engine.publish name payload) := by
  refine Coupled.after (Transaction.evaluate_beside (readClock_steady standing)) fun time => ?_
  exact (Transaction.publish_beside _).after fun _ => .pure rfl

variable {old old' : Record} (serves : Serves here owner id old) (serves' : Serves there owner id old')
include serves serves'

omit standing serves serves' in
theorem planUpdate_unwritten {entity : Ir.Entity} {existing patch : Record} {start last : Usage}
    {answer : Except WriteOutcome (Record × List ConstraintOutcome)}
    (ran : engine.planUpdate entity existing patch start = (.ok answer, last)) :
    ∀ record violations, answer ≠ .error (.written record violations) := by
  obtain ⟨_, _, rfl⟩ | ⟨_, _, _, rfl, _⟩ := planUpdate_cases ran
  · exact fun _ _ => nofun
  · exact fun _ _ => nofun

theorem update_coupled (patch : Record) :
    Coupled (Beside owner id here there)
      (fun one other => one = other ∧
        ∀ record violations, one = .written record violations → Record.id? record = some id)
      (engine.update owner id patch) (engine.update owner id patch) := by
  refine (Transaction.need_coupled _ _).after fun entity => ?_
  refine (Transaction.record?_beside serves serves').after fun found => ?_
  cases found with
  | none => exact .pure ⟨rfl, fun _ _ => nofun⟩
  | some existing =>
      have planned := (planUpdate_steady standing entity existing patch).and fun _ _ _ => planUpdate_unwritten
      refine (Transaction.evaluate_beside planned).bind fun answer _ ⟨same, unwritten⟩ => ?_
      cases same
      cases answer with
      | error outcome =>
          exact .pure ⟨rfl, fun record violations same => absurd (congrArg _ same) (unwritten record violations)⟩
      | ok plan =>
          refine (Transaction.updateRecord_beside serves serves' plan.1).bind ?_
          rintro _ _ ⟨rfl, record, rfl, named⟩
          refine .pure ⟨rfl, fun _ _ same => ?_⟩
          cases same
          exact named

variable {p q : Progress}

theorem assign_coupled (target : String) {value value' : Value} (json : value.toJson = value'.toJson)
    (abreast : Abreast id p q) :
    Coupled (Beside owner id here there) (ActedAlike id) (engine.assign (some owner) p target value)
      (engine.assign (some owner) q target value') := by
  obtain ⟨env, record, result, events⟩ := p
  obtain ⟨_, _, result', _⟩ := q
  obtain ⟨rfl, rfl, results, rfl, data, own⟩ := abreast
  unfold assign
  simp only [own, json]
  refine (update_coupled standing serves serves' _).bind ?_
  rintro outcome _ ⟨rfl, named⟩
  cases outcome with
  | written record violations =>
      exact .pure (.advanced ⟨rfl, rfl, results, rfl, refreshed_data data record, named record violations rfl⟩)
  | rejected rejection violations => exact .pure (.stopped _)

theorem act_coupled (action : Ir.Action) (abreast : Abreast id p q) :
    Coupled (Beside owner id here there) (ActedAlike id) (engine.act command (some owner) p action)
      (engine.act command (some owner) q action) := by
  obtain ⟨env, record, result, events⟩ := p
  obtain ⟨_, _, result', _⟩ := q
  obtain ⟨rfl, rfl, _, rfl, data, own⟩ := abreast
  refine (Transaction.evaluate_beside (evaluate_coupled standing data action.expression)).bind ?_
  rintro value value' ⟨_, alike⟩
  have json := alike.toJson
  have abreast : Abreast id ⟨env, record, value, events⟩ ⟨env, record, value', events⟩ :=
    ⟨rfl, rfl, json, rfl, data, own⟩
  obtain ⟨kind, target, expression⟩ := action
  cases kind with
  | publish =>
      simp only [json]
      exact (publish_coupled standing _ _).after fun event => .pure (.advanced ⟨rfl, rfl, json, rfl, data, own⟩)
  | mutate | compute =>
      cases target with
      | none => exact .pure (.advanced abreast)
      | some target => exact assign_coupled standing serves serves' target json abreast
  | effect | persist => exact .pure (.advanced abreast)

theorem actAll_coupled : ∀ (actions : List Ir.Action) {p q : Progress}, Abreast id p q →
    Coupled (Beside owner id here there) (ActedAlike id) (engine.actAll command (some owner) actions p)
      (engine.actAll command (some owner) actions q)
  | [], _, _, abreast => .pure (.advanced abreast)
  | action :: rest, _, _, abreast => by
    refine (act_coupled standing serves serves' action abreast).bind fun one other acted => ?_
    cases acted with
    | stopped outcome => exact .pure (.stopped outcome)
    | advanced abreast => exact actAll_coupled rest abreast

theorem attend_coupled (input : Record) (request : CommandRequest) {record : Record}
    (own : Record.id? record = some id) :
    Coupled (Beside owner id here there) Eq (engine.attend command (some owner) input request (some record))
      (engine.attend command (some owner) input request (some record)) := by
  have data := engine.commandScope_data command (some record) input
  refine Coupled.after (Transaction.evaluate_beside (gates_steady standing data _ _ _)) fun answer => ?_
  cases answer with
  | error outcome => exact .pure rfl
  | ok constraints =>
      have start : Abreast id { env := engine.commandScope command (some record) input, record := some record }
        { env := engine.commandScope command (some record) input, record := some record } :=
        ⟨rfl, rfl, rfl, rfl, data, own⟩
      refine (actAll_coupled standing serves serves' command.actions start).bind fun one other acted => ?_
      cases acted with
      | stopped outcome => exact .pure rfl
      | advanced abreast =>
          dsimp only
          rw [abreast.result, abreast.events]
          exact (Coupled.each fun name _ => publish_coupled standing name _).after fun declared => .pure rfl

end Engine

-- A call of a command.
structure CommandCall where
  name : String
  input : Record
  request : CommandRequest

namespace Engine
variable {engine : Engine} {call : CommandCall} {owner id : String} {s t : EngineState}

def answer (engine : Engine) (call : CommandCall) (state : EngineState) : CommandOutcome × EngineState :=
  engine.run call.name call.input call.request state

-- The call is of a command on the record in a place, and takes no fresh id.
structure Addresses (engine : Engine) (call : CommandCall) (state : EngineState) (owner id : String) : Prop where
  called : ∃ command record, engine.Called call.name call.request state command (some owner) (some record)
  addressed : call.request.id = some id
  quiet : (engine.answer call state).2.usage.SameIds state.usage

-- Each of two calls has one outcome, whichever comes first, and both orders leave the same stores.
structure Commute (engine : Engine) (one other : CommandCall) (state : EngineState) : Prop where
  first : (engine.answer one state).1 = (engine.answer one (engine.answer other state).2).1
  second : (engine.answer other (engine.answer one state).2).1 = (engine.answer other state).1
  stores : (engine.answer other (engine.answer one state).2).2.stores =
    (engine.answer one (engine.answer other state).2).2.stores

-- The command is called in every state that holds the same record in its place.
theorem Addresses.called_of_held (addresses : engine.Addresses call s owner id) (inMemory : StoresInMemory s.stores) :
    ∃ command record, Record.id? record = some id ∧ held? s.stores owner id = some record ∧
      ∀ t : EngineState, StoresInMemory t.stores → held? t.stores owner id = some record →
        engine.Called call.name call.request t command (some owner) (some record) := by
  obtain ⟨⟨command, record, named, owned, read⟩, addressed, _⟩ := addresses
  rw [addressed] at read
  obtain ⟨store, opened, replied⟩ := read
  have found := Store.get?_shelf replied
  refine ⟨command, record, (inMemory _ _ opened).keyed.id?_of_get? found, ?_,
    fun t inMemory' held => ⟨named, owned, ?_⟩⟩
  · unfold held?
    rw [opened]
    exact found
  · obtain ⟨opened', serving, found'⟩ := Serves.of_held? inMemory' held
    rw [addressed]
    exact ⟨_, opened', Store.get?_of_serving serving found'⟩

-- A call does the same in every state that holds the same record in its place and goes on with the same id, and
-- nothing changes there but that record.
theorem Addresses.alike (addresses : engine.Addresses call s owner id) (standing : engine.around.Standing)
    (inMemory : StoresInMemory s.stores) (inMemory' : StoresInMemory t.stores)
    (same : held? t.stores owner id = held? s.stores owner id) (ids : s.usage.SameIds t.usage) :
    (engine.answer call s).1 = (engine.answer call t).1 ∧ ∃ record,
      (engine.answer call s).2.stores = replaced s.stores owner id record ∧
      (engine.answer call t).2.stores = replaced t.stores owner id record := by
  obtain ⟨command, record, own, held, called⟩ := addresses.called_of_held inMemory
  have held' := same.trans held
  have serves := Serves.of_held? inMemory held
  have serves' := Serves.of_held? inMemory' held'
  have start : Beside owner id s.stores t.stores s t :=
    ⟨ids, record, own, serves.replaced_self.symm, serves'.replaced_self.symm⟩
  have met : Meets _ Eq (engine.attend command (some owner) call.input call.request (some record) s)
      (engine.attend command (some owner) call.input call.request (some record) t) :=
    attend_coupled standing serves serves' call.input call.request own s t start
  unfold answer
  rw [run_called (called s inMemory held), run_called (called t inMemory' held')]
  revert met
  generalize engine.attend command (some owner) call.input call.request (some record) s = one,
    engine.attend command (some owner) call.input call.request (some record) t = other
  intro met
  obtain ⟨_, replacement, _, stores, stores'⟩ := met.kept
  refine ⟨?_, replacement, ?_, ?_⟩
  · cases met with
    | ok related _ => exact related
    | error _ => rfl
  · rw [settle_state, stores]
  · rw [settle_state, stores']

end Engine

theorem Session.perform_around (session : Session) (operation : Operation) :
    (session.perform operation).engine.around = session.engine.around := by
  cases operation <;> rfl

-- Whatever was asked of an engine with stores in memory and a clock that stands still: two calls of commands on
-- different records have the same outcomes in both orders, and both orders leave the same stores, as long as neither
-- call takes a fresh id.
theorem commands_commute {session last : Session} {operations : List Operation} {one other : CommandCall}
    {owner id owner' id' : String}
    (opened : ∀ name store, Fields.get? session.state.stores name = some store → store.Opened)
    (standing : session.engine.around.Standing) (ran : session.performAll operations = last)
    (addresses : last.engine.Addresses one last.state owner id)
    (addresses' : last.engine.Addresses other last.state owner' id') (apart : (owner, id) ≠ (owner', id')) :
    last.engine.Commute one other last.state := by
  obtain ⟨around, inMemory⟩ : last.engine.around = session.engine.around ∧ StoresInMemory last.state.stores :=
    ran ▸ Session.performAll_keeps
      (P := fun reached => reached.engine.around = session.engine.around ∧ StoresInMemory reached.state.stores)
      (fun reached operation ⟨same, inMemory⟩ =>
        ⟨(reached.perform_around operation).trans same, perform_inMemory reached operation inMemory⟩)
      operations ⟨rfl, fun name store stood => (opened name store stood).inMemory⟩
  have standing : last.engine.around.Standing := around ▸ standing
  have kept : StoresInMemory (last.engine.answer one last.state).2.stores :=
    Engine.run_keeps update_inMemory _ _ _ inMemory
  have kept' : StoresInMemory (last.engine.answer other last.state).2.stores :=
    Engine.run_keeps update_inMemory _ _ _ inMemory
  obtain ⟨_, _, _, held, _⟩ := addresses.called_of_held inMemory
  obtain ⟨_, _, _, held', _⟩ := addresses'.called_of_held inMemory
  have serves := Serves.of_held? inMemory held
  have serves' := Serves.of_held? inMemory held'
  -- Each call by itself changes its own place alone, so the other finds its record as it was.
  obtain ⟨_, record, stores, _⟩ := addresses.alike standing inMemory inMemory rfl rfl
  obtain ⟨_, record', stores', _⟩ := addresses'.alike standing inMemory inMemory rfl rfl
  have seen : held? (last.engine.answer other last.state).2.stores owner id = held? last.state.stores owner id := by
    rw [stores', serves'.held?_replaced apart.symm]
  have seen' : held? (last.engine.answer one last.state).2.stores owner' id' = held? last.state.stores owner' id' := by
    rw [stores, serves.held?_replaced apart]
  obtain ⟨outcome, written, wrote, again⟩ := addresses.alike standing inMemory kept' seen addresses'.quiet.symm
  obtain ⟨outcome', written', wrote', again'⟩ := addresses'.alike standing inMemory kept seen' addresses.quiet.symm
  refine ⟨outcome, outcome'.symm, ?_⟩
  rw [again, again', wrote, wrote']
  exact serves.replaced_comm serves' apart written written'

-- Both tasks stand in one store, and the command that each is called with writes its title twice.
theorem tasks_titled_in_either_order :
    let titles (title : String) : Ir.Action := ⟨.mutate, some "title", .literal (.string title)⟩
    let task : Ir.Entity := ⟨"Task", none, [], [], [], [], [], [], none, some "changed", []⟩
    let retitle : Ir.Command :=
      ⟨"retitle", none, some "Task", [], [], [], [titles "draft", titles "final"], ["Titled"], none⟩
    let engine : Engine :=
      { ir := { version := "1.0", provenance := ⟨"", "", "", "", ""⟩, entities := [task], commands := [retitle] }
        around := ⟨fun _ => 0, fun _ => "fresh"⟩ }
    let session : Session := ⟨engine, { stores := [("Task", {})] }⟩
    let operations : List Operation := [.create "Task" [("id", .string "a")], .create "Task" [("id", .string "b")]]
    let last := session.performAll operations
    let one : CommandCall := ⟨"retitle", [], { id := some "a" }⟩
    let other : CommandCall := ⟨"retitle", [], { id := some "b" }⟩
    last.engine.Addresses one last.state "Task" "a" ∧ last.engine.Addresses other last.state "Task" "b" ∧
    (last.engine.answer one last.state).1.isSuccess = true ∧ last.engine.Commute one other last.state := by
  intro titles task retitle engine session operations last one other
  have opened : ∀ name store, Fields.get? session.state.stores name = some store → store.Opened := by
    intro name store stood
    cases List.mem_singleton.mp (Fields.mem_of_get? stood)
    exact ⟨engine.around, [], {}, rfl⟩
  have quiet : (last.engine.answer one last.state).2.usage.ids = last.state.usage.ids := by decide +kernel
  have quiet' : (last.engine.answer other last.state).2.usage.ids = last.state.usage.ids := by decide +kernel
  have succeeds : (last.engine.answer one last.state).1.isSuccess = true := by decide +kernel
  have addresses : last.engine.Addresses one last.state "Task" "a" :=
    ⟨⟨retitle, _, rfl, rfl, _, rfl, rfl⟩, rfl, quiet⟩
  have addresses' : last.engine.Addresses other last.state "Task" "b" :=
    ⟨⟨retitle, _, rfl, rfl, _, rfl, rfl⟩, rfl, quiet'⟩
  have ran : session.performAll operations = last := rfl
  exact ⟨addresses, addresses', succeeds,
    commands_commute opened (fun _ _ => rfl) ran addresses addresses' (by decide)⟩

end Charter
