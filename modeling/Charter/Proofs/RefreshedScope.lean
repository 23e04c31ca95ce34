import Charter.Proofs.Relationship
import Charter.Proofs.Scope
import Charter.Proofs.Version

/-!
The scope of a command after it wrote its record. That scope is patched in place: the fields of the written
record come over everything that was bound before, also over parameters and input. So it means what a scope
means that is built anew for the written record, but for the fields that the call binds too.
-/

namespace Charter
open Engine

-- Records as a store keeps them: their fields stand in increasing order.
def Store.InOrder (store : Store) : Prop := ∀ record ∈ store.shelf.all, Fields.Ascending record

section Order
variable {engine : Engine} {stores : Fields Store} {store : Store} {name id : String} {record patch : Record}
  {s t : EngineState}

theorem Record.ascending_patched (ascending : Fields.Ascending record) (patch : Record) :
    Fields.Ascending (Record.patched record patch) := ascending.overlay _

theorem Record.ascending_identified {around : Surroundings} {kept : Record} {start last : Usage}
    (ascending : Fields.Ascending record)
    (identified : Record.identified around record start = ((id, kept), last)) : Fields.Ascending kept := by
  unfold Record.identified at identified
  split at identified <;> cases identified
  · exact ascending
  · exact ascending.place "id" _

theorem Engine.ascending_firstVersion {entity : Ir.Entity} {planned : Record} {start last : Usage}
    (ascending : Fields.Ascending record)
    (completed : engine.firstVersion entity record start = (.ok planned, last)) : Fields.Ascending planned := by
  unfold Engine.firstVersion at completed
  cases enforced : engine.options.enforceVersions with
  | false =>
      simp only [enforced] at completed
      cases completed
      exact ascending
  | true =>
      simp only [enforced] at completed
      cases versions : entity.versionProperty with
      | none => exact ascending_stamped ascending (by simpa [versions] using completed)
      | some version => exact ascending_stamped (ascending.place version _) (by simpa [versions] using completed)

theorem Store.InOrder.insert (inOrder : store.InOrder) (ascending : Fields.Ascending record) :
    Store.InOrder { store with shelf := store.shelf.insert id record } := by
  intro other member
  obtain ⟨entry, stands, rfl⟩ := List.mem_map.mp member
  rcases Fields.mem_put stands with rfl | old
  · exact ascending
  · exact inOrder _ (List.mem_map_of_mem old)

theorem Store.InOrder.erase (inOrder : store.InOrder) (id : String) :
    Store.InOrder { store with shelf := store.shelf.erase id } := by
  intro other member
  obtain ⟨entry, stands, rfl⟩ := List.mem_map.mp member
  exact inOrder _ (List.mem_map_of_mem (Fields.mem_of_mem_erase stands))

theorem Store.InOrder.get? (inOrder : store.InOrder) (found : store.shelf.get? id = some record) :
    Fields.Ascending record := inOrder record (List.mem_map.mpr ⟨_, Fields.mem_of_get? found, rfl⟩)

def StoresInOrder (stores : Fields Store) : Prop :=
  ∀ name store, Fields.get? stores name = some store → store.InOrder

theorem StoresInOrder.put (inOrder : StoresInOrder stores) (fresh : store.InOrder) :
    StoresInOrder (Fields.put stores name store) := by
  intro other found opened
  rw [Fields.get?_put] at opened
  split at opened
  · cases opened
    exact fresh
  · exact inOrder other found opened

-- Whatever order the fields have that a record is created from, it starts from defaults in order.
theorem create_inOrder {data : Record} {violations : List ConstraintOutcome}
    (created : engine.Created name data s record violations t) (inOrder : StoresInOrder s.stores) :
    StoresInOrder t.stores := by
  cases created with
  | intro _ opened _ completed _ _ identified =>
      have planned := Engine.ascending_firstVersion ((Fields.ascending_sorted _).overlay data) completed
      exact inOrder.put ((inOrder _ _ opened).insert (Record.ascending_identified planned identified))

theorem update_inOrder : engine.UpdatesKeep StoresInOrder := by
  intro name id patch before record violations after updated inOrder
  cases updated with
  | intro _ opened _ found _ =>
      have stood := inOrder _ _ opened
      exact inOrder.put (stood.insert (Record.ascending_patched (stood.get? found) _))

theorem perform_inOrder (session : Session) (operation : Operation) (inOrder : StoresInOrder session.state.stores) :
    StoresInOrder (session.perform operation).state.stores := by
  cases operation with
  | create name data =>
      obtain ⟨still, _⟩ | ⟨_, _, _, created⟩ := create_cases (rfl : session.engine.create name data session.state = _)
      · exact still.stores ▸ inOrder
      · exact create_inOrder created inOrder
  | update name id patch => exact update_keeps update_inOrder rfl inOrder
  | run name input request => exact run_keeps update_inOrder name input request inOrder
  | delete name id =>
      obtain same | ⟨store, opened, wrote⟩ :=
        Transaction.deleteRecord_cases (rfl : Transaction.deleteRecord name id session.state = _)
      · exact (congrArg EngineState.stores same) ▸ inOrder
      · exact (congrArg EngineState.stores wrote) ▸ inOrder.put ((inOrder _ _ opened).erase id)
  | clear name =>
      obtain same | ⟨store, opened, wrote⟩ :=
        Transaction.clearRecords_cases (rfl : Transaction.clearRecords name session.state = _)
      · exact (congrArg EngineState.stores same) ▸ inOrder
      · exact (congrArg EngineState.stores wrote) ▸ inOrder.put nofun
  | inContext context => exact inOrder

end Order

namespace Ir.Command

-- What a call binds: the defaults of parameters without input, and the input.
def bindings (command : Command) (input : Record) : Fields Value :=
  (command.parameters.filterMap fun parameter =>
    if Fields.has input parameter.name then none
    else parameter.default?.map fun value => (parameter.name, Value.ofConstant value)) ++ Record.values input

-- A field of the record has a name that the call binds too.
structure Hides (command : Command) (input record : Record) (key : String) : Prop where
  plain : key ∉ ["self", "this", "user", "context"]
  field : key ∈ Fields.keys record
  bound : key ∈ Fields.keys (command.bindings input)

end Ir.Command

namespace Engine
variable {engine : Engine} {command : Ir.Command} {owner id key : String} {input record plan written : Record}
  {progress next : Progress} {s t : EngineState}

theorem lookup?_commandScope (record : Option Record) : (engine.commandScope command record input).lookup? key =
    (Fields.get? (engine.context.reserved (((record.map Record.values).map Value.object).getD .null)) key).or
      ((Fields.get? (command.bindings input).reverse key).or
        (Fields.get? ((record.map Record.values).getD []) key)) := by
  unfold commandScope Ir.Command.bindings
  rw [RequestContext.lookup?_bindReserved, Environment.lookup?_defineAll, Environment.lookup?_defineAll,
    List.reverse_append, Fields.get?_append, Option.or_assoc, Environment.lookup?_ofFields]

theorem lookup?_refreshed {env : Environment} (ascending : Fields.Ascending record) :
    (engine.refreshed env record).lookup? key =
      (Fields.get? (engine.context.reserved (.object (Record.values record))) key).or
        ((Fields.get? (Record.values record) key).or (env.lookup? key)) := by
  have distinct : Fields.Distinct (Record.values record) := ascending.distinct.map _
  unfold refreshed
  rw [RequestContext.lookup?_bindReserved, Environment.lookup?_defineAll, distinct.get?_reverse]

-- Where a run stands on its record. The store keeps the record under its id, and the scope means by every name that
-- is no field of the record what it would mean in a new scope.
structure Stands (engine : Engine) (command : Ir.Command) (owner id : String) (input : Record)
    (progress : Progress) (s : EngineState) (record : Record) : Prop where
  reached : progress.record = some record
  own : Record.id? record = some id
  ascending : Fields.Ascending record
  stored : ∃ store, Fields.get? s.stores owner = some store ∧ store.shelf.get? id = some record
  scope : ∀ key, Fields.get? record key = none →
    progress.env.lookup? key = (engine.commandScope command (some record) input).lookup? key

-- After a write, fields come over what a new scope binds, and nothing else differs.
theorem Stands.overlaid (stands : engine.Stands command owner id input progress s record)
    (patched : Record.patched record plan = written) (key : String) :
    (engine.refreshed progress.env written).lookup? key =
      (Fields.get? (engine.context.reserved (.object (Record.values written))) key).or
        ((Fields.get? (Record.values written) key).or
          ((engine.commandScope command (some written) input).lookup? key)) := by
  rw [lookup?_refreshed (patched ▸ Record.ascending_patched stands.ascending plan)]
  cases kept : Fields.get? (engine.context.reserved (.object (Record.values written))) key with
  | some value => rfl
  | none =>
      cases field : Fields.get? (Record.values written) key with
      | some value => rfl
      | none =>
          have absent : Fields.get? written key = none := by
            rwa [Record.get?_values, Option.map_eq_none_iff] at field
          have before : Fields.get? record key = none := Fields.get?_overlay_eq_none (patched ▸ absent)
          have fields : Fields.get? (Record.values record) key = none := by rw [Record.get?_values, before]; rfl
          have plain := (engine.context.get?_reserved_eq_none _).mp kept
          have unreserved := (engine.context.get?_reserved_eq_none (.object (Record.values record))).mpr plain
          rw [stands.scope key before, lookup?_commandScope, lookup?_commandScope]
          simp only [Option.map_some, Option.getD_some, kept, unreserved, field, fields]

-- By the name of a field that the call binds too, the patched scope means the field and a new scope what the call
-- binds. By every other name both mean the same.
theorem Stands.resolve (stands : engine.Stands command owner id input progress s record)
    (patched : Record.patched record plan = written) (key : String) :
    (¬ command.Hides input written key → (engine.refreshed progress.env written).resolve key =
      (engine.commandScope command (some written) input).resolve key) ∧
    (command.Hides input written key →
      (engine.refreshed progress.env written).resolve key = .ofJson (Record.field written key) ∧
        (engine.commandScope command (some written) input).resolve key =
          (engine.commandScope command none input).resolve key) := by
  have laid := stands.overlaid patched key
  have anew := @lookup?_commandScope engine command key input (some written)
  have alone := @lookup?_commandScope engine command key input none
  simp only [Environment.resolve]
  constructor
  · intro shown
    suffices (engine.refreshed progress.env written).lookup? key =
        (engine.commandScope command (some written) input).lookup? key by rw [this]
    rw [laid, anew]
    cases kept : Fields.get? (engine.context.reserved (.object (Record.values written))) key with
    | some value => simp [kept]
    | none =>
        cases field : Fields.get? (Record.values written) key with
        | none => simp [kept, field]
        | some value =>
            have free : Fields.get? (command.bindings input).reverse key = none := by
              have plain := (engine.context.get?_reserved_eq_none _).mp kept
              refine Fields.get?_of_not_mem fun bound => shown ⟨plain, ?_, ?_⟩
              · rw [Record.get?_values, Option.map_eq_some_iff] at field
                obtain ⟨json, found, _⟩ := field
                exact List.mem_map_of_mem (Fields.mem_of_get? found)
              · simpa [Fields.keys] using bound
            simp [kept, field, free]
  · rintro ⟨plain, field, bound⟩
    have kept := (engine.context.get?_reserved_eq_none (.object (Record.values written))).mpr plain
    have free := (engine.context.get?_reserved_eq_none .null).mpr plain
    obtain ⟨value, found⟩ := Fields.get?_of_mem_keys field
    obtain ⟨given, called⟩ : ∃ given, Fields.get? (command.bindings input).reverse key = some given :=
      Fields.get?_of_mem_keys (by simpa [Fields.keys] using bound)
    have shown : Fields.get? (Record.values written) key = some (.ofJson value) := by
      rw [Record.get?_values, found]
      rfl
    rw [laid, anew, alone]
    simp [kept, free, shown, called, Record.field, found]

theorem Stands.rewritten (stands : engine.Stands command owner id input progress s record) {patch : Record}
    {violations : List ConstraintOutcome} {usage : Usage} (value : Value)
    (updated : engine.Updated owner id patch { s with usage } written violations t) :
    (∃ plan, Record.patched record plan = written) ∧ engine.Stands command owner id input
      { progress with env := engine.refreshed progress.env written, record := some written, result := value } t
      written := by
  obtain ⟨store, opened, found⟩ := stands.stored
  cases updated with
  | @intro _ _ existing plan _ _ _ opened' _ found' _ =>
      cases opened.symm.trans opened'
      cases found.symm.trans found'
      refine ⟨⟨plan, rfl⟩, rfl, (Record.id?_patched record plan).trans stands.own,
        Record.ascending_patched stands.ascending plan, ⟨_, (Fields.get?_put ..).trans (if_pos rfl), ?_⟩,
        fun key absent => ?_⟩
      · exact (Fields.get?_put ..).trans (if_pos rfl)
      · have fields : Fields.get? (Record.values (Record.patched record plan)) key = none := by
          rw [Record.get?_values, absent]
          rfl
        refine (stands.overlaid rfl key).trans ?_
        rw [fields, Option.none_or, lookup?_commandScope, ← Option.or_assoc]
        exact congrArg (Option.or · _) Option.or_self

-- Every action goes on from where the run stands, and one that sets a property patches the scope.
theorem Stands.act (stands : engine.Stands command owner id input progress s record) {action : Ir.Action}
    (acted : engine.act command (some owner) progress action s = (.ok (.ok next), t)) :
    ∃ written, engine.Stands command owner id input next t written ∧
      ∀ target, action.Sets target →
        ∃ plan, Record.patched record plan = written ∧ next.env = engine.refreshed progress.env written := by
  have named : progress.record.bind Record.id? = some id := by rw [stands.reached, Option.bind_some, stands.own]
  obtain ⟨kept, env, stores, unset⟩ | ⟨value, _, _, written, _, _, _, wrote, rfl⟩ := act_on_record named acted
  · obtain ⟨reached, own, ascending, stored, scope⟩ := stands
    exact ⟨record, ⟨kept.trans reached, own, ascending, stores ▸ stored, env ▸ scope⟩,
      fun target sets => absurd sets (unset target)⟩
  · obtain ⟨⟨plan, patched⟩, after⟩ := stands.rewritten value wrote
    exact ⟨written, after, fun _ _ => ⟨plan, patched, rfl⟩⟩

theorem Stands.advances {actions : List Ir.Action} (stands : engine.Stands command owner id input progress s record)
    (advanced : engine.Advances command (some owner) actions progress s next t) :
    ∃ written, engine.Stands command owner id input next t written := by
  induction advanced generalizing record with
  | nil => exact ⟨record, stands⟩
  | cons acted _ ih =>
      obtain ⟨written, after, _⟩ := stands.act acted
      exact ih after

-- In a run on a stored record that is past its gates, an action set a property, and left the run so far and the state
-- so.
inductive Rewrites (engine : Engine) (name : String) (input : Record) (request : CommandRequest) (s : EngineState)
    (command : Ir.Command) (owner id : String) (next : Progress) (t : EngineState) : Prop where
  | intro {record : Record} {constraints : List ConstraintOutcome} {usage : Usage} {before rest : List Ir.Action}
      {action : Ir.Action} {target : String} {reached : Progress} {u : EngineState}
      (called : engine.Called name request s command (some owner) (some record))
      (addressed : request.id = some id)
      (opened : engine.gates command (some owner) request.overrides
        (engine.commandScope command (some record) input) s.usage = (.ok (.ok constraints), usage))
      (parted : command.actions = before ++ action :: rest)
      (advanced : engine.Advances command (some owner) before
        { env := engine.commandScope command (some record) input, record := some record } { s with usage } reached u)
      (sets : action.Sets target)
      (acted : engine.act command (some owner) reached action u = (.ok (.ok next), t))

theorem stands_of_called {name : String} {request : CommandRequest} {usage : Usage}
    (called : engine.Called name request s command (some owner) (some record)) (addressed : request.id = some id)
    (inMemory : StoresInMemory s.stores) (inOrder : StoresInOrder s.stores) :
    engine.Stands command owner id input
      { env := engine.commandScope command (some record) input, record := some record } { s with usage } record := by
  have read := called.read
  rw [addressed] at read
  obtain ⟨store, opened, replied⟩ := read
  have found := Store.get?_shelf replied
  exact ⟨rfl, (inMemory _ _ opened).keyed.id?_of_get? found, (inOrder _ _ opened).get? found, ⟨store, opened, found⟩,
    fun _ _ => rfl⟩

end Engine

-- Whatever was asked of an engine with stores in memory, and whichever command runs on a stored record then: after
-- each write of the record, a name means to the next action what it would mean in a scope that is built anew for the
-- written record, unless a field of the record has the name of a parameter or of an input. Such a field hides what
-- the call binds, to which a new scope would hold.
theorem refreshed_scope {session : Session} {operations : List Operation} {name : String} {input : Record}
    {request : CommandRequest} {command : Ir.Command} {owner id : String} {next : Progress} {after : EngineState}
    (opened : ∀ name store, Fields.get? session.state.stores name = some store → store.Opened ∧ store.InOrder)
    (rewrites : (session.performAll operations).engine.Rewrites name input request
      (session.performAll operations).state command owner id next after) :
    let engine := (session.performAll operations).engine
    ∃ store written, Fields.get? after.stores owner = some store ∧ store.shelf.get? id = some written ∧
      next.record = some written ∧
      ∀ key, (¬ command.Hides input written key →
          next.env.resolve key = (engine.commandScope command (some written) input).resolve key) ∧
        (command.Hides input written key →
          next.env.resolve key = .ofJson (Record.field written key) ∧
            (engine.commandScope command (some written) input).resolve key =
              (engine.commandScope command none input).resolve key) := by
  intro engine
  obtain ⟨inMemory, inOrder⟩ : StoresInMemory (session.performAll operations).state.stores ∧
      StoresInOrder (session.performAll operations).state.stores :=
    Session.performAll_keeps
      (P := fun reached => StoresInMemory reached.state.stores ∧ StoresInOrder reached.state.stores)
      (fun reached operation ⟨inMemory, inOrder⟩ =>
        ⟨perform_inMemory reached operation inMemory, perform_inOrder reached operation inOrder⟩)
      operations
      ⟨fun name store stood => (opened name store stood).1.inMemory,
        fun name store stood => (opened name store stood).2⟩
  cases rewrites with
  | intro called addressed _ _ advanced sets acted =>
      obtain ⟨before, stood⟩ := (stands_of_called called addressed inMemory inOrder).advances advanced
      obtain ⟨written, stands, patches⟩ := stood.act acted
      obtain ⟨plan, patches, patched⟩ := patches _ sets
      obtain ⟨store, there, found⟩ := stands.stored
      refine ⟨store, _, there, found, stands.reached, fun key => ?_⟩
      rw [patched]
      exact stood.resolve patches key

-- The record has a balance, and the call binds one too. After the note was written the balance is the stored one; who
-- pays is still known.
theorem balance_after_note :
    let notes : Ir.Action := ⟨.mutate, some "note", .literal (.string "seen")⟩
    let account : Ir.Entity := ⟨"Account", none, [], [], [], [], [], [], none, none, []⟩
    let pay : Ir.Command := ⟨"pay", none, some "Account", [], [], [], [notes], [], none⟩
    let engine : Engine :=
      { ir := { version := "1.0", provenance := ⟨"", "", "", "", ""⟩, entities := [account], commands := [pay] }
        around := ⟨fun _ => 0, fun _ => "fresh"⟩ }
    let session : Session := ⟨engine, { stores := [("Account", {})] }⟩
    let operations : List Operation := [.create "Account" [("balance", .string "full"), ("id", .string "a")]]
    let last := session.performAll operations
    let input : Record := [("balance", .string "low"), ("payer", .string "me")]
    let written : Record := [("balance", .string "full"), ("id", .string "a"), ("note", .string "seen")]
    ∃ next after, engine.Rewrites "pay" input { id := some "a" } last.state pay "Account" "a" next after ∧
      next.record = some written ∧ pay.Hides input written "balance" ∧ ¬ pay.Hides input written "payer" ∧
      next.env.resolve "balance" = .string "full" ∧
      (engine.commandScope pay (some written) input).resolve "balance" = .string "low" ∧
      next.env.resolve "payer" = .string "me" := by
  intro notes account pay engine session operations last input written
  have opened : ∀ name store, Fields.get? session.state.stores name = some store → store.Opened ∧ store.InOrder := by
    intro name store stood
    cases List.mem_singleton.mp (Fields.mem_of_get? stood)
    exact ⟨⟨engine.around, [], {}, rfl⟩, nofun⟩
  have rewrites : last.engine.Rewrites "pay" input { id := some "a" } last.state pay "Account" "a" _ _ :=
    .intro ⟨rfl, rfl, _, rfl, rfl⟩ rfl rfl (List.nil_append _).symm .nil ⟨.inl rfl, rfl⟩ rfl
  obtain ⟨store, kept, _, _, reached, names⟩ := refreshed_scope opened rewrites
  have same : kept = written := (Option.some.inj reached).symm
  rw [same] at names
  have hides : pay.Hides input written "balance" := ⟨by decide, by decide, by decide⟩
  have shows : ¬ pay.Hides input written "payer" := fun hidden => absurd hidden.field (by decide)
  obtain ⟨field, bound⟩ := (names "balance").2 hides
  exact ⟨_, _, rewrites, rfl, hides, shows, field, bound, (names "payer").1 shows⟩

end Charter
