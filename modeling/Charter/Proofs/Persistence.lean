import Charter.Proofs.Admission
import Charter.Proofs.UpdateFrame

/-!
What a command that succeeds has written. Where its id names a stored record, the record keeps what the last action
that sets a property has computed for it. Where nothing is stored under the id, the command succeeds just the same, and
what it computes is written nowhere.
-/

namespace Charter.Engine
open Stores
variable {engine : Engine} {command : Ir.Command} {owner id name key target : String} {input record : Record}
  {request : CommandRequest} {progress next : Progress} {action : Ir.Action} {outcome : CommandOutcome}
  {entity : Option String} {s t : EngineState}

-- A property that takes what a patch says, if records of the owner can be written at all.
def Ordinary (engine : Engine) (owner key : String) : Prop :=
  ∀ entity, engine.ir.entity? owner = some entity → entity.Ordinary key

-- A run works on the record that is stored under an id.
structure WorksOn (owner id : String) (progress : Progress) (s : EngineState) (record : Record) : Prop where
  reached : progress.record = some record
  own : Record.id? record = some id
  held : held? s.stores owner id = some record

-- An action on a stored record writes the property that it sets, and no other.
theorem WorksOn.act (works : WorksOn owner id progress s record)
    (acted : engine.act command (some owner) progress action s = (.ok (.ok next), t)) :
    ∃ written, WorksOn owner id next t written ∧ ∀ key, engine.Ordinary owner key →
      (¬ action.Sets key → Fields.get? written key = Fields.get? record key) ∧
      (action.Sets key → ∃ value last, engine.evaluate progress.env action.expression s.usage = (.ok value, last) ∧
        Fields.get? written key = some value.toJson) := by
  have named : progress.record.bind Record.id? = some id := by rw [works.reached, Option.bind_some, works.own]
  obtain ⟨kept, _, stores, unset⟩ | ⟨value, usage, target, written, _, evaluated, sets, wrote, rfl⟩ :=
    act_on_record named acted
  · exact ⟨record, ⟨kept.trans works.reached, works.own, stores ▸ works.held⟩,
      fun key _ => ⟨fun _ => rfl, fun sets => absurd sets (unset key)⟩⟩
  obtain ⟨entity, existing, declared, revised⟩ := wrote.revised (List.pairwise_singleton _ _)
  obtain ⟨stood, stands⟩ := revised.rewritten.held?
  cases works.held.symm.trans stood
  have own : Record.id? written = some id := by
    rw [Record.id?, revised.named]
    exact works.own
  refine ⟨written, ⟨rfl, own, stands⟩,
    fun key ordinary => ⟨fun unset => ?_, fun again => ⟨value, usage, evaluated, ?_⟩⟩⟩
  · have other : target ≠ key := fun same => unset (same ▸ sets)
    rw [revised.fields key (ordinary entity declared), Fields.get?, if_neg other]
    rfl
  · cases sets.2.symm.trans again.2
    rw [revised.fields target (ordinary entity declared), Fields.get?, if_pos rfl]
    rfl

theorem Advances.worksOn {actions : List Ir.Action}
    (advanced : engine.Advances command (some owner) actions progress s next t)
    (works : WorksOn owner id progress s record) :
    ∃ written, WorksOn owner id next t written ∧ ∀ key, engine.Ordinary owner key →
      (∀ action ∈ actions, ¬ action.Sets key) → Fields.get? written key = Fields.get? record key := by
  induction advanced generalizing record with
  | nil => exact ⟨record, works, fun _ _ _ => rfl⟩
  | cons acted _ ih =>
      obtain ⟨middle, going, first⟩ := works.act acted
      obtain ⟨written, ended, others⟩ := ih going
      refine ⟨written, ended, fun key ordinary unset => ?_⟩
      rw [others key ordinary fun action later => unset action (List.mem_cons_of_mem _ later)]
      exact (first key ordinary).1 (unset _ List.mem_cons_self)

-- A run without a record never gets one, and leaves all stores alone.
theorem Advances.unheld {actions : List Ir.Action} (advanced : engine.Advances command entity actions progress s next t)
    (unheld : progress.record = none) : t.stores = s.stores := by
  induction advanced with
  | nil => rfl
  | cons acted _ ih =>
      cases act_cases acted with
      | published | bound | idle => exact ih unheld
      | written _ _ _ identified _ =>
          rw [unheld] at identified
          cases identified

-- The last action that sets a property computed a value for it, in the scope that the actions before it had left.
inductive Computes (engine : Engine) (command : Ir.Command) (owner : String) (input : Record)
    (request : CommandRequest) (record : Option Record) (s : EngineState) (target : String) (value : Value) : Prop where
  | intro {constraints : List ConstraintOutcome} {usage last : Usage} {before rest : List Ir.Action}
      {action : Ir.Action} {reached : Progress} {u : EngineState}
      (opened : engine.gates command (some owner) request.overrides
        (engine.commandScope command record input) s.usage = (.ok (.ok constraints), usage))
      (parted : command.actions = before ++ action :: rest) (sets : action.Sets target)
      (latest : ∀ later ∈ rest, ¬ later.Sets target)
      (advanced : engine.Advances command (some owner) before
        { env := engine.commandScope command record input, record } { s with usage } reached u)
      (evaluated : engine.evaluate reached.env action.expression u.usage = (.ok value, last))

-- The gates of a command opened, and all its actions were done. Publishing the declared events leaves the stores alone.
inductive Done (engine : Engine) (command : Ir.Command) (entity : Option String) (input : Record)
    (request : CommandRequest) (record : Option Record) (s t : EngineState) : Prop where
  | intro {constraints : List ConstraintOutcome} {usage : Usage} {last : Progress} {u : EngineState}
      (opened : engine.gates command entity request.overrides
        (engine.commandScope command record input) s.usage = (.ok (.ok constraints), usage))
      (advanced : engine.Advances command entity command.actions
        { env := engine.commandScope command record input, record } { s with usage } last u)
      (stores : t.stores = u.stores)

theorem done_of_success (ran : engine.run name input request s = (outcome, t)) (success : outcome.isSuccess = true) :
    ∃ command entity record, engine.Called name request s command entity record ∧
      engine.Done command entity input request record s t := by
  obtain ⟨error, failed⟩ | ⟨command, entity, record, called, attended⟩ := run_cases engine name input request s
  · cases ran.symm.trans failed
    cases success
  refine ⟨command, entity, record, called, ?_⟩
  rw [ran] at attended
  cases answer : engine.attend command entity input request record s with
  | mk result after =>
      rw [answer] at attended
      cases result with
      | error error => cases attended; cases success
      | ok told =>
          cases attended
          obtain ⟨_, _, _, impossible, _⟩ | ⟨answer, usage, gated, going⟩ := Transaction.evaluate_then answer
          · cases impossible
          obtain ⟨constraints, rfl, _⟩ | ⟨stop, rfl, stopped⟩ := gates_cases gated
          · cases carryOut_cases going with
            | done advanced published =>
                obtain ⟨_, _, stores, _⟩ := publishAll published
                exact .intro gated advanced stores
            | stopped _ _ act =>
                cases act_cases act
                cases success
          · cases going
            cases stopped <;> cases success

-- A list that has an item of a kind has a last one.
theorem parted_at_last {α : Type} {p : α → Prop} {items : List α} (some : ∃ item ∈ items, p item) :
    ∃ before item rest, items = before ++ item :: rest ∧ p item ∧ ∀ later ∈ rest, ¬ p later := by
  induction items with
  | nil => obtain ⟨_, present, _⟩ := some; cases present
  | cons first items ih =>
      by_cases behind : ∃ item ∈ items, p item
      · obtain ⟨before, item, rest, rfl, kind, latest⟩ := ih behind
        exact ⟨first :: before, item, rest, rfl, kind, latest⟩
      · obtain ⟨item, present, kind⟩ := some
        rcases List.mem_cons.mp present with rfl | later
        · exact ⟨[], item, items, rfl, kind, fun later member also => behind ⟨later, member, also⟩⟩
        · exact absurd ⟨item, later, kind⟩ behind

theorem Done.computes {record : Option Record} (done : engine.Done command (some owner) input request record s t)
    (sets : ∃ action ∈ command.actions, action.Sets target) :
    ∃ value, engine.Computes command owner input request record s target value := by
  obtain ⟨opened, advanced, _⟩ := done
  obtain ⟨before, action, rest, parted, sets, latest⟩ := parted_at_last sets
  rw [parted] at advanced
  obtain ⟨reached, u, first, behind⟩ := advanced.parted
  cases behind with
  | cons acted _ =>
      obtain ⟨value, last, evaluated⟩ : ∃ value last,
          engine.evaluate reached.env action.expression u.usage = (.ok value, last) := by
        cases act_cases acted with
        | published evaluated | bound evaluated | idle evaluated | written evaluated => exact ⟨_, _, evaluated⟩
      exact ⟨value, .intro opened parted sets latest first evaluated⟩

-- What the last action computed for a property is what the store keeps in it.
theorem Computes.held {value : Value}
    (computes : engine.Computes command owner input request (some record) s target value)
    (done : engine.Done command (some owner) input request (some record) s t) (own : Record.id? record = some id)
    (held : held? s.stores owner id = some record) (ordinary : engine.Ordinary owner target) :
    ∃ kept, held? t.stores owner id = some kept ∧ Fields.get? kept target = some value.toJson := by
  obtain ⟨opened, parted, sets, latest, first, evaluated⟩ := computes
  obtain ⟨again, advanced, stores⟩ := done
  -- Gates and actions do one thing from one state, so the run that was done is the one that the value is from.
  cases opened.symm.trans again
  rw [parted] at advanced
  obtain ⟨middle, stood, _⟩ := first.worksOn ⟨rfl, own, held⟩
  cases first.behind advanced with
  | cons acted others =>
      obtain ⟨written, going, fields⟩ := stood.act acted
      obtain ⟨_, _, same, found⟩ := (fields target ordinary).2 sets
      cases evaluated.symm.trans same
      obtain ⟨kept, ended, unchanged⟩ := others.worksOn going
      exact ⟨kept, stores ▸ ended.held, (unchanged target ordinary latest).trans found⟩

-- A command of an entity that succeeds has read what is stored under its id. A property that an action sets is stored
-- as the last such action computed it exactly if a record was there; without one no store has changed.
theorem writes_persisted (inMemory : StoresInMemory s.stores)
    (named : engine.ir.command? name request.entity = some command) (owned : command.entity = some owner)
    (addressed : request.id = some id) (ran : engine.run name input request s = (outcome, t))
    (success : outcome.isSuccess = true) :
    ∃ record, Transaction.record? owner id s = (.ok record, s) ∧ (record = none → t.stores = s.stores) ∧
      ∀ target, engine.Ordinary owner target → (∃ action ∈ command.actions, action.Sets target) →
        (∃ value, engine.Computes command owner input request record s target value) ∧
        ∀ value, engine.Computes command owner input request record s target value →
          ((∃ kept, Transaction.record? owner id t = (.ok (some kept), t) ∧
            Fields.get? kept target = some value.toJson) ↔ record.isSome = true) := by
  obtain ⟨_, _, record, ⟨again, owns, read⟩, done⟩ := done_of_success ran success
  cases named.symm.trans again
  rw [owned] at owns
  cases owns
  rw [addressed] at read
  obtain ⟨store, opened, replied⟩ := read
  have kept : StoresInMemory t.stores := by
    have ended : (engine.run name input request s).2 = t := by rw [ran]
    exact ended ▸ run_keeps update_inMemory name input request inMemory
  have lost : record = none → t.stores = s.stores := by
    rintro rfl
    obtain ⟨_, advanced, stores⟩ := done
    exact stores.trans (advanced.unheld rfl)
  refine ⟨record, Transaction.record?_of opened replied, lost,
    fun target ordinary sets => ⟨done.computes sets, fun value computes => ?_⟩⟩
  cases record with
  | none =>
      have missing : Transaction.record? owner id t = (.ok none, t) :=
        Transaction.record?_of (lost rfl ▸ opened) replied
      refine iff_of_false (fun ⟨kept, there, _⟩ => ?_) nofun
      cases there.symm.trans missing
  | some record =>
      have stood := Store.get?_shelf replied
      obtain ⟨written, held, field⟩ := computes.held done ((inMemory _ _ opened).keyed.id?_of_get? stood)
        ((held?_of opened).trans stood) ordinary
      exact iff_of_true ⟨written, (Serves.of_held? kept held).record?, field⟩ rfl

-- The title of the task that is stored is set twice. A task that is not stored is titled with the same success.
theorem stored_task_titled :
    let titles (title : String) : Ir.Action := ⟨.mutate, some "title", .literal (.string title)⟩
    let task : Ir.Entity := ⟨"Task", none, [], [], [], [], [], [], none, none, []⟩
    let retitle : Ir.Command := ⟨"retitle", none, some "Task", [], [], [], [titles "draft", titles "final"], [], none⟩
    let engine : Engine :=
      { ir := { version := "1.0", provenance := ⟨"", "", "", "", ""⟩, entities := [task], commands := [retitle] }
        around := ⟨fun _ => 0, fun _ => "fresh"⟩ }
    let state : EngineState := { stores := [("Task", { shelf := Shelf.insert {} "t" [("id", .string "t")] })] }
    let stored := engine.run "retitle" [] { id := some "t" } state
    let missing := engine.run "retitle" [] { id := some "u" } state
    StoresInMemory state.stores ∧ stored.1.isSuccess = true ∧ missing.1.isSuccess = true ∧
    (∃ kept, Transaction.record? "Task" "t" stored.2 = (.ok (some kept), stored.2) ∧
      Fields.get? kept "title" = some (.string "final")) ∧
    Transaction.record? "Task" "u" missing.2 = (.ok none, missing.2) ∧ missing.2.stores = state.stores := by
  intro titles task retitle engine state stored missing
  have inMemory : StoresInMemory state.stores := by
    intro name store opened
    cases List.mem_singleton.mp (Fields.mem_of_get? opened)
    exact ⟨rfl, Shelf.Keyed.insert .empty rfl⟩
  have ordinary : engine.Ordinary "Task" "title" := by
    intro entity declared
    cases declared
    exact ⟨by decide, nofun, nofun⟩
  have sets : ∃ action ∈ retitle.actions, action.Sets "title" := ⟨_, List.mem_cons_self, .inl rfl, rfl⟩
  have parted : retitle.actions = [titles "draft"] ++ titles "final" :: [] := rfl
  have computes : engine.Computes retitle "Task" [] { id := some "t" } (some [("id", .string "t")]) state "title"
      (.string "final") := .intro rfl parted ⟨.inl rfl, rfl⟩ nofun (.cons rfl .nil) rfl
  have ran : engine.run "retitle" [] { id := some "t" } state = (stored.1, stored.2) := rfl
  have ran' : engine.run "retitle" [] { id := some "u" } state = (missing.1, missing.2) := rfl
  obtain ⟨record, found, _, titled⟩ := writes_persisted inMemory rfl rfl rfl ran rfl
  cases found
  obtain ⟨other, absent, lost, _⟩ := writes_persisted inMemory rfl rfl rfl ran' rfl
  cases absent
  exact ⟨inMemory, rfl, rfl, ((titled "title" ordinary sets).2 _ computes).mpr rfl, rfl, lost rfl⟩

end Charter.Engine
