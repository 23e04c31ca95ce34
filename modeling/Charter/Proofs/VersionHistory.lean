import Charter.Proofs.History
import Charter.Proofs.Version

/-!
Versions along a history. The version of a stored record counts the updates since its last create, so in
between two creates no version is claimed by two updates, and a claim of an older one is refused.
-/

namespace Charter

def Written.key : Written → String × String
  | .created name id | .updated name id _ => (name, id)

-- The updates of a record since it was last created.
def updatesSince (name id : String) : List Written → Nat
  | [] => 0
  | .created other key :: rest => if (other, key) = (name, id) then 0 else updatesSince name id rest
  | .updated other key _ :: rest =>
    if (other, key) = (name, id) then updatesSince name id rest + 1 else updatesSince name id rest

section History
variable {name id version : String} {write : Written} {history earlier between : List Written} {patch : Record}

theorem updatesSince_other (other : write.key ≠ (name, id)) :
    updatesSince name id (write :: history) = updatesSince name id history := by
  cases write <;> exact if_neg other

theorem updatesSince_created : updatesSince name id (.created name id :: history) = 0 := if_pos rfl

theorem updatesSince_updated :
    updatesSince name id (.updated name id patch :: history) = updatesSince name id history + 1 := if_pos rfl

theorem updatesSince_mono (kept : Written.created name id ∉ between) :
    updatesSince name id earlier ≤ updatesSince name id (between ++ earlier) := by
  induction between with
  | nil => exact Nat.le_refl _
  | cons write rest ih =>
      refine (ih (List.not_mem_of_not_mem_cons kept)).trans ?_
      by_cases same : write.key = (name, id)
      · cases write with
        | created => cases same; exact absurd rfl (List.ne_of_not_mem_cons kept)
        | updated => cases same; exact (Nat.le_succ _).trans updatesSince_updated.ge
      · exact (updatesSince_other same).ge

-- Each update that claimed a whole number claimed the version that the updates before it had led to.
inductive Claimed (name version : String) : List Written → Prop where
  | nil : Claimed name version []
  | created {other id : String} {history : List Written} (behind : Claimed name version history) :
      Claimed name version (.created other id :: history)
  | updated {other id : String} {patch : Record} {history : List Written}
      (met : other = name → ∀ claimed : Int, claimed < 2 ^ 53 → Fields.get? patch version = some (.integer claimed) →
        claimed = updatesSince name id history + 1)
      (behind : Claimed name version history) : Claimed name version (.updated other id patch :: history)

theorem Claimed.met {later : List Written} {claimed : Int}
    (claims : Claimed name version (later ++ .updated name id patch :: earlier))
    (small : claimed < 2 ^ 53) (claim : Fields.get? patch version = some (.integer claimed)) :
    claimed = updatesSince name id earlier + 1 := by
  induction later with
  | nil =>
      cases claims with
      | updated met _ => exact met rfl claimed small claim
  | cons write rest ih =>
      cases claims with
      | created behind | updated _ behind => exact ih behind

-- A record was created, and its version counts from there.
structure Numbered (name version id : String) (history : List Written) (record : Record) : Prop where
  created : Written.created name id ∈ history
  number : Record.field record version = Write.versionAfter (updatesSince name id history)

theorem Numbered.cons {record : Record} (numbered : Numbered name version id history record)
    (other : write.key ≠ (name, id)) : Numbered name version id (write :: history) record := by
  refine ⟨List.mem_cons_of_mem _ numbered.created, ?_⟩
  rw [updatesSince_other other]
  exact numbered.number

structure StoreNumbered (name version : String) (history : List Written) (store : Store) : Prop where
  serving : store.conduct = .serving
  distinct : Fields.Distinct store.shelf.records
  numbered : ∀ id record, store.shelf.get? id = some record → Numbered name version id history record

structure StoresNumbered (name version : String) (history : List Written) (stores : Fields Store) : Prop where
  claimed : Claimed name version history
  numbered : ∀ store, Fields.get? stores name = some store → StoreNumbered name version history store

variable {stores : Fields Store} {store : Store} {record : Record}

theorem StoreNumbered.insert (numbered : StoreNumbered name version history store) (about : write.key = (name, id))
    (fresh : Numbered name version id (write :: history) record) :
    StoreNumbered name version (write :: history) { store with shelf := store.shelf.insert id record } := by
  refine ⟨numbered.serving, numbered.distinct.put id record, fun key found stood => ?_⟩
  change Fields.get? (Fields.put _ id record) key = _ at stood
  rw [Fields.get?_put] at stood
  by_cases same : id = key
  · rw [if_pos same] at stood
    cases stood
    exact same ▸ fresh
  · rw [if_neg same] at stood
    refine (numbered.numbered key found stood).cons fun again => same ?_
    exact congrArg Prod.snd (about.symm.trans again)

theorem StoreNumbered.cons (numbered : StoreNumbered name version history store) (other : write.key.1 ≠ name) :
    StoreNumbered name version (write :: history) store :=
  ⟨numbered.serving, numbered.distinct, fun id record stood =>
    (numbered.numbered id record stood).cons fun same => other (congrArg Prod.fst same)⟩

-- A write puts one record into one store.
theorem StoresNumbered.insert {other : String} (numbered : StoresNumbered name version history stores)
    (opened : Fields.get? stores other = some store) (about : write.key = (other, id))
    (claimed : Claimed name version (write :: history))
    (fresh : other = name → Numbered name version id (write :: history) record) :
    StoresNumbered name version (write :: history)
      (Fields.put stores other { store with shelf := store.shelf.insert id record }) := by
  refine ⟨claimed, fun found stood => ?_⟩
  rw [Fields.get?_put] at stood
  by_cases same : other = name
  · subst same
    rw [if_pos rfl] at stood
    cases stood
    exact (numbered.numbered store opened).insert about (fresh rfl)
  · rw [if_neg same] at stood
    exact (numbered.numbered found stood).cons (about ▸ same)

-- A store of the records that are left behind.
theorem StoresNumbered.put {other : String} (numbered : StoresNumbered name version history stores)
    (left : other = name → StoreNumbered name version history store) :
    StoresNumbered name version history (Fields.put stores other store) := by
  refine ⟨numbered.claimed, fun found stood => ?_⟩
  rw [Fields.get?_put] at stood
  by_cases same : other = name
  · rw [if_pos same] at stood
    cases stood
    exact left same
  · rw [if_neg same] at stood
    exact numbered.numbered found stood

end History

section Session
variable {engine : Engine} {entity : Ir.Entity} {name version : String} {past : List Written} {s t : EngineState}

theorem create_numbered (keeps : engine.KeepsVersions name version entity) {other : String} {data record : Record}
    {violations : List ConstraintOutcome} (created : engine.Created other data s record violations t)
    (before : StoresNumbered name version past s.stores) :
    ∃ id, Record.id? record = some id ∧ StoresNumbered name version (.created other id :: past) t.stores := by
  have first (same : other = name) : Record.field record version = .integer 1 := by
    subst same
    exact created.field_version keeps
  cases created with
  | @intro _ store _ _ id _ _ _ _ _ opened _ _ _ _ identified =>
      refine ⟨id, Record.id?_identified identified, before.insert opened rfl (.created before.claimed) fun same => ?_⟩
      subst same
      refine ⟨List.mem_cons_self, ?_⟩
      rw [updatesSince_created, first rfl, Write.versionAfter_of_lt (by omega)]
      rfl

theorem update_numbered (keeps : engine.KeepsVersions name version entity) :
    engine.UpdatesExtend (StoresNumbered name version) := by
  intro other id patch past s record violations t ascending updated before
  by_cases same : other = name
  · subst same
    obtain ⟨store, existing, opened, _, found, stored, next, claims⟩ := updated.field_version keeps ascending
    obtain ⟨created, met⟩ := (before.numbered store opened).numbered id existing found
    rw [met] at next claims
    rw [stored]
    refine before.insert opened rfl (.updated (fun _ claimed small claim => ?_) before.claimed) fun _ => ?_
    · have equal := claims _ claim
      rw [Write.integer_looselyEquals_versionAfter small] at equal
      exact of_decide_eq_true equal
    · refine ⟨List.mem_cons_of_mem _ created, ?_⟩
      rw [updatesSince_updated, next, Write.nextVersion_versionAfter]
  · cases updated with
    | intro _ opened _ _ _ =>
        exact before.insert opened rfl (.updated (fun equal => absurd equal same) before.claimed)
          fun equal => absurd equal same

theorem delete_numbered {other id : String} {result : Except EngineError Bool}
    (ran : Transaction.deleteRecord other id s = (result, t)) (before : StoresNumbered name version past s.stores) :
    StoresNumbered name version past t.stores := by
  obtain rfl | ⟨store, opened, rfl⟩ := Transaction.deleteRecord_cases ran
  · exact before
  refine before.put fun same => ?_
  obtain ⟨serving, distinct, numbered⟩ := before.numbered store (same ▸ opened)
  refine ⟨serving, distinct.erase id, fun key record stood => ?_⟩
  change Fields.get? (Fields.erase _ id) key = _ at stood
  rw [distinct.get?_erase] at stood
  split at stood
  · cases stood
  · exact numbered key record stood

theorem clear_numbered {other : String} {result : Except EngineError Unit}
    (ran : Transaction.clearRecords other s = (result, t)) (before : StoresNumbered name version past s.stores) :
    StoresNumbered name version past t.stores := by
  obtain rfl | ⟨store, opened, rfl⟩ := Transaction.clearRecords_cases ran
  · exact before
  refine before.put fun same => ?_
  exact ⟨(before.numbered store (same ▸ opened)).serving, .nil, fun _ _ => nofun⟩

-- The patch of a direct update keeps its keys in increasing order.
def Operation.Proper : Operation → Prop
  | .update _ _ patch => Fields.Ascending patch
  | _ => True

theorem perform_numbered {session : Session} (keeps : session.engine.KeepsVersions name version entity)
    {operation : Operation} (proper : operation.Proper)
    (before : StoresNumbered name version past session.state.stores) :
    StoresNumbered name version (session.written operation ++ past) (session.perform operation).state.stores := by
  cases operation with
  | create other data =>
      unfold Session.written Session.perform
      cases ran : session.engine.create other data session.state with
      | mk result t =>
          obtain ⟨still, unwritten⟩ | ⟨record, violations, rfl, created⟩ := Engine.create_cases ran
          · simp only [ran, Engine.writtenByCreate_unwritten unwritten]
            exact still.stores ▸ before
          · obtain ⟨id, named, numbered⟩ := create_numbered keeps created before
            simp only [ran, Engine.writtenByCreate, named]
            exact numbered
  | update other id patch =>
      unfold Session.written Session.perform
      cases ran : session.engine.update other id patch session.state with
      | mk result t =>
          obtain ⟨still, unwritten⟩ | ⟨record, violations, rfl, updated⟩ := Engine.update_cases ran
          · simp only [ran, Engine.writtenByUpdate_unwritten unwritten]
            exact still.stores ▸ before
          · simp only [ran, Engine.writtenByUpdate]
            exact update_numbered keeps _ _ _ _ _ _ _ _ proper updated before
  | run other input request => exact Engine.run_extends (update_numbered keeps) other input request before
  | delete other id => exact delete_numbered rfl before
  | clear other => exact clear_numbered rfl before
  | inContext context => exact before

theorem keepsVersions_perform {session : Session} (keeps : session.engine.KeepsVersions name version entity)
    (operation : Operation) : (session.perform operation).engine.KeepsVersions name version entity := by
  obtain ⟨enforced, declared, versions⟩ := keeps
  cases operation <;> exact ⟨enforced, declared, versions⟩

-- From an empty store, whatever is asked of an engine: the version of each stored record is the one after the
-- updates that it had since it was created last, a direct update that claims an older one is refused as a
-- conflict, and two updates that claimed the same one have a create between them.
theorem versions_count_updates {session : Session} {operations : List Operation}
    (keeps : session.engine.KeepsVersions name version entity)
    (proper : ∀ operation ∈ operations, operation.Proper)
    (empty : ∀ store, Fields.get? session.state.stores name = some store → store = {}) :
    let last := session.performAll operations
    let history := session.history operations
    (∀ store id record, Fields.get? last.state.stores name = some store → store.shelf.get? id = some record →
      .created name id ∈ history ∧
      Record.field record version = Write.versionAfter (updatesSince name id history) ∧
      ∀ patch (claimed : Int), Fields.get? patch version = some (.integer claimed) →
        claimed < updatesSince name id history + 1 → claimed < 2 ^ 53 →
        last.engine.update name id patch last.state =
          (.ok (.rejected (.versionConflict (.integer claimed) (Record.field record version)) []), last.state)) ∧
    ∀ id later patch between previous earlier (claimed : Int),
      history = later ++ .updated name id patch :: between ++ .updated name id previous :: earlier →
      Fields.get? patch version = some (.integer claimed) →
      Fields.get? previous version = some (.integer claimed) → claimed < 2 ^ 53 → .created name id ∈ between := by
  intro last history
  have start : StoresNumbered name version [] session.state.stores := by
    refine ⟨.nil, fun store opened => ?_⟩
    rw [empty store opened]
    exact ⟨rfl, .nil, fun _ _ => nofun⟩
  have ended : last.engine.KeepsVersions name version entity ∧
      StoresNumbered name version (history ++ []) last.state.stores :=
    Session.performAll_extends
      (P := fun session past => session.engine.KeepsVersions name version entity ∧
        StoresNumbered name version past session.state.stores)
      (fun _ _ operation member ⟨keeps, before⟩ =>
        ⟨keepsVersions_perform keeps operation, perform_numbered keeps (proper operation member) before⟩)
      ⟨keeps, start⟩
  rw [List.append_nil] at ended
  obtain ⟨keeps, claims, numbered⟩ := ended
  refine ⟨fun store id record opened found => ?_, fun id later patch between previous earlier claimed parted => ?_⟩
  · obtain ⟨serving, _, records⟩ := numbered store opened
    obtain ⟨created, number⟩ := records id record found
    refine ⟨created, number, fun patch claimed claim older small => ?_⟩
    refine Engine.update_stale keeps opened (Store.get?_of_serving serving found) claim ?_
    rw [number, Write.integer_looselyEquals_versionAfter small]
    exact decide_eq_false older.ne
  · intro claim before small
    refine Classical.byContradiction fun kept => ?_
    rw [parted] at claims
    have first := claims.met small before
    rw [List.append_assoc, List.cons_append] at claims
    have second := claims.met small claim
    have grown : updatesSince name id (.updated name id previous :: earlier) ≤ _ := updatesSince_mono kept
    rw [updatesSince_updated] at grown
    omega

-- The second update that claims the first version is refused, and the command updates once more.
theorem document_versions :
    let document : Ir.Entity := ⟨"Document", none, [], [], [], [], [], [], some "version", none, []⟩
    let retitle : Ir.Command :=
      ⟨"retitle", none, some "Document", [], [], [], [⟨.mutate, some "title", .literal (.string "new")⟩], [], none⟩
    let engine : Engine :=
      { ir := { version := "1.0", provenance := ⟨"", "", "", "", ""⟩, entities := [document], commands := [retitle] }
        around := ⟨fun _ => 0, fun _ => "fresh"⟩ }
    let session : Session := ⟨engine, { stores := [("Document", {})] }⟩
    let operations : List Operation := [
      .create "Document" [("id", .string "d")],
      .update "Document" "d" [("version", .integer 1)],
      .update "Document" "d" [("version", .integer 1)],
      .run "retitle" [] { id := some "d" }]
    let last := session.performAll operations
    engine.KeepsVersions "Document" "version" document ∧ (∀ operation ∈ operations, operation.Proper) ∧
    (∀ store, Fields.get? session.state.stores "Document" = some store → store = {}) ∧
    updatesSince "Document" "d" (session.history operations) = 2 ∧
    ∃ store record, Fields.get? last.state.stores "Document" = some store ∧ store.shelf.get? "d" = some record ∧
      Record.field record "version" = .integer 3 := by
  intro document retitle engine session operations last
  have keeps : engine.KeepsVersions "Document" "version" document := ⟨rfl, rfl, rfl, by decide, nofun⟩
  have proper : ∀ operation ∈ operations, operation.Proper := by
    intro operation member
    simp only [operations, List.mem_cons, List.not_mem_nil, or_false] at member
    rcases member with rfl | rfl | rfl | rfl
    · trivial
    · exact List.pairwise_singleton _ _
    · exact List.pairwise_singleton _ _
    · trivial
  have empty : ∀ store, Fields.get? session.state.stores "Document" = some store → store = {} := by
    intro store opened
    cases opened
    rfl
  have count : updatesSince "Document" "d" (session.history operations) = 2 := by decide +kernel
  have stored : ((Fields.get? last.state.stores "Document").bind (·.shelf.get? "d")).isSome = true := by decide +kernel
  obtain ⟨record, found⟩ := Option.isSome_iff_exists.mp stored
  obtain ⟨store, opened, found⟩ := Option.bind_eq_some_iff.mp found
  obtain ⟨_, version, _⟩ := (versions_count_updates keeps proper empty).1 store "d" record opened found
  rw [count] at version
  exact ⟨keeps, proper, empty, count, store, record, opened, found, version.trans (Write.versionAfter_of_lt (by omega))⟩

end Session
end Charter
