import Charter.Engine.Relationship
import Charter.Proofs.Session
import Charter.Proofs.Shelf

/-!
Relationships that are followed from both sides. Records that belong to an owner are found by their key in one
direction, and the owner by its id in the other; in stores that keep every record under its own id the two
directions agree.
-/

namespace Charter
open Engine

-- A store in memory serves every request, and keeps each record under its own id.
structure Store.InMemory (store : Store) : Prop where
  serving : store.conduct = .serving
  keyed : store.shelf.Keyed

-- A store in memory as an engine is opened with: it is empty, or filled with records that were given.
def Store.Opened (store : Store) : Prop :=
  ∃ around records usage, store = { shelf := (Shelf.fill around records usage).1 }

theorem Store.Opened.inMemory {store : Store} (opened : store.Opened) : store.InMemory := by
  obtain ⟨around, records, usage, rfl⟩ := opened
  exact ⟨rfl, .fill around records usage⟩

def StoresInMemory (stores : Fields Store) : Prop :=
  ∀ name store, Fields.get? stores name = some store → store.InMemory

section Stores
variable {engine : Engine} {stores : Fields Store} {store : Store} {name id : String} {s t : EngineState}

theorem StoresInMemory.put (inMemory : StoresInMemory stores) (fresh : store.InMemory) :
    StoresInMemory (Fields.put stores name store) := by
  intro other found opened
  rw [Fields.get?_put] at opened
  split at opened
  · cases opened
    exact fresh
  · exact inMemory other found opened

theorem create_inMemory {data record : Record} {violations : List ConstraintOutcome}
    (created : engine.Created name data s record violations t) (inMemory : StoresInMemory s.stores) :
    StoresInMemory t.stores := by
  cases created with
  | intro _ opened _ _ _ _ identified =>
      obtain ⟨serving, keyed⟩ := inMemory _ _ opened
      exact inMemory.put ⟨serving, keyed.insert (Record.id?_identified identified)⟩

theorem update_inMemory : engine.UpdatesKeep StoresInMemory := by
  intro name id patch before record violations after updated inMemory
  cases updated with
  | intro _ opened serving found _ => exact inMemory.put ⟨serving, (inMemory _ _ opened).keyed.patched found⟩

theorem delete_inMemory {result : Except EngineError Bool}
    (ran : Transaction.deleteRecord name id s = (result, t)) (inMemory : StoresInMemory s.stores) :
    StoresInMemory t.stores := by
  obtain rfl | ⟨store, opened, rfl⟩ := Transaction.deleteRecord_cases ran
  · exact inMemory
  · obtain ⟨serving, keyed⟩ := inMemory _ _ opened
    exact inMemory.put ⟨serving, keyed.erase id⟩

theorem clear_inMemory {result : Except EngineError Unit}
    (ran : Transaction.clearRecords name s = (result, t)) (inMemory : StoresInMemory s.stores) :
    StoresInMemory t.stores := by
  obtain rfl | ⟨store, opened, rfl⟩ := Transaction.clearRecords_cases ran
  · exact inMemory
  · exact inMemory.put ⟨(inMemory _ _ opened).serving, .empty⟩

theorem perform_inMemory (session : Session) (operation : Operation)
    (inMemory : StoresInMemory session.state.stores) :
    StoresInMemory (session.perform operation).state.stores := by
  cases operation with
  | create name data =>
      obtain ⟨still, _⟩ | ⟨_, _, _, created⟩ := create_cases (rfl : session.engine.create name data session.state = _)
      · exact still.stores ▸ inMemory
      · exact create_inMemory created inMemory
  | update name id patch => exact update_keeps update_inMemory rfl inMemory
  | run name input request => exact run_keeps update_inMemory name input request inMemory
  | delete name id => exact delete_inMemory rfl inMemory
  | clear name => exact clear_inMemory rfl inMemory
  | inContext context => exact inMemory

end Stores

theorem Session.perform_ir (session : Session) (operation : Operation) :
    (session.perform operation).engine.ir = session.engine.ir := by
  cases operation <;> rfl

-- An owner has the records of another entity that belong to it by the same key, and no records join the two.
structure Ir.Paired (ir : Ir) (owner has : String) (many : Relationship) (member belongs : String)
    (one : Relationship) : Prop where
  owning : ∃ entity, ir.entity? owner = some entity ∧ entity.relationship? has = some many
  belonging : ∃ entity, ir.entity? member = some entity ∧ entity.relationship? belongs = some one
  hasMany : many.kind = .hasMany
  direct : many.through = none
  there : many.target = member
  belongsTo : one.kind = .belongsTo ∨ one.kind = .ref
  back : one.target = owner
  key : many.ownerKey owner = one.ownKey

-- A record is stored for an entity, and has an id.
def EngineState.Keeps (state : EngineState) (name id : String) (record : Record) : Prop :=
  ∃ store, Fields.get? state.stores name = some store ∧ record ∈ store.shelf.all ∧ Record.id? record = some id

section Related
variable {engine : Engine} {state : EngineState} {name id property : String} {entity : Ir.Entity}
  {relationship : Ir.Relationship} {record : Record} {store target : Store}

theorem related_of (declared : engine.ir.entity? name = some entity)
    (known : entity.relationship? property = some relationship)
    (opened : Fields.get? state.stores name = some store) (serving : store.conduct = .serving)
    (stored : store.shelf.get? id = some record) :
    engine.related name id property state =
      (match relationship.kind with
        | .belongsTo | .ref => owner relationship record
        | .hasMany => owned name id relationship
        | .hasOne => do return (← owned name id relationship).take 1) state := by
  have asked := Transaction.record?_of opened (Store.get?_of_serving serving stored)
  have ready : engine.entity name state = (.ok entity, state) := by
    unfold Engine.entity
    rw [declared]
    rfl
  unfold related
  rw [Step.bind_of_ok ready, known]
  exact Step.bind_of_ok asked

-- The records that refer to an owner, in the order of their store.
theorem related_hasMany (declared : engine.ir.entity? name = some entity)
    (known : entity.relationship? property = some relationship) (hasMany : relationship.kind = .hasMany)
    (direct : relationship.through = none) (opened : Fields.get? state.stores name = some store)
    (serving : store.conduct = .serving) (stored : store.shelf.get? id = some record)
    (there : Fields.get? state.stores relationship.target = some target) (answers : target.conduct = .serving) :
    engine.related name id property state =
      (.ok (target.shelf.all.filter (Record.refersTo · (relationship.ownerKey name) id)), state) := by
  rw [related_of declared known opened serving stored, hasMany]
  unfold owned
  rw [direct]
  exact Step.bind_of_ok (Transaction.records_of there (Store.all_eq_shelf answers))

-- The record under the id that a record holds, if it holds one and there is one.
theorem related_belongsTo (declared : engine.ir.entity? name = some entity)
    (known : entity.relationship? property = some relationship)
    (belongsTo : relationship.kind = .belongsTo ∨ relationship.kind = .ref)
    (opened : Fields.get? state.stores name = some store)
    (serving : store.conduct = .serving) (stored : store.shelf.get? id = some record)
    (there : Fields.get? state.stores relationship.target = some target) (answers : target.conduct = .serving) :
    engine.related name id property state =
      (.ok (((Record.reference? record relationship.ownKey).bind target.shelf.get?).toList), state) := by
  have found : owner relationship record state =
      (.ok (((Record.reference? record relationship.ownKey).bind target.shelf.get?).toList), state) := by
    unfold owner
    cases Record.reference? record relationship.ownKey with
    | none => rfl
    | some key =>
        have asked := Transaction.record?_of there (Store.get?_eq_shelf answers key)
        refine (Step.bind_of_ok asked).trans ?_
        exact congrArg (fun records => (Except.ok records, state)) (List.append_nil _)
  rw [related_of declared known opened serving stored]
  rcases belongsTo with kind | kind <;> rw [kind] <;> exact found

-- Of two records under their own ids, one refers to the other exactly if its owner is found to be the other.
theorem refersTo_iff_owner {shelf : Shelf} (keyed : shelf.Keyed) {holder : Record} {field : String}
    (stored : shelf.get? id = some record) :
    Record.refersTo holder field id = true ↔
      ((Record.reference? holder field).bind shelf.get?).toList = [record] := by
  unfold Record.refersTo
  rw [beq_iff_eq, Option.toList_eq_singleton_iff, Option.bind_eq_some_iff]
  constructor
  · intro refers
    exact ⟨id, refers, stored⟩
  · rintro ⟨other, refers, found⟩
    have same : some other = some id := (keyed.id?_of_get? found).symm.trans (keyed.id?_of_get? stored)
    exact refers.trans same

end Related

-- Whatever was asked of an engine with stores in memory, the two directions of a relationship agree: a stored
-- record is among those that an owner has exactly if the owner is the one that it belongs to. Those that an owner
-- has are listed once each, in the order of their store.
theorem relationships_inverse {session : Session} {operations : List Operation}
    {owner has member belongs i j : String} {many one : Ir.Relationship} {a b : Record}
    (opened : ∀ name store, Fields.get? session.state.stores name = some store → store.Opened)
    (paired : session.engine.ir.Paired owner has many member belongs one)
    (keepsOwner : (session.performAll operations).state.Keeps owner i a)
    (keepsMember : (session.performAll operations).state.Keeps member j b) :
    let last := session.performAll operations
    ∃ members owners all,
      last.engine.related owner i has last.state = (.ok members, last.state) ∧
      last.engine.related member j belongs last.state = (.ok owners, last.state) ∧
      Transaction.records member last.state = (.ok all, last.state) ∧
      (b ∈ members ↔ owners = [a]) ∧ members.Sublist all ∧ members.Nodup := by
  intro last
  have ended : last.engine.ir = session.engine.ir ∧ StoresInMemory last.state.stores :=
    Session.performAll_keeps
      (P := fun reached => reached.engine.ir = session.engine.ir ∧ StoresInMemory reached.state.stores)
      (fun reached operation ⟨same, inMemory⟩ =>
        ⟨(reached.perform_ir operation).trans same, perform_inMemory reached operation inMemory⟩)
      operations ⟨rfl, fun name store stood => (opened name store stood).inMemory⟩
  obtain ⟨same, inMemory⟩ := ended
  rw [← same] at paired
  obtain ⟨⟨ownerEntity, declared, known⟩, ⟨memberEntity, declared', known'⟩, hasMany, direct, rfl, belongsTo, rfl,
    key⟩ := paired
  obtain ⟨ownerStore, openedOwner, memberOwner, namedOwner⟩ := keepsOwner
  obtain ⟨memberStore, openedMember, memberMember, namedMember⟩ := keepsMember
  obtain ⟨serving, keyed⟩ := inMemory _ _ openedOwner
  obtain ⟨serving', keyed'⟩ := inMemory _ _ openedMember
  have storedOwner := keyed.get?_of_mem_all memberOwner namedOwner
  have storedMember := keyed'.get?_of_mem_all memberMember namedMember
  have members := related_hasMany declared known hasMany direct openedOwner serving storedOwner openedMember serving'
  have owners := related_belongsTo declared' known' belongsTo openedMember serving' storedMember openedOwner serving
  refine ⟨_, _, _, members, owners, Transaction.records_of openedMember (Store.all_eq_shelf serving'), ?_,
    List.filter_sublist, keyed'.nodup_all.filter _⟩
  rw [List.mem_filter, key, refersTo_iff_owner keyed storedOwner]
  exact and_iff_right memberMember

-- The key of a book is a text and the id of its author a number. The other book refers to nobody, and the first
-- author under the id was written over.
theorem author_of_listed_book :
    let books : Ir.Relationship := ⟨"books", .hasMany, "Book", none, none⟩
    let author : Ir.Relationship := ⟨"author", .belongsTo, "Author", none, none⟩
    let engine : Engine :=
      { ir := {
          version := "1.0"
          provenance := ⟨"", "", "", "", ""⟩
          entities := [⟨"Author", none, [], [], [books], [], [], [], none, none, []⟩,
            ⟨"Book", none, [], [], [author], [], [], [], none, none, []⟩] }
        around := ⟨fun _ => 0, fun _ => "fresh"⟩ }
    let session : Session := ⟨engine, { stores := [("Author", {}), ("Book", {})] }⟩
    let operations : List Operation := [
      .create "Author" [("id", .string "7")], .create "Book" [("authorId", .boolean true), ("id", .string "d")],
      .create "Book" [("authorId", .string "7"), ("id", .string "b")], .create "Author" [("id", .integer 7)]]
    let last := session.performAll operations
    let a : Record := [("id", .integer 7)]
    let b : Record := [("authorId", .string "7"), ("id", .string "b")]
    (∀ name store, Fields.get? session.state.stores name = some store → store.Opened) ∧
    session.engine.ir.Paired "Author" "books" books "Book" "author" author ∧
    last.state.Keeps "Author" "7" a ∧ last.state.Keeps "Book" "b" b ∧
    ∃ members, last.engine.related "Author" "7" "books" last.state = (.ok members, last.state) ∧ b ∈ members ∧
      members.Nodup := by
  intro books author engine session operations last a b
  have opened : ∀ name store, Fields.get? session.state.stores name = some store → store.Opened := by
    intro name store stood
    have empty : store = {} := by
      rcases List.mem_cons.mp (Fields.mem_of_get? stood) with first | rest
      · exact congrArg Prod.snd first
      · exact congrArg Prod.snd (List.mem_singleton.mp rest)
    exact ⟨engine.around, [], {}, empty⟩
  have paired : session.engine.ir.Paired "Author" "books" books "Book" "author" author :=
    ⟨⟨_, rfl, rfl⟩, ⟨_, rfl, rfl⟩, rfl, rfl, rfl, .inl rfl, rfl, by decide +kernel⟩
  have keepsOwner : last.state.Keeps "Author" "7" a := ⟨_, rfl, List.mem_cons_self, by decide +kernel⟩
  have keepsMember : last.state.Keeps "Book" "b" b := ⟨_, rfl, List.mem_cons_of_mem _ List.mem_cons_self, rfl⟩
  obtain ⟨members, owners, _, has, belongs, _, agree, _, once⟩ :=
    relationships_inverse opened paired keepsOwner keepsMember
  have owned : last.engine.related "Book" "b" "author" last.state = (.ok [a], last.state) := rfl
  cases belongs.symm.trans owned
  exact ⟨opened, paired, keepsOwner, keepsMember, members, has, agree.mpr rfl, once⟩

end Charter
