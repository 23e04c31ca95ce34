import Charter.Engine
import Charter.Proofs.Fields
import Charter.Proofs.Step

/-!
What single transactions do to the state of an engine. Each either leaves stores and journal as they
were, or writes one store in the way that is told.
-/

namespace Charter

-- Only what was taken from the surroundings may differ.
structure EngineState.Still (before after : EngineState) : Prop where
  stores : after.stores = before.stores
  journal : after.journal = before.journal

theorem EngineState.Still.refl (state : EngineState) : state.Still state := ⟨rfl, rfl⟩

theorem EngineState.Still.trans {first second third : EngineState} (one : first.Still second)
    (two : second.Still third) : first.Still third :=
  ⟨two.stores.trans one.stores, two.journal.trans one.journal⟩

theorem EngineState.still_usage (state : EngineState) (usage : Usage) :
    state.Still { state with usage } := ⟨rfl, rfl⟩

-- The state after a record was kept under an id in the store of an entity.
def EngineState.insert (state : EngineState) (name : String) (store : Store) (id : String)
    (record : Record) : EngineState :=
  { state with stores := Fields.put state.stores name { store with shelf := store.shelf.insert id record } }

namespace Store

theorem of_permit {α : Type} {store : Store} {request : StoreRequest} {next : Unit → Reply α} {value : α}
    (replied : (store.permit request >>= next) = .ok value) : next () = .ok value := by
  cases permitted : store.permit request with
  | error _ => rw [permitted] at replied; cases replied
  | ok _ => rw [permitted] at replied; exact replied

theorem get?_shelf {store : Store} {id : String} {found : Option Record}
    (replied : store.get? id = .ok found) : store.shelf.get? id = found := by
  have given : (pure (store.shelf.get? id) : Reply _) = .ok found := of_permit replied
  exact Except.ok.inj given

theorem permit_of_serving {store : Store} (serving : store.conduct = .serving) (request : StoreRequest) :
    store.permit request = .ok () := if_neg (by rw [serving]; nofun)

theorem get?_eq_shelf {store : Store} (serving : store.conduct = .serving) (id : String) :
    store.get? id = .ok (store.shelf.get? id) := by
  unfold get?
  rw [permit_of_serving serving]
  rfl

theorem get?_of_serving {store : Store} {id : String} {record : Record} (serving : store.conduct = .serving)
    (found : store.shelf.get? id = some record) : store.get? id = .ok (some record) := by
  rw [get?_eq_shelf serving, found]

theorem all_of_answers {store : Store} (answers : store.conduct ≠ .refusing) : store.all = .ok store.shelf.all := by
  unfold all permit
  rw [if_neg answers]
  rfl

theorem all_eq_shelf {store : Store} (serving : store.conduct = .serving) : store.all = .ok store.shelf.all :=
  all_of_answers (serving ▸ nofun)

theorem update_cases {store written : Store} {id : String} {patch : Record} {answer : Option Record}
    (replied : store.update id patch = .ok (answer, written)) :
    answer = none ∧ written = store ∨
      ∃ existing, store.conduct = .serving ∧ store.shelf.get? id = some existing ∧
        answer = some (Record.patched existing patch) ∧
        written = { store with shelf := store.shelf.insert id (Record.patched existing patch) } := by
  have matched := of_permit replied
  cases conduct : store.conduct with
  | refusing | losing =>
      rw [conduct] at matched
      cases matched
      exact .inl ⟨rfl, rfl⟩
  | serving =>
      cases found : store.shelf.get? id with
      | none =>
          simp only [conduct, Shelf.update?, found] at matched
          cases matched
          exact .inl ⟨rfl, rfl⟩
      | some existing =>
          simp only [conduct, Shelf.update?, found] at matched
          cases matched
          exact .inr ⟨existing, rfl, rfl, rfl, rfl⟩

theorem update_of_serving {store : Store} {id : String} {existing : Record} (serving : store.conduct = .serving)
    (found : store.shelf.get? id = some existing) (patch : Record) :
    store.update id patch = .ok (some (Record.patched existing patch),
      { store with shelf := store.shelf.insert id (Record.patched existing patch) }) := by
  unfold update
  rw [permit_of_serving serving]
  simp only [serving, Shelf.update?, found]
  rfl

end Store

namespace Transaction
variable {α β : Type} {evaluation : Evaluation α} {s t : EngineState} {usage : Usage}

theorem evaluate_of_ok {value : α} (ran : evaluation s.usage = (.ok value, usage)) :
    Transaction.evaluate evaluation s = (.ok value, { s with usage }) := by
  simp only [Transaction.evaluate, ran]

theorem evaluate_of_error {error : EvaluationError} (ran : evaluation s.usage = (.error error, usage)) :
    Transaction.evaluate evaluation s = (.error (.evaluation error), { s with usage }) := by
  simp only [Transaction.evaluate, ran]

theorem evaluate_still {result : Except EngineError α} (ran : Transaction.evaluate evaluation s = (result, t)) :
    s.Still t := by
  cases outcome : evaluation s.usage with
  | mk answer usage =>
      cases answer with
      | error error => rw [evaluate_of_error outcome] at ran; cases ran; exact s.still_usage usage
      | ok value => rw [evaluate_of_ok outcome] at ran; cases ran; exact s.still_usage usage

/-! A transaction that begins with one of these ends there, or goes on from what it gave. -/

theorem evaluate_then {next : α → Transaction β} {result : Except EngineError β}
    (ran : (Transaction.evaluate evaluation >>= next) s = (result, t)) :
    (∃ error usage, evaluation s.usage = (.error error, usage) ∧ result = .error (.evaluation error) ∧
      t = { s with usage }) ∨
    ∃ value usage, evaluation s.usage = (.ok value, usage) ∧ next value { s with usage } = (result, t) := by
  cases outcome : evaluation s.usage with
  | mk answer usage =>
      cases answer with
      | error error =>
          rw [Step.bind_of_error (evaluate_of_error outcome)] at ran
          obtain ⟨rfl, rfl⟩ := Prod.mk.inj ran
          exact .inl ⟨error, usage, rfl, rfl, rfl⟩
      | ok value =>
          rw [Step.bind_of_ok (evaluate_of_ok outcome)] at ran
          exact .inr ⟨value, usage, rfl, ran⟩

theorem need_then {value : Option α} {error : EngineError} {next : α → Transaction β}
    {result : Except EngineError β} (ran : (need value error >>= next) s = (result, t)) :
    (t = s ∧ value = none ∧ result = .error error) ∨ ∃ found, value = some found ∧ next found s = (result, t) := by
  cases value with
  | none => cases ran; exact .inl ⟨rfl, rfl, rfl⟩
  | some found => exact .inr ⟨found, rfl, ran⟩

theorem ofReply_then {reply : Store.Reply α} {next : α → Transaction β} {result : Except EngineError β}
    (ran : (ofReply reply >>= next) s = (result, t)) :
    (t = s ∧ ∃ error, result = .error error) ∨ ∃ value, reply = .ok value ∧ next value s = (result, t) := by
  cases reply with
  | error request => cases ran; exact .inl ⟨rfl, _, rfl⟩
  | ok value => exact .inr ⟨value, rfl, ran⟩

-- Every request begins with the store of the entity and its reply.
theorem request_then {name : String} {ask : Store → Store.Reply α} {next : Store → α → Transaction β}
    {result : Except EngineError β}
    (ran : (do let store ← store name; let reply ← ofReply (ask store); next store reply) s = (result, t)) :
    (t = s ∧ ∃ error, result = .error error) ∨
      ∃ found reply, Fields.get? s.stores name = some found ∧ ask found = .ok reply ∧
        next found reply s = (result, t) := by
  obtain ⟨same, _, failed⟩ | ⟨found, opened, asked⟩ := need_then (show (need _ _ >>= _) s = _ from ran)
  · exact .inl ⟨same, _, failed⟩
  obtain failed | ⟨reply, replied, went⟩ := ofReply_then asked
  · exact .inl failed
  · exact .inr ⟨found, reply, opened, replied, went⟩

theorem store_of {name : String} {store : Store} (opened : Fields.get? s.stores name = some store) :
    Transaction.store name s = (.ok store, s) := by
  simp only [Transaction.store, opened]
  rfl

theorem entity_of {engine : Engine} {name : String} {entity : Ir.Entity}
    (declared : engine.ir.entity? name = some entity) : engine.entity name s = (.ok entity, s) := by
  simp only [Engine.entity, declared]
  rfl

theorem record?_of {name id : String} {store : Store} {found : Option Record}
    (opened : Fields.get? s.stores name = some store) (replied : store.get? id = .ok found) :
    record? name id s = (.ok found, s) := by
  unfold record?
  rw [Step.bind_of_ok (store_of opened), replied]
  rfl

theorem records_of {name : String} {store : Store} {all : List Record}
    (opened : Fields.get? s.stores name = some store) (replied : store.all = .ok all) :
    records name s = (.ok all, s) := by
  unfold records
  rw [Step.bind_of_ok (store_of opened), replied]
  rfl

theorem record?_then {name id : String} {next : Option Record → Transaction β} {result : Except EngineError β}
    (ran : (record? name id >>= next) s = (result, t)) :
    (t = s ∧ ∃ error, result = .error error) ∨
      ∃ store found, Fields.get? s.stores name = some store ∧ store.get? id = .ok found ∧
        next found s = (result, t) := by
  have asked : (do let store ← store name; let found ← ofReply (store.get? id); next found) s = (result, t) := by
    rw [← ran]
    simp only [record?, bind_assoc]
  exact request_then asked

theorem updateRecord_cases {name id : String} {patch : Record} {result : Except EngineError (Option Record)}
    (ran : updateRecord name id patch s = (result, t)) :
    (t = s ∧ ∀ record, result ≠ .ok (some record)) ∨
      ∃ store existing, Fields.get? s.stores name = some store ∧ store.conduct = .serving ∧
        store.shelf.get? id = some existing ∧ result = .ok (some (Record.patched existing patch)) ∧
        t = s.insert name store id (Record.patched existing patch) := by
  obtain ⟨same, error, rfl⟩ | ⟨store, ⟨answer, written⟩, present, replied, put⟩ := request_then ran
  · exact .inl ⟨same, fun _ => nofun⟩
  cases put
  obtain ⟨rfl, rfl⟩ | ⟨existing, serving, found, rfl, rfl⟩ := Store.update_cases replied
  · refine .inl ⟨?_, fun _ => nofun⟩
    rw [Fields.put_of_get? present]
  · exact .inr ⟨store, existing, present, serving, found, rfl, rfl⟩

theorem updateRecord_of {name id : String} {store : Store} {existing : Record}
    (opened : Fields.get? s.stores name = some store) (serving : store.conduct = .serving)
    (found : store.shelf.get? id = some existing) (patch : Record) :
    updateRecord name id patch s = (.ok (some (Record.patched existing patch)),
      s.insert name store id (Record.patched existing patch)) := by
  unfold updateRecord
  rw [Step.bind_of_ok (store_of opened), Store.update_of_serving serving found]
  rfl

theorem insertRecord_cases {around : Surroundings} {name : String} {record : Record}
    {result : Except EngineError Record} (ran : insertRecord around name record s = (result, t)) :
    (t = s ∧ ∃ error, result = .error error) ∨
      ∃ store id kept usage, Fields.get? s.stores name = some store ∧ store.permit .create = .ok () ∧
        Record.identified around record s.usage = ((id, kept), usage) ∧ result = .ok kept ∧
        t = EngineState.insert { s with usage } name store id kept := by
  obtain failed | ⟨store, _, present, permitted, put⟩ := request_then ran
  · exact .inl failed
  cases put
  exact .inr ⟨store, _, _, _, present, permitted, rfl, rfl, rfl⟩

theorem insertRecord_of (around : Surroundings) {name : String} {store : Store}
    (opened : Fields.get? s.stores name = some store) (permitted : store.permit .create = .ok ()) (record : Record) :
    ∃ kept t, insertRecord around name record s = (.ok kept, t) := by
  unfold insertRecord
  rw [Step.bind_of_ok (store_of opened), permitted]
  exact ⟨_, _, rfl⟩

theorem deleteRecord_cases {name id : String} {result : Except EngineError Bool}
    (ran : deleteRecord name id s = (result, t)) :
    t = s ∨ ∃ store, Fields.get? s.stores name = some store ∧
      t = { s with stores := Fields.put s.stores name { store with shelf := store.shelf.erase id } } := by
  obtain ⟨same, _⟩ | ⟨store, ⟨found, written⟩, present, replied, put⟩ := request_then ran
  · exact .inl same
  cases put
  refine .inr ⟨store, present, ?_⟩
  have ended := Store.of_permit replied
  cases ended
  rfl

theorem clearRecords_cases {name : String} {result : Except EngineError Unit}
    (ran : clearRecords name s = (result, t)) :
    t = s ∨ ∃ store, Fields.get? s.stores name = some store ∧
      t = { s with stores := Fields.put s.stores name { store with shelf := {} } } := by
  obtain ⟨same, _⟩ | ⟨store, written, present, replied, put⟩ := request_then ran
  · exact .inl same
  cases put
  refine .inr ⟨store, present, ?_⟩
  have ended := Store.of_permit replied
  cases ended
  rfl

end Transaction
end Charter
