import Charter.Proofs.Place

/-!
What a create does to the records that are there. Under an id that is free the new record comes behind all others,
and none of them changes. Under the id of a record that is stored it takes the place of that record, whatever the
versions and the transitions of the entity ask of an update.
-/

namespace Charter.Engine
open Stores
variable {engine : Engine} {name : String} {data record : Record} {violations : List ConstraintOutcome}
  {s t : EngineState}

-- A create changes one place: it fills the place, or rewrites it.
theorem Created.placed (created : engine.Created name data s record violations t) :
    ∃ id, Record.id? record = some id ∧ held? t.stores name id = some record ∧
      (held? s.stores name id = none → Extended s.stores t.stores name id record) ∧
      ∀ existing, held? s.stores name id = some existing → Rewritten s.stores t.stores name id existing record := by
  cases created with
  | @intro entity store planned _ id _ _ _ _ _ opened permitted _ _ _ identified =>
      have answers : store.conduct ≠ .refusing := fun refusing => by
        rw [Store.permit, if_pos refusing] at permitted
        cases permitted
      have held : held? s.stores name id = store.shelf.get? id := held?_of opened
      refine ⟨id, Record.id?_identified identified, ?_, fun free => ?_, fun existing found => ?_⟩
      · exact (held?_of get?_put_self).trans ((Fields.get?_put ..).trans (if_pos rfl))
      · exact extended_put opened answers (held.symm.trans free) record
      · exact rewritten_put opened answers (held.symm.trans found) record

-- A create destroys nothing but a record of its own id.
theorem creates_framed (ran : engine.create name data s = (.ok (.written record violations), t)) :
    ∃ id, Record.id? record = some id ∧ held? t.stores name id = some record ∧
      (held? s.stores name id = none →
        (∀ owner other old, held? s.stores owner other = some old → held? t.stores owner other = some old) ∧
        ∃ all, Transaction.records name s = (.ok all, s) ∧ Transaction.records name t = (.ok (all ++ [record]), t)) ∧
      ∀ existing, held? s.stores name id = some existing →
        (∀ owner other, (owner, other) ≠ (name, id) → held? t.stores owner other = held? s.stores owner other) ∧
        ∃ front back, Transaction.records name s = (.ok (front ++ existing :: back), s) ∧
          Transaction.records name t = (.ok (front ++ record :: back), t) := by
  obtain ⟨id, named, kept, fills, rewrites⟩ := (created_of_written ran).placed
  refine ⟨id, named, kept, fun free => ⟨fun owner other old found => ?_, (fills free).records⟩,
    fun existing found => ?_⟩
  · have apart : (owner, other) ≠ (name, id) := fun same => by
      cases same
      cases free.symm.trans found
    exact ((fills free).held?_other apart).trans found
  · have rewritten := rewrites existing found
    exact ⟨fun _ _ => rewritten.held?_other, rewritten.records⟩

-- Beside a note that is stored comes another one.
theorem second_note_created :
    let note : Ir.Entity := ⟨"Note", none, [], [], [], [], [], [], none, none, []⟩
    let engine : Engine :=
      { ir := { version := "1.0", provenance := ⟨"", "", "", "", ""⟩, entities := [note] }
        around := ⟨fun _ => 0, fun _ => "fresh"⟩ }
    let first : Record := [("id", .string "a"), ("text", .string "one")]
    let second : Record := [("id", .string "fresh"), ("text", .string "two")]
    let store : Store := { shelf := ⟨[("a", first)]⟩ }
    let state : EngineState := { stores := [("Note", store)] }
    let last := (engine.create "Note" [("text", .string "two")] state).2
    engine.create "Note" [("text", .string "two")] state = (.ok (.written second []), last) ∧
      held? last.stores "Note" "a" = some first ∧
      Transaction.records "Note" state = (.ok [first], state) ∧
      Transaction.records "Note" last = (.ok [first, second], last) := by
  intro note engine first second store state last
  have ran : engine.create "Note" [("text", .string "two")] state = (.ok (.written second []), last) := by
    subst last state store second first engine note
    rfl
  obtain ⟨id, named, _, fills, _⟩ := creates_framed ran
  cases named
  obtain ⟨kept, all, before, after⟩ := fills rfl
  have alone : Transaction.records "Note" state = (.ok [first], state) := rfl
  cases before.symm.trans alone
  exact ⟨ran, kept "Note" "a" first rfl, alone, after⟩

-- A task that is done may not be opened by an update. A create of its id opens it, and the task that was done is gone.
theorem done_task_created_again :
    let rule : Ir.Transition := ⟨"status", .string "done", [.string "archived"]⟩
    let task : Ir.Entity := ⟨"Task", none, [], [], [], [], [], [], none, none, [rule]⟩
    let engine : Engine :=
      { ir := { version := "1.0", provenance := ⟨"", "", "", "", ""⟩, entities := [task] }
        around := ⟨fun _ => 0, fun _ => "fresh"⟩ }
    let done : Record := [("id", .string "t"), ("status", .string "done")]
    let reopened : Record := [("id", .string "t"), ("status", .string "open")]
    let session := Session.perform ⟨engine, { stores := [("Task", {})] }⟩ (.create "Task" done)
    let last := (engine.create "Task" reopened session.state).2
    Transaction.records "Task" session.state = (.ok [done], session.state) ∧
      (engine.update "Task" "t" [("status", .string "open")] session.state).1 =
        .ok (.rejected (.invalidTransition "status" (.string "done") (.string "open") [.string "archived"]) []) ∧
      engine.create "Task" reopened session.state = (.ok (.written reopened []), last) ∧
      held? session.state.stores "Task" "t" = some done ∧ held? last.stores "Task" "t" = some reopened ∧
      done ≠ reopened ∧ Transaction.records "Task" last = (.ok [reopened], last) :=
  ⟨rfl, rfl, rfl, rfl, rfl, by simp, rfl⟩

end Charter.Engine
