import Charter.Proofs.Creation
import Charter.Proofs.RefreshedScope
import Charter.Proofs.Steadiness
import Charter.Proofs.StoredConditions

/-!
The record that is judged and the one that is stored. The constraints of an entity are judged on a record before the
store gets it; the store may still give it an id, or hold to the id that it had. Nothing else is changed behind the
judgement, so the stored record passes it again, unless the id was changed and a constraint reads it.
-/

namespace Charter
open Engine Stores

-- A write that is asked of an engine.
inductive WriteRequest where
  | create (data : Record)
  | update (id : String) (patch : Record)

def Engine.write (engine : Engine) (name : String) : WriteRequest → Transaction WriteOutcome
  | .create data => engine.create name data
  | .update id patch => engine.update name id patch

-- A request comes to the record that is judged: to the data over the defaults with the first version, or to what is
-- stored under the patch with the next version.
inductive Engine.Prospect (engine : Engine) (entity : Ir.Entity) (name : String) (s : EngineState) :
    WriteRequest → Record → Usage → Prop where
  | create {data judged : Record} {usage : Usage}
      (completed : engine.firstVersion entity (Fields.overlay entity.defaults data) s.usage = (.ok judged, usage)) :
      Prospect engine entity name s (.create data) judged usage
  | update {id : String} {patch existing plan : Record} {usage : Usage}
      (found : Transaction.record? name id s = (.ok (some existing), s))
      (planned : engine.nextVersion entity existing patch s.usage = (.ok (.ok plan), usage)) :
      Prospect engine entity name s (.update id patch) (Fields.overlay existing plan) usage

-- The record that is judged has its id already: a new one has any, one that is updated has still the stored one.
def WriteRequest.KeepsId (name : String) (s : EngineState) (judged : Record) : WriteRequest → Prop
  | .create _ => ∃ id, Record.id? judged = some id
  | .update id _ => ∀ existing, Transaction.record? name id s = (.ok (some existing), s) →
      Fields.get? judged "id" = Fields.get? existing "id"

-- All but the id of a record: other names, and members of the record.
def View.butId : View := fun root keys =>
  root ∉ ["self", "this", "id"] ∨ (root = "self" ∨ root = "this") ∧ ∃ key rest, key ≠ "id" ∧ keys = key :: rest

namespace Ir.Constraint

-- The condition asks neither the clock nor for fresh ids.
def AsksNothing (constraint : Constraint) : Prop := Within False (fun _ _ => True) constraint.expression

-- Nor does it read the id of the record.
def PassesOverId (constraint : Constraint) : Prop := Within False View.butId constraint.expression

end Ir.Constraint

section Scope
variable {pairing : Pairing} {context : RequestContext} {record other : Record}

theorem shown_butId (same : record.SameButId other) :
    Shown pairing View.butId (context.scope (some (Record.values record)))
      (context.scope (some (Record.values other))) := by
  rintro root keys (shown | ⟨whole, key, rest, notId, rfl⟩)
  · obtain ⟨notSelf, notThis, notId⟩ : root ≠ "self" ∧ root ≠ "this" ∧ root ≠ "id" := by simpa using shown
    by_cases reserved : root = "user" ∨ root = "context"
    · rw [RequestContext.resolve_scope_context reserved _ (Record.values other)]
      exact ((scope_data context other).resolve root pairing).follow keys
    · have plain : root ∉ ["self", "this", "user", "context"] := by simpa [notSelf, notThis] using reserved
      exact (field_alike same plain notId).follow keys
  · exact (member_alike same whole notId).follow rest

end Scope

namespace Engine
variable {engine : Engine} {entity : Ir.Entity} {name id : String} {data patch judged record : Record}
  {violations : List ConstraintOutcome} {usage last : Usage} {s t : EngineState}

-- What was judged clear is checked clear, by whatever shows the same to all constraints.
theorem check_of_judged (declared : engine.ir.entity? name = some entity)
    (found : engine.violations entity judged usage = (.ok violations, last))
    (clear : violations.any (·.isBlocking) = false)
    (shown : ∀ constraint ∈ entity.constraints, ∃ view, Within False view constraint.expression ∧
      ∀ pairing, Shown pairing view (engine.context.scope (some (Record.values judged)))
        (engine.context.scope (some (Record.values record)))) (u : EngineState) :
    ∃ outcomes after, engine.check name record u = (.ok outcomes, after) ∧ outcomes.any (·.isBlocking) = false := by
  have good : ∀ constraint ∈ entity.constraints, ∀ before, ∃ outcome after,
      engine.judge (engine.context.scope (some (Record.values record))) entity.scope [] constraint before =
        (.ok outcome, after) ∧ outcome.isBlocking = false := by
    intro constraint member before
    obtain ⟨view, reads, shown⟩ := shown constraint member
    obtain ⟨_, value, _, evaluated, truthy⟩ := evaluated_of_judged found clear member
    obtain ⟨value', last', ran, truth⟩ := truth_of_shown reads shown before evaluated
    obtain ⟨outcome, after, judging, _⟩ := judge_of_evaluated ran
    refine ⟨outcome, after, judging, (judge_admits judging).mpr ⟨value', last', ran, fun blocks => .inl ?_⟩⟩
    exact truth.trans (truthy blocks)
  obtain ⟨outcomes, after, judging, each⟩ := Step.each_of_good good u.usage
  refine ⟨outcomes, { u with usage := after }, ?_, List.any_eq_false.mpr fun outcome member => ?_⟩
  · exact (Step.bind_of_ok (Transaction.entity_of declared)).trans (Transaction.evaluate_of_ok judging)
  · simp [each outcome member]

-- An accepted write judged one record and stored another one, or the same.
structure Judged (engine : Engine) (entity : Ir.Entity) (name : String) (request : WriteRequest)
    (judged record : Record) (violations : List ConstraintOutcome) (s t : EngineState) : Prop where
  declared : engine.ir.entity? name = some entity
  prospect : ∃ usage last, engine.Prospect entity name s request judged usage ∧
    engine.violations entity judged usage = (.ok violations, last)
  clear : violations.any (·.isBlocking) = false
  stored : ∃ id, Record.id? record = some id ∧ Transaction.record? name id t = (.ok (some record), t)
  fields : judged.SameButId record
  whole : judged = record ↔ request.KeepsId name s judged

theorem Created.judges (created : engine.Created name data s record violations t) (inMemory : StoresInMemory s.stores) :
    ∃ entity judged, engine.Judged entity name (.create data) judged record violations s t := by
  have kept := create_inMemory created inMemory
  obtain ⟨id, own, held, _⟩ := created.placed
  cases created with
  | @intro entity _ planned _ _ _ _ _ _ declared _ _ completed found clear identified =>
      exact ⟨entity, planned, declared, ⟨_, _, .create completed, found⟩, clear,
        ⟨id, own, (Serves.of_held? kept held).record?⟩, Record.sameButId_identified identified,
        Record.eq_identified_iff identified⟩

theorem Updated.judges (updated : engine.Updated name id patch s record violations t)
    (inMemory : StoresInMemory s.stores) (inOrder : StoresInOrder s.stores) :
    ∃ entity judged, engine.Judged entity name (.update id patch) judged record violations s t := by
  cases updated with
  | @intro entity store existing plan _ _ declared opened serving found admitted =>
      obtain ⟨_, _, impossible⟩ | ⟨_, _, _, same, completed, _, judging, clear⟩ := planUpdate_cases admitted
      · cases impossible
      cases same
      have stood : Transaction.record? name id s = (.ok (some existing), s) :=
        (Serves.intro opened serving found).record?
      have own := (inMemory _ _ opened).keyed.id?_of_get? found
      refine ⟨entity, Fields.overlay existing plan, declared, ⟨_, _, .update stood completed, judging⟩, clear,
        ⟨id, (Record.id?_patched existing plan).trans own, (serves_put serving).record?⟩,
        Record.sameButId_patched existing plan, ?_, fun keeps => ?_⟩
      · intro same other again
        cases stood.symm.trans again
        rw [same, Record.get?_id_patched]
      · have ascending := (inOrder _ _ opened).get? found
        refine (ascending.overlay plan).ext (Record.ascending_patched ascending plan) fun key => ?_
        by_cases isId : key = "id"
        · rw [isId, keeps existing stood, Record.get?_id_patched]
        · exact Record.sameButId_patched existing plan key isId

-- The record that a write was judged on and the one that is stored and returned differ in the id at most, and not even
-- there if the judged one keeps its id. A check of the returned record in the same context is clear then, and it is
-- clear too where no constraint reads the id, if the constraints ask neither clock nor ids.
theorem judged_as_stored {request : WriteRequest} (inMemory : StoresInMemory s.stores)
    (inOrder : StoresInOrder s.stores)
    (ran : engine.write name request s = (.ok (.written record violations), t)) :
    ∃ entity judged, engine.Judged entity name request judged record violations s t ∧
      (judged = record ∧ (∀ constraint ∈ entity.constraints, constraint.AsksNothing) ∨
        (∀ constraint ∈ entity.constraints, constraint.PassesOverId) →
        ∀ u, ∃ outcomes after, engine.check name record u = (.ok outcomes, after) ∧
          outcomes.any (·.isBlocking) = false) := by
  have judges : ∃ entity judged, engine.Judged entity name request judged record violations s t := by
    cases request with
    | create data => exact (created_of_written ran).judges inMemory
    | update id patch => exact (updated_of_written ran).judges inMemory inOrder
  obtain ⟨entity, judged, judgement⟩ := judges
  obtain ⟨usage, last, _, found⟩ := judgement.prospect
  refine ⟨entity, judged, judgement, fun reads => ?_⟩
  refine check_of_judged judgement.declared found judgement.clear fun constraint member => ?_
  rcases reads with ⟨rfl, asksNothing⟩ | passesOverId
  · exact ⟨_, asksNothing constraint member, fun _ => (scope_data engine.context judged).shown⟩
  · exact ⟨_, passesOverId constraint member, fun _ => shown_butId judgement.fields⟩

-- A ticket with an id of its own is stored as it was judged.
theorem own_ticket_judged_as_stored :
    let free : Ir.Constraint := ⟨"free", "free", .binary "!=" (.identifier "id") (.literal (.string "fresh")), .block,
      none, [], false, none⟩
    let ticket : Ir.Entity := ⟨"Ticket", none, [], [], [], [], [free], [], none, none, []⟩
    let engine : Engine :=
      { ir := { version := "1.0", provenance := ⟨"", "", "", "", ""⟩, entities := [ticket] }
        around := ⟨fun _ => 0, fun _ => "fresh"⟩ }
    let state : EngineState := { stores := [("Ticket", {})] }
    let record : Record := [("id", .string "t")]
    let last := (engine.write "Ticket" (.create record) state).2
    StoresInMemory state.stores ∧ StoresInOrder state.stores ∧
    engine.write "Ticket" (.create record) state = (.ok (.written record []), last) ∧
    engine.Judged ticket "Ticket" (.create record) record record [] state last ∧
    ∃ outcomes after, engine.check "Ticket" record last = (.ok outcomes, after) ∧
      outcomes.any (·.isBlocking) = false := by
  intro free ticket engine state record last
  have inMemory : StoresInMemory state.stores := by
    intro name store opened
    cases List.mem_singleton.mp (Fields.mem_of_get? opened)
    exact ⟨rfl, .empty⟩
  have inOrder : StoresInOrder state.stores := by
    intro name store opened
    cases List.mem_singleton.mp (Fields.mem_of_get? opened)
    exact nofun
  have ran : engine.write "Ticket" (.create record) state = (.ok (.written record []), last) := rfl
  obtain ⟨entity, judged, judgement, checks⟩ := judged_as_stored inMemory inOrder ran
  cases judgement.declared
  have same : judged = record := by
    obtain ⟨_, _, prospect, _⟩ := judgement.prospect
    cases prospect with
    | create completed =>
        cases completed
        rfl
  subst same
  have asksNothing : ∀ constraint ∈ ticket.constraints, constraint.AsksNothing := by
    intro constraint member
    cases List.mem_singleton.mp member
    exact .binary _ (.path rfl trivial) (.literal _)
  exact ⟨inMemory, inOrder, ran, judgement, checks (.inl ⟨rfl, asksNothing⟩) last⟩

-- A ticket without an id is judged without one. The id that the store then gives it is the one that is not free.
theorem fresh_ticket_not_free :
    let free : Ir.Constraint := ⟨"free", "free", .binary "!=" (.identifier "id") (.literal (.string "fresh")), .block,
      none, [], false, none⟩
    let ticket : Ir.Entity := ⟨"Ticket", none, [], [], [], [], [free], [], none, none, []⟩
    let engine : Engine :=
      { ir := { version := "1.0", provenance := ⟨"", "", "", "", ""⟩, entities := [ticket] }
        around := ⟨fun _ => 0, fun _ => "fresh"⟩ }
    let state : EngineState := { stores := [("Ticket", {})] }
    let record : Record := [("id", .string "fresh")]
    let last := (engine.write "Ticket" (.create []) state).2
    engine.write "Ticket" (.create []) state = (.ok (.written record []), last) ∧ free.AsksNothing ∧
    engine.Judged ticket "Ticket" (.create []) [] record [] state last ∧
    ∃ outcomes after, engine.check "Ticket" record last = (.ok outcomes, after) ∧
      outcomes.any (·.isBlocking) = true := by
  intro free ticket engine state record last
  have asksNothing : free.AsksNothing := .binary _ (.path rfl trivial) (.literal _)
  have nameless : ¬ WriteRequest.KeepsId "Ticket" state [] (.create []) := fun ⟨_, named⟩ => nomatch named
  have judged : engine.Judged ticket "Ticket" (.create []) [] record [] state last :=
    ⟨rfl, ⟨_, _, .create rfl, rfl⟩, rfl, ⟨"fresh", rfl, rfl⟩, fun _ notId => (if_neg notId.symm).symm,
      iff_of_false nofun nameless⟩
  exact ⟨rfl, asksNothing, judged, _, _, rfl, rfl⟩

end Engine
end Charter
