import Charter.Proofs.Judgement
import Charter.Proofs.Record
import Charter.Proofs.Session
import Charter.Proofs.Steadiness

/-!
Constraints that block hold of every stored record, as far as they read nothing but its fields. The
record that was judged and the one that is stored differ in the id at most, and no such constraint can
tell them apart, in whatever context it is asked again.
-/

namespace Charter
open Engine

-- The fields of a record other than its id, by bare names or as members of the record.
def View.fields : View := fun root keys =>
  (root ∉ ["self", "this", "user", "context", "id"] ∧ keys = []) ∨
    ((root = "self" ∨ root = "this") ∧ ∃ key, key ≠ "id" ∧ keys = [key])

section Scope
variable {pairing : Pairing} {context context' : RequestContext} {record other : Record} {root : String}

theorem field_alike (same : record.SameButId other) (plain : root ∉ ["self", "this", "user", "context"])
    (notId : root ≠ "id") : Alike pairing ((context.scope (some (Record.values record))).resolve root)
      ((context'.scope (some (Record.values other))).resolve root) := by
  rw [RequestContext.resolve_scope_field_same context context' plain (same root notId)]
  exact (scope_data context' other).resolve root pairing

theorem member_alike (same : record.SameButId other) (whole : root = "self" ∨ root = "this") {key : String}
    (notId : key ≠ "id") : Alike pairing (((context.scope (some (Record.values record))).resolve root).member key)
      (((context'.scope (some (Record.values other))).resolve root).member key) := by
  rw [RequestContext.resolve_scope_member_same context context' whole (same key notId)]
  exact ((scope_data context' other).resolve root pairing).member key

theorem shown_fields (same : record.SameButId other) :
    Shown pairing View.fields (context.scope (some (Record.values record)))
      (context'.scope (some (Record.values other))) := by
  rintro root keys (⟨plain, rfl⟩ | ⟨whole, key, notId, rfl⟩)
  · have unreserved : root ∉ ["self", "this", "user", "context"] := fun member => plain (by simp_all)
    have notId : root ≠ "id" := fun isId => plain (by simp [isId])
    exact field_alike same unreserved notId
  · exact member_alike same whole notId

-- What asks nothing of the surroundings has the same truth in two scopes that show the same to it, whatever was taken
-- before.
theorem truth_of_shown {around : Surroundings} {view : View} {env env' : Environment} {e : Ir.Expression}
    {value : Value} {start last : Usage} (reads : Within False view e)
    (shown : ∀ pairing, Shown pairing view env env') (start' : Usage)
    (ran : evaluate around env e start = (.ok value, last)) :
    ∃ value' last', evaluate around env' e start' = (.ok value', last') ∧ value'.isTruthy = value.isTruthy := by
  -- Nothing is shared by the two runs, and each counts lambdas from where it begins.
  let pairing : Pairing := ⟨False, start.lambdas, start'.lambdas⟩
  have aligned : Aligned pairing start start' := ⟨Nat.le_refl _, Nat.add_comm _ _, nofun⟩
  have ended := @evaluate_together pairing view env env' around e reads (shown pairing) start start' aligned
  rw [ran] at ended
  cases there : evaluate around env' e start' with
  | mk result last' =>
      rw [there] at ended
      cases ended with
      | ok alike _ => exact ⟨_, last', rfl, alike.isTruthy.symm⟩

-- What reads nothing but fields other than the id has the same truth of records that differ in no other, in
-- any two contexts.
theorem truth_of_sameButId {around : Surroundings} {e : Ir.Expression} {value : Value} {start last : Usage}
    (reads : Within False View.fields e) (same : record.SameButId other) (context' : RequestContext)
    (start' : Usage)
    (ran : evaluate around (context.scope (some (Record.values record))) e start = (.ok value, last)) :
    ∃ value' last', evaluate around (context'.scope (some (Record.values other))) e start' = (.ok value', last') ∧
      value'.isTruthy = value.isTruthy := truth_of_shown reads (fun _ => shown_fields same) start' ran

end Scope

-- A constraint that blocks, and reads nothing but fields other than the id.
structure Ir.Constraint.OnFields (constraint : Ir.Constraint) : Prop where
  blocks : constraint.severity = .block
  reads : Within False View.fields constraint.expression

-- Every such constraint of an entity holds of a record, in any context and whatever was taken before.
def Ir.Entity.Suits (entity : Ir.Entity) (around : Surroundings) (record : Record) : Prop :=
  ∀ constraint ∈ entity.constraints, constraint.OnFields → ∀ (context : RequestContext) (start : Usage),
    ∃ value last, evaluate around (context.scope (some (Record.values record))) constraint.expression start =
      (.ok value, last) ∧ value.isTruthy = true

def StoresSuit (ir : Ir) (around : Surroundings) (stores : Fields Store) : Prop :=
  ∀ name entity store, ir.entity? name = some entity → Fields.get? stores name = some store →
    ∀ entry ∈ store.shelf.records, entity.Suits around entry.2

section Stores
variable {engine : Engine} {entity : Ir.Entity} {name : String} {planned kept : Record}
  {violations : List ConstraintOutcome} {start last : Usage} {s t : EngineState}

-- Writes are judged without overrides. So every constraint could be evaluated, and what blocks and is not violated was
-- found truthy.
theorem evaluated_of_judged (found : engine.violations entity planned start = (.ok violations, last))
    (clear : violations.any (·.isBlocking) = false) {constraint : Ir.Constraint}
    (member : constraint ∈ entity.constraints) :
    ∃ before value after, engine.evaluate (engine.context.scope (some (Record.values planned)))
      constraint.expression before = (.ok value, after) ∧ (constraint.severity = .block → value.isTruthy = true) := by
  obtain ⟨outcomes, _, judging, ended⟩ := Step.bind_eq_ok.mp found
  cases ended
  obtain ⟨before, outcome, after, judged, present⟩ := Step.each_result judging member
  have unblocked : outcome.isBlocking = false := by
    cases passed : outcome.passed with
    | true => simp [ConstraintOutcome.isBlocking, passed]
    | false =>
        have violated : outcome ∈ outcomes.filter (!·.passed) := List.mem_filter.mpr ⟨present, by simp [passed]⟩
        exact Bool.eq_false_iff.mpr (List.any_eq_false.mp clear outcome violated)
  obtain ⟨value, middle, evaluated, admitted⟩ := (judge_admits judged).mp unblocked
  refine ⟨before, value, middle, evaluated, fun blocks => (admitted blocks).resolve_right fun overridden => ?_⟩
  exact absurd overridden.1 List.not_mem_nil

theorem suits_of_judged (found : engine.violations entity planned start = (.ok violations, last))
    (clear : violations.any (·.isBlocking) = false) (same : planned.SameButId kept) :
    entity.Suits engine.around kept := by
  intro constraint member onFields context usage
  obtain ⟨before, value, after, evaluated, truthy⟩ := evaluated_of_judged found clear member
  obtain ⟨value', last', ran, truth⟩ := truth_of_sameButId onFields.reads same context usage evaluated
  exact ⟨value', last', ran, truth.trans (truthy onFields.blocks)⟩

theorem StoresSuit.put {ir : Ir} {around : Surroundings} {stores : Fields Store} {store : Store}
    (suit : StoresSuit ir around stores)
    (fresh : ∀ entity, ir.entity? name = some entity → ∀ entry ∈ store.shelf.records, entity.Suits around entry.2) :
    StoresSuit ir around (Fields.put stores name store) := by
  intro other entity found declared opened
  rw [Fields.get?_put] at opened
  by_cases same : name = other
  · rw [if_pos same] at opened
    cases opened
    exact fresh entity (same ▸ declared)
  · rw [if_neg same] at opened
    exact suit other entity found declared opened

theorem StoresSuit.insert {around : Surroundings} {store : Store} {id : String}
    (suit : StoresSuit engine.ir around s.stores) (declared : engine.ir.entity? name = some entity)
    (opened : Fields.get? s.stores name = some store) (suits : entity.Suits around kept) :
    StoresSuit engine.ir around (s.insert name store id kept).stores := by
  refine suit.put fun other again entry member => ?_
  cases declared.symm.trans again
  rcases Fields.mem_put member with rfl | old
  · exact suits
  · exact suit name entity store declared opened entry old

theorem create_suits {data record : Record}
    (created : engine.Created name data s record violations t)
    (suit : StoresSuit engine.ir engine.around s.stores) : StoresSuit engine.ir engine.around t.stores := by
  cases created with
  | @intro entity store planned kept id violations versioned judged named declared opened permitted completed
      found clear identified =>
      have suits := suits_of_judged found clear (Record.sameButId_identified identified)
      exact suit.insert declared opened suits

theorem update_suits : engine.UpdatesKeep (StoresSuit engine.ir engine.around) := by
  intro name id patch before record violations after updated suit
  cases updated with
  | @intro entity store existing plan violations planned declared opened serving found admitted =>
      obtain ⟨_, _, impossible⟩ | ⟨_, _, _, same, _, _, judged, clear⟩ := planUpdate_cases admitted
      · cases impossible
      cases same
      have suits := suits_of_judged judged clear (Record.sameButId_patched existing plan)
      exact suit.insert declared opened suits

theorem delete_suits {ir : Ir} {around : Surroundings} {id : String} {result : Except EngineError Bool}
    (ran : Transaction.deleteRecord name id s = (result, t)) (suit : StoresSuit ir around s.stores) :
    StoresSuit ir around t.stores := by
  obtain rfl | ⟨store, opened, rfl⟩ := Transaction.deleteRecord_cases ran
  · exact suit
  · refine suit.put fun entity declared entry member => ?_
    exact suit name entity store declared opened entry (Fields.mem_of_mem_erase member)

theorem clear_suits {ir : Ir} {around : Surroundings} {result : Except EngineError Unit}
    (ran : Transaction.clearRecords name s = (result, t)) (suit : StoresSuit ir around s.stores) :
    StoresSuit ir around t.stores := by
  obtain rfl | ⟨store, _, rfl⟩ := Transaction.clearRecords_cases ran
  · exact suit
  · exact suit.put fun _ _ _ member => absurd member List.not_mem_nil

theorem perform_suits (session : Session) (operation : Operation)
    (suit : StoresSuit session.engine.ir session.engine.around session.state.stores) :
    StoresSuit (session.perform operation).engine.ir (session.perform operation).engine.around
      (session.perform operation).state.stores := by
  cases operation with
  | create name data =>
      obtain ⟨still, _⟩ | ⟨_, _, _, created⟩ := create_cases (rfl : session.engine.create name data session.state = _)
      · exact still.stores ▸ suit
      · exact create_suits created suit
  | update name id patch => exact update_keeps update_suits rfl suit
  | run name input request => exact run_keeps update_suits name input request suit
  | delete name id => exact delete_suits rfl suit
  | clear name => exact clear_suits rfl suit
  | inContext context => exact suit

end Stores

-- From empty stores, whatever is asked of an engine in whatever contexts, every stored record meets each
-- constraint of its entity that blocks and reads nothing but fields other than the id.
theorem stored_records_suit (session : Session) (operations : List Operation)
    (empty : ∀ name store, Fields.get? session.state.stores name = some store → store.shelf.records = []) :
    let last := session.performAll operations
    StoresSuit last.engine.ir last.engine.around last.state.stores := by
  refine Session.performAll_keeps perform_suits operations ?_
  intro name entity store _ opened entry member
  rw [empty name store opened] at member
  cases member

-- The last update is refused: its title would be blank. The id of a patch does not move the record.
theorem titled_tasks_suit :
    let titled : Ir.Constraint := ⟨"titled", "titled", .identifier "title", .block, none, [], false, none⟩
    let task : Ir.Entity := ⟨"Task", none, [], [], [], [], [titled], [], none, none, []⟩
    let engine : Engine :=
      { ir := { version := "1.0", provenance := ⟨"", "", "", "", ""⟩, entities := [task] }
        around := ⟨fun _ => 0, fun _ => "fresh"⟩ }
    let session : Session := ⟨engine, { stores := [("Task", {})] }⟩
    let operations : List Operation := [
      .create "Task" [("title", .string "draft")],
      .update "Task" "fresh" [("id", .string "moved"), ("title", .string "final")],
      .update "Task" "fresh" [("title", .string "")]]
    let last := session.performAll operations
    (∀ name store, Fields.get? session.state.stores name = some store → store.shelf.records = []) ∧
    titled.OnFields ∧ last.state.stores.map (fun entry => entry.2.shelf.records.map (·.1)) = [["fresh"]] ∧
    StoresSuit last.engine.ir last.engine.around last.state.stores := by
  intro titled task engine session operations last
  have empty : ∀ name store, Fields.get? session.state.stores name = some store → store.shelf.records = [] := by
    intro name store opened
    change (if "Task" = name then some _ else none) = some store at opened
    split at opened
    · cases opened
      rfl
    · cases opened
  have onFields : titled.OnFields := ⟨rfl, .path rfl (.inl ⟨by decide, rfl⟩)⟩
  exact ⟨empty, onFields, by decide +kernel, stored_records_suit session operations empty⟩

end Charter
