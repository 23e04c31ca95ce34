import Charter.Proofs.Place
import Charter.Proofs.Version

/-!
What an update leaves as it was. One that is not written leaves all stores. One that is written leaves every other
record, the order of the store, and in the record itself the id and every property that it does not set.
-/

namespace Charter
open Stores

-- A property that takes what a patch says. The id stays, and the engine sets the version and the time of a write.
structure Ir.Entity.Ordinary (entity : Ir.Entity) (key : String) : Prop where
  notId : key ≠ "id"
  notVersion : entity.versionProperty ≠ some key
  notStamp : entity.versionAtProperty ≠ some key

namespace Engine
variable {engine : Engine} {entity : Ir.Entity} {name id key : String} {existing patch plan record fields : Record}
  {violations : List ConstraintOutcome} {start last : Usage} {s t : EngineState}

theorem ascending_nextVersion (ascending : Fields.Ascending patch)
    (completed : engine.nextVersion entity existing patch start = (.ok (.ok plan), last)) :
    Fields.Ascending plan := by
  obtain ⟨_, rfl⟩ | ⟨versioned, met, stamped⟩ := nextVersion_cases completed
  · exact ascending
  obtain rfl | ⟨version, value, _, rfl⟩ := Write.of_versioned met
  · exact ascending_stamped ascending stamped
  · exact ascending_stamped (ascending.place version value) stamped

theorem get?_nextVersion (ordinary : entity.Ordinary key)
    (completed : engine.nextVersion entity existing patch start = (.ok (.ok plan), last)) :
    Fields.get? plan key = Fields.get? patch key := by
  obtain ⟨_, rfl⟩ | ⟨versioned, met, stamped⟩ := nextVersion_cases completed
  · rfl
  rw [get?_stamped ordinary.notStamp stamped]
  obtain rfl | ⟨version, value, declared, rfl⟩ := Write.of_versioned met
  · rfl
  · rw [Fields.get?_place, if_neg fun same => ordinary.notVersion (declared.trans (congrArg some same))]

-- What a written update left: `record` stands where `existing` stood, and it is `existing` under the patch.
structure Revised (entity : Ir.Entity) (name id : String) (patch existing record : Record)
    (before after : EngineState) : Prop where
  rewritten : Rewritten before.stores after.stores name id existing record
  found : Transaction.record? name id before = (.ok (some existing), before)
  kept : Transaction.record? name id after = (.ok (some record), after)
  named : Fields.get? record "id" = Fields.get? existing "id"
  fields : ∀ key, entity.Ordinary key → Fields.get? record key = (Fields.get? patch key).or (Fields.get? existing key)

theorem Updated.revised (updated : engine.Updated name id patch s record violations t)
    (ascending : Fields.Ascending patch) :
    ∃ entity existing, engine.ir.entity? name = some entity ∧ Revised entity name id patch existing record s t := by
  cases updated with
  | @intro entity store existing plan _ _ declared opened serving found admitted =>
      obtain ⟨_, _, impossible⟩ | ⟨_, _, _, same, completed, _, _, _⟩ := planUpdate_cases admitted
      · cases impossible
      cases same
      refine ⟨entity, existing, declared, ?_, ?_, (serves_put serving).record?, Record.get?_id_patched existing plan,
        fun key ordinary => ?_⟩
      · exact rewritten_put opened (serving ▸ nofun) found _
      · exact (Serves.intro opened serving found).record?
      · have distinct := (ascending_nextVersion ascending completed).distinct
        rw [Record.get?_patched distinct existing ordinary.notId, get?_nextVersion ordinary completed]

-- An update changes nothing, or one record in its place.
theorem updates_framed {result : Except EngineError WriteOutcome} (ascending : Fields.Ascending patch)
    (ran : engine.update name id patch s = (result, t)) :
    (Unwritten result → t.stores = s.stores) ∧
      ∀ record violations, result = .ok (.written record violations) →
        ∃ entity existing, engine.ir.entity? name = some entity ∧
          Revised entity name id patch existing record s t ∧
          (∃ front back, Transaction.records name s = (.ok (front ++ existing :: back), s) ∧
            Transaction.records name t = (.ok (front ++ record :: back), t)) ∧
          ∀ owner other, (owner, other) ≠ (name, id) → held? t.stores owner other = held? s.stores owner other := by
  obtain ⟨still, unwritten⟩ | ⟨written, violations, rfl, updated⟩ := update_cases ran
  · exact ⟨fun _ => still.stores, fun record violations same => absurd same (unwritten record violations)⟩
  refine ⟨fun unwritten => absurd rfl (unwritten written violations), fun record _ same => ?_⟩
  cases same
  obtain ⟨entity, existing, declared, revised⟩ := updated.revised ascending
  exact ⟨entity, existing, declared, revised, revised.rewritten.records, fun _ _ => revised.rewritten.held?_other⟩

-- Of two drafts one gets a new title, and its first version with it.
theorem retitled_draft_framed :
    let draft : Ir.Entity := ⟨"Draft", none, [], [], [], [], [], [], some "version", none, []⟩
    let engine : Engine :=
      { ir := { version := "1.0", provenance := ⟨"", "", "", "", ""⟩, entities := [draft] }
        around := ⟨fun _ => 0, fun _ => "fresh"⟩ }
    let existing : Record := [("id", .string "a"), ("owner", .string "Ann"), ("title", .string "Plan")]
    let other : Record := [("id", .string "b"), ("title", .string "Note")]
    let patch : Record := [("id", .string "c"), ("title", .string "Plan 2")]
    let record : Record :=
      [("id", .string "a"), ("owner", .string "Ann"), ("title", .string "Plan 2"), ("version", .integer 1)]
    let store : Store := { shelf := ⟨[("a", existing), ("b", other)]⟩ }
    let state : EngineState := { stores := [("Draft", store)] }
    let last := state.insert "Draft" store "a" record
    Fields.Ascending patch ∧ engine.update "Draft" "a" patch state = (.ok (.written record []), last) ∧
      Revised draft "Draft" "a" patch existing record state last ∧ held? last.stores "Draft" "b" = some other := by
  intro draft engine existing other patch record store state last
  have ascending : Fields.Ascending patch := by decide
  have ran : engine.update "Draft" "a" patch state = (.ok (.written record []), last) := by
    subst last state store record patch other existing engine draft
    rfl
  obtain ⟨_, _, declared, revised, _, elsewhere⟩ := (updates_framed ascending ran).2 record [] rfl
  cases declared
  have found : Transaction.record? "Draft" "a" state = (.ok (some existing), state) := rfl
  cases revised.found.symm.trans found
  exact ⟨ascending, ran, revised, elsewhere "Draft" "b" (by decide)⟩

end Engine
end Charter
